import Gosmith.Generator.Arrange
import Gosmith.Generator.Policy
import Gosmith.Go.SourceFile
import Gosmith.Template.Render

namespace Gosmith

open Gosmith.Go Gosmith.Journal

structure Generator where
  policy : Generator.Policy := {}
  options : Template.Options := {}
  engine : Template.Engine := Template.engine
  imports : Imports.Table := {}
  decls : List Declaration := []

namespace Generator

def new (policy : Policy) (options : Template.Options) (engine : Template.Engine) :
    Except Policy.Fault Generator := do
  policy.validate
  return { policy := policy, options := options, engine := engine }

inductive DeclareError where
  | render (e : Template.RenderError)
  | invalidGo (d : Diagnostic) (source : String)
  | dotImport (spec : ImportSpec) (source : String)
  | badImport (f : Imports.Fault)

namespace DeclareError

def onSource (message source : String) (line : Nat) : String :=
  Report.withExcerpt (Report.withDetails message (Report.lineDetail (some line)))
    (Report.excerpt source (some line) 2)

def report : DeclareError → String
  | render e => e.report
  | invalidGo d source =>
      onSource ("Template produced invalid Go code: " ++ d.fault.message) source d.pos.line
  | dotImport spec source =>
      onSource ("dot import of \"" ++ spec.path ++ "\" is not supported") source spec.line
  | badImport f => f.message

end DeclareError

structure Merge where
  imports : Imports.Table
  renames : List (String × String) := []
  paths : List (String × String) := []
  events : List Event := []

def localName (spec : ImportSpec) : Except Imports.Fault String :=
  match spec.name with
  | some name => .ok name
  | none => Imports.Table.defaultName spec.path

/-- Notes the name that an import got. If the snippet uses the name for another import too, neither
can be replaced. -/
def Merge.note (requested : List (String × String)) (m : Merge) (path name resolved : String) :
    Merge :=
  let first := (m.paths.lookup name).getD path
  let m := { m with paths := if (m.paths.lookup name).isSome then m.paths
                             else m.paths ++ [(name, path)] }
  if first ≠ path then
    { m with
      renames := Assoc.erase name m.renames
      events := m.events ++ [.ambiguousImport path name] }
  else if resolved = name then m
  else if (requested.lookup name).getD path ≠ path then
    { m with events := m.events ++ [.ambiguousImport path name] }
  else { m with renames := Assoc.set name resolved m.renames }

def mergeImports (requested : List (String × String)) (source : String) (m : Merge) :
    List ImportSpec → Except DeclareError Unit × Merge
  | [] => (.ok (), m)
  | spec :: rest =>
      if spec.name = some dotName then (.error (.dotImport spec source), m)
      else match m.imports.merge spec.path spec.name with
        | .error f => (.error (.badImport f), m)
        | .ok (resolved, imports, events) =>
            let m := { m with imports := imports, events := m.events ++ events }
            if spec.name = some blankName then mergeImports requested source m rest
            else match localName spec with
              | .error f => (.error (.badImport f), m)
              | .ok name =>
                  mergeImports requested source (m.note requested spec.path name resolved) rest

def numbered (base : Nat) : List Declaration → List Declaration
  | [] => []
  | d :: rest => { d with order := base } :: numbered (base + 1) rest

def absorb (g : Generator) (session : Template.Session) (source : String) :
    Except DeclareError Unit × Generator × List Event :=
  match SourceFile.ofSource source with
  | .error d => (.error (.invalidGo d source), g, [.failed "parse" d.report])
  | .ok file =>
      match mergeImports session.requested source { imports := session.imports } file.imports with
      | (.error e, m) => (.error e, g, m.events)
      | (.ok (), m) =>
          let decls := file.decls.map (·.renameQualifiers m.renames)
          (.ok (),
            { g with imports := m.imports, decls := g.decls ++ numbered g.decls.length decls },
            m.events ++ [.declared decls.length file.imports.length])

def rendering (g : Generator) (template data : Value) : Template.Rendering :=
  g.engine.render g.options true template data { imports := g.imports }

def declare (g : Generator) (template data : Value) :
    Except DeclareError Unit × Generator × List Event :=
  let r := g.rendering template data
  match r.result with
  | .error e =>
      let noted := if e.isNoted then [.failed "render" e.report] else []
      (.error (.render e), g, r.session.events ++ noted)
  | .ok source =>
      let (result, g, events) := g.absorb r.session source
      (result, g, r.session.events ++ events)

def arranged (g : Generator) : List Declaration :=
  let ds := if Policy.isOn g.policy.sortByKind then sortByKind g.decls else g.decls
  if Policy.isOn g.policy.groupMethods then groupMethods ds else ds

def render (g : Generator) : Except Document.Fault String := do
  let package ← Policy.packageText g.policy.packageName
  Document.render package g.imports.block g.arranged (Policy.isOn g.policy.blankLines)

def formatReport (f : Document.Fault) : String :=
  "Failed to format generated code: " ++ f.message

def write (g : Generator) : Except Document.Fault (String × Event) := do
  let text ← g.render
  return (text, .wrote text.utf8ByteSize g.decls.length g.imports.size)

inductive Payload where
  | text (s : String)
  | bytes (b : ByteArray)

structure Sink where
  takesText : Bool := true
  refusal : Payload → Option String := fun _ => none

def Sink.payload (sink : Sink) (text : String) : Payload :=
  if sink.takesText then .text text else .bytes text.toUTF8

inductive WriteError where
  | format (f : Document.Fault)
  | refused (message : String)

def writeTo (g : Generator) (sink : Sink) : Except WriteError (Payload × Event) :=
  match g.write with
  | .error f => .error (.format f)
  | .ok (text, event) =>
      match sink.refusal (sink.payload text) with
      | some message => .error (.refused message)
      | none => .ok (sink.payload text, event)

end Generator

end Gosmith
