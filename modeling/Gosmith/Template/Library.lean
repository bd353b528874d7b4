import Gosmith.Assoc
import Gosmith.Template.Call
import Gosmith.Template.Operators
import Gosmith.Template.Session
import Gosmith.Text.Case

namespace Gosmith.Template

open Gosmith.Imports Gosmith.Journal

def functions (tracked : Bool) : List (String × Builtin) :=
  [("go_case", .goCase),
    ("import", if tracked then .trackedImport else .importPath),
    ("def_name", .defName),
    ("type_reference", .typeReference),
    ("Required", .markRequired),
    ("Optional", .markOptional),
    ("required", .markFlag)]

def signature : Builtin → Signature
  | .goCase => { function := "go_case", params := [⟨"name", none⟩] }
  | .importPath =>
      { function := "Importer.request", implicit := ["self"], params := [⟨"path", none⟩] }
  | .trackedImport =>
      { function := "Generator.declare_from_template.<locals>.tracked_import",
        params := [⟨"path", none⟩] }
  | .defName => { function := "type_decl_name", params := [⟨"spec", none⟩] }
  | .typeReference =>
      { function := "type_reference", params := [⟨"spec", none⟩, ⟨"required", none⟩] }
  | .markRequired => { function := "build_template_functions.<locals>.<lambda>", params := [] }
  | .markOptional => { function := "build_template_functions.<locals>.<lambda>", params := [] }
  | .markFlag =>
      { function := "FieldRequired.from_bool", implicit := ["cls"],
        params := [⟨"required", none⟩] }
  | .method name => { function := name, params := [] }

def goCase : Value → Except Failure Value
  | .text s =>
      match Go.exported? s with
      | some t => .ok (.text t)
      | none => .error (.spec (.unnameable s))
  | v => .error (.notText v.kindName)

def presenceOfFlag : Value → Except Failure Presence
  | .bool b => .ok (if b then .required else .optional)
  | v => .error (.notFlag v.kindName)

def ofSpecText : Except TypeSpec.Fault String → Except Failure Value
  | .ok s => .ok (.text s)
  | .error e => .error (.spec e)

def defName (v : Value) : Except Failure Value :=
  ofSpecText v.toSpec.declName

def typeReference (v : Value) : Value → Except Failure Value
  | .presence p => ofSpecText (v.toSpec.reference p)
  | w => .error (.notPresence w.kindName)

def requestImport (tracked : Bool) : Value → Run Value
  | .text path => do
      let s ← get
      match s.toSession.request tracked path with
      | .error e => Run.fail (.badPath e)
      | .ok (name, session) =>
          set { s with toSession := session }
          return .text name
  | v => Run.fail (.pathNotText v.kindName)

def runBuiltin : Builtin → List Value → Run Value
  | .goCase, [v] => .ofExcept (goCase v)
  | .importPath, [v] => requestImport false v
  | .trackedImport, [v] => requestImport true v
  | .defName, [v] => .ofExcept (defName v)
  | .typeReference, [v, w] => .ofExcept (typeReference v w)
  | .markRequired, _ => return .presence .required
  | .markOptional, _ => return .presence .optional
  | .markFlag, [v] => .ofExcept ((presenceOfFlag v).map .presence)
  | f, _ => Run.fail (.notCallable (Value.function f).kindName)

def callBuiltin (f : Builtin) (args : List Value) (named : List (String × Value)) : Run Value := do
  runBuiltin f (← Run.ofExcept ((signature f).bind args named))

def loopSignature : Signature :=
  { function := "LoopContext.__call__", implicit := ["self"], params := [⟨"iterable", none⟩] }

def call (f : Value) (args : List Value) (named : List (String × Value)) : Run Value :=
  match f with
  | .function b => callBuiltin b args named
  | .loop _ => do
      let _ ← Run.ofExcept (loopSignature.bind args named)
      Run.fail .notRecursive
  | .undefined u => Run.fail (.undefined u.missing)
  | v => Run.fail (.notCallable v.kindName)

inductive Filter where
  | goCase | length | upper | lower | join | default
deriving DecidableEq, Repr

def Filter.ofName? : String → Option Filter
  | "go_case" => some goCase
  | "length" => some length
  | "count" => some length
  | "upper" => some upper
  | "lower" => some lower
  | "join" => some join
  | "default" => some default
  | "d" => some default
  | _ => none

def memberPath : Value → List Value
  | .text s =>
      (Text.splitWhen (· == '.') s.toList).map fun part =>
        match if part.all Char.isDigit then (String.ofList part).toNat? else none with
        | some n => .int n
        | none => .text (String.ofList part)
  | v => [v]

def follow (v : Value) : List Value → Except Failure Value
  | [] => .ok v
  | key :: rest => do follow (← element v key) rest

def joined (v sep path : Value) : Except Failure Value := do
  match path with
  | .null =>
      let sep ← printed sep
      let parts ← (← iterate v).mapM printed
      return .text (sep.intercalate parts)
  | path =>
      let items ← iterate v
      let sep ← printed sep
      let parts ← items.mapM fun item => do printed (← follow item (memberPath path))
      return .text (sep.intercalate parts)

def orDefault (v other onFalse : Value) : Except Failure Value := do
  match v with
  | .undefined _ => return other
  | v =>
      if ← isTrue onFalse then
        if ← isTrue v then return v else return other
      else return v

def Filter.signature : Filter → Signature
  | goCase => Template.signature .goCase
  | length => { function := "len", params := [⟨"obj", none⟩] }
  | upper => { function := "do_upper", params := [⟨"s", none⟩] }
  | lower => { function := "do_lower", params := [⟨"s", none⟩] }
  | join =>
      { function := "sync_do_join", implicit := ["eval_ctx"],
        params := [⟨"value", none⟩, ⟨"d", some (.text "")⟩, ⟨"attribute", some .null⟩] }
  | default =>
      { function := "do_default",
        params :=
          [⟨"value", none⟩, ⟨"default_value", some (.text "")⟩, ⟨"boolean", some (.bool false)⟩] }

def Filter.bind (f : Filter) (args : List Value) (named : List (String × Value)) :
    Except Failure (List Value) :=
  match f with
  | length =>
      if !named.isEmpty then .error (.badCall "len" .noNames)
      else if args.length ≠ 1 then .error (.badCall "len" (.exactlyOne args.length))
      else .ok args
  | f => f.signature.bind args named

def Filter.apply (f : Filter) (args : List Value) (named : List (String × Value)) :
    Except Failure Value := do
  match f, ← f.bind args named with
  | goCase, [v] => Template.goCase v
  | length, [v] => return .int (← Template.length v)
  | upper, [v] => return .text (Text.upper (← printed v))
  | lower, [v] => return .text (Text.lower (← printed v))
  | join, [v, sep, path] => joined v sep path
  | default, [v, other, onFalse] => orDefault v other onFalse
  | _, _ => return .null

inductive Test where
  | defined | undefined | null
deriving DecidableEq, Repr

def Test.ofName? : String → Option Test
  | "defined" => some defined
  | "undefined" => some undefined
  | "none" => some null
  | _ => none

def Test.signature : Test → Signature
  | defined => { function := "test_defined", params := [⟨"value", none⟩] }
  | undefined => { function := "test_undefined", params := [⟨"value", none⟩] }
  | null => { function := "test_none", params := [⟨"value", none⟩] }

def Test.apply (t : Test) (args : List Value) (named : List (String × Value)) :
    Except Failure Value := do
  match t, ← t.signature.bind args named with
  | defined, [.undefined _] => return .bool false
  | defined, _ => return .bool true
  | undefined, [.undefined _] => return .bool true
  | undefined, _ => return .bool false
  | null, [.null] => return .bool true
  | null, _ => return .bool false

end Gosmith.Template
