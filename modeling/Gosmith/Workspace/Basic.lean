import Gosmith.Generator.Basic
import Gosmith.Journal.Log
import Gosmith.Settings.Basic
import Gosmith.Workspace.Path

namespace Gosmith

open Gosmith.Journal Gosmith.Text

-- settings are known by their number, so that a generator shares its policy with those it has
structure Workspace where
  cwd : Place := []
  files : List (Place × String) := []
  dirs : List Place := []
  env : List (String × String) := []
  readers : Settings.Readers := {}
  engine : Template.Engine := Template.engine
  settings : List Settings := []
  current : Option Nat := none
  default? : Option Nat := none
  generator : Option (Generator × Nat) := none
  log : Log := {}
  records : List Record := []

namespace Workspace

inductive Fault where
  | settings (f : Settings.Fault)
  | levelNotText (kind : String)
  | level (f : LevelFault)
  | pathNotText (kind : String)
  | isDirectory (path : String)
  | notDirectory (path : String)
  | noFile (path : String)
  | nothingInUse

def Fault.message : Fault → String
  | settings f => Report.withDetails f.message f.details
  | levelNotText kind => "'" ++ kind ++ "' object has no attribute 'upper'"
  | level f => f.message
  | pathNotText kind => "expected str, bytes or os.PathLike object, not " ++ kind
  | isDirectory path => "[Errno 21] Is a directory: " ++ quoted path
  | notDirectory path => "[Errno 20] Not a directory: " ++ quoted path
  | noFile path => "[Errno 2] No such file or directory: " ++ quoted path
  | nothingInUse => "no settings in use"

def hasDir (w : Workspace) (p : Place) : Bool :=
  p.isPrefixOf w.cwd || w.dirs.any p.isPrefixOf || w.files.any fun f => p.isPrefixOf f.1.dropLast

def fileAt? (w : Workspace) (p : Place) : Option String :=
  w.files.lookup p

/-- Follows a path, and stops at the first place on the way that is no directory. -/
def walk (w : Workspace) : Place → List (List Char) → Except Place Place
  | p, [] => .ok p
  | p, part :: rest => if w.hasDir p then w.walk (Path.move p part) rest else .error p

def resolve (w : Workspace) (path : String) : Except Place Place :=
  w.walk (Path.start w.cwd path) (Path.parts path)

def place (w : Workspace) (path : String) : Place :=
  Path.place w.cwd path

def isDir (w : Workspace) (path : String) : Bool :=
  (w.resolve path).toOption.any w.hasDir

def file? (w : Workspace) (path : String) : Option String :=
  (w.resolve path).toOption.bind w.fileAt?

def pathExists (w : Workspace) (path : String) : Bool :=
  w.isDir path || (w.file? path).isSome

def opened (w : Workspace) (path : String) : Except Fault Place :=
  match w.resolve path with
  | .error p => .error (if (w.fileAt? p).isSome then .notDirectory path else .noFile path)
  | .ok p => if w.hasDir p then .error (.isDirectory path) else .ok p

def contents (w : Workspace) (path : String) : Except Fault String := do
  match w.fileAt? (← w.opened path) with
  | some text => return text
  | none => throw (.noFile path)

def contentLines (w : Workspace) (path : String) : Except Fault (List String) := do
  let text ← w.contents path
  return (lines text).dropLast

def putAt (w : Workspace) (p : Place) (text : String) : Workspace :=
  { w with files := Assoc.set p text w.files }

def appendAt (w : Workspace) (p : Place) (text : String) : Workspace :=
  w.putAt p ((w.fileAt? p).getD "" ++ text)

-- a record that cannot be written is lost
def appendTo (w : Workspace) (path text : String) : Workspace :=
  match w.opened path with
  | .error _ => w
  | .ok p => w.appendAt p text

def record (w : Workspace) (r : Record) : Workspace :=
  let w := if w.log.accepts r then { w with records := w.records ++ [r] } else w
  (w.log.filesFor r).foldl (fun w path => w.appendTo path (Log.recordText r ++ "\n")) w

def report (w : Workspace) (events : List Event) : Workspace :=
  events.foldl (fun w e => w.record e.record) w

def env? (w : Workspace) (name : String) : Option String :=
  w.env.lookup name

-- without a level in the settings, the environment names it
def levelOf (w : Workspace) : Value → Except Fault Int
  | .text name => (Level.ofName name).mapError .level
  | .null => (Level.ofName ((w.env? "IDLGEN_LOG_LEVEL").getD "INFO")).mapError .level
  | v => .error (.levelNotText v.kindName)

-- what was set up before a fault stays
def setupLog (w : Workspace) (level file : Value) : Except Fault Unit × Workspace :=
  match w.levelOf level with
  | .error f => (.error f, w)
  | .ok n =>
      let w := { w with log := Log.configured n none }
      if !Generator.Policy.isOn file then (.ok (), w)
      else match file with
        | .text name =>
            let path := Path.text (w.place name)
            match w.opened path with
            | .error f => (.error f, w)
            | .ok p => (.ok (), { w.appendAt p "" with log := Log.configured n (some path) })
        | v => (.error (.pathNotText v.kindName), w)

def defaultFile (w : Workspace) : String :=
  let named (name : String) : String := Path.normal (Path.text (w.cwd ++ [name]))
  if w.pathExists (named "idlgen.yaml") then named "idlgen.yaml" else named "idlgen.json"

def isGiven (name : Option String) : Option String :=
  match name with
  | some s => if s.isEmpty then none else some s
  | none => none

def settingsFile (w : Workspace) (file : Option String) : String :=
  match (isGiven file).or (isGiven (w.env? "IDLGEN_CONFIG")) with
  | some path => Path.normal path
  | none => w.defaultFile

-- a file that is missing or cannot be read counts as empty
def settingsData (w : Workspace) (file : String) : Except Settings.Fault Value × List Event :=
  if !w.pathExists file then (.ok (.mapping []), [.settingsAbsent file])
  else match w.contents file with
    | .error f => (.ok (.mapping []), [.settingsUnreadable f.message])
    | .ok text =>
        let text := String.ofList (unifyNewlines text.toList)
        match Settings.parseText? w.readers file text with
        | none => (.ok (.mapping []), [.settingsUnreadable (w.readers.complaint file text)])
        | some .null => (.ok (.mapping []), [])
        | some (.mapping entries) => (.ok (.mapping entries), [.settingsLoaded file])
        | some v => (.error (.notMapping file v.kindName), [])

def overrides (w : Workspace) : Settings.Overrides :=
  { packageName := w.env? "IDLGEN_PACKAGE_NAME", level := w.env? "IDLGEN_LOG_LEVEL" }

def makeSettings (w : Workspace) (file : Option String) : Except Fault Nat × Workspace :=
  let path := w.settingsFile file
  let (data, events) := w.settingsData path
  let w := w.report events
  match data.bind (Settings.ofData path w.overrides) with
  | .error f => (.error (.settings f), w)
  | .ok s => (.ok w.settings.length, { w with settings := w.settings ++ [s] })

def load (w : Workspace) (file : Option String) : Except Fault Settings × Workspace :=
  match w.makeSettings file with
  | (.error f, w) => (.error f, w)
  | (.ok i, w) =>
      ((w.settings[i]?).elim (.error .nothingInUse) .ok, { w with current := some i })

def inUse (w : Workspace) : Except Fault (Nat × Settings) :=
  match w.current.bind fun i => (w.settings[i]?).map fun s => (i, s) with
  | some r => .ok r
  | none => .error .nothingInUse

def replace (w : Workspace) (i : Nat) (s : Settings) : Workspace :=
  { w with settings := w.settings.set i s }

def modify (w : Workspace) (f : Settings → Settings) : Workspace :=
  match w.inUse with
  | .ok (i, s) => w.replace i (f s)
  | .error _ => w

def save (w : Workspace) : Except Fault Unit × Workspace :=
  match w.inUse with
  | .error f => (.error f, w)
  | .ok (_, s) =>
      match w.opened s.file with
      | .error f => (.error f, w)
      | .ok p => (.ok (), (w.putAt p s.text).report [.settingsSaved s.file])

def defaultSettings (w : Workspace) : Except Fault Nat × Workspace :=
  match w.default? with
  | some i => (.ok i, w)
  | none =>
      match w.makeSettings none with
      | (.error f, w) => (.error f, w)
      | (.ok i, w) => (.ok i, { w with default? := some i })

def startGenerator (w : Workspace) (i : Nat) (s : Settings) : Except Fault Unit × Workspace :=
  let file := if Generator.Policy.isOn s.logging.toFile then s.logging.file else .null
  match w.setupLog s.logging.level file with
  | (.error f, w) => (.error f, w)
  | (.ok (), w) =>
      match Generator.new s.generation s.template.options w.engine with
      | .error f => (.error (.settings (.policy f)), w)
      | .ok g => (.ok (), { w with generator := some (g, i) })

def create (w : Workspace) (useCurrent : Bool) : Except Fault Unit × Workspace :=
  let (chosen, w) := match useCurrent, w.current with
    | true, some i => (Except.ok i, w)
    | _, _ => w.defaultSettings
  match chosen with
  | .error f => (.error f, w)
  | .ok i =>
      match w.settings[i]? with
      | some s => w.startGenerator i s
      | none => (.error .nothingInUse, w)

def generator? (w : Workspace) : Option Generator := do
  let (g, i) ← w.generator
  let s ← w.settings[i]?
  return { g with policy := s.generation }

def putGenerator (w : Workspace) (g : Generator) : Workspace :=
  match w.generator with
  | some (_, i) =>
      let w := match w.settings[i]? with
        | some s => w.replace i { s with generation := g.policy }
        | none => w
      { w with generator := some (g, i) }
  | none => w

end Workspace

end Gosmith
