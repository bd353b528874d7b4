namespace Gosmith.Journal

namespace Level

def debug : Int := 10

def info : Int := 20

def warning : Int := 30

def error : Int := 40

def critical : Int := 50

def unset : Int := 0

def name (level : Int) : String :=
  if level = critical then "CRITICAL"
  else if level = error then "ERROR"
  else if level = warning then "WARNING"
  else if level = info then "INFO"
  else if level = debug then "DEBUG"
  else if level = unset then "NOTSET"
  else "Level " ++ level.repr

end Level

inductive Event where
  | declared (decls imports : Nat)
  | nameTaken (path wanted resolved : String)
  | ambiguousImport (path name : String)
  | failed (stage reason : String)
  | wrote (bytes decls imports : Nat)
  | settingsAbsent (file : String)
  | settingsUnreadable (cause : String)
  | settingsLoaded (file : String)
  | settingsSaved (file : String)
deriving DecidableEq, Repr

namespace Event

def level : Event → Int
  | declared _ _ => Level.debug
  | nameTaken _ _ _ => Level.debug
  | ambiguousImport _ _ => Level.warning
  | failed _ _ => Level.debug
  | wrote _ _ _ => Level.info
  | settingsAbsent _ => Level.debug
  | settingsUnreadable _ => Level.error
  | settingsLoaded _ => Level.info
  | settingsSaved _ => Level.info

def source : Event → String
  | nameTaken _ _ _ => "idlgen.codegen.importer"
  | settingsAbsent _ => "idlgen.utils.config"
  | settingsUnreadable _ => "idlgen.utils.config"
  | settingsLoaded _ => "idlgen.utils.config"
  | settingsSaved _ => "idlgen.utils.config"
  | _ => "idlgen.codegen.generator"

def text : Event → String
  | declared decls imports =>
      "Declared " ++ decls.repr ++ " declaration(s) and merged " ++ imports.repr ++
        " literal import(s)"
  | nameTaken path wanted resolved =>
      "Import alias '" ++ wanted ++ "' for \"" ++ path ++ "\" is taken, using '" ++ resolved ++ "'"
  | ambiguousImport path name =>
      "Literal import \"" ++ path ++ "\" uses name '" ++ name ++
        "' which the same template also binds to another import; references to '" ++ name ++
        "' are left as written"
  | failed stage reason => "Declaration failed during " ++ stage ++ ": " ++ reason
  | wrote bytes decls imports =>
      "Wrote " ++ bytes.repr ++ " bytes (" ++ decls.repr ++ " declarations, " ++ imports.repr ++
        " imports)"
  | settingsAbsent file => "Configuration file " ++ file ++ " not found, using defaults"
  | settingsUnreadable cause => "Failed to load configuration: " ++ cause
  | settingsLoaded file => "Loaded configuration from " ++ file
  | settingsSaved file => "Configuration saved to " ++ file

end Event

structure Record where
  level : Int
  source : String
  text : String
deriving DecidableEq, Repr

def Event.record (e : Event) : Record :=
  ⟨e.level, e.source, e.text⟩

end Gosmith.Journal
