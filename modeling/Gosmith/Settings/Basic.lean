import Gosmith.Generator.Policy
import Gosmith.Settings.Json
import Gosmith.Settings.Yaml
import Gosmith.Template.Engine

namespace Gosmith

structure TemplateSettings where
  trimBlocks : Value := .bool true
  lstripBlocks : Value := .bool true
  keepTrailingNewline : Value := .bool true

def TemplateSettings.options (t : TemplateSettings) : Template.Options :=
  { trimBlocks := Generator.Policy.isOn t.trimBlocks
    lstripBlocks := Generator.Policy.isOn t.lstripBlocks
    keepTrailingNewline := Generator.Policy.isOn t.keepTrailingNewline }

structure LoggingSettings where
  level : Value := .text "INFO"
  toFile : Value := .bool false
  file : Value := .text "idlgen.log"

structure Settings where
  file : String
  generation : Generator.Policy := {}
  template : TemplateSettings := {}
  logging : LoggingSettings := {}

namespace Settings

inductive Fault where
  | notMapping (file kind : String)
  | sectionNotMapping (name : String)
  | notFlag (option : String) (value : Value)
  | policy (f : Generator.Policy.Fault)

namespace Fault

def message : Fault → String
  | notMapping file _ => "Configuration file " ++ file ++ " must contain a mapping"
  | sectionNotMapping name => "Configuration section '" ++ name ++ "' must be a mapping"
  | notFlag option value =>
      "Option '" ++ option ++ "' must be true or false, got " ++ value.quoted
  | policy f => f.message

def details : Fault → List (String × Value)
  | notMapping _ kind => [("type", .text kind)]
  | sectionNotMapping _ => []
  | notFlag option _ => [("field", .text option)]
  | policy f => f.details

end Fault

def section? (data : Value) (name : String) : Except Fault Value :=
  match data.get? name with
  | none => .ok (.mapping [])
  | some (.mapping entries) => .ok (.mapping entries)
  | some _ => .error (.sectionNotMapping name)

def flag (data : Value) (option : String) (default : Bool) : Except Fault Value :=
  match (data.get? option).getD (.bool default) with
  | .bool b => .ok (.bool b)
  | v => .error (.notFlag option v)

def override (env : Option String) (v : Value) : Value :=
  match env with
  | none => v
  | some s => if s.isEmpty then v else .text s

structure Overrides where
  packageName : Option String := none
  level : Option String := none

def readGeneration (env : Overrides) (data : Value) : Except Fault Generator.Policy := do
  let data ← section? data "generation"
  let policy : Generator.Policy :=
    { packageName := override env.packageName ((data.get? "package_name").getD (.text "gen"))
      blankLines := ← flag data "blank_lines_between_decls" true
      sortByKind := ← flag data "sort_by_kind" false
      groupMethods := ← flag data "group_methods" false }
  match policy.validate with
  | .ok () => return policy
  | .error f => throw (.policy f)

def readTemplate (data : Value) : Except Fault TemplateSettings := do
  let data ← section? data "template"
  return { trimBlocks := ← flag data "trim_blocks" true
           lstripBlocks := ← flag data "lstrip_blocks" true
           keepTrailingNewline := ← flag data "keep_trailing_newline" true }

def readLogging (env : Overrides) (data : Value) : Except Fault LoggingSettings := do
  let data ← section? data "logging"
  return { level := override env.level ((data.get? "level").getD (.text "INFO"))
           toFile := ← flag data "enable_file_logging" false
           file := (data.get? "log_file").getD (.text "idlgen.log") }

def ofData (file : String) (env : Overrides) (data : Value) : Except Fault Settings := do
  return { file := file
           generation := ← readGeneration env data
           template := ← readTemplate data
           logging := ← readLogging env data }

/-- What texts are read with: a reader for YAML, and what is said of a text that is not read. -/
structure Readers where
  yaml : String → Option Value := Yaml.parse?
  complaint : String → String → String := fun file _ => file ++ " cannot be read"

def parseText? (r : Readers) (file text : String) : Option Value :=
  if isYaml file then r.yaml text else Json.parse? text
where
  isYaml (file : String) : Bool :=
    let name := (file.toList.reverse.takeWhile (· != '/')).reverse
    let ending := (name.reverse.takeWhile (· != '.')).reverse
    let stem := name.length - ending.length
    1 < stem && ["yaml", "yml"].contains (String.ofList (ending.map Char.toLower))

def toValue (s : Settings) : Value :=
  let entries (es : List (String × Value)) : Value := .mapping (es.map fun (k, v) => (.text k, v))
  entries
    [("version", .text "1.0"),
      ("generation", entries
        [("package_name", s.generation.packageName),
          ("blank_lines_between_decls", s.generation.blankLines),
          ("sort_by_kind", s.generation.sortByKind),
          ("group_methods", s.generation.groupMethods)]),
      ("template", entries
        [("trim_blocks", s.template.trimBlocks),
          ("lstrip_blocks", s.template.lstripBlocks),
          ("keep_trailing_newline", s.template.keepTrailingNewline)]),
      ("logging", entries
        [("level", s.logging.level),
          ("enable_file_logging", s.logging.toFile),
          ("log_file", s.logging.file)])]

def text (s : Settings) : String :=
  Json.render 0 s.toValue

end Settings

end Gosmith
