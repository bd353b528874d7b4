import Gosmith.Journal.Event
import Gosmith.Text.Brace
import Gosmith.Text.Case
import Gosmith.Text.Quoted
import Gosmith.Text.Split

namespace Gosmith.Journal

open Gosmith.Text

inductive Named where
  | level (n : Int)
  | pattern
  | styles
deriving DecidableEq, Repr

def Level.named (name : String) : Named :=
  match upper name with
  | "DEBUG" => .level debug
  | "INFO" => .level info
  | "WARN" => .level warning
  | "WARNING" => .level warning
  | "ERROR" => .level error
  | "CRITICAL" => .level critical
  | "FATAL" => .level critical
  | "NOTSET" => .level unset
  | "BASIC_FORMAT" => .pattern
  | "_STYLES" => .styles
  | _ => .level info

inductive LevelFault where
  | pattern
  | styles
deriving DecidableEq, Repr

def LevelFault.message : LevelFault → String
  | pattern => "Unknown level: '%(levelname)s:%(name)s:%(message)s'"
  | styles =>
      let fields (mark : String) : String :=
        ":".intercalate (["levelname", "name", "message"].map fun name => mark ++ braced name)
      "Level not an integer or a valid string: " ++ braced
        ("'%': (<class 'logging.PercentStyle'>, '%(levelname)s:%(name)s:%(message)s'), '" ++
          braceOpen ++ "': (<class 'logging.StrFormatStyle'>, '" ++ fields "" ++
          "'), '$': (<class 'logging.StringTemplateStyle'>, '" ++ fields "$" ++ "')")

def Level.ofName (name : String) : Except LevelFault Int :=
  match Level.named name with
  | .level n => .ok n
  | .pattern => .error .pattern
  | .styles => .error .styles

inductive Output where
  | console
  | file (path : String)
deriving DecidableEq, Repr

structure Handler where
  output : Output
  level : Int
deriving DecidableEq, Repr

structure Log where
  level : Int := Level.debug
  handlers : List Handler := []

namespace Log

def threshold (l : Log) : Int :=
  if l.level = Level.unset then Level.warning else l.level

def accepts (l : Log) (r : Record) : Bool :=
  0 < r.level && l.threshold ≤ r.level

def recordText (r : Record) : String :=
  "<time> - " ++ r.source ++ " - " ++ Level.name r.level ++ " - " ++ r.text

def filesFor (l : Log) (r : Record) : List String :=
  if l.accepts r then
    l.handlers.filterMap fun h =>
      match h.output with
      | .console => none
      | .file path => if h.level ≤ r.level then some path else none
  else []

def configured (level : Int) (file : Option String) : Log :=
  { level := level
    handlers := ⟨.console, level⟩ :: (file.map fun path => ⟨.file path, level⟩).toList }

end Log

def sourceName (name : String) : String :=
  if name = "idlgen" || "idlgen.".toList.isPrefixOf name.toList then name else "idlgen." ++ name

end Gosmith.Journal
