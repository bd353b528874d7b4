import Gosmith.Text.Split

namespace Gosmith.Go

open Gosmith.Text

def keywords : List String :=
  ["break", "case", "chan", "const", "continue", "default", "defer", "else", "fallthrough", "for",
    "func", "go", "goto", "if", "import", "interface", "map", "package", "range", "return",
    "select", "struct", "switch", "type", "var"]

def isKeyword (name : String) : Bool :=
  keywords.contains name

def isNameStart (c : Char) : Bool :=
  c.isAlpha || c == '_'

def isNameChar (c : Char) : Bool :=
  c.isAlphanum || c == '_'

def isIdentifier (name : String) : Bool :=
  (match chomp name.toList with
    | [] => false
    | c :: rest => isNameStart c && rest.all isNameChar) && !isKeyword name

def words (cs : List Char) : List (List Char) :=
  (splitWhen (fun c => !c.isAlphanum) cs).filter (fun w => !w.isEmpty)

def isAllCaps (word : List Char) : Bool :=
  word.any Char.isUpper && !word.any Char.isLower

def capitalize : List Char → List Char
  | [] => []
  | c :: rest => c.toUpper :: rest.map Char.toLower

def upperFirst : List Char → List Char
  | [] => []
  | c :: rest => c.toUpper :: rest

def exportWord (word : List Char) : List Char :=
  if isAllCaps word then capitalize word else upperFirst word

/-- The exported spelling of a name: its words joined, each with an upper-case first letter. A word
in capitals, and a result in capitals, keeps only its first letter so. There is none without a
word. -/
def exported? (name : String) : Option String :=
  match words name.toList with
  | [] => none
  | ws =>
      let result := ws.flatMap exportWord
      some (String.ofList (if isAllCaps result then capitalize result else result))

def sanitize (cs : List Char) : List Char :=
  match cs.map (fun c => if isNameChar c then c else '_') with
  | [] => "pkg".toList
  | c :: rest => if c.isDigit then '_' :: c :: rest else c :: rest

def numbered (base : String) (n : Nat) : String :=
  base ++ n.repr

def firstFree (base : String) (used : List String) : Nat → Nat → String
  | 0, n => numbered base n
  | tries + 1, n =>
      if used.contains (numbered base n) then firstFree base used tries (n + 1) else numbered base n

/-- The name itself if it is free and no keyword, else the first free one of its numbered forms
from 2 on. One of the first `used.length + 1` forms is free. -/
def uniqueName (base : String) (used : List String) : String :=
  if used.contains base || isKeyword base then firstFree base used used.length 2 else base

end Gosmith.Go
