import Gosmith.Text.Brace
import Gosmith.Text.Escape
import Gosmith.Text.Split
import Gosmith.Value.Basic

namespace Gosmith.Settings.Json

open Gosmith.Text

def unit (n : Nat) : List Char :=
  '\\' :: 'u' :: hexDigits 4 n

def escaped (n : Nat) : List Char :=
  if n < 0x10000 then unit n
  else unit (0xd800 + (n - 0x10000) / 0x400) ++ unit (0xdc00 + (n - 0x10000) % 0x400)

def charText (c : Char) : List Char :=
  match c with
  | '"' => ['\\', '"']
  | '\\' => ['\\', '\\']
  | '\n' => ['\\', 'n']
  | '\r' => ['\\', 'r']
  | '\t' => ['\\', 't']
  | c =>
      if c.toNat = 8 then ['\\', 'b']
      else if c.toNat = 12 then ['\\', 'f']
      else if 0x20 ≤ c.toNat ∧ c.toNat < 0x7f then [c]
      else escaped c.toNat

def textText (s : String) : String :=
  String.ofList ('"' :: s.toList.flatMap charText ++ ['"'])

def newline (depth : Nat) : String :=
  "\n" ++ String.ofList (List.replicate (2 * depth) ' ')

def bracketed (left right : String) (depth : Nat) (parts : List String) : String :=
  if parts.isEmpty then left ++ right
  else left ++ newline (depth + 1) ++ ("," ++ newline (depth + 1)).intercalate parts ++
    newline depth ++ right

def floatText (x : Float) : String :=
  if x.isNaN then "NaN"
  else if x.isInf then if Floating.isNegative x then "-Infinity" else "Infinity"
  else (Value.float x).quoted

def keyText : Value → String
  | .text s => textText s
  | .float x => textText (floatText x)
  | .bool b => if b then "\"true\"" else "\"false\""
  | .null => "\"null\""
  | v => "\"" ++ v.quoted ++ "\""

mutual

def render (depth : Nat) : Value → String
  | .null => "null"
  | .bool b => if b then "true" else "false"
  | .text s => textText s
  | .float x => floatText x
  | .list items => bracketed "[" "]" depth (renderItems (depth + 1) items)
  | .tuple items => bracketed "[" "]" depth (renderItems (depth + 1) items)
  | .mapping entries => bracketed braceOpen braceClose depth (renderEntries (depth + 1) entries)
  | v => v.quoted

def renderItems (depth : Nat) : List Value → List String
  | [] => []
  | v :: rest => render depth v :: renderItems depth rest

def renderEntries (depth : Nat) : List (Value × Value) → List String
  | [] => []
  | (k, v) :: rest => (keyText k ++ ": " ++ render depth v) :: renderEntries depth rest

end

def skip (cs : List Char) : List Char :=
  cs.dropWhile fun c => c == ' ' || c == '\t' || c == '\n' || c == '\r'

def simpleEscape? : Char → Option Nat
  | '"' => some 0x22
  | '\\' => some 0x5c
  | '/' => some 0x2f
  | 'b' => some 8
  | 'f' => some 12
  | 'n' => some 10
  | 'r' => some 13
  | 't' => some 9
  | _ => none

def units : List Char → Option (List Nat × List Char)
  | [] => none
  | '"' :: rest => some ([], rest)
  | '\\' :: 'u' :: a :: b :: c :: d :: rest => do
      let (n, _) ← Escape.hexNumber? 4 [a, b, c, d]
      let (ns, rest) ← units rest
      return (n :: ns, rest)
  | '\\' :: c :: rest => do
      let n ← simpleEscape? c
      let (ns, rest) ← units rest
      return (n :: ns, rest)
  | c :: rest =>
      if c.toNat < 0x20 then none
      else (units rest).map fun (ns, rest) => (c.toNat :: ns, rest)

def isHigh (n : Nat) : Bool := 0xd800 ≤ n && n ≤ 0xdbff

def isLow (n : Nat) : Bool := 0xdc00 ≤ n && n ≤ 0xdfff

def joinUnits : List Nat → List Char
  | [] => []
  | [n] => [Char.ofNat n]
  | h :: l :: rest =>
      if isHigh h && isLow l then
        Char.ofNat (0x10000 + (h - 0xd800) * 0x400 + (l - 0xdc00)) :: joinUnits rest
      else Char.ofNat h :: joinUnits (l :: rest)

def readText (cs : List Char) : Option (String × List Char) :=
  (units cs).map fun (ns, rest) => (String.ofList (joinUnits ns), rest)

def digits (cs : List Char) : List Char × List Char :=
  (cs.takeWhile Char.isDigit, cs.dropWhile Char.isDigit)

def natOf (ds : List Char) : Nat :=
  ds.foldl (fun n c => n * 10 + (c.toNat - '0'.toNat)) 0

def wholePart? : List Char → Option (List Char × List Char)
  | '0' :: rest => some (['0'], rest)
  | c :: rest => if c.isDigit then some (digits (c :: rest)) else none
  | [] => none

def fractionPart : List Char → List Char × List Char
  | '.' :: rest =>
      match digits rest with
      | ([], _) => ([], '.' :: rest)
      | r => r
  | cs => ([], cs)

def exponentPart? : List Char → Option (Int × List Char)
  | e :: rest =>
      if e = 'e' ∨ e = 'E' then
        let (negative, rest) := match rest with
          | '-' :: r => (true, r)
          | '+' :: r => (false, r)
          | r => (false, r)
        match digits rest with
        | ([], _) => none
        | (ds, rest) => some (if negative then -(natOf ds : Int) else natOf ds, rest)
      else none
  | [] => none

def readNumber (negative : Bool) (cs : List Char) : Option (Value × List Char) := do
  let (whole, rest) ← wholePart? cs
  let (part, rest) := fractionPart rest
  let float (e : Int) : Value :=
    .float (Decimal.toFloat ⟨negative, natOf (whole ++ part), e - part.length⟩)
  match exponentPart? rest with
  | some (e, rest) => return (float e, rest)
  | none =>
      if part.isEmpty then
        return (.int (if negative then -(natOf whole : Int) else natOf whole), rest)
      else return (float 0, rest)

def readWord (word : String) (v : Value) (cs : List Char) : Option (Value × List Char) :=
  if word.toList.isPrefixOf cs then some (v, cs.drop word.length) else none

mutual

def readValue : Nat → List Char → Option (Value × List Char)
  | 0, _ => none
  | n + 1, cs =>
      match skip cs with
      | '"' :: rest => (readText rest).map fun (s, rest) => (.text s, rest)
      | '[' :: rest =>
          match skip rest with
          | ']' :: rest => some (.list [], rest)
          | rest => (readItems n rest).map fun (vs, rest) => (.list vs, rest)
      | '{' :: rest =>
          match skip rest with
          | '}' :: rest => some (.mapping [], rest)
          | rest => (readEntries n rest).map fun (es, rest) =>
              (.mapping (es.foldl (fun m (k, v) => Value.insert k v m) []), rest)
      | '-' :: rest =>
          match readWord "Infinity" (.float (-1 / 0)) rest with
          | some r => some r
          | none => readNumber true rest
      | 't' :: rest => readWord "rue" (.bool true) rest
      | 'f' :: rest => readWord "alse" (.bool false) rest
      | 'n' :: rest => readWord "ull" .null rest
      | 'N' :: rest => readWord "aN" (.float (0 / 0)) rest
      | 'I' :: rest => readWord "nfinity" (.float (1 / 0)) rest
      | rest => readNumber false rest

def readItems : Nat → List Char → Option (List Value × List Char)
  | 0, _ => none
  | n + 1, cs => do
      let (v, rest) ← readValue n cs
      match skip rest with
      | ',' :: rest =>
          let (vs, rest) ← readItems n rest
          return (v :: vs, rest)
      | ']' :: rest => return ([v], rest)
      | _ => none

def readEntries : Nat → List Char → Option (List (Value × Value) × List Char)
  | 0, _ => none
  | n + 1, cs =>
      match skip cs with
      | '"' :: rest => do
          let (k, rest) ← readText rest
          match skip rest with
          | ':' :: rest =>
              let (v, rest) ← readValue n rest
              match skip rest with
              | ',' :: rest =>
                  let (es, rest) ← readEntries n rest
                  return ((.text k, v) :: es, rest)
              | '}' :: rest => return ([(.text k, v)], rest)
              | _ => none
          | _ => none
      | _ => none

end

def parse? (s : String) : Option Value :=
  let cs := s.toList
  match readValue (2 * cs.length + 2) cs with
  | some (v, rest) => if (skip rest).isEmpty then some v else none
  | none => none

end Gosmith.Settings.Json
