import Gosmith.Text.Quoted

namespace Gosmith.Text.Escape

def spell (c : Char) : List Char :=
  if c.toNat < 0x80 then [c]
  else if c.toNat < 0x100 then '\\' :: 'x' :: hexDigits 2 c.toNat
  else if c.toNat < 0x10000 then '\\' :: 'u' :: hexDigits 4 c.toNat
  else '\\' :: 'U' :: hexDigits 8 c.toNat

inductive Fault where
  | shortByte | shortUnit | shortPoint | illegalPoint | malformedName | unknownName | trailing
deriving DecidableEq, Repr

def Fault.message : Fault → String
  | shortByte => "truncated \\xXX escape"
  | shortUnit => "truncated \\uXXXX escape"
  | shortPoint => "truncated \\UXXXXXXXX escape"
  | illegalPoint => "illegal Unicode character"
  | malformedName => "malformed \\N character escape"
  | unknownName => "unknown Unicode character name"
  | trailing => "\\ at end of string"

def hexValue? (c : Char) : Option Nat :=
  if c.isDigit then some (c.toNat - '0'.toNat)
  else if 'a' ≤ c ∧ c ≤ 'f' then some (c.toNat - 'a'.toNat + 10)
  else if 'A' ≤ c ∧ c ≤ 'F' then some (c.toNat - 'A'.toNat + 10)
  else none

def hexNumber? : Nat → List Char → Option (Nat × List Char)
  | 0, cs => some (0, cs)
  | _ + 1, [] => none
  | n + 1, c :: cs => do
      let d ← hexValue? c
      let (rest, cs) ← hexNumber? n cs
      return (d * 16 ^ n + rest, cs)

def octalNumber (cs : List Char) : Nat × List Char :=
  let digits := (cs.take 3).takeWhile fun c => '0' ≤ c && c ≤ '7'
  (digits.foldl (fun n c => n * 8 + (c.toNat - '0'.toNat)) 0, cs.drop digits.length)

def point (n : Nat) (rest : List Char) : Except Fault (List Char × List Char) :=
  if n ≤ 0x10ffff then .ok ([Char.ofNat n], rest) else .error .illegalPoint

def simple? : Char → Option (List Char)
  | '\n' => some []
  | '\\' => some ['\\']
  | '\'' => some ['\'']
  | '"' => some ['"']
  | 'a' => some [Char.ofNat 7]
  | 'b' => some [Char.ofNat 8]
  | 'f' => some [Char.ofNat 12]
  | 'n' => some ['\n']
  | 'r' => some ['\r']
  | 't' => some ['\t']
  | 'v' => some [Char.ofNat 11]
  | _ => none

def nameFault : List Char → Fault
  | '{' :: c :: rest =>
      if c ≠ '}' && rest.contains '}' then .unknownName else .malformedName
  | _ => .malformedName

def after : List Char → Except Fault (List Char × List Char)
  | [] => .error .trailing
  | c :: rest =>
      match simple? c with
      | some cs => .ok (cs, rest)
      | none =>
          if '0' ≤ c ∧ c ≤ '7' then
            let (n, rest) := octalNumber (c :: rest)
            point n rest
          else match c with
            | 'x' => (hexNumber? 2 rest).elim (.error .shortByte) fun (n, rest) => point n rest
            | 'u' => (hexNumber? 4 rest).elim (.error .shortUnit) fun (n, rest) => point n rest
            | 'U' => (hexNumber? 8 rest).elim (.error .shortPoint) fun (n, rest) => point n rest
            | 'N' => .error (nameFault rest)
            | c => .ok (['\\', c], rest)

def readSteps : Nat → List Char → Except Fault (List Char)
  | 0, _ => .ok []
  | _ + 1, [] => .ok []
  | n + 1, '\\' :: rest => do
      let (cs, rest) ← after rest
      return cs ++ (← readSteps n rest)
  | n + 1, c :: rest => do return c :: (← readSteps n rest)

def read (text : List Char) : Except Fault (List Char) :=
  let spelled := text.flatMap spell
  readSteps spelled.length spelled

end Gosmith.Text.Escape
