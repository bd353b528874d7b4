import Gosmith.Template.Engine
import Gosmith.Template.Token
import Gosmith.Text.Blank
import Gosmith.Text.Brace
import Gosmith.Text.Escape
import Gosmith.Text.Identifier
import Gosmith.Text.Split

namespace Gosmith.Template

open Gosmith.Text

def normalize (opts : Options) (source : String) : List Char :=
  let cs := unifyNewlines source.toList
  if opts.keepTrailingNewline then cs else chomp cs

inductive Opening where
  | print | comment | block | raw
deriving DecidableEq, Repr

structure Tag where
  opening : Opening
  sign : Option Char
  rest : List Char

def takeSign : List Char → Option Char × List Char
  | '-' :: rest => (some '-', rest)
  | '+' :: rest => (some '+', rest)
  | rest => (none, rest)

def dropPrefix? : List Char → List Char → Option (List Char)
  | [], cs => some cs
  | _ :: _, [] => none
  | p :: ps, c :: cs => if p = c then dropPrefix? ps cs else none

def dropWord? (word : String) (cs : List Char) : Option (List Char) :=
  (dropPrefix? word.toList (trimLeft cs)).map trimLeft

def blockEndMark : List Char := ['%', '}']

def printEndMark : List Char := ['}', '}']

def commentEndMark : List Char := ['#', '}']

def rawTag? (afterOpening : List Char) : Option Tag := do
  let (sign, cs) := takeSign afterOpening
  let cs ← dropWord? "raw" cs
  match dropPrefix? ('-' :: blockEndMark) cs with
  | some rest => return ⟨.raw, sign, trimLeft rest⟩
  | none => return ⟨.raw, sign, ← dropPrefix? blockEndMark cs⟩

def plainTag (opening : Opening) (afterOpening : List Char) : Tag :=
  let (sign, rest) := takeSign afterOpening
  ⟨opening, sign, rest⟩

def tagAt? : List Char → Option Tag
  | '{' :: '{' :: rest => some (plainTag .print rest)
  | '{' :: '#' :: rest => some (plainTag .comment rest)
  | '{' :: '%' :: rest => some ((rawTag? rest).getD (plainTag .block rest))
  | _ => none

def firstTag? (at? : List Char → Option Tag) : List Char → Option (List Char × Tag)
  | [] => none
  | c :: rest =>
      match at? (c :: rest) with
      | some tag => some ([], tag)
      | none => (firstTag? at? rest).map fun (text, tag) => (c :: text, tag)

def dropNewline : List Char → List Char
  | '\n' :: rest => rest
  | rest => rest

def trimmingEnd? (mark : List Char) (trim : Bool) (cs : List Char) : Option (List Char) :=
  match dropPrefix? ('+' :: mark) cs with
  | some rest => some rest
  | none =>
      match dropPrefix? ('-' :: mark) cs with
      | some rest => some (trimLeft rest)
      | none => (dropPrefix? mark cs).map fun rest => if trim then dropNewline rest else rest

def printEnd? (cs : List Char) : Option (List Char) :=
  match dropPrefix? ('-' :: printEndMark) cs with
  | some rest => some (trimLeft rest)
  | none => dropPrefix? printEndMark cs

def afterComment? (trim : Bool) : List Char → Option (List Char)
  | [] => none
  | c :: rest =>
      match trimmingEnd? commentEndMark trim (c :: rest) with
      | some after => some after
      | none => afterComment? trim rest

def endRawAt? (trim : Bool) : List Char → Option Tag
  | '{' :: '%' :: rest => do
      let (sign, cs) := takeSign rest
      let cs ← dropWord? "endraw" cs
      return ⟨.raw, sign, ← trimmingEnd? blockEndMark trim cs⟩
  | _ => none

def runOf (p : Char → Bool) : List Char → List Char × List Char
  | [] => ([], [])
  | [c] => if p c then ([c], []) else ([], [c])
  | c :: d :: rest =>
      if p c then
        let (run, after) := runOf p (d :: rest)
        (c :: run, after)
      else if c = '_' ∧ p d then
        let (run, after) := runOf p rest
        (c :: d :: run, after)
      else ([], c :: d :: rest)

def digitRun? (cs : List Char) : Option (List Char × List Char) :=
  match cs with
  | c :: _ => if isDecimal c then some (runOf isDecimal cs) else none
  | [] => none

def numberOf (base : Nat) (value : Char → Nat) (run : List Char) : Nat :=
  (run.filter (· != '_')).foldl (fun n c => n * base + value c) 0

def radixValue (c : Char) : Nat :=
  (Escape.hexValue? c).getD (decimalValue c)

def radixRun? (base : Nat) (p : Char → Bool) (cs : List Char) : Option (Nat × List Char) :=
  match runOf p cs with
  | ([], _) => none
  | (run, rest) => some (numberOf base radixValue run, rest)

def isHexDigit (c : Char) : Bool :=
  isDecimal c || (Escape.hexValue? c).isSome

def marked? : List Char → Option (Nat × List Char)
  | 'b' :: rest => radixRun? 2 (fun c => c == '0' || c == '1') rest
  | 'B' :: rest => radixRun? 2 (fun c => c == '0' || c == '1') rest
  | 'o' :: rest => radixRun? 8 (fun c => '0' ≤ c && c ≤ '7') rest
  | 'O' :: rest => radixRun? 8 (fun c => '0' ≤ c && c ≤ '7') rest
  | 'x' :: rest => radixRun? 16 isHexDigit rest
  | 'X' :: rest => radixRun? 16 isHexDigit rest
  | _ => none

def integer? (cs : List Char) : Option (Nat × List Char) :=
  match cs with
  | '0' :: rest => some ((marked? rest).getD (0, (runOf (· == '0') cs).2))
  | c :: _ =>
      if '1' ≤ c ∧ c ≤ '9' then
        let (run, rest) := runOf isDecimal cs
        some (numberOf 10 decimalValue run, rest)
      else none
  | [] => none

def exponent? : List Char → Option (Int × List Char)
  | e :: rest => do
      if e ≠ 'e' ∧ e ≠ 'E' then none
      let (sign, digits) := takeSign rest
      let (run, after) ← digitRun? digits
      let n : Int := numberOf 10 decimalValue run
      return (if sign = some '-' then -n else n, after)
  | [] => none

def decimalOf (whole part : List Char) (exponent : Int) : Decimal :=
  ⟨false, numberOf 10 decimalValue (whole ++ part),
    exponent - (part.filter (· != '_')).length⟩

def fraction? : List Char → Option (List Char × List Char)
  | '.' :: rest => digitRun? rest
  | _ => none

def decimal? (cs : List Char) : Option (Decimal × List Char) := do
  let (whole, rest) ← digitRun? cs
  match fraction? rest with
  | some (part, after) =>
      match exponent? after with
      | some (e, after) => return (decimalOf whole part e, after)
      | none => return (decimalOf whole part 0, after)
  | none =>
      let (e, after) ← exponent? rest
      return (decimalOf whole [] e, after)

def quotedRun? (quote : Char) : List Char → Option (List Char × List Char)
  | [] => none
  | ['\\'] => none
  | '\\' :: c :: rest =>
      (quotedRun? quote rest).map fun (run, after) => ('\\' :: c :: run, after)
  | c :: rest =>
      if c = quote then some ([], rest)
      else (quotedRun? quote rest).map fun (run, after) => (c :: run, after)

def string? : List Char → Option (List Char × List Char)
  | '\'' :: rest => quotedRun? '\'' rest
  | '"' :: rest => quotedRun? '"' rest
  | _ => none

def operators : List String :=
  ["//", "**", "==", "!=", ">=", "<=", "+", "-", "/", "*", "%", "~", "[", "]", "(", ")", braceOpen,
    braceClose, ">", "<", "=", ".", ":", "|", ",", ";"]

def operator? (cs : List Char) : Option (String × List Char) :=
  operators.findSome? fun op => (dropPrefix? op.toList cs).map fun rest => (op, rest)

inductive Mode where
  | root | comment | raw | block | print
deriving DecidableEq, Repr

structure Cursor where
  rest : List Char
  mode : Mode := .root
  offset : Nat := 0
  line : Nat := 1
  before : Option Char := none
  lineStart : Bool := true
  closers : List Char := []

namespace Cursor

def passTo (c : Cursor) (rest : List Char) : Cursor :=
  let passed := c.rest.take (c.rest.length - rest.length)
  { c with
    rest := rest
    offset := c.offset + passed.length
    line := c.line + count '\n' passed
    before := passed.getLast?.or c.before
    lineStart := passed.getLast? == some '\n' }

end Cursor

inductive Step where
  | done
  | fault (f : Fault)
  | next (tokens : List Token) (c : Cursor)

def dataToken (line : Nat) (text : List Char) : List Token :=
  if text.isEmpty then [] else [⟨.data (String.ofList text), line⟩]

def trimBefore (opts : Options) (lineStart : Bool) (tag : Tag) (text : List Char) : List Char :=
  match tag.sign with
  | some '-' => trimRight text
  | some _ => text
  | none =>
      let tail := lastLine text
      if opts.lstripBlocks && tag.opening != .print && (text.contains '\n' || lineStart) &&
          !tail.isEmpty && tail.all isBlank then
        text.take (text.length - tail.length)
      else text

def stepRoot (opts : Options) (c : Cursor) : Step :=
  match c.rest with
  | [] => .done
  | _ =>
      match firstTag? tagAt? c.rest with
      | none => .next (dataToken c.line c.rest) (c.passTo [])
      | some (text, tag) =>
          let data := dataToken c.line (trimBefore opts c.lineStart tag text)
          let line := c.line + count '\n' text
          let after := c.passTo tag.rest
          match tag.opening with
          | .print => .next (data ++ [⟨.openPrint, line⟩]) { after with mode := .print }
          | .block => .next (data ++ [⟨.openBlock, line⟩]) { after with mode := .block }
          | .comment => .next data { after with mode := .comment }
          | .raw => .next data { after with mode := .raw }

def stepComment (opts : Options) (c : Cursor) : Step :=
  match afterComment? opts.trimBlocks c.rest with
  | some rest => .next [] { c.passTo rest with mode := .root }
  | none => if c.rest.isEmpty then .done else .fault .openComment

def stepRaw (opts : Options) (c : Cursor) : Step :=
  match firstTag? (endRawAt? opts.trimBlocks) c.rest with
  | some (text, tag) =>
      .next (dataToken c.line (trimBefore opts c.lineStart tag text))
        { c.passTo tag.rest with mode := .root }
  | none => if c.rest.isEmpty then .done else .fault .openRaw

def tagEnd? (opts : Options) (c : Cursor) : Option (Token.Kind × List Char) :=
  if c.closers.isEmpty then
    if c.mode = .block then
      (trimmingEnd? blockEndMark opts.trimBlocks c.rest).map fun rest => (.closeBlock, rest)
    else (printEnd? c.rest).map fun rest => (.closePrint, rest)
  else none

def stepOperator (c : Cursor) (symbol : String) (rest : List Char) : Step :=
  let next (closers : List Char) : Step :=
    .next [⟨.op symbol, c.line⟩] { c.passTo rest with closers := closers }
  match symbol.toList with
  | ['('] => next (')' :: c.closers)
  | ['['] => next (']' :: c.closers)
  | ['{'] => next ('}' :: c.closers)
  | [b] =>
      if b = ')' ∨ b = ']' ∨ b = '}' then
        match c.closers with
        | [] => .fault (.unexpectedCloser b none)
        | e :: closers => if e = b then next closers else .fault (.unexpectedCloser b (some e))
      else next c.closers
  | _ => next c.closers

def stepTag (opts : Options) (c : Cursor) : Step :=
  let next (kind : Token.Kind) (rest : List Char) : Step :=
    .next [⟨kind, c.line⟩] (c.passTo rest)
  match c.rest with
  | [] => .done
  | ch :: _ =>
      match tagEnd? opts c with
      | some (kind, rest) => .next [⟨kind, c.line⟩] { c.passTo rest with mode := .root }
      | none =>
          if isBlank ch then .next [] (c.passTo (trimLeft c.rest))
          else match if c.before = some '.' then none else decimal? c.rest with
            | some (d, rest) => next (.decimal d) rest
            | none =>
                match integer? c.rest with
                | some (n, rest) => next (.integer n) rest
                | none =>
                    if isWord ch then
                      let word := c.rest.takeWhile isWord
                      if isIdentifierWord word then
                        next (.name (String.ofList word)) (c.rest.dropWhile isWord)
                      else .fault .badIdentifier
                    else match string? c.rest with
                      | some (run, rest) =>
                          match Escape.read run with
                          | .ok text => next (.string (String.ofList text)) rest
                          | .error e => .fault (.badEscape e.message)
                      | none =>
                          match operator? c.rest with
                          | some (symbol, rest) => stepOperator c symbol rest
                          | none => .fault (.unexpectedChar ch c.offset)

def step (opts : Options) (c : Cursor) : Step :=
  match c.mode with
  | .root => stepRoot opts c
  | .comment => stepComment opts c
  | .raw => stepRaw opts c
  | .block => stepTag opts c
  | .print => stepTag opts c

def steps (opts : Options) : Nat → Cursor → List Token × Option (Located Fault)
  | 0, _ => ([], none)
  | n + 1, c =>
      match step opts c with
      | .done => ([], none)
      | .fault f => ([], some ⟨f, c.line⟩)
      | .next tokens c =>
          let (rest, fault) := steps opts n c
          (tokens ++ rest, fault)

def tokens (opts : Options) (source : String) : List Token × Option (Located Fault) :=
  let cs := normalize opts source
  steps opts (cs.length + 1) { rest := cs }

end Gosmith.Template
