import Gosmith.Text.Brace
import Gosmith.Text.Escape
import Gosmith.Text.Split
import Gosmith.Value.Basic

namespace Gosmith.Settings.Yaml

open Gosmith.Text

def trueWords : List String :=
  ["yes", "Yes", "YES", "true", "True", "TRUE", "on", "On", "ON"]

def falseWords : List String :=
  ["no", "No", "NO", "false", "False", "FALSE", "off", "Off", "OFF"]

def nullWords : List String :=
  ["", "~", "null", "Null", "NULL"]

def signOf : List Char → Int × List Char
  | '-' :: rest => (-1, rest)
  | '+' :: rest => (1, rest)
  | rest => (1, rest)

def dropScores (cs : List Char) : List Char :=
  cs.filter (· != '_')

def natIn (base : Nat) (cs : List Char) : Nat :=
  (dropScores cs).foldl (fun n c => n * base + (Escape.hexValue? c).getD 0) 0

def isDigitOrScore (c : Char) : Bool :=
  c.isDigit || c == '_'

def isSixtieth (cs : List Char) : Bool :=
  match cs with
  | [c] => c.isDigit
  | [c, d] => '0' ≤ c && c ≤ '5' && d.isDigit
  | _ => false

def sexagesimal? (cs : List Char) : Option Nat :=
  match splitWhen (· == ':') cs with
  | first :: second :: rest =>
      if first.head?.any (fun c => '1' ≤ c && c ≤ '9') && first.all isDigitOrScore &&
          (second :: rest).all isSixtieth then
        some ((second :: rest).foldl (fun n part => n * 60 + natIn 10 part) (natIn 10 first))
      else none
  | _ => none

def nat? : List Char → Option Nat
  | ['0'] => some 0
  | '0' :: 'b' :: ds =>
      if !ds.isEmpty && ds.all (fun c => c == '0' || c == '1' || c == '_') then some (natIn 2 ds)
      else none
  | '0' :: 'x' :: ds =>
      if !ds.isEmpty && ds.all (fun c => (Escape.hexValue? c).isSome || c == '_') then
        some (natIn 16 ds)
      else none
  | '0' :: ds =>
      if !ds.isEmpty && ds.all (fun c => '0' ≤ c && c ≤ '7' || c == '_') then some (natIn 8 ds)
      else none
  | c :: ds =>
      if c.isDigit && ds.all isDigitOrScore then some (natIn 10 (c :: ds))
      else sexagesimal? (c :: ds)
  | [] => none

def exponent? : List Char → Option Int
  | [] => some 0
  | e :: s :: ds =>
      if (e = 'e' ∨ e = 'E') ∧ (s = '+' ∨ s = '-') ∧ !ds.isEmpty ∧ ds.all Char.isDigit then
        some (if s = '-' then -(natIn 10 ds : Int) else natIn 10 ds)
      else none
  | _ => none

def decimal? (isNegative : Bool) (cs : List Char) : Option Decimal := do
  let whole := cs.takeWhile isDigitOrScore
  if whole.head? = some '_' then none
  match cs.dropWhile isDigitOrScore with
  | '.' :: rest =>
      let part := rest.takeWhile isDigitOrScore
      if whole.isEmpty && !part.head?.any Char.isDigit then none
      let e ← exponent? (rest.dropWhile isDigitOrScore)
      return ⟨isNegative, natIn 10 (whole ++ part), e - (dropScores part).length⟩
  | _ => none

def specialWord? (isNegative : Bool) (word : String) (isSigned : Bool) : Option Float :=
  if [".inf", ".Inf", ".INF"].contains word then some (if isNegative then -1 / 0 else 1 / 0)
  else if [".nan", ".NaN", ".NAN"].contains word && !isSigned then some (0 / 0)
  else none

def float? (isNegative : Bool) (cs : List Char) (isSigned : Bool) : Option Float :=
  if isSigned && cs.head? = some '.' then specialWord? isNegative (String.ofList cs) isSigned
  else
    ((decimal? isNegative cs).map (·.toFloat)).or
      (specialWord? isNegative (String.ofList cs) isSigned)

def markWords : List String :=
  ["=", "<<"]

def isHollow : List Char → Bool
  | '0' :: c :: ds => (c == 'b' || c == 'x') && !ds.isEmpty && ds.all (· == '_')
  | _ => false

def resolve? (cs : List Char) : Option Value :=
  let s := String.ofList cs
  let (sign, rest) := signOf cs
  if markWords.contains s || isHollow rest then none
  else if nullWords.contains s then some .null
  else if trueWords.contains s then some (.bool true)
  else if falseWords.contains s then some (.bool false)
  else match nat? rest with
    | some n => some (.int (sign * n))
    | none =>
        match float? (sign < 0) rest (rest.length < cs.length) with
        | some x => some (.float x)
        | none => some (.text s)

def resolveKey? (cs : List Char) : Option Value :=
  if cs = ['='] then some (.text "=") else resolve? cs

def isBreak (c : Char) : Bool :=
  c == '\n' || c == '\x85' || c == '\u2028' || c == '\u2029'

def keptBreak (c : Char) : Char :=
  if c = '\x85' then '\n' else c

def isSpaceOrTab (c : Char) : Bool :=
  c == ' ' || c == '\t'

def isFlowMark (c : Char) : Bool :=
  c == ',' || c == '[' || c == ']' || c == '{' || c == '}'

def isBoundary : List Char → Bool
  | [] => true
  | c :: _ => isSpaceOrTab c || isBreak c

def isMark (mark : String) (cs : List Char) : Bool :=
  mark.toList.isPrefixOf cs && isBoundary (cs.drop 3)

def isSeparator (cs : List Char) : Bool :=
  isMark "---" cs || isMark "..." cs

def folded (first : Char) (others : List Char) : List Char :=
  if keptBreak first ≠ '\n' then keptBreak first :: others
  else if others.isEmpty then [' ']
  else others

def startsPlain (flow : Bool) : List Char → Bool
  | [] => false
  | c :: rest =>
      if c = '-' || (!flow && (c = '?' || c = ':')) then !isBoundary rest
      else !isBoundary [c] && !isFlowMark c &&
        !(backquote :: "?:#&*!|>'\"%@".toList).contains c

def plainWord (flow : Bool) : List Char → List Char × List Char
  | [] => ([], [])
  | c :: rest =>
      if isBoundary [c] || (flow && (isFlowMark c || c = '?')) ||
          (c = ':' && (isBoundary rest || (flow && rest.head?.any isFlowMark))) then
        ([], c :: rest)
      else
        let (word, after) := plainWord flow rest
        (c :: word, after)

def plainBreaks : List Char → Option (List Char) × List Char
  | [] => (some [], [])
  | c :: rest =>
      if c = ' ' then plainBreaks rest
      else if isBreak c then
        if isSeparator rest then (none, rest)
        else
          let (others, after) := plainBreaks rest
          (others.map (keptBreak c :: ·), after)
      else (some [], c :: rest)

def plainGap (cs : List Char) : List Char × List Char × Bool :=
  match cs.dropWhile (· == ' ') with
  | [] => (cs, [], false)
  | c :: rest =>
      if isBreak c then
        if isSeparator rest then ([], rest, true)
        else
          let (others, after) := plainBreaks rest
          ((others.map (folded c)).getD [], after, true)
      else (cs.takeWhile (· == ' '), c :: rest, false)

def simpleEscape? : Char → Option Nat
  | '0' => some 0
  | 'a' => some 7
  | 'b' => some 8
  | 't' => some 9
  | '\t' => some 9
  | 'n' => some 10
  | 'v' => some 11
  | 'f' => some 12
  | 'r' => some 13
  | 'e' => some 27
  | ' ' => some 32
  | '"' => some 34
  | '/' => some 47
  | '\\' => some 92
  | 'N' => some 0x85
  | '_' => some 0xa0
  | 'L' => some 0x2028
  | 'P' => some 0x2029
  | _ => none

def escape? : List Char → Option (Char × List Char)
  | [] => none
  | c :: rest => do
      match c with
      | 'x' => numbered 2 rest
      | 'u' => numbered 4 rest
      | 'U' => numbered 8 rest
      | c => return (Char.ofNat (← simpleEscape? c), rest)
where
  numbered (digits : Nat) (cs : List Char) : Option (Char × List Char) := do
    let (n, rest) ← Escape.hexNumber? digits cs
    if n ≤ 0x10ffff then return (Char.ofNat n, rest) else none

def quotedBreaks? (lineStart : Bool) : List Char → Option (List Char × List Char)
  | [] => some ([], [])
  | c :: rest =>
      if lineStart && isSeparator (c :: rest) then none
      else if isSpaceOrTab c then quotedBreaks? false rest
      else if isBreak c then
        (quotedBreaks? true rest).map fun (others, after) => (keptBreak c :: others, after)
      else some ([], c :: rest)

def quotedGap? (cs : List Char) : Option (List Char × List Char) :=
  match cs.dropWhile isSpaceOrTab with
  | [] => none
  | c :: rest =>
      if isBreak c then
        (quotedBreaks? true rest).map fun (others, after) => (folded c others, after)
      else some (cs.takeWhile isSpaceOrTab, c :: rest)

def quotedPart? (quote : Char) : List Char → Option (List Char × List Char)
  | [] => none
  | c :: rest =>
      if c = '\'' && quote = '\'' then some ([c], rest.drop 1)
      else if c = '\\' && quote = '"' then
        if rest.head?.any isBreak then quotedBreaks? true (rest.drop 1)
        else (escape? rest).map fun (c, after) => ([c], after)
      else if isBoundary [c] then quotedGap? (c :: rest)
      else some ([c], rest)

def endsQuoted (quote : Char) : List Char → Bool
  | c :: rest => c == quote && !(quote == '\'' && rest.head? == some '\'')
  | [] => false

def quotedText? (quote : Char) (cs : List Char) : Option (List Char × List Char) :=
  if endsQuoted quote cs then some ([], cs.drop 1)
  else
    match quotedPart? quote cs with
    | none => none
    | some (part, rest) =>
        if rest.length < cs.length then
          (quotedText? quote rest).map fun (text, after) => (part ++ text, after)
        else none
termination_by cs.length

end Gosmith.Settings.Yaml
