import Gosmith.Template.Failure

namespace Gosmith.Template.Format

structure Gap where
  isLeft : Bool := false
  hasPlus : Bool := false
  hasSpace : Bool := false
  isAlternate : Bool := false
  hasZeros : Bool := false
  width : Nat := 0
  precision : Option Nat := none

structure Operands where
  rest : List Value
  source : Option Value

def Operands.ofValue : Value → Operands
  | .tuple items => ⟨items, none⟩
  | .list items => ⟨[.list items], some (.list items)⟩
  | .mapping entries => ⟨[.mapping entries], some (.mapping entries)⟩
  | .undefined u => ⟨[.undefined u], some (.undefined u)⟩
  | v => ⟨[v], none⟩

def Operands.next (ops : Operands) : Except Failure (Value × Operands) :=
  match ops.rest with
  | [] => .error (.format .tooFew)
  | v :: rest => .ok (v, { ops with rest := rest })

def padded (g : Gap) (isNumber : Bool) (sign mark digits : List Char) : List Char :=
  let fill := g.width - (sign.length + mark.length + digits.length)
  if g.isLeft then sign ++ mark ++ digits ++ List.replicate fill ' '
  else if g.hasZeros && isNumber then sign ++ mark ++ List.replicate fill '0' ++ digits
  else List.replicate fill ' ' ++ sign ++ mark ++ digits

def signText (g : Gap) (isNegative : Bool) : List Char :=
  if isNegative then ['-'] else if g.hasPlus then ['+'] else if g.hasSpace then [' '] else []

def textGap (g : Gap) (s : String) : List Char :=
  padded g false [] [] ((g.precision.map fun n => s.toList.take n).getD s.toList)

def asciiText (s : String) : String :=
  String.ofList (s.toList.flatMap fun c =>
    if c.toNat < 0x80 then [c]
    else if c.toNat < 0x100 then '\\' :: 'x' :: Text.hexDigits 2 c.toNat
    else if c.toNat < 0x10000 then '\\' :: 'u' :: Text.hexDigits 4 c.toNat
    else '\\' :: 'U' :: Text.hexDigits 8 c.toNat)

def baseOf (letter : Char) : Nat :=
  if letter = 'o' then 8 else if letter = 'x' || letter = 'X' then 16 else 10

def wholeOf (letter : Char) (v : Value) : Except Failure Int :=
  let isBased := baseOf letter ≠ 10
  match v with
  | .float x =>
      if isBased then .error (.format (.notWhole letter v.kindName))
      else if x.isNaN then .error (.format .noNumber)
      else if x.isInf then .error (.format .infinite)
      else
        let (numerator, denominator) := Floating.ratio x
        .ok (numerator.tdiv denominator)
  | v =>
      match v, v.integer? with
      | _, some n => .ok n
      | .undefined u, _ =>
          if isBased then .error (.format (.notWhole letter v.kindName))
          else .error (.undefined u.missing)
      | v, none =>
          if isBased then .error (.format (.notWhole letter v.kindName))
          else .error (.format (.notNumber letter v.kindName))

def wholeGap (g : Gap) (letter : Char) (n : Int) : List Char :=
  let digits := Nat.toDigits (baseOf letter) n.natAbs
  let digits := List.replicate (g.precision.getD 0 - digits.length) '0' ++ digits
  let digits := if letter = 'X' then digits.map Char.toUpper else digits
  let isMarked := g.isAlternate && baseOf letter != 10
  padded g true (signText g (n < 0)) (if isMarked then ['0', letter] else []) digits

def floatOf (v : Value) : Except Failure Float :=
  match v, v.number? with
  | _, some x =>
      match x.toFloat? with
      | some x => .ok x
      | none => .error .tooLarge
  | .undefined u, _ => .error (.undefined u.missing)
  | v, none => .error (.format (.notReal v.kindName))

def trimmed (isAlternate : Bool) (cs : List Char) : List Char :=
  if isAlternate || !cs.contains '.' then cs
  else (cs.reverse.dropWhile (· == '0')).dropWhile (· == '.') |>.reverse

def withPoint (isAlternate : Bool) (cs : List Char) : List Char :=
  if isAlternate && !cs.contains '.' then cs ++ ['.'] else cs

def floatDigits (isAlternate : Bool) (letter : Char) (precision : Nat) (x : Float) : List Char :=
  match letter with
  | 'f' => withPoint isAlternate (Floating.fixed precision x)
  | 'e' => scientific precision
  | _ =>
      let count := max 1 precision
      let (ds, e) := Floating.significant count x
      if -4 ≤ e ∧ e < count then
        withPoint isAlternate (trimmed isAlternate (Floating.fixed (count - 1 - e).toNat x))
      else
        withPoint isAlternate (trimmed isAlternate (mantissa ds)) ++ Floating.exponentText 'e' e
where
  mantissa (ds : List Char) : List Char :=
    if ds.length ≤ 1 then ds else Floating.pointed 1 ds
  scientific (places : Nat) : List Char :=
    let (ds, e) := Floating.significant (places + 1) x
    withPoint isAlternate (mantissa ds) ++ Floating.exponentText 'e' e

def floatGap (g : Gap) (letter : Char) (x : Float) : List Char :=
  let digits :=
    if x.isNaN then "nan".toList
    else if x.isInf then "inf".toList
    else floatDigits g.isAlternate letter.toLower (g.precision.getD 6) x
  padded g true (signText g (Floating.isNegative x && !x.isNaN)) []
    (if letter.isUpper then digits.map Char.toUpper else digits)

def charOf (v : Value) : Except Failure Char :=
  match v, v.integer? with
  | .text s, _ =>
      match s.toList with
      | [c] => .ok c
      | _ => .error (.format .notChar)
  | _, some n =>
      if 0 ≤ n ∧ n < 0x110000 then .ok (Char.ofNat n.toNat) else .error (.format .charTooLarge)
  | _, none => .error (.format .notChar)

def written (g : Gap) (letter : Char) (index : Nat) (v : Value) : Except Failure (List Char) := do
  if letter = 's' then return textGap g (← printed v)
  else if letter = 'r' then return textGap g v.quoted
  else if letter = 'a' then return textGap g (asciiText v.quoted)
  else if "diuoxX".toList.contains letter then
    return wholeGap g letter (← wholeOf letter v)
  else if "eEfFgG".toList.contains letter then return floatGap g letter (← floatOf v)
  else if letter = 'c' then return padded g false [] [] [← charOf v]
  else .error (.format (.unknownLetter letter index))

def key? (depth : Nat) : List Char → Option (List Char × List Char)
  | [] => none
  | c :: rest =>
      if c = ')' && depth ≤ 1 then some ([], rest)
      else
        let depth := if c = '(' then depth + 1 else if c = ')' then depth - 1 else depth
        (key? depth rest).map fun (key, after) => (c :: key, after)

def picked (key : String) : Value → Except Failure Value
  | .mapping entries =>
      match Value.lookup (.text key) entries with
      | some v => .ok v
      | none => .error (.format (.missingKey key))
  | .undefined u => .error (.undefined u.missing)
  | _ => .error (.format .badIndex)

def pick (ops : Operands) (cs : List Char) : Except Failure (Operands × List Char) :=
  match cs with
  | '(' :: rest =>
      match ops.source with
      | none => .error (.format .noSource)
      | some source => do
          match key? 1 rest with
          | none => .error (.format .openKey)
          | some (key, after) =>
              return ({ ops with rest := [← picked (String.ofList key) source] }, after)
  | cs => .ok (ops, cs)

def flags (g : Gap) : List Char → Gap × List Char
  | '-' :: rest => flags { g with isLeft := true } rest
  | '+' :: rest => flags { g with hasPlus := true } rest
  | ' ' :: rest => flags { g with hasSpace := true } rest
  | '#' :: rest => flags { g with isAlternate := true } rest
  | '0' :: rest => flags { g with hasZeros := true } rest
  | cs => (g, cs)

def size (ops : Operands) (cs : List Char) : Except Failure (Int × Operands × List Char) :=
  match cs with
  | '*' :: rest => do
      let (v, ops) ← ops.next
      match v.integer? with
      | some n => return (n, ops, rest)
      | none => .error (.format .sizeNotWhole)
  | cs =>
      let digits := cs.takeWhile Char.isDigit
      .ok (digits.foldl (fun n c => n * 10 + (c.toNat - '0'.toNat)) 0, ops, cs.drop digits.length)

def precision (ops : Operands) (cs : List Char) :
    Except Failure (Option Nat × Operands × List Char) :=
  match cs with
  | '.' :: rest => do
      let (n, ops, rest) ← size ops rest
      return (some n.toNat, ops, rest)
  | cs => .ok (none, ops, cs)

def dropLength : List Char → List Char
  | c :: rest => if c = 'h' || c = 'l' || c = 'L' then rest else c :: rest
  | [] => []

def gap (total : Nat) (ops : Operands) (cs : List Char) :
    Except Failure (List Char × Operands × List Char) := do
  let (ops, cs) ← pick ops cs
  let (g, cs) := flags {} cs
  let (width, ops, cs) ← size ops cs
  let (places, ops, cs) ← precision ops cs
  let g := { g with isLeft := g.isLeft || width < 0, width := width.natAbs, precision := places }
  match dropLength cs with
  | [] => .error (.format .unfinished)
  | letter :: after =>
      let (text, ops) ←
        if letter = '%' then pure (['%'], ops)
        else do
          let (v, ops) ← ops.next
          pure (← written g letter (total - after.length - 1) v, ops)
      if ops.source.isSome && !ops.rest.isEmpty then .error .extraOperands
      else return (text, ops, after)

def filled (total : Nat) (ops : Operands) (cs : List Char) : Except Failure (List Char) :=
  match cs with
  | [] =>
      if ops.source.isNone && !ops.rest.isEmpty then .error .extraOperands else .ok []
  | c :: rest =>
      if c = '%' then
        match gap total ops rest with
        | .error f => .error f
        | .ok (text, ops, after) =>
            if after.length ≤ rest.length then (filled total ops after).map (text ++ ·)
            else .ok text
      else (filled total ops rest).map (c :: ·)
termination_by cs.length

def fill (s : String) (v : Value) : Except Failure String :=
  (filled s.length (.ofValue v) s.toList).map String.ofList

end Gosmith.Template.Format
