import Gosmith.Value.Floating

namespace Gosmith.Floating

def decimalDigits (n : Nat) : List Char :=
  Nat.toDigits 10 n

def magnitude (a b : Nat) : Int :=
  if b ≤ a then (decimalDigits (a / b)).length
  else 1 - ((decimalDigits ((b - 1) / a)).length : Int)

def inUnits (unit : Int) (a b : Nat) : Nat × Nat :=
  (a * Nat.pow 10 (-unit).toNat, b * Nat.pow 10 unit.toNat)

def nearest (a b : Nat) : Nat :=
  let low := a / b
  let rest := a % b
  if b < 2 * rest || (b == 2 * rest && low % 2 == 1) then low + 1 else low

def candidate? (x : Float) (count : Nat) : Option (Nat × Int) :=
  let (a, b) := (parts x).ratio
  let unit := magnitude a b - count
  let (a, b) := inUnits unit a b
  let readsBack (n : Nat) : Bool := Decimal.toFloat ⟨false, n, unit⟩ == x
  let close := nearest a b
  let other := if close = a / b then close + 1 else a / b
  if readsBack close then some (close, unit)
  else if readsBack other then some (other, unit)
  else none

def shortest (x : Float) : Nat × Int :=
  let p := parts x
  ((List.range 17).findSome? fun n => candidate? x (n + 1)).getD
    (p.mantissa * Nat.pow 2 p.exponent.toNat * Nat.pow 5 (-p.exponent).toNat, min 0 p.exponent)

def stripZeros (ds : List Char) : List Char :=
  (ds.reverse.dropWhile (· == '0')).reverse

def zeros (n : Nat) : List Char :=
  List.replicate n '0'

def exponentText (mark : Char) (e : Int) : List Char :=
  let ds := decimalDigits e.natAbs
  mark :: (if e < 0 then '-' else '+') :: zeros (2 - ds.length) ++ ds

def pointed (whole : Nat) (ds : List Char) : List Char :=
  ds.take whole ++ '.' :: ds.drop whole

def layout (ds : List Char) (e : Int) : List Char :=
  if -4 ≤ e ∧ e < 0 then '0' :: '.' :: zeros (-e - 1).toNat ++ ds
  else if 0 ≤ e ∧ e < 16 then
    pointed (e.toNat + 1) (ds ++ zeros (e.toNat + 2 - ds.length))
  else
    (if ds.length = 1 then ds else pointed 1 ds) ++ exponentText 'e' e

def text (x : Float) : String :=
  if x.isNaN then "nan"
  else
    let sign := if isNegative x then "-" else ""
    if x.isInf then sign ++ "inf"
    else if x == 0 then sign ++ "0.0"
    else
      let (n, unit) := shortest x.abs
      let ds := decimalDigits n
      sign ++ String.ofList (layout (stripZeros ds) (ds.length + unit - 1))

def fixed (places : Nat) (x : Float) : List Char :=
  let (a, b) := (parts x).ratio
  let (a, b) := inUnits (-places) a b
  let ds := decimalDigits (nearest a b)
  let ds := zeros (places + 1 - ds.length) ++ ds
  ds.take (ds.length - places) ++ (if places = 0 then [] else '.' :: ds.drop (ds.length - places))

def significant (count : Nat) (x : Float) : List Char × Int :=
  let (a, b) := (parts x).ratio
  if a = 0 then (zeros count, 0)
  else
    let m := magnitude a b
    let (a, b) := inUnits (m - count) a b
    let ds := decimalDigits (nearest a b)
    (ds.take count, m - 1 + (ds.length - count : Nat))

def scientific (places : Nat) (x : Float) : List Char :=
  let (ds, e) := significant (places + 1) x
  (if places = 0 then ds else pointed 1 ds) ++ exponentText 'e' e

end Gosmith.Floating
