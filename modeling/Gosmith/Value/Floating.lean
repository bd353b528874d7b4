import Gosmith.Value.Decimal

namespace Gosmith.Floating

structure Parts where
  isNegative : Bool
  mantissa : Nat
  exponent : Int
deriving DecidableEq, Repr

def parts (x : Float) : Parts :=
  let bits := x.toBits.toNat
  let power : Nat := bits / Nat.pow 2 52 % Nat.pow 2 11
  let fraction := bits % Nat.pow 2 52
  if power = 0 then ⟨bits / Nat.pow 2 63 == 1, fraction, -1074⟩
  else ⟨bits / Nat.pow 2 63 == 1, Nat.pow 2 52 + fraction, (power : Int) - 1075⟩

def isNegative (x : Float) : Bool :=
  (parts x).isNegative

def Parts.toFloat (p : Parts) : Float :=
  if 0 ≤ p.exponent then
    Decimal.toFloat ⟨p.isNegative, p.mantissa * Nat.pow 2 p.exponent.toNat, 0⟩
  else Decimal.toFloat ⟨p.isNegative, p.mantissa * Nat.pow 5 (-p.exponent).toNat, p.exponent⟩

def Parts.ratio (p : Parts) : Nat × Nat :=
  (p.mantissa * Nat.pow 2 p.exponent.toNat, Nat.pow 2 (-p.exponent).toNat)

def ratio (x : Float) : Int × Nat :=
  let p := parts x
  let (numerator, denominator) := p.ratio
  (if p.isNegative then -(numerator : Int) else numerator, denominator)

def ofInt (n : Int) : Float :=
  Decimal.toFloat ⟨n < 0, n.natAbs, 0⟩

def ofQuotient (a b : Int) : Float :=
  let places := b.natAbs.log2 + 70
  let scaled := a.natAbs * Nat.pow 2 places
  let rest := if scaled % b.natAbs = 0 then 0 else 1
  Parts.toFloat
    ⟨decide (a < 0) != decide (b < 0), 2 * (scaled / b.natAbs) + rest, -(places + 1 : Nat)⟩

def signedZero (x : Float) : Float :=
  if isNegative x then -0 else 0

def floorInt (x : Float) : Int :=
  let (numerator, denominator) := ratio x
  numerator.fdiv denominator

def floor (x : Float) : Float :=
  if x.isFinite && (parts x).exponent < 0 then ofInt (floorInt x) else x

def remainder (x y : Float) : Float :=
  if x.isNaN || y.isNaN || x.isInf then 0 / 0
  else if y.isInf then x
  else
    let p := parts x
    let q := parts y
    let exponent := min p.exponent q.exponent
    let dividend := p.mantissa * Nat.pow 2 (p.exponent - exponent).toNat
    let divisor := q.mantissa * Nat.pow 2 (q.exponent - exponent).toNat
    Parts.toFloat ⟨p.isNegative, dividend % divisor, exponent⟩

def isAstray (r y : Float) : Bool :=
  !(r == 0) && decide (y < 0) != decide (r < 0)

def floorRemainder (x y : Float) : Float :=
  let r := remainder x y
  if r == 0 then signedZero y else if isAstray r y then r + y else r

def floorQuotient (x y : Float) : Float :=
  let r := remainder x y
  let q := (x - r) / y
  let q := if isAstray r y then q - 1 else q
  if q == 0 then signedZero (x / y)
  else if q - floor q > 0.5 then floor q + 1
  else floor q

end Gosmith.Floating
