namespace Gosmith

structure Decimal where
  isNegative : Bool
  digits : Nat
  exponent : Int
deriving DecidableEq, Repr, Inhabited

namespace Decimal

def toFloat (d : Decimal) : Float :=
  let exponent : Int := max (-(d.digits.log2 + 401 : Nat)) (min 400 d.exponent)
  let x := Float.ofScientific d.digits (exponent < 0) exponent.natAbs
  if d.isNegative then -x else x

end Decimal

end Gosmith
