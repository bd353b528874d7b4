import Gosmith.Value.Floating

namespace Gosmith

inductive Number where
  | whole (n : Int)
  | float (x : Float)

namespace Number

def toFloat? : Number → Option Float
  | whole n => if (Floating.ofInt n).isInf then none else some (Floating.ofInt n)
  | float x => some x

def compareWhole (n : Int) (x : Float) : Ordering :=
  if x.isInf then if Floating.isNegative x then .gt else .lt
  else
    let (numerator, denominator) := Floating.ratio x
    compareOfLessAndEq (n * denominator) numerator

def compare? : Number → Number → Option Ordering
  | whole a, whole b => some (compareOfLessAndEq a b)
  | whole a, float y => if y.isNaN then none else some (compareWhole a y)
  | float x, whole b => if x.isNaN then none else some (compareWhole b x).swap
  | float x, float y =>
      if x < y then some .lt else if x == y then some .eq else if x > y then some .gt else none

def neg : Number → Number
  | whole n => .whole (-n)
  | float x => .float (-x)

end Number

end Gosmith
