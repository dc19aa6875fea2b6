import Quorate.Text.Digit
import Quorate.Value

/-!
# JSON numbers

A number without fraction and exponent is an integer if it fits into 64 bits, with or without sign, and
is not minus zero; every other number is a double. Of the digits only as many count as fit into 64 bits;
the whole number that they make is rounded, and multiplied or divided by the rounded power of ten.
-/

namespace Quorate.Json

/-- The digits of a number before and after the point, and its exponent. -/
structure Numeral where
  negative : Bool
  whole : List Char
  /-- The digits after the point; none where there is no point. -/
  fraction : Option (List Char)
  exponent : Option Int

/-- Take digits into `significand` while it fits into 64 bits; gives also how many were taken. -/
def takeDigits (significand taken : Nat) : List Char → Nat × Nat
  | [] => (significand, taken)
  | c :: rest =>
    let next := significand * 10 + (c.toNat - 48)
    if UInt64.size ≤ next then (significand, taken) else takeDigits next (taken + 1) rest

def maxPower : Nat := 308

def powerOfTen (n : Nat) : Double :=
  .ofNat (Nat.pow 10 n)

/-- A significand divided by ten to the power `down`, in steps of the greatest power. -/
def divideByPower : (steps : Nat) → Double → (down : Nat) → Double
  | 0, d, _ => d
  | steps + 1, d, down =>
    if down ≤ maxPower then d.div (powerOfTen down)
    else if d.isZero then d
    else divideByPower steps (d.div (powerOfTen maxPower)) (down - maxPower)

/-- A significand times ten to the power `exponent`; nothing if no double is that great. -/
def scale (significand : Nat) (exponent : Int) : Option Double :=
  let d := Double.ofNat significand
  if d.isZero then some d
  else if exponent < 0 then some (divideByPower 4 d exponent.natAbs)
  else if maxPower < exponent.natAbs then none
  else
    let product := d.mul (powerOfTen exponent.natAbs)
    if product.isInfinite then none else some product

namespace Numeral

def toDouble? (n : Numeral) : Option Double :=
  let (whole, taken) := takeDigits 0 0 n.whole
  let (significand, places) := takeDigits whole 0 (n.fraction.getD [])
  let exponent : Int := n.whole.length - taken - places + n.exponent.getD 0
  (scale significand exponent).map fun d => if n.negative then d.neg else d

def toValue? (n : Numeral) : Option Value :=
  let magnitude := Text.ofDecimal n.whole
  let isInteger := n.fraction.isNone && n.exponent.isNone
  if isInteger && n.negative && magnitude ≠ 0 && magnitude ≤ Value.signedBound then some (.int (-magnitude))
  else if isInteger && !n.negative && magnitude < UInt64.size then some (.int magnitude)
  else n.toDouble?.map .float

end Numeral

end Quorate.Json
