/-!
# Doubles by their bits

A double is known by its 64 bits. This module rounds ratios of natural numbers to the nearest double,
ties to the even mantissa, in exact arithmetic, and defines the product and the quotient of doubles and
the reading of a decimal by that rounding.
-/

namespace Quorate

/-- A binary floating point number of 64 bits. -/
structure Double where
  bits : UInt64
deriving DecidableEq, Repr

namespace Double

def isNegative (d : Double) : Bool :=
  d.bits >>> 63 == 1

def exponentField (d : Double) : Nat :=
  ((d.bits >>> 52) % 2048).toNat

def fractionField (d : Double) : Nat :=
  (d.bits % (1 <<< 52)).toNat

def isZero (d : Double) : Bool :=
  d.exponentField == 0 && d.fractionField == 0

def isNaN (d : Double) : Bool :=
  d.exponentField == 2047 && d.fractionField != 0

def isInfinite (d : Double) : Bool :=
  d.exponentField == 2047 && d.fractionField == 0

/-- The double with the given sign and the given 63 other bits. -/
def ofMagnitude (negative : Bool) (magnitude : Nat) : Double :=
  ⟨UInt64.ofNat ((if negative then 1 <<< 63 else 0) + magnitude)⟩

/-- The bits of infinity, which follow those of the greatest finite double. -/
def infinityBits : Nat := 2047 <<< 52

def infinity (negative : Bool) : Double :=
  ofMagnitude negative infinityBits

def nan : Double :=
  ofMagnitude false (infinityBits + (1 <<< 51))

def zero (negative : Bool) : Double :=
  ofMagnitude negative 0

/-- Which of two equally near whole numbers is taken. -/
inductive Tie
  | even
  | up
deriving DecidableEq, Repr

namespace Tie

/-- The whole number nearest to `num / den`. -/
def nearest (tie : Tie) (num den : Nat) : Nat :=
  let below := num / den
  let twice := 2 * (num % den)
  if twice < den then below
  else if den < twice then below + 1
  else
    match tie with
    | even => below + below % 2
    | up => below + 1

end Tie

/-- The exponent of the greatest power of two that is not above `num / den`. -/
def floorLog2 (num den : Nat) : Int :=
  let estimate : Int := num.log2 - den.log2
  if num <<< den.log2 < den <<< num.log2 then estimate - 1 else estimate

/-- The double nearest to `num / den`; infinity if all finite doubles are too small. -/
def ofRatio (negative : Bool) (num den : Nat) : Double :=
  if num = 0 then zero negative
  else
    let unit := max (floorLog2 num den - 52) (-1074)
    let mantissa := Tie.even.nearest (num <<< (-unit).toNat) (den <<< unit.toNat)
    ofMagnitude negative (min infinityBits (((unit + 1074).toNat <<< 52) + mantissa))

/-- The mantissa of a finite double as a whole number; `magnitudeRatio` gives its unit. -/
def mantissa (d : Double) : Nat :=
  if d.exponentField = 0 then d.fractionField else (1 <<< 52) + d.fractionField

/-- The magnitude of a finite double as numerator and denominator. -/
def magnitudeRatio (d : Double) : Nat × Nat :=
  let field := max d.exponentField 1
  (d.mantissa <<< (field - 1075), 1 <<< (1075 - field))

def ofNat (n : Nat) : Double :=
  ofRatio false n 1

def mul (a b : Double) : Double :=
  let (p, q) := a.magnitudeRatio
  let (r, s) := b.magnitudeRatio
  ofRatio (a.isNegative != b.isNegative) (p * r) (q * s)

/-- The quotient of finite doubles, the second of them not zero. -/
def div (a b : Double) : Double :=
  let (p, q) := a.magnitudeRatio
  let (r, s) := b.magnitudeRatio
  ofRatio (a.isNegative != b.isNegative) (p * s) (q * r)

def neg (d : Double) : Double :=
  ⟨d.bits ^^^ 0x8000000000000000⟩

/-- The double nearest to `digits` times ten to the power `exponent`. Beyond the powers that a double can
hold the result is settled by size alone. -/
def ofScientific (negative : Bool) (digits : Nat) (exponent : Int) : Double :=
  let position := exponent + (Nat.toDigits 10 digits).length
  if digits = 0 || position < -400 then zero negative
  else if 400 < position then infinity negative
  else ofRatio negative (digits * Nat.pow 10 exponent.toNat) (Nat.pow 10 (-exponent).toNat)

end Double

end Quorate
