import Quorate.Curve.Residue

/-!
# The fields of BLS12-381

The prime field `Fp`, its quadratic extension `Fp2` by a square root `u` of -1, square roots in both,
and the two notions of sign in use: *larger than its negative*, which compressed points carry, and
the parity that hashing to the curve uses.
-/

namespace Quorate.Bls12381

/-- The absolute value of the parameter that generates the curve family; the parameter is negative. -/
def parameter : Nat := 0xd201000000010000

def fieldModulus : Nat :=
  0x1a0111ea397fe69a4b1ba7b6434bacd764774b84f38512bf6730d2a0f6b0f6241eabfffeb153ffffb9feffffffffaaab

/-- The number of points of each of the two groups. -/
def groupOrder : Nat := 0x73eda753299d7d483339d80809a1d80553bda402fffe5bfeffffffff00000001

instance : Modulus fieldModulus := ⟨by decide⟩

abbrev Fp := Residue fieldModulus

namespace Fp

/-- A square root, if there is one; the modulus is 3 modulo 4. -/
def sqrt? (a : Fp) : Option Fp :=
  let root := power a ((fieldModulus + 1) / 4)
  if root * root = a then some root else none

/-- Whether the element exceeds its negative, both read as numbers below the modulus. -/
def isLarger (a : Fp) : Bool :=
  fieldModulus < 2 * a.val

end Fp

/-- The element `re + im * u` of the quadratic extension, where `u² = -1`. -/
structure Fp2 where
  re : Fp
  im : Fp
deriving DecidableEq, Inhabited

namespace Fp2

instance : Zero Fp2 := ⟨⟨0, 0⟩⟩

instance : One Fp2 := ⟨⟨1, 0⟩⟩

def add (a b : Fp2) : Fp2 :=
  ⟨a.re + b.re, a.im + b.im⟩

def sub (a b : Fp2) : Fp2 :=
  ⟨a.re - b.re, a.im - b.im⟩

def neg (a : Fp2) : Fp2 :=
  ⟨-a.re, -a.im⟩

def mul (a b : Fp2) : Fp2 :=
  let rr := a.re * b.re
  let ii := a.im * b.im
  ⟨rr - ii, (a.re + a.im) * (b.re + b.im) - rr - ii⟩

def inv (a : Fp2) : Fp2 :=
  let i := (a.re * a.re + a.im * a.im)⁻¹
  ⟨a.re * i, -(a.im * i)⟩

instance : Add Fp2 := ⟨add⟩

instance : Sub Fp2 := ⟨sub⟩

instance : Neg Fp2 := ⟨neg⟩

instance : Mul Fp2 := ⟨mul⟩

instance : Inv Fp2 := ⟨inv⟩

def ofNats (re im : Nat) : Fp2 :=
  ⟨Residue.ofNat re, Residue.ofNat im⟩

/-- The image of the element under `u ↦ -u`, which is its power `p`. -/
def conjugate (a : Fp2) : Fp2 :=
  ⟨a.re, -a.im⟩

def scale (a : Fp2) (s : Fp) : Fp2 :=
  ⟨a.re * s, a.im * s⟩

/-- Multiply by `1 + u`, the element whose sixth root generates the degree-twelve field. -/
def mulByNonresidue (a : Fp2) : Fp2 :=
  ⟨a.re - a.im, a.re + a.im⟩

def sqrt? (a : Fp2) : Option Fp2 :=
  let t := power a ((fieldModulus - 3) / 4)
  let root := t * a
  let quotient := t * root
  let root :=
    if quotient = -1 then ⟨-root.im, root.re⟩
    else power (1 + quotient) ((fieldModulus - 1) / 2) * root
  if root * root = a then some root else none

/-- Whether the element exceeds its negative, comparing the coefficient of `u` first. -/
def isLarger (a : Fp2) : Bool :=
  if a.im = 0 then a.re.isLarger else a.im.isLarger

/-- The parity of the first coefficient that is not zero. -/
def isOdd (a : Fp2) : Bool :=
  if a.re = 0 then a.im.val % 2 == 1 else a.re.val % 2 == 1

end Fp2

end Quorate.Bls12381
