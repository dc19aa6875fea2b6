import Quorate.Bls12381.Group
import Quorate.Bls12381.Tower

/-!
# The pairing

The ate pairing on affine points. A point of `G2` is tracked on its own curve; the line through it,
carried over to `Fp12` and evaluated at a point of `G1`, has three coefficients that are not zero. The
sign of the curve parameter and the constant factor by which the lines are scaled drop out of the only
question asked: whether a product of pairings is one.
-/

namespace Quorate.Bls12381

open Weierstrass

/-- The line with slope `slope` through `(x, y)`, evaluated at the point `(px, py)` of `G1`. -/
def lineValue (slope x y : Fp2) (px py : Fp) : Fp12 :=
  ⟨⟨slope * x - y, -(slope.scale px), 0⟩, ⟨0, ⟨py, 0⟩, 0⟩⟩

/-- Where the loop of the pairing stands: the value so far and the current multiple of the point. -/
structure MillerState where
  value : Fp12
  x : Fp2
  y : Fp2

namespace MillerState

/-- Move to the third point of a line, reflected, and take the line into the value. -/
def followLine (s : MillerState) (slope x₂ : Fp2) (px py : Fp) : MillerState :=
  let x := slope * slope - s.x - x₂
  ⟨s.value * lineValue slope s.x s.y px py, x, slope * (s.x - x) - s.y⟩

def double (s : MillerState) (px py : Fp) : MillerState :=
  let xx := s.x * s.x
  let slope := (xx + xx + xx) * (s.y + s.y)⁻¹
  { s with value := s.value * s.value }.followLine slope s.x px py

def add (s : MillerState) (qx qy : Fp2) (px py : Fp) : MillerState :=
  let slope := (qy - s.y) * (qx - s.x)⁻¹
  s.followLine slope qx px py

end MillerState

/-- The value at `p` of the function that belongs to `parameter` times `q`; one if either point is the
identity. -/
def millerLoop (p : G1) (q : G2) : Fp12 :=
  match p, q with
  | .affine px py, .affine qx qy =>
    (((binaryDigits parameter).drop 1).foldl (fun s digit =>
      let s := s.double px py
      if digit then s.add qx qy px py else s) (⟨1, qx, qy⟩ : MillerState)).value
  | _, _ => 1

/-- The power of the curve parameter `z`, which is negative. The inverse of an element whose norm is one is
its conjugate. -/
def powParameter (f : Fp12) : Fp12 :=
  (power f parameter).conjugate

/-- The power `3 (p ^ 12 - 1) / r` for the group order `r`, which is one exactly where the power
`(p ^ 12 - 1) / r` is. After the powers `p ^ 6 - 1` and `p ^ 2 + 1` it is the power
`(z - 1) ^ 2 (z + p) (z ^ 2 + p ^ 2 - 1) + 3`. -/
def finalExponentiation (f : Fp12) : Fp12 :=
  let unitary := f.conjugate * f⁻¹
  let f := unitary.frobenius.frobenius * unitary
  let g := powParameter f * f.conjugate
  let g := powParameter g * g.conjugate
  let g := powParameter g * g.frobenius
  let g := powParameter (powParameter g) * g.frobenius.frobenius * g.conjugate
  g * (f * f * f)

/-- Whether the product of the pairings of the given pairs of points is one. -/
def pairingProductIsOne (pairs : List (G1 × G2)) : Bool :=
  finalExponentiation (pairs.foldl (fun f (p, q) => f * millerLoop p q) 1) == 1

end Quorate.Bls12381
