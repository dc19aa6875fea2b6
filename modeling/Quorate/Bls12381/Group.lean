import Quorate.Bls12381.Field
import Quorate.Curve.Weierstrass

/-!
# The two groups of BLS12-381

`G1` lies on y² = x³ + 4 over `Fp` and `G2` on y² = x³ + 4(1 + u) over `Fp2`. The types hold all points
with coordinates in the field; the groups proper are the points of order dividing `groupOrder` on the
curves.
-/

namespace Quorate.Bls12381

open Weierstrass

abbrev G1 := Point Fp

abbrev G2 := Point Fp2

/-- Whether `groupOrder` times the point is the identity. -/
def inSubgroup {F : Type} [Zero F] [One F] [Add F] [Sub F] [Mul F] [Inv F] [DecidableEq F]
    (p : Point F) : Bool :=
  match p.multiple groupOrder with
  | .identity => true
  | .affine .. => false

namespace G1

def constantTerm : Fp := Residue.ofNat 4

def generator : G1 := .affine
  (Residue.ofNat 0x17f1d3a73197d7942695638c4fa9ac0fc3688c4f9774b905a14e3a3f171bac586c55e83ff97a1aeffb3af00adb22c6bb)
  (Residue.ofNat 0x08b3f481e3aaa0f1a09e30ed741d8ae4fcf5e095d5d00af600db18cb2c04b3edd03cc744a2888ae40caa232946c5e7e1)

end G1

namespace G2

def constantTerm : Fp2 := .ofNats 4 4

end G2

end Quorate.Bls12381
