import Quorate.Bytes.Basic
import Quorate.Curve.Residue
import Quorate.Digest.Sha2

/-!
# The curve of the node keys

The twisted Edwards curve -x² + y² = 1 + d x² y² over the field of 2 ^ 255 - 19 elements, and the public
key that belongs to a secret seed. The addition law has no exceptional cases.
-/

namespace Quorate.Ed25519

def fieldModulus : Nat := (1 <<< 255) - 19

instance : Modulus fieldModulus := ⟨by decide⟩

abbrev Field := Residue fieldModulus

def twiceD : Field :=
  .ofNat (2 * 0x52036cee2b6ffe738cc740797779e89800700a4d4141d8ab75eb4dca135978a3)

/-- A point in extended coordinates: it stands for `(x / z, y / z)`, and `t = x * y / z`. -/
structure ExtendedPoint where
  x : Field
  y : Field
  z : Field
  t : Field

namespace ExtendedPoint

def neutral : ExtendedPoint := ⟨0, 1, 1, 0⟩

/-- The sum of two points, which may be equal. -/
def add (p q : ExtendedPoint) : ExtendedPoint :=
  let a := (p.y - p.x) * (q.y - q.x)
  let b := (p.y + p.x) * (q.y + q.x)
  let c := p.t * twiceD * q.t
  let d := (p.z + p.z) * q.z
  let e := b - a
  let f := d - c
  let g := d + c
  let h := b + a
  ⟨e * f, g * h, f * g, e * h⟩

def multiple (n : Nat) (p : ExtendedPoint) : ExtendedPoint :=
  (binaryDigits n).foldl (fun acc digit =>
    if digit then (acc.add acc).add p else acc.add acc) neutral

/-- The second coordinate, least significant byte first, with the parity of the first coordinate in the top
bit. -/
def toBytes (p : ExtendedPoint) : Bytes :=
  let i := p.z⁻¹
  let parity := (p.x * i).val % 2
  Bytes.ofNatLE 32 ((p.y * i).val + (parity <<< 255))

end ExtendedPoint

def base : ExtendedPoint :=
  let x : Field := .ofNat 0x216936d3cd6e53fec0a4e231fdd6dc5c692cc7609525a7b2c9562d608f25d51a
  let y : Field := .ofNat 0x6666666666666666666666666666666666666666666666666666666666666658
  ⟨x, y, 1, x * y⟩

/-- The scalar of a secret seed: the first half of its digest with the three lowest bits and the top bit
cleared and the bit below the top set. -/
def scalarOfSeed (seed : Bytes) : Nat :=
  let n := Bytes.toNatLE ((sha512 seed).take 32)
  n % (1 <<< 254) / 8 * 8 + (1 <<< 254)

def publicKey (seed : Bytes) : Bytes :=
  (base.multiple (scalarOfSeed seed)).toBytes

end Quorate.Ed25519
