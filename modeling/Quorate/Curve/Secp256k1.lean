import Quorate.Bytes.Basic
import Quorate.Curve.Weierstrass

/-!
# The curve secp256k1

The curve y² = x³ + 7 of the account keys, with the public encodings of its points: one byte that gives
the parity of the second coordinate and the first coordinate, or a marker and both coordinates.
-/

namespace Quorate.Secp256k1

open Weierstrass

def fieldModulus : Nat := (1 <<< 256) - (1 <<< 32) - 977

def groupOrder : Nat := 0xfffffffffffffffffffffffffffffffebaaedce6af48a03bbfd25e8cd0364141

instance : Modulus fieldModulus := ⟨by decide⟩

abbrev Field := Residue fieldModulus

def constantTerm : Field := .ofNat 7

def generator : Point Field := .affine
  (.ofNat 0x79be667ef9dcbbac55a06295ce870b07029bfcdb2dce28d959f2815b16f81798)
  (.ofNat 0x483ada7726a3c4655da4fbfc0e1108a8fd17b448a68554199c47d08ffb10d4b8)

/-- A square root, if there is one; the modulus is 3 modulo 4. -/
def sqrt? (a : Field) : Option Field :=
  let root := power a ((fieldModulus + 1) / 4)
  if root * root = a then some root else none

def isOdd (a : Field) : Bool :=
  a.val % 2 == 1

def coordinate? (bs : Bytes) : Option Field :=
  if h : Bytes.toNatBE bs < fieldModulus then some ⟨Bytes.toNatBE bs, h⟩ else none

/-- Read a public encoding. After the markers 2 and 3 comes the first coordinate, and the second is even or
odd; after 4 come both; after 6 and 7 come both, and the second is even or odd as well. -/
def ofEncoding? (bs : Bytes) : Option (Field × Field) :=
  match bs with
  | [] => none
  | marker :: rest =>
    if rest.length = 32 then do
      guard (marker = 2 ∨ marker = 3)
      let x ← coordinate? rest
      let y ← sqrt? (x * x * x + constantTerm)
      return (x, if isOdd y = (marker = 3) then y else -y)
    else if rest.length = 64 then do
      let x ← coordinate? (rest.take 32)
      let y ← coordinate? (rest.drop 32)
      guard ((Point.affine x y).isOn constantTerm)
      guard (marker = 4 ∨ (marker = 6 ∧ !isOdd y) ∨ (marker = 7 ∧ isOdd y))
      return (x, y)
    else none

def coordinateBytes (x y : Field) : Bytes :=
  Bytes.ofNatBE 32 x.val ++ Bytes.ofNatBE 32 y.val

end Quorate.Secp256k1
