import Quorate.Bls12381.Group
import Quorate.Bytes.Basic

/-!
# Compressed points

The compressed encoding writes the first coordinate, most significant byte first (for `Fp2` the
coefficient of `u` first), and uses the three top bits, which the coordinate never needs: the first is
always set, the second marks the identity, whose other bits are zero, and the third says that the
second coordinate is larger than its negative. Decoding accepts exactly one spelling of each point of
the group, and no identity.
-/

namespace Quorate.Bls12381

open Weierstrass

inductive PointError
  /-- The flags are wrong or a coordinate is not reduced. -/
  | badEncoding
  | identity
  | notOnCurve
  | notInSubgroup
deriving DecidableEq, Repr

structure PointFlags where
  compressed : Bool
  identity : Bool
  larger : Bool
deriving DecidableEq

namespace PointFlags

def toNat (f : PointFlags) : Nat :=
  f.compressed.toNat * 128 + f.identity.toNat * 64 + f.larger.toNat * 32

def ofByte (b : UInt8) : PointFlags :=
  ⟨128 ≤ b.toNat, b.toNat % 128 / 64 = 1, b.toNat % 64 / 32 = 1⟩

end PointFlags

/-- What is particular to one of the two groups: how many bytes its coordinate takes, how it is written
and read, and the curve. -/
structure Coordinate (F : Type) where
  width : Nat
  encode : F → Bytes
  /-- The coordinate, unless a number in it is not reduced. -/
  decode? : Bytes → Option F
  sqrt? : F → Option F
  isLarger : F → Bool
  constantTerm : F

/-- An element of the prime field, if the number is reduced. -/
def fpOfBytes? (bs : Bytes) : Option Fp :=
  if h : Bytes.toNatBE bs < fieldModulus then some ⟨Bytes.toNatBE bs, h⟩ else none

def g1Coordinate : Coordinate Fp where
  width := 48
  encode x := Bytes.ofNatBE 48 x.val
  decode? := fpOfBytes?
  sqrt? := Fp.sqrt?
  isLarger := Fp.isLarger
  constantTerm := G1.constantTerm

def g2Coordinate : Coordinate Fp2 where
  width := 96
  encode x := Bytes.ofNatBE 48 x.im.val ++ Bytes.ofNatBE 48 x.re.val
  decode? bs := do
    let im ← fpOfBytes? (bs.take 48)
    let re ← fpOfBytes? (bs.drop 48)
    return ⟨re, im⟩
  sqrt? := Fp2.sqrt?
  isLarger := Fp2.isLarger
  constantTerm := G2.constantTerm

variable {F : Type} [Zero F] [One F] [Add F] [Sub F] [Neg F] [Mul F] [Inv F] [DecidableEq F]

def withFlags (f : PointFlags) : Bytes → Bytes
  | [] => []
  | b :: bs => UInt8.ofNat (b.toNat + f.toNat) :: bs

def withoutFlags : Bytes → Bytes
  | [] => []
  | b :: bs => UInt8.ofNat (b.toNat % 32) :: bs

def compress (c : Coordinate F) : Point F → Bytes
  | .identity => withFlags ⟨true, true, false⟩ (Bytes.zeros c.width)
  | .affine x y => withFlags ⟨true, false, c.isLarger y⟩ (c.encode x)

/-- The point of the group with the given first coordinate whose second coordinate is or is not larger
than its negative. -/
def pointWithX (c : Coordinate F) (x : F) (larger : Bool) : Except PointError (Point F) :=
  match c.sqrt? (x * x * x + c.constantTerm) with
  | none => .error .notOnCurve
  | some root =>
    let y := if c.isLarger root = larger then root else -root
    if c.isLarger y ≠ larger then .error .badEncoding
    else if inSubgroup (.affine x y) then .ok (.affine x y)
    else .error .notInSubgroup

/-- Read a compressed point of the group. The bytes are as many as the group's encoding has. -/
def decompress (c : Coordinate F) (bs : Bytes) : Except PointError (Point F) :=
  let flags := PointFlags.ofByte (bs.headD 0)
  let rest := withoutFlags bs
  if !flags.compressed then .error .badEncoding
  else if flags.identity then
    if !flags.larger && rest.all (· == 0) then .error .identity else .error .badEncoding
  else
    match c.decode? rest with
    | none => .error .badEncoding
    | some x => pointWithX c x flags.larger

end Quorate.Bls12381
