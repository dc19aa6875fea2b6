import Quorate.Bls12381.Group
import Quorate.Digest.Sha2

/-!
# Hashing to the second group

The suite `BLS12381G2_XMD:SHA-256_SSWU_RO`: a message is expanded to 256 bytes under a domain tag, read
as two field elements, each mapped to a curve that is 3-isogenous to the curve of `G2` and on to that
curve, and the sum of the two points is moved into the group by a multiple of the cofactor.
-/

namespace Quorate.Bls12381

open Weierstrass

/-- A tag longer than 255 bytes is replaced by the digest of a marker and the tag. -/
def boundedTag (tag : Bytes) : Bytes :=
  if tag.length ≤ 255 then tag else sha256 (Bytes.ofText "H2C-OVERSIZE-DST-" ++ tag)

/-- Digest after digest, each of the first one added to the one before it. -/
def expandBlocks (first suffix : Bytes) : (count : Nat) → (index : Nat) → (previous : Bytes) → Bytes
  | 0, _, _ => []
  | count + 1, index, previous =>
    let block := sha256 (Bytes.xor first previous ++ UInt8.ofNat index :: suffix)
    block ++ expandBlocks first suffix count (index + 1) block

/-- The message expanded to 256 bytes under the tag. -/
def expandMessage (message tag : Bytes) : Bytes :=
  let tag := boundedTag tag
  let suffix := tag ++ [UInt8.ofNat tag.length]
  let first := sha256 (Bytes.zeros 64 ++ message ++ Bytes.ofNatBE 2 256 ++ 0 :: suffix)
  expandBlocks first suffix 8 1 (Bytes.zeros 32)

def hashToField (message tag : Bytes) : Fp2 × Fp2 :=
  let coefficient (i : Nat) (bs : Bytes) : Nat := Bytes.toNatBE ((bs.drop (64 * i)).take 64)
  let bs := expandMessage message tag
  (.ofNats (coefficient 0 bs) (coefficient 1 bs), .ofNats (coefficient 2 bs) (coefficient 3 bs))

/-- The linear coefficient of the isogenous curve y² = x³ + A x + B. -/
def isogenousA : Fp2 := .ofNats 0 240

def isogenousB : Fp2 := .ofNats 1012 1012

/-- The non-square that the map to the isogenous curve uses: `-(2 + u)`. -/
def mapNonsquare : Fp2 := -.ofNats 2 1

/-- Map a field element to a point of the isogenous curve. Of the two candidates for the first
coordinate at least one gives a square on the right of the curve's equation; the second coordinate
takes the parity of the field element. -/
def mapToIsogenous (t : Fp2) : Fp2 × Fp2 :=
  let ztt := mapNonsquare * (t * t)
  let denominator := ztt * ztt + ztt
  let x₁ :=
    if denominator = 0 then isogenousB * (mapNonsquare * isogenousA)⁻¹
    else -isogenousB * isogenousA⁻¹ * (1 + denominator⁻¹)
  let rightSide (x : Fp2) : Fp2 := (x * x + isogenousA) * x + isogenousB
  let x₂ := ztt * x₁
  let (x, y) :=
    match (rightSide x₁).sqrt? with
    | some y => (x₁, y)
    | none => (x₂, ((rightSide x₂).sqrt?).getD 0)
  (x, if t.isOdd == y.isOdd then y else -y)

/-- The value at `x` of the polynomial with the given coefficients, constant term first. -/
def evaluate (coefficients : List Fp2) (x : Fp2) : Fp2 :=
  coefficients.foldr (fun c acc => acc * x + c) 0

def isogenyXNumerator : List Fp2 := [
  .ofNats 0x5c759507e8e333ebb5b7a9a47d7ed8532c52d39fd3a042a88b58423c50ae15d5c2638e343d9c71c6238aaaaaaaa97d6
    0x5c759507e8e333ebb5b7a9a47d7ed8532c52d39fd3a042a88b58423c50ae15d5c2638e343d9c71c6238aaaaaaaa97d6,
  .ofNats 0
    0x11560bf17baa99bc32126fced787c88f984f87adf7ae0c7f9a208c6b4f20a4181472aaa9cb8d555526a9ffffffffc71a,
  .ofNats 0x11560bf17baa99bc32126fced787c88f984f87adf7ae0c7f9a208c6b4f20a4181472aaa9cb8d555526a9ffffffffc71e
    0x8ab05f8bdd54cde190937e76bc3e447cc27c3d6fbd7063fcd104635a790520c0a395554e5c6aaaa9354ffffffffe38d,
  .ofNats 0x171d6541fa38ccfaed6dea691f5fb614cb14b4e7f4e810aa22d6108f142b85757098e38d0f671c7188e2aaaaaaaa5ed1 0]

def isogenyXDenominator : List Fp2 := [
  .ofNats 0
    0x1a0111ea397fe69a4b1ba7b6434bacd764774b84f38512bf6730d2a0f6b0f6241eabfffeb153ffffb9feffffffffaa63,
  .ofNats 0xc
    0x1a0111ea397fe69a4b1ba7b6434bacd764774b84f38512bf6730d2a0f6b0f6241eabfffeb153ffffb9feffffffffaa9f,
  1]

def isogenyYNumerator : List Fp2 := [
  .ofNats 0x1530477c7ab4113b59a4c18b076d11930f7da5d4a07f649bf54439d87d27e500fc8c25ebf8c92f6812cfc71c71c6d706
    0x1530477c7ab4113b59a4c18b076d11930f7da5d4a07f649bf54439d87d27e500fc8c25ebf8c92f6812cfc71c71c6d706,
  .ofNats 0
    0x5c759507e8e333ebb5b7a9a47d7ed8532c52d39fd3a042a88b58423c50ae15d5c2638e343d9c71c6238aaaaaaaa97be,
  .ofNats 0x11560bf17baa99bc32126fced787c88f984f87adf7ae0c7f9a208c6b4f20a4181472aaa9cb8d555526a9ffffffffc71c
    0x8ab05f8bdd54cde190937e76bc3e447cc27c3d6fbd7063fcd104635a790520c0a395554e5c6aaaa9354ffffffffe38f,
  .ofNats 0x124c9ad43b6cf79bfbf7043de3811ad0761b0f37a1e26286b0e977c69aa274524e79097a56dc4bd9e1b371c71c718b10 0]

def isogenyYDenominator : List Fp2 := [
  .ofNats 0x1a0111ea397fe69a4b1ba7b6434bacd764774b84f38512bf6730d2a0f6b0f6241eabfffeb153ffffb9feffffffffa8fb
    0x1a0111ea397fe69a4b1ba7b6434bacd764774b84f38512bf6730d2a0f6b0f6241eabfffeb153ffffb9feffffffffa8fb,
  .ofNats 0
    0x1a0111ea397fe69a4b1ba7b6434bacd764774b84f38512bf6730d2a0f6b0f6241eabfffeb153ffffb9feffffffffa9d3,
  .ofNats 0x12
    0x1a0111ea397fe69a4b1ba7b6434bacd764774b84f38512bf6730d2a0f6b0f6241eabfffeb153ffffb9feffffffffaa99,
  1]

/-- The isogeny to the curve of `G2`; its poles go to the identity. -/
def isogeny (p : Fp2 × Fp2) : G2 :=
  let (x, y) := p
  let xDenominator := evaluate isogenyXDenominator x
  let yDenominator := evaluate isogenyYDenominator x
  if xDenominator = 0 ∨ yDenominator = 0 then .identity
  else
    .affine (evaluate isogenyXNumerator x * xDenominator⁻¹)
      (y * evaluate isogenyYNumerator x * yDenominator⁻¹)

/-- The multiple of the cofactor that moves every point of the curve into the group. -/
def effectiveCofactor : Nat :=
  0xbc69f08f2ee75b3584c6a0ea91b352888e2a8e9145ad7689986ff031508ffe1329c2f178731db956d82bf015d1212b02ec0ec69d7477c1ae954cbc06689f6a359894c0adebbf6b4e8020005aaa95551

/-- The point of the second group that a message hashes to under a domain tag. -/
def hashToGroup (message tag : Bytes) : G2 :=
  let (t₀, t₁) := hashToField message tag
  (isogeny (mapToIsogenous t₀) + isogeny (mapToIsogenous t₁)).multiple effectiveCofactor

end Quorate.Bls12381
