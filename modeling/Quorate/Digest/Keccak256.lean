import Quorate.Bytes.Basic

/-!
# Keccak-256

The sponge over 25 lanes of 64 bits with a rate of 136 bytes and the padding that begins with a single
one bit, as account addresses use it. The lane at column `x` and row `y` has index `x + 5 * y`.
-/

namespace Quorate.Keccak256

/-- The 25 lanes. -/
abbrev State := Array UInt64

/-- The lane at column `x` and row `y`, both modulo 5. -/
def lane (s : State) (x y : Nat) : UInt64 :=
  s.getD (x % 5 + 5 * (y % 5)) 0

/-- The state whose lane at column `x` and row `y` is `f x y`. -/
def tabulate (f : Nat → Nat → UInt64) : State :=
  (Array.range 25).map fun i => f (i % 5) (i / 5)

/-- `w` turned left by `n` bits, `n < 64`. -/
def rotateLeft (w : UInt64) (n : Nat) : UInt64 :=
  (w <<< UInt64.ofNat n) ||| (w >>> UInt64.ofNat (64 - n))

/-- How far each lane turns in the step `rhoPi`, by index. -/
def rotations : Array Nat :=
  #[0, 1, 62, 28, 27, 36, 44, 6, 55, 20, 3, 10, 43, 25, 39, 41, 45, 15, 21, 8, 18, 2, 61, 56, 14]

/-- Add to every lane the parities of two neighbouring columns. -/
def theta (s : State) : State :=
  let parity := (Array.range 5).map fun x =>
    lane s x 0 ^^^ lane s x 1 ^^^ lane s x 2 ^^^ lane s x 3 ^^^ lane s x 4
  let column (x : Nat) : UInt64 := parity.getD (x % 5) 0
  tabulate fun x y => lane s x y ^^^ column (x + 4) ^^^ rotateLeft (column (x + 1)) 1

/-- Turn every lane by its own amount and move it to its new place. -/
def rhoPi (s : State) : State :=
  tabulate fun x y =>
    let source := (x + 3 * y) % 5
    rotateLeft (lane s source x) (rotations.getD (source + 5 * x) 0)

/-- Combine every lane with the two to its right; the only step that is not linear. -/
def chi (s : State) : State :=
  tabulate fun x y => lane s x y ^^^ (~~~lane s (x + 1) y &&& lane s (x + 2) y)

def roundConstants : List UInt64 := [
  0x0000000000000001, 0x0000000000008082, 0x800000000000808a, 0x8000000080008000,
  0x000000000000808b, 0x0000000080000001, 0x8000000080008081, 0x8000000000008009,
  0x000000000000008a, 0x0000000000000088, 0x0000000080008009, 0x000000008000000a,
  0x000000008000808b, 0x800000000000008b, 0x8000000000008089, 0x8000000000008003,
  0x8000000000008002, 0x8000000000000080, 0x000000000000800a, 0x800000008000000a,
  0x8000000080008081, 0x8000000000008080, 0x0000000080000001, 0x8000000080008008]

/-- The permutation: 24 rounds, each ending with its constant added to lane (0, 0). -/
def permute (s : State) : State :=
  roundConstants.foldl (fun s k => (chi (rhoPi (theta s))).modify 0 (· ^^^ k)) s

/-- Bytes absorbed by one permutation. -/
def rate : Nat := 136

def absorb (s : State) (block : Bytes) : State :=
  let words := ((Bytes.chunks 8 block).map fun piece => UInt64.ofNat (Bytes.toNatLE piece)).toArray
  permute (tabulate fun x y => lane s x y ^^^ words.getD (x + 5 * y) 0)

/-- The message, a one bit, zeros, and a last one bit at the end of a block. -/
def pad (message : Bytes) : Bytes :=
  let gap := rate - message.length % rate
  if gap = 1 then message ++ [0x81] else message ++ 0x01 :: Bytes.zeros (gap - 2) ++ [0x80]

end Keccak256

def keccak256 (message : Bytes) : Bytes :=
  let state := (Bytes.chunks Keccak256.rate (Keccak256.pad message)).foldl Keccak256.absorb
    (Keccak256.tabulate fun _ _ => 0)
  (List.range 4).flatMap fun x => Bytes.ofNatLE 8 (Keccak256.lane state x 0).toNat

end Quorate
