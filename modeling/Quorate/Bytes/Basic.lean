/-!
# Byte strings

A byte string is a list of bytes. This module holds the two positional readings of such a string
(most significant byte first and least significant byte first), the writings that invert them at a
fixed width, and the UTF-8 bytes of a text. Byte strings are ordered as lists are, by the first
difference.
-/

namespace Quorate

abbrev Bytes := List UInt8

namespace Bytes

/-- The number that `bs` writes in base 256, most significant byte first. -/
def toNatBE (bs : Bytes) : Nat :=
  bs.foldl (fun n b => n * 256 + b.toNat) 0

/-- The low `width` base-256 digits of `n`, most significant first. -/
def ofNatBE : (width : Nat) → Nat → Bytes
  | 0, _ => []
  | width + 1, n => UInt8.ofNat (n >>> (8 * width)) :: ofNatBE width n

/-- The bytes of `n` without leading zeros, most significant first; zero is a single byte. -/
def shortestBE (n : Nat) : Bytes :=
  ofNatBE (n.log2 / 8 + 1) n

/-- The number that `bs` writes in base 256, least significant byte first. -/
def toNatLE : Bytes → Nat
  | [] => 0
  | b :: bs => b.toNat + 256 * toNatLE bs

/-- The low `width` base-256 digits of `n`, least significant first. -/
def ofNatLE : (width : Nat) → Nat → Bytes
  | 0, _ => []
  | width + 1, n => UInt8.ofNat n :: ofNatLE width (n / 256)

def ofText (s : String) : Bytes :=
  s.toList.flatMap String.utf8EncodeChar

def zeros (n : Nat) : Bytes :=
  List.replicate n 0

/-- `bs` cut into pieces of `size` bytes; the last piece may be shorter. -/
def chunks (size : Nat) (bs : Bytes) : List Bytes :=
  go bs.length bs
where
  go : Nat → Bytes → List Bytes
    | 0, _ => []
    | _ + 1, [] => []
    | fuel + 1, bs => bs.take size :: go fuel (bs.drop size)

/-- Position by position exclusive or; the result is as long as the shorter argument. -/
def xor (a b : Bytes) : Bytes :=
  List.zipWith (· ^^^ ·) a b

@[simp] theorem length_ofNatBE (width n : Nat) : (ofNatBE width n).length = width := by
  induction width with
  | zero => rfl
  | succ width ih => simp [ofNatBE, ih]

@[simp] theorem length_ofNatLE (width n : Nat) : (ofNatLE width n).length = width := by
  induction width generalizing n with
  | zero => rfl
  | succ width ih => simp [ofNatLE, ih]

@[simp] theorem length_zeros (n : Nat) : (zeros n).length = n := by
  simp [zeros]

theorem toNatLE_ofNatLE (width n : Nat) : toNatLE (ofNatLE width n) = n % (1 <<< (8 * width)) := by
  rw [Nat.one_shiftLeft]
  induction width generalizing n with
  | zero => simp [ofNatLE, toNatLE, Nat.mod_one]
  | succ width ih =>
    have hb : (UInt8.ofNat n).toNat = n % 256 := UInt8.toNat_ofNat'
    have hp : 2 ^ (8 * (width + 1)) = 256 * 2 ^ (8 * width) := by
      rw [Nat.mul_succ, Nat.pow_add, Nat.mul_comm]
    rw [ofNatLE, toNatLE, ih, hb, hp, Nat.mod_mul]

theorem ofNatLE_toNatLE (bs : Bytes) : ofNatLE bs.length (toNatLE bs) = bs := by
  induction bs with
  | nil => rfl
  | cons b bs ih =>
    have hb := b.toNat_lt
    have hq : (b.toNat + 256 * toNatLE bs) / 256 = toNatLE bs := by omega
    have hr : UInt8.ofNat (b.toNat + 256 * toNatLE bs) = b := by
      apply UInt8.toNat_inj.1
      rw [UInt8.toNat_ofNat']
      omega
    simp only [List.length_cons, toNatLE, ofNatLE, hq, hr, ih]

end Bytes

end Quorate
