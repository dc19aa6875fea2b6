import Quorate.Bytes.Basic

/-!
# Signer bitmaps

A finite set of positions, one bit per position: position `i` is bit `i % 8` of byte `i / 8`. A bitmap
grows as positions are added, and positions past its end are not members.
-/

namespace Quorate

/-- Which positions have signed. -/
structure SignerBitmap where
  bytes : Bytes
deriving DecidableEq, Repr, Inhabited

namespace SignerBitmap

/-- The bitmap without positions that has room for `n`. -/
def ofSize (n : Nat) : SignerBitmap :=
  ⟨Bytes.zeros ((n + 7) / 8)⟩

/-- The byte with the single bit `i` set, `i < 8`. -/
def bit (i : Nat) : UInt8 :=
  UInt8.ofNat (1 <<< i)

def testBit (b : UInt8) (i : Nat) : Bool :=
  b.toNat.testBit i

def contains (m : SignerBitmap) (i : Nat) : Bool :=
  testBit (m.bytes.getD (i / 8) 0) (i % 8)

/-- Add a position, growing as needed. -/
def insert (m : SignerBitmap) (i : Nat) : SignerBitmap :=
  let bytes := m.bytes ++ Bytes.zeros (i / 8 + 1 - m.bytes.length)
  ⟨bytes.modify (i / 8) (· ||| bit (i % 8))⟩

/-- The members of one byte, ascending. -/
def bitsOf (b : UInt8) : List Nat :=
  (List.range 8).filter (testBit b)

def toList (m : SignerBitmap) : List Nat :=
  m.bytes.zipIdx.flatMap fun (b, i) => (bitsOf b).map (8 * i + ·)

def countOf (b : UInt8) : Nat :=
  (bitsOf b).length

def size (m : SignerBitmap) : Nat :=
  (m.bytes.map countOf).foldr (· + ·) 0

/-- The greatest member, looked for from the last byte. -/
def max? (m : SignerBitmap) : Option Nat :=
  (m.bytes.zipIdx.reverse.find? fun (b, _) => b ≠ 0).map fun (b, i) => 8 * i + b.toNat.log2

def isEmpty (m : SignerBitmap) : Bool :=
  m.bytes.all (· == 0)

theorem testBit_bit {i j : Nat} (hi : i < 8) : testBit (bit i) j = decide (i = j) := by
  have h : (2 ^ i) % 2 ^ 8 = 2 ^ i := Nat.mod_eq_of_lt (Nat.pow_lt_pow_right (by decide) hi)
  rw [testBit, bit, UInt8.toNat_ofNat', Nat.one_shiftLeft, h, Nat.testBit_two_pow]

theorem testBit_or (a b : UInt8) (j : Nat) : testBit (a ||| b) j = (testBit a j || testBit b j) := by
  simp [testBit, UInt8.toNat_or]

/-- Adding a position adds that position and no other. -/
theorem contains_insert (m : SignerBitmap) (i j : Nat) :
    (m.insert i).contains j = (decide (i = j) || m.contains j) := by
  have grown (k : Nat) :
      (m.bytes ++ Bytes.zeros (i / 8 + 1 - m.bytes.length))[k]?.getD 0 = m.bytes[k]?.getD 0 := by
    by_cases hk : k < m.bytes.length
    · rw [List.getElem?_append_left hk]
    · have hout : m.bytes[k]? = none := List.getElem?_eq_none (by omega)
      rw [List.getElem?_append_right (by omega), hout, Bytes.zeros, List.getElem?_replicate]
      split <;> rfl
  have room : i / 8 < (m.bytes ++ Bytes.zeros (i / 8 + 1 - m.bytes.length)).length := by
    rw [List.length_append, Bytes.length_zeros]
    omega
  simp only [insert, contains, List.getD_eq_getElem?_getD, ← grown (j / 8), List.getElem?_modify]
  by_cases h : i / 8 = j / 8
  · have hij : i % 8 = j % 8 ↔ i = j := by omega
    rw [h] at room
    rw [h, List.getElem?_eq_getElem room]
    simp [testBit_or, testBit_bit (Nat.mod_lt i (by decide : 0 < 8)), hij, Bool.or_comm]
  · have hij : i ≠ j := fun e => h (e ▸ rfl)
    simp [h, hij]

end SignerBitmap

end Quorate
