import Quorate.Bytes.Basic
import Quorate.Text.Blank
import Quorate.Text.Digit
import Quorate.Text.Quoted

/-!
# Voting power

The weight of a validator is a natural number without bound. Its text is decimal; reading allows blanks
around the number and underscores within it. A power that is part of a signed or hashed record is
written in 32 bytes, which holds every power below 2 ^ 256.
-/

namespace Quorate

/-- The weight of a validator or of a group of validators. -/
structure VotingPower where
  val : Nat
deriving DecidableEq, Repr, Inhabited

structure PowerTextError where
  text : String
deriving DecidableEq, Repr

def PowerTextError.message (e : PowerTextError) : String :=
  s!"Invalid voting power: {Text.quoted e.text}"

namespace VotingPower

instance : Zero VotingPower := ⟨⟨0⟩⟩

instance : Add VotingPower := ⟨fun a b => ⟨a.val + b.val⟩⟩

instance : LT VotingPower := ⟨fun a b => a.val < b.val⟩

instance : LE VotingPower := ⟨fun a b => a.val ≤ b.val⟩

instance (a b : VotingPower) : Decidable (a < b) :=
  inferInstanceAs (Decidable (a.val < b.val))

instance (a b : VotingPower) : Decidable (a ≤ b) :=
  inferInstanceAs (Decidable (a.val ≤ b.val))

def sum (powers : List VotingPower) : VotingPower :=
  powers.foldl (· + ·) 0

/-- The number of decimal places of a token. -/
def tokenDecimals : Nat := 18

def ofTokens (tokens : UInt64) : VotingPower :=
  ⟨tokens.toNat * Nat.pow 10 tokenDecimals⟩

def ofWord (n : UInt64) : VotingPower :=
  ⟨n.toNat⟩

def isZero (p : VotingPower) : Bool :=
  p.val == 0

def bits (p : VotingPower) : Nat :=
  if p.val = 0 then 0 else p.val.log2 + 1

/-- The power in 32 bytes, most significant first, unless it is wider: its own bytes behind zeros. -/
def toBytes32? (p : VotingPower) : Option Bytes :=
  if p.bits ≤ 256 then
    let digits := Bytes.shortestBE p.val
    some (Bytes.zeros (32 - digits.length) ++ digits)
  else none

def text (p : VotingPower) : String :=
  Nat.repr p.val

/-- Read a power: blanks at the ends and underscores anywhere between do not count, and what remains is
one or more digits. -/
def ofText (s : String) : Except PowerTextError VotingPower :=
  let digits := (Text.trim s.toList).filter (· ≠ '_')
  if digits.isEmpty || !digits.all Text.isDecimalDigit then .error ⟨s⟩
  else .ok ⟨Text.ofDecimal digits⟩

theorem bits_le_iff {p : VotingPower} {n : Nat} : p.bits ≤ n ↔ p.val < 1 <<< n := by
  rw [Nat.one_shiftLeft]
  unfold bits
  split
  · rename_i h
    rw [h]
    exact iff_of_true n.zero_le (Nat.two_pow_pos n)
  · rename_i h
    rw [Nat.succ_le_iff, Nat.log2_lt h]

end VotingPower

end Quorate
