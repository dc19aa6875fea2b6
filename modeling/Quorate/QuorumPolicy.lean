import Quorate.VotingPower

/-!
# Quorum policies

A policy says how much voting power decides. The rule is a super-majority: one more than the whole part
of a ratio of the total. Two guards ask for the entire total instead: too few signers are present, or
the total is too small for the ratio to mean anything.
-/

namespace Quorate

structure QuorumPolicy where
  /-- With fewer signers present the entire total is required. -/
  minSigners : UInt64
  numerator : UInt64
  denominator : UInt64
  /-- With a smaller total the entire total is required. -/
  minTotal : UInt64
deriving DecidableEq, Repr

inductive PolicyError
  | zeroDenominator
  | ratioAboveOne (numerator denominator : UInt64)
deriving DecidableEq, Repr

def PolicyError.message : PolicyError → String
  | zeroDenominator => "quorum denominator must be non-zero"
  | ratioAboveOne numerator denominator =>
    s!"quorum ratio {numerator.toNat}/{denominator.toNat} exceeds 1"

namespace QuorumPolicy

/-- The standard rule: more than 61.4% of the total, from four signers and a total of ten on. -/
def standard : QuorumPolicy :=
  ⟨4, 614, 1000, 10⟩

instance : Inhabited QuorumPolicy := ⟨standard⟩

/-- A policy that can be used: its ratio is a number between zero and one. -/
def Valid (p : QuorumPolicy) : Prop :=
  p.denominator ≠ 0 ∧ p.numerator ≤ p.denominator

instance (p : QuorumPolicy) : Decidable p.Valid :=
  inferInstanceAs (Decidable (_ ∧ _))

def validate (p : QuorumPolicy) : Except PolicyError Unit :=
  if p.denominator = 0 then .error .zeroDenominator
  else if p.denominator < p.numerator then .error (.ratioAboveOne p.numerator p.denominator)
  else .ok ()

theorem validate_eq_ok_iff {p : QuorumPolicy} : p.validate = .ok () ↔ p.Valid := by
  unfold validate Valid
  split
  · simp_all
  · split
    · rename_i h
      simp [UInt64.not_le.2 h]
    · rename_i h h'
      simp [h, UInt64.not_lt.1 h']

/-- The power that decides when enough signers are present. -/
def superMajority (p : QuorumPolicy) (total : VotingPower) : VotingPower :=
  if total.val < p.minTotal.toNat then total
  else ⟨total.val * p.numerator.toNat / p.denominator.toNat + 1⟩

/-- The power that decides when `present` signers are there. -/
def quorumSize (p : QuorumPolicy) (total : VotingPower) (present : Nat) : VotingPower :=
  if present < p.minSigners.toNat then total else p.superMajority total

/-- Whether the rule divides by zero for this total, as only a policy that is not valid can. -/
def isUndefined (p : QuorumPolicy) (total : VotingPower) : Bool :=
  p.denominator == 0 && p.minTotal.toNat ≤ total.val

def superMajority? (p : QuorumPolicy) (total : VotingPower) : Option VotingPower :=
  if p.isUndefined total then none else some (p.superMajority total)

def quorumSize? (p : QuorumPolicy) (total : VotingPower) (present : Nat) : Option VotingPower :=
  if present < p.minSigners.toNat then some total else p.superMajority? total

def reaches (aggregated required : VotingPower) : Bool :=
  required ≤ aggregated

end QuorumPolicy

end Quorate
