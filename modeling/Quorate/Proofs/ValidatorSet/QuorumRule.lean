import Quorate.Proofs.ValidatorSet.GroupPower

/-!
# The quorum rule without division

The rule rounds a ratio of the total down and adds one. Over whole numbers this is a strict comparison of
products, so no rounding is left in what follows. Where the rule asks for the entire total, the signers
decide exactly when their power reaches it.
-/

namespace Quorate

namespace QuorumPolicy

variable {p : QuorumPolicy} {total aggregated : VotingPower} {present : Nat}

theorem Valid.denominator_pos (h : p.Valid) : 0 < p.denominator.toNat := by
  refine Nat.pos_of_ne_zero fun hzero => h.1 ?_
  exact UInt64.toNat_inj.1 hzero

theorem Valid.numerator_le (h : p.Valid) : p.numerator.toNat ≤ p.denominator.toNat :=
  UInt64.le_iff_toNat_le.1 h.2

theorem valid_standard : standard.Valid := by
  decide

/-- The rule asks for the entire total. -/
def AsksForTotal (p : QuorumPolicy) (total : VotingPower) (present : Nat) : Prop :=
  present < p.minSigners.toNat ∨ total.val < p.minTotal.toNat

instance : Decidable (p.AsksForTotal total present) :=
  inferInstanceAs (Decidable (_ ∨ _))

theorem quorumSize_of_asksForTotal (h : p.AsksForTotal total present) : p.quorumSize total present = total := by
  unfold quorumSize superMajority
  rcases h with h | h
  · rw [if_pos h]
  · rw [if_pos h, ite_self]

theorem val_quorumSize_of_not_asksForTotal (h : ¬ p.AsksForTotal total present) :
    (p.quorumSize total present).val = total.val * p.numerator.toNat / p.denominator.toNat + 1 := by
  obtain ⟨hsigners, htotal⟩ := not_or.1 h
  rw [quorumSize, if_neg hsigners, superMajority, if_neg htotal]

/-- Reaching what the rule requires, without division: the total itself, or strictly more than the ratio. -/
theorem quorumSize_le_iff (hp : p.Valid) :
    p.quorumSize total present ≤ aggregated ↔
      if p.AsksForTotal total present then total.val ≤ aggregated.val
      else total.val * p.numerator.toNat < aggregated.val * p.denominator.toNat := by
  split
  · rename_i h
    rw [quorumSize_of_asksForTotal h]
    rfl
  · rename_i h
    have hrequired := val_quorumSize_of_not_asksForTotal h
    change (p.quorumSize total present).val ≤ aggregated.val ↔ _
    rw [hrequired, Nat.succ_le_iff, Nat.div_lt_iff_lt_mul hp.denominator_pos]

/-- The requirement stays within the total unless a ratio of one is applied. -/
theorem quorumSize_le_total_iff (hp : p.Valid) (htotal : total.val ≠ 0) :
    p.quorumSize total present ≤ total ↔ p.numerator < p.denominator ∨ p.AsksForTotal total present := by
  rw [quorumSize_le_iff hp, UInt64.lt_iff_toNat_lt]
  split
  · rename_i h
    exact iff_of_true le_rfl (Or.inr h)
  · rename_i h
    rw [Nat.mul_lt_mul_left (Nat.pos_of_ne_zero htotal)]
    exact (or_iff_left h).symm

end QuorumPolicy

namespace ValidatorSet

variable (s : ValidatorSet) (height : BlockHeight) (signers : AddressSet)

theorem hasQuorum_iff_quorumSize_le :
    s.hasQuorum height signers = true ↔
      s.policy.quorumSize s.total (s.activeIn (· ∈ signers)) ≤ s.powerOf (· ∈ signers) := by
  have hpresent := s.present_evaluateQuorum height signers
  have haggregated := s.aggregated_evaluateQuorum height signers
  have hrequired : (s.evaluateQuorum height signers).required =
      s.policy.quorumSize s.total (s.activeIn (· ∈ signers)) := by
    rw [← hpresent]
    rfl
  rw [hasQuorum, QuorumEvaluation.reached, QuorumPolicy.reaches, decide_eq_true_iff, hrequired]
  change _ ≤ (s.evaluateQuorum height signers).aggregated.val ↔ _
  rw [haggregated]
  rfl

/-- The decision for a group of signers: all the power there is, or strictly more than the ratio of it. -/
theorem hasQuorum_iff :
    s.hasQuorum height signers = true ↔
      if s.policy.AsksForTotal s.total (s.activeIn (· ∈ signers)) then
        s.total.val ≤ (s.powerOf (· ∈ signers)).val
      else
        s.total.val * s.policy.numerator.toNat <
          (s.powerOf (· ∈ signers)).val * s.policy.denominator.toNat := by
  rw [hasQuorum_iff_quorumSize_le, QuorumPolicy.quorumSize_le_iff s.valid]

end ValidatorSet

/-- A validator whose address repeats one byte. -/
def Account.numbered (n : UInt8) (power : UInt64) : Account where
  address := ⟨List.replicate 20 n, List.length_replicate⟩
  publicKey := ⟨Bls12381.G1.generator⟩
  power := .ofWord power
  fits := by
    refine VotingPower.bits_le_iff.2 ?_
    have hword := power.toNat_lt
    rw [Nat.one_shiftLeft]
    exact hword.trans (Nat.pow_lt_pow_right (by decide) (by decide))

end Quorate
