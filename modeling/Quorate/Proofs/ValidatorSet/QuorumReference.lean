import Quorate.Proofs.ValidatorSet.QuorumRule

/-!
# The quorum decision as a comparison

The evaluation looks up powers, adds them, rounds a ratio and compares. What comes out is decided by the
signers with some power alone: where the entire total is asked for, all validators with some power must be
among them; elsewhere their power must exceed the ratio of the total, as a comparison of products.
-/

namespace Quorate

namespace ValidatorSet

variable (s : ValidatorSet) (p : Address → Prop) [DecidablePred p]

variable {s p} in
theorem power_le_powerOf {a : Account} (ha : a ∈ s.accounts) (hp : p a.address) :
    a.power.val ≤ (s.powerOf p).val := by
  rw [val_powerOf]
  have hmem : a.power.val ∈ (s.membersIn p).map fun a => a.power.val :=
    List.mem_map.2 ⟨a, mem_membersIn.2 ⟨ha, hp⟩, rfl⟩
  exact List.single_le_sum (fun _ _ => Nat.zero_le _) _ hmem

theorem powerOf_add_powerOf_not :
    (s.powerOf p).val + (s.powerOf fun x => ¬ p x).val = s.total.val := by
  have hboth : (s.powerOf fun x => p x ∧ ¬ p x).val = 0 := by
    have hnobody : s.membersIn (fun x => p x ∧ ¬ p x) = [] :=
      List.filter_eq_nil_iff.2 fun a _ => by simp
    rw [val_powerOf, hnobody]
    rfl
  have heither : s.powerOf (fun x => p x ∨ ¬ p x) = s.total :=
    powerOf_eq_total fun a _ => Decidable.em _
  have hsum := s.powerOf_add_powerOf p fun x => ¬ p x
  rw [hboth, heither, Nat.zero_add] at hsum
  exact hsum.symm

/-- A group holds the entire total exactly if no validator with some power is outside it. -/
theorem total_le_powerOf_iff :
    s.total.val ≤ (s.powerOf p).val ↔ ∀ a ∈ s.accounts, 0 < a.power.val → p a.address := by
  have hsplit := s.powerOf_add_powerOf_not p
  constructor
  · intro hle a ha hpos
    by_contra hout
    have hpower := power_le_powerOf (p := fun x => ¬ p x) ha hout
    omega
  · intro hall
    by_contra hlt
    have hpos : 0 < (s.powerOf fun x => ¬ p x).val := by omega
    obtain ⟨a, ha, hactive, hout⟩ := exists_of_powerOf_pos hpos
    exact hout (hall a ha hactive)

def activeMembersIn : List Account :=
  s.accounts.filter fun a => p a.address ∧ 0 < a.power.val

theorem activeMembersIn_eq : s.activeMembersIn p = (s.membersIn p).filter Account.isActive := by
  rw [activeMembersIn, membersIn, List.filter_filter]
  refine List.filter_congr fun a _ => ?_
  rw [Bool.eq_iff_iff, Bool.and_eq_true, decide_eq_true_iff, decide_eq_true_iff, Account.isActive_iff, and_comm]

theorem length_activeMembersIn : (s.activeMembersIn p).length = s.activeIn p := by
  rw [activeMembersIn_eq, activeIn, List.countP_eq_length_filter]

theorem sum_activeMembersIn :
    ((s.activeMembersIn p).map fun a => a.power.val).sum = (s.powerOf p).val := by
  rw [activeMembersIn_eq, sum_filter_isActive, val_powerOf]

variable (height : BlockHeight) (signers : AddressSet)

theorem quorumSize_eq :
    s.quorumSize height signers = s.policy.quorumSize s.total (s.activeIn (· ∈ signers)) := by
  have hpresent := s.present_evaluateQuorum height signers
  rw [← hpresent]
  rfl

/-- Where the ratio applies, the required power is the least whose product exceeds that of the total. -/
theorem quorumSize_bounds (h : ¬ s.policy.AsksForTotal s.total (s.activeIn (· ∈ signers))) :
    ∃ below, (s.quorumSize height signers).val = below + 1 ∧
      below * s.policy.denominator.toNat ≤ s.total.val * s.policy.numerator.toNat ∧
      s.total.val * s.policy.numerator.toNat < (below + 1) * s.policy.denominator.toNat := by
  have hpos := s.valid.denominator_pos
  refine ⟨s.total.val * s.policy.numerator.toNat / s.policy.denominator.toNat, ?_, ?_, ?_⟩
  · rw [quorumSize_eq, QuorumPolicy.val_quorumSize_of_not_asksForTotal h]
  · exact Nat.div_mul_le_self _ _
  · exact (Nat.div_lt_iff_lt_mul hpos).1 (Nat.lt_succ_self _)

/-- The decision in exact whole numbers, by the signers with some power, how many they are and what they
hold together: they are all the validators with some power, where the policy asks for the entire total, and
elsewhere their power exceeds the ratio of the total. What the evaluation counts and adds is exact for every
power; and where the ratio applies, the required power is the least that exceeds it, so with one unit less
the decision is the other. -/
theorem hasQuorum_iff_reference (s : ValidatorSet) (height : BlockHeight) (signers : AddressSet) :
    let counted := s.activeMembersIn (· ∈ signers)
    let present := counted.length
    let aggregated := (counted.map fun a => a.power.val).sum
    let total := (s.accounts.map fun a => a.power.val).sum
    let numerator := s.policy.numerator.toNat
    let denominator := s.policy.denominator.toNat
    let asksForTotal := present < s.policy.minSigners.toNat ∨ total < s.policy.minTotal.toNat
    (s.hasQuorum height signers = true ↔
      asksForTotal ∧ (∀ a ∈ s.accounts, 0 < a.power.val → a.address ∈ signers) ∨
      ¬ asksForTotal ∧ total * numerator < aggregated * denominator) ∧
    ((s.evaluateQuorum height signers).present = present ∧
      (s.evaluateQuorum height signers).aggregated.val = aggregated ∧ s.total.val = total) ∧
    (¬ asksForTotal → ∃ below, (s.quorumSize height signers).val = below + 1 ∧
      (below * denominator ≤ total * numerator ∧ total * numerator < (below + 1) * denominator) ∧
      (s.hasQuorum height signers = true ↔ below + 1 ≤ aggregated) ∧
      (s.hasQuorum height signers = false ↔ aggregated ≤ below)) := by
  intro counted present aggregated total numerator denominator asksForTotal
  have hpresent : present = s.activeIn (· ∈ signers) := s.length_activeMembersIn (· ∈ signers)
  have haggregated : aggregated = (s.powerOf (· ∈ signers)).val := s.sum_activeMembersIn (· ∈ signers)
  have htotal : total = s.total.val := s.val_total.symm
  have hasks : asksForTotal ↔ s.policy.AsksForTotal s.total (s.activeIn (· ∈ signers)) := by
    change present < _ ∨ total < _ ↔ _
    rw [hpresent, htotal]
    rfl
  have hdecision : s.hasQuorum height signers = true ↔
      asksForTotal ∧ (∀ a ∈ s.accounts, 0 < a.power.val → a.address ∈ signers) ∨
      ¬ asksForTotal ∧ total * numerator < aggregated * denominator := by
    rw [hasQuorum_iff, hasks, haggregated, htotal, total_le_powerOf_iff]
    split
    · rename_i h
      simp [h]
    · rename_i h
      simp [h, numerator, denominator]
  refine ⟨hdecision, ⟨?_, ?_, htotal.symm⟩, ?_⟩
  · rw [present_evaluateQuorum, hpresent]
  · rw [aggregated_evaluateQuorum, haggregated]
  · intro hratio
    obtain ⟨below, hsize, hle, hlt⟩ := s.quorumSize_bounds height signers (mt hasks.2 hratio)
    have hreached : s.hasQuorum height signers = true ↔ below + 1 ≤ aggregated := by
      rw [hasQuorum_iff_quorumSize_le, ← quorumSize_eq s height signers, haggregated, ← hsize]
      rfl
    refine ⟨below, hsize, ?_, hreached, ?_⟩
    · rw [htotal]
      exact ⟨hle, hlt⟩
    · rw [← Bool.not_eq_true, hreached]
      omega

end ValidatorSet

end Quorate
