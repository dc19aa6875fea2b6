import Quorate.Proofs.ValidatorSet.Lookup
import Quorate.ValidatorSet.Quorum

/-!
# The power of a group

What the validators of a group hold together, for any condition on their addresses. Two groups hold
together what either holds plus what both hold. The quorum evaluation, which follows the signers in the
order of their addresses, aggregates the power of the signers as a group and counts its active members.
-/

namespace Quorate

theorem VotingPower.val_add (p q : VotingPower) : (p + q).val = p.val + q.val := rfl

theorem VotingPower.val_foldl_add (p : VotingPower) (powers : List VotingPower) :
    (powers.foldl (· + ·) p).val = p.val + (powers.map VotingPower.val).sum := by
  induction powers generalizing p with
  | nil => simp
  | cons q rest ih => rw [List.foldl_cons, ih, val_add, List.map_cons, List.sum_cons, Nat.add_assoc]

theorem VotingPower.val_sum (powers : List VotingPower) :
    (sum powers).val = (powers.map VotingPower.val).sum := by
  have hzero : (0 : VotingPower).val = 0 := rfl
  rw [sum, val_foldl_add, hzero, Nat.zero_add]

section Sums

variable {A : Type} (f : A → Nat)

theorem sum_filter_add_sum_filter (p q : A → Prop) [DecidablePred p] [DecidablePred q] (as : List A) :
    ((as.filter fun a => p a ∧ q a).map f).sum + ((as.filter fun a => p a ∨ q a).map f).sum =
      ((as.filter fun a => p a).map f).sum + ((as.filter fun a => q a).map f).sum := by
  simp only [Bool.decide_and, Bool.decide_or]
  induction as with
  | nil => rfl
  | cons a rest ih =>
    by_cases hp : p a <;> by_cases hq : q a <;> simp [hp, hq] <;> omega

theorem sum_filter_le (p : A → Prop) [DecidablePred p] (as : List A) :
    ((as.filter fun a => p a).map f).sum ≤ (as.map f).sum :=
  (List.filter_sublist.map f).sum_le_sum fun _ _ => Nat.zero_le _

theorem sum_filter_pos (as : List A) : ((as.filter fun a => 0 < f a).map f).sum = (as.map f).sum := by
  induction as with
  | nil => rfl
  | cons a rest ih =>
    by_cases h : 0 < f a
    · simp [h, ih]
    · have hzero : f a = 0 := by omega
      simp [hzero, ih]

theorem exists_pos_of_sum_pos {as : List A} (h : 0 < (as.map f).sum) : ∃ a ∈ as, 0 < f a := by
  by_contra hnone
  push Not at hnone
  have hzero : (as.map f).sum = 0 := by
    refine List.sum_eq_zero fun n hn => ?_
    obtain ⟨a, ha, rfl⟩ := List.mem_map.1 hn
    exact Nat.le_zero.1 (hnone a ha)
  omega

end Sums

theorem Account.isActive_iff {a : Account} : a.isActive = true ↔ 0 < a.power.val := by
  simp [isActive, VotingPower.isZero, Nat.pos_iff_ne_zero]

theorem sum_filter_isActive (as : List Account) :
    ((as.filter Account.isActive).map fun a => a.power.val).sum = (as.map fun a => a.power.val).sum := by
  have hactive : as.filter Account.isActive = as.filter fun a => 0 < a.power.val := by
    refine List.filter_congr fun a _ => ?_
    rw [Bool.eq_iff_iff, Account.isActive_iff, decide_eq_true_iff]
  rw [hactive]
  exact sum_filter_pos (fun a : Account => a.power.val) as

namespace ValidatorSet

variable (s : ValidatorSet)

/-- The power of the validators whose addresses satisfy a condition. -/
def powerOf (group : Address → Prop) [DecidablePred group] : VotingPower :=
  VotingPower.sum ((s.membersIn group).map Account.power)

/-- The number of validators with some power whose addresses satisfy a condition. -/
def activeIn (group : Address → Prop) [DecidablePred group] : Nat :=
  (s.membersIn group).countP Account.isActive

variable (p q : Address → Prop) [DecidablePred p] [DecidablePred q]

theorem val_powerOf : (s.powerOf p).val = ((s.membersIn p).map fun a => a.power.val).sum := by
  rw [powerOf, VotingPower.val_sum, List.map_map]
  rfl

theorem val_total : s.total.val = (s.accounts.map fun a => a.power.val).sum := by
  rw [total_eq, VotingPower.val_sum, List.map_map]
  rfl

theorem powerOf_add_powerOf :
    (s.powerOf fun x => p x ∧ q x).val + (s.powerOf fun x => p x ∨ q x).val =
      (s.powerOf p).val + (s.powerOf q).val := by
  simp only [val_powerOf]
  exact sum_filter_add_sum_filter (fun a : Account => a.power.val) (fun a => p a.address)
    (fun a => q a.address) s.accounts

theorem powerOf_le_total : (s.powerOf p).val ≤ s.total.val := by
  rw [val_powerOf, val_total]
  exact sum_filter_le _ (fun a : Account => p a.address) _

variable {s p} in
theorem powerOf_eq_total (h : ∀ a ∈ s.accounts, p a.address) : s.powerOf p = s.total := by
  rw [powerOf, membersIn_eq_accounts h, total_eq]

variable {s p} in
theorem exists_of_powerOf_pos (h : 0 < (s.powerOf p).val) :
    ∃ a ∈ s.accounts, 0 < a.power.val ∧ p a.address := by
  rw [val_powerOf] at h
  obtain ⟨a, ha, hpos⟩ := exists_pos_of_sum_pos _ h
  obtain ⟨hmem, hp⟩ := mem_membersIn.1 ha
  exact ⟨a, hmem, hpos, hp⟩

/-- The powers that the evaluation sums are those of the signers' active validators. -/
theorem countedPowers_perm (signers : AddressSet) :
    (s.countedPowers signers).Perm
      (((s.membersIn (· ∈ signers)).filter Account.isActive).map Account.power) := by
  have hpowers : signers.toList.filterMap s.power? = (signers.toList.filterMap s.find?).map Account.power := by
    rw [List.map_filterMap]
    exact congrArg (signers.toList.filterMap ·) (funext s.power?_eq_map_find?)
  rw [countedPowers, hpowers, List.filter_map]
  exact ((s.filterMap_find?_perm signers).filter _).map _

theorem present_evaluateQuorum (height : BlockHeight) (signers : AddressSet) :
    (s.evaluateQuorum height signers).present = s.activeIn (· ∈ signers) := by
  have hlength := (s.countedPowers_perm signers).length_eq
  rw [List.length_map, ← List.countP_eq_length_filter] at hlength
  exact hlength

theorem aggregated_evaluateQuorum (height : BlockHeight) (signers : AddressSet) :
    (s.evaluateQuorum height signers).aggregated.val = (s.powerOf (· ∈ signers)).val := by
  have hsum := ((s.countedPowers_perm signers).map VotingPower.val).sum_eq
  have haggregated : (s.evaluateQuorum height signers).aggregated.val =
      ((s.countedPowers signers).map VotingPower.val).sum := VotingPower.val_sum _
  rw [haggregated, hsum, val_powerOf, List.map_map]
  exact sum_filter_isActive _

end ValidatorSet

end Quorate
