import Quorate.Proofs.ValidatorSet.QuorumReference

/-!
# What a quorum decision rests on

The policy, the validators with some power and which of them signed: two sets that agree on these require the
same power and decide alike, whatever else they hold and whoever else signed. And signers that join never undo
a decision, although with more of them present another rule may apply. Either that rule applied already, or
those who signed before were all the validators with some power, and then nobody who counts can join.
-/

namespace Quorate

namespace ValidatorSet

section Agreement

variable {s t : ValidatorSet} {p q : Address → Prop} [DecidablePred p] [DecidablePred q]

/-- The addresses of a group's validators with some power, with their powers. -/
def activePowersIn (s : ValidatorSet) (p : Address → Prop) [DecidablePred p] : List (Address × VotingPower) :=
  (s.activeMembersIn p).map fun a => (a.address, a.power)

theorem mem_activePowersIn {x : Address} {power : VotingPower} :
    (x, power) ∈ s.activePowersIn p ↔ (p x ∧ 0 < power.val) ∧ ∃ a ∈ s.accounts, a.address = x ∧ a.power = power := by
  simp only [activePowersIn, activeMembersIn, List.mem_map, List.mem_filter, decide_eq_true_eq, Prod.mk.injEq]
  constructor
  · rintro ⟨a, ⟨ha, hcounts⟩, rfl, rfl⟩
    exact ⟨hcounts, a, ha, rfl, rfl⟩
  · rintro ⟨hcounts, a, ha, rfl, rfl⟩
    exact ⟨a, ⟨ha, hcounts⟩, rfl, rfl⟩

theorem nodup_activePowersIn (s : ValidatorSet) (p : Address → Prop) [DecidablePred p] :
    (s.activePowersIn p).Nodup := by
  have haddresses : (s.activeMembersIn p).map Account.address = (s.activePowersIn p).map Prod.fst := by
    rw [activePowersIn, List.map_map]
    rfl
  have hnodup : ((s.activeMembersIn p).map Account.address).Nodup :=
    (List.filter_sublist.map Account.address).nodup s.distinct
  rw [haddresses] at hnodup
  exact hnodup.of_map _

theorem activePowersIn_perm (hactive : ∀ x power, 0 < power.val →
      ((∃ a ∈ s.accounts, a.address = x ∧ a.power = power) ↔ ∃ a ∈ t.accounts, a.address = x ∧ a.power = power))
    (hgroup : ∀ a ∈ s.accounts, 0 < a.power.val → (p a.address ↔ q a.address)) :
    (s.activePowersIn p).Perm (t.activePowersIn q) := by
  refine (List.perm_ext_iff_of_nodup (s.nodup_activePowersIn p) (t.nodup_activePowersIn q)).2 ?_
  rintro ⟨x, power⟩
  rw [mem_activePowersIn, mem_activePowersIn]
  constructor
  · rintro ⟨⟨hp, hpos⟩, a, ha, rfl, rfl⟩
    exact ⟨⟨(hgroup a ha hpos).1 hp, hpos⟩, (hactive _ _ hpos).1 ⟨a, ha, rfl, rfl⟩⟩
  · rintro ⟨⟨hq, hpos⟩, hmem⟩
    obtain ⟨a, ha, rfl, rfl⟩ := (hactive _ _ hpos).2 hmem
    exact ⟨⟨(hgroup a ha hpos).2 hq, hpos⟩, a, ha, rfl, rfl⟩

theorem activeIn_eq_of_perm (h : (s.activePowersIn p).Perm (t.activePowersIn q)) : s.activeIn p = t.activeIn q := by
  have hlength := h.length_eq
  rwa [activePowersIn, activePowersIn, List.length_map, List.length_map, length_activeMembersIn,
    length_activeMembersIn] at hlength

theorem sum_activePowersIn (s : ValidatorSet) (p : Address → Prop) [DecidablePred p] :
    ((s.activePowersIn p).map fun x => x.2.val).sum = (s.powerOf p).val := by
  rw [← sum_activeMembersIn, activePowersIn, List.map_map]
  rfl

theorem powerOf_eq_of_perm (h : (s.activePowersIn p).Perm (t.activePowersIn q)) : s.powerOf p = t.powerOf q := by
  have hsum := (h.map fun x => x.2.val).sum_eq
  rw [sum_activePowersIn, sum_activePowersIn] at hsum
  exact congrArg VotingPower.mk hsum

end Agreement

/-- Two sets with one policy and the same validators with some power, in any order, with any keys and with any
others that have none, require the same power and decide alike at all heights, if the same of these validators
signed. -/
theorem decision_congr {left right : List Account} {policy : QuorumPolicy} {s t : ValidatorSet}
    (hs : ofAccounts left policy = .ok s) (ht : ofAccounts right policy = .ok t)
    (hactive : ∀ x power, 0 < power.val →
      ((∃ a ∈ left, a.address = x ∧ a.power = power) ↔ ∃ a ∈ right, a.address = x ∧ a.power = power))
    {S T : AddressSet} (hsigned : ∀ a ∈ left, 0 < a.power.val → (a.address ∈ S ↔ a.address ∈ T))
    (h₁ h₂ : BlockHeight) :
    s.hasQuorum h₁ S = t.hasQuorum h₂ T ∧ s.quorumSize h₁ S = t.quorumSize h₂ T := by
  obtain ⟨rfl, rfl⟩ := ofAccounts_eq_ok_iff.1 hs
  obtain ⟨rfl, hpolicy⟩ := ofAccounts_eq_ok_iff.1 ht
  have hsigners := activePowersIn_perm hactive hsigned
  have hpresent : s.activeIn (· ∈ S) = t.activeIn (· ∈ T) := activeIn_eq_of_perm hsigners
  have hpower : s.powerOf (· ∈ S) = t.powerOf (· ∈ T) := powerOf_eq_of_perm hsigners
  have htotal : s.total = t.total := by
    have heverybody := activePowersIn_perm (p := fun _ => True) (q := fun _ => True) hactive fun _ _ _ => Iff.rfl
    have hpowers := powerOf_eq_of_perm heverybody
    rwa [powerOf_eq_total fun _ _ => trivial, powerOf_eq_total fun _ _ => trivial] at hpowers
  constructor
  · rw [Bool.eq_iff_iff, hasQuorum_iff_quorumSize_le, hasQuorum_iff_quorumSize_le, hpolicy, htotal, hpresent, hpower]
  · rw [quorumSize_eq, quorumSize_eq, hpolicy, htotal, hpresent]

/-- Three validators with equal power and one without. -/
def threeAndPending : ValidatorSet :=
  .ofDistinct [.numbered 1 10, .numbered 2 10, .numbered 6 0, .numbered 3 10] .standard (by decide)
    QuorumPolicy.valid_standard

/-- The three in another order, one with another key, and another one without power. -/
def threeReordered : ValidatorSet :=
  .ofDistinct
    [.numbered 7 0, .numbered 3 10, { Account.numbered 1 10 with publicKey := ⟨.identity⟩ }, .numbered 2 10]
    .standard (by decide) QuorumPolicy.valid_standard

def signersNumbered (bytes : List UInt8) : AddressSet :=
  .ofList (bytes.map fun n => (Account.numbered n 0).address)

theorem decision_congr_threeReordered :
    ofAccounts threeAndPending.accounts .standard = .ok threeAndPending ∧
    ofAccounts threeReordered.accounts .standard = .ok threeReordered ∧
    threeAndPending.hasQuorum ⟨1⟩ (signersNumbered [1, 2, 6, 9]) =
      threeReordered.hasQuorum ⟨2⟩ (signersNumbered [2, 1, 7]) ∧
    threeAndPending.quorumSize ⟨1⟩ (signersNumbered [1, 2, 6, 9]) =
      threeReordered.quorumSize ⟨2⟩ (signersNumbered [2, 1, 7]) := by
  have hs : ofAccounts threeAndPending.accounts .standard = .ok threeAndPending := ofAccounts_eq_ok_iff.2 ⟨rfl, rfl⟩
  have ht : ofAccounts threeReordered.accounts .standard = .ok threeReordered := ofAccounts_eq_ok_iff.2 ⟨rfl, rfl⟩
  have hsigned : ∀ a ∈ threeAndPending.accounts, 0 < a.power.val →
      (a.address ∈ signersNumbered [1, 2, 6, 9] ↔ a.address ∈ signersNumbered [2, 1, 7]) := by decide
  refine ⟨hs, ht, decision_congr hs ht ?_ hsigned ⟨1⟩ ⟨2⟩⟩
  intro x power hpos
  have hpending : ∀ n, (Account.numbered n 0).power ≠ power := by
    rintro n rfl
    exact absurd hpos (Nat.lt_irrefl 0)
  simp only [threeAndPending, threeReordered, ofDistinct, List.exists_mem_cons_iff, List.not_mem_nil, hpending,
    and_false, false_or, false_and, exists_false, or_false]
  tauto

section Growth

variable {s : ValidatorSet} {p q : Address → Prop} [DecidablePred p] [DecidablePred q]

theorem activeMembersIn_sublist (h : ∀ x, p x → q x) : (s.activeMembersIn p).Sublist (s.activeMembersIn q) := by
  refine List.monotone_filter_right _ fun a ha => ?_
  rw [decide_eq_true_eq] at ha ⊢
  exact ⟨h _ ha.1, ha.2⟩

theorem activeIn_mono (h : ∀ x, p x → q x) : s.activeIn p ≤ s.activeIn q := by
  rw [← length_activeMembersIn, ← length_activeMembersIn]
  exact (activeMembersIn_sublist h).length_le

theorem powerOf_mono (h : ∀ x, p x → q x) : (s.powerOf p).val ≤ (s.powerOf q).val := by
  rw [← sum_activeMembersIn, ← sum_activeMembersIn]
  exact ((activeMembersIn_sublist h).map _).sum_le_sum fun _ _ => Nat.zero_le _

/-- Nobody who counts can join a group that holds the entire total. -/
theorem activeIn_eq_of_total_le (htotal : s.total.val ≤ (s.powerOf p).val) (h : ∀ x, p x → q x) :
    s.activeIn p = s.activeIn q := by
  have hall := (s.total_le_powerOf_iff p).1 htotal
  have hmembers : s.activeMembersIn p = s.activeMembersIn q := by
    refine List.filter_congr fun a ha => ?_
    rw [decide_eq_decide]
    constructor
    · rintro ⟨hp, hpos⟩
      exact ⟨h _ hp, hpos⟩
    · rintro ⟨-, hpos⟩
      exact ⟨hall a ha hpos, hpos⟩
  rw [← length_activeMembersIn, ← length_activeMembersIn, hmembers]

end Growth

/-- Signers that join a group with quorum leave it with quorum, at every height. -/
theorem hasQuorum_of_subset (s : ValidatorSet) {S T : AddressSet} (hsub : ∀ x, x ∈ S → x ∈ T) (h₁ h₂ : BlockHeight)
    (hS : s.hasQuorum h₁ S = true) : s.hasQuorum h₂ T = true := by
  have hpower : (s.powerOf (· ∈ S)).val ≤ (s.powerOf (· ∈ T)).val := powerOf_mono hsub
  have hpresent : s.activeIn (· ∈ S) ≤ s.activeIn (· ∈ T) := activeIn_mono hsub
  rw [hasQuorum_iff] at hS ⊢
  split at hS
  · -- Everybody who counts has signed already, so the same rule applies.
    rename_i hasks
    rw [if_pos (activeIn_eq_of_total_le hS hsub ▸ hasks)]
    exact hS.trans hpower
  · rename_i hratio
    have hratio' : ¬ s.policy.AsksForTotal s.total (s.activeIn (· ∈ T)) := by
      rintro (hfew | hsmall)
      · exact hratio (.inl (hpresent.trans_lt hfew))
      · exact hratio (.inr hsmall)
    rw [if_neg hratio']
    exact hS.trans_le (Nat.mul_le_mul_right _ hpower)

/-- The three are everybody who counts: whoever else joins them changes nothing. -/
theorem hasQuorum_of_subset_threeAndPending :
    (∀ x, x ∈ signersNumbered [3, 1, 2] → x ∈ signersNumbered [1, 2, 3, 6, 9]) ∧
    threeAndPending.hasQuorum ⟨1⟩ (signersNumbered [3, 1, 2]) = true ∧
    threeAndPending.hasQuorum ⟨2⟩ (signersNumbered [1, 2, 3, 6, 9]) = true := by
  have hsub : ∀ x, x ∈ signersNumbered [3, 1, 2] → x ∈ signersNumbered [1, 2, 3, 6, 9] := by
    change ∀ x ∈ (signersNumbered [3, 1, 2]).toList, x ∈ signersNumbered [1, 2, 3, 6, 9]
    decide
  have hthree : threeAndPending.hasQuorum ⟨1⟩ (signersNumbered [3, 1, 2]) = true := by decide
  exact ⟨hsub, hthree, hasQuorum_of_subset threeAndPending hsub ⟨1⟩ ⟨2⟩ hthree⟩

end ValidatorSet

end Quorate
