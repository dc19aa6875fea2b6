import Mathlib
import Quorate.Epoch.Provider

/-!
# The snapshot in force

A snapshot provider keeps its snapshots in ascending order of their heights and answers with the last one at
or below the height that it is asked for: the snapshot of the greatest recorded height that is not above.
-/

namespace Quorate.SnapshotProvider

variable {p : SnapshotProvider} {height : BlockHeight} {accounts : List Account}

/-- The accounts were recorded for the greatest recorded height that is not above the given one. -/
def InForce (p : SnapshotProvider) (height : BlockHeight) (accounts : List Account) : Prop :=
  ∃ k, (k, accounts) ∈ p.snapshots ∧ k.val ≤ height.val ∧
    ∀ q ∈ p.snapshots, q.1.val ≤ height.val → q.1.val ≤ k.val

theorem eq_of_height_eq {q r : BlockHeight × List Account} (hq : q ∈ p.snapshots) (hr : r ∈ p.snapshots)
    (h : q.1 = r.1) : q = r := by
  have hdistinct : (p.snapshots.map Prod.fst).Nodup := by
    refine List.pairwise_map.2 (p.ascending.imp fun hlt heq => ?_)
    rw [heq] at hlt
    exact UInt64.lt_irrefl _ hlt
  exact List.inj_on_of_nodup_map hdistinct hq hr h

theorem inForce_unique {others : List Account} (h : p.InForce height accounts) (h' : p.InForce height others) :
    accounts = others := by
  obtain ⟨k, hk, hle, hgreatest⟩ := h
  obtain ⟨k', hk', hle', hgreatest'⟩ := h'
  have heq : k.val = k'.val := UInt64.le_antisymm (hgreatest' _ hk hle) (hgreatest _ hk' hle')
  have hheight : k = k' := by
    cases k
    cases k'
    exact congrArg _ heq
  exact congrArg Prod.snd (eq_of_height_eq hk hk' hheight)

/-- In ascending order the snapshots at or below a height come first. -/
theorem mem_takeWhile_iff {q : BlockHeight × List Account} :
    q ∈ p.snapshots.takeWhile (fun r => r.1.val ≤ height.val) ↔ q ∈ p.snapshots ∧ q.1.val ≤ height.val := by
  obtain ⟨snapshots, hp, -⟩ := p
  dsimp only
  induction snapshots with
  | nil => simp
  | cons head rest ih =>
    obtain ⟨hhead, hrest⟩ := List.pairwise_cons.1 hp
    by_cases hle : head.1.val ≤ height.val
    · rw [List.takeWhile_cons, if_pos (decide_eq_true hle), List.mem_cons, ih hrest, List.mem_cons]
      constructor
      · rintro (rfl | ⟨hq, hqle⟩)
        · exact ⟨.inl rfl, hle⟩
        · exact ⟨.inr hq, hqle⟩
      · rintro ⟨rfl | hq, hqle⟩
        · exact .inl rfl
        · exact .inr ⟨hq, hqle⟩
    · rw [List.takeWhile_cons, if_neg (by simpa using hle)]
      refine iff_of_false List.not_mem_nil ?_
      rintro ⟨hq, hqle⟩
      rcases List.mem_cons.1 hq with rfl | hq
      · exact hle hqle
      · exact hle (UInt64.le_trans (UInt64.le_of_lt (hhead q hq)) hqle)

theorem snapshotAt?_eq_none_iff : p.snapshotAt? height = none ↔ ∀ q ∈ p.snapshots, height.val < q.1.val := by
  rw [snapshotAt?, Option.map_eq_none_iff, List.getLast?_eq_none_iff, List.eq_nil_iff_forall_not_mem]
  constructor
  · intro hnone q hq
    by_contra hle
    exact hnone q (mem_takeWhile_iff.2 ⟨hq, UInt64.not_lt.1 hle⟩)
  · intro hall q hq
    obtain ⟨hmem, hle⟩ := mem_takeWhile_iff.1 hq
    exact UInt64.not_le.2 (hall q hmem) hle

theorem inForce_of_snapshotAt? (h : p.snapshotAt? height = some accounts) : p.InForce height accounts := by
  obtain ⟨⟨k, as⟩, hlast, rfl⟩ := Option.map_eq_some_iff.1 h
  obtain ⟨init, hinit⟩ := List.getLast?_eq_some_iff.1 hlast
  have hmem : (k, as) ∈ p.snapshots.takeWhile fun r => r.1.val ≤ height.val :=
    List.mem_of_getLast? hlast
  obtain ⟨hk, hle⟩ := mem_takeWhile_iff.1 hmem
  refine ⟨k, hk, hle, fun q hq hqle => ?_⟩
  have hq' := mem_takeWhile_iff.2 ⟨hq, hqle⟩
  have hpairs : (init ++ [(k, as)]).Pairwise fun q r => q.1.val < r.1.val := by
    rw [← hinit]
    exact p.ascending.sublist (List.takeWhile_sublist _)
  have hbefore := (List.pairwise_append.1 hpairs).2.2
  rw [hinit, List.mem_append, List.mem_singleton] at hq'
  rcases hq' with hq' | rfl
  · exact UInt64.le_of_lt (hbefore q hq' _ (List.mem_singleton_self _))
  · exact UInt64.le_refl _

/-- The provider answers with the snapshot in force. -/
theorem snapshotAt?_eq_some_iff : p.snapshotAt? height = some accounts ↔ p.InForce height accounts := by
  refine ⟨inForce_of_snapshotAt?, fun h => ?_⟩
  cases hanswer : p.snapshotAt? height with
  | none =>
    obtain ⟨k, hk, hle, -⟩ := h
    exact absurd hle (UInt64.not_le.2 (snapshotAt?_eq_none_iff.1 hanswer _ hk))
  | some as => rw [inForce_unique h (inForce_of_snapshotAt? hanswer)]

theorem accountsAt_eq_ok_iff : StateProvider.accountsAt p height = .ok accounts ↔ p.InForce height accounts := by
  rw [← snapshotAt?_eq_some_iff]
  simp only [StateProvider.accountsAt]
  cases p.snapshotAt? height <;> simp

theorem accountsAt_eq_unknownHeight (h : ∀ q ∈ p.snapshots, height.val < q.1.val) :
    StateProvider.accountsAt p height = .error (.unknownHeight height) := by
  simp only [StateProvider.accountsAt, snapshotAt?_eq_none_iff.2 h]

/-- Either there is a snapshot in force, or all snapshots are above the height. -/
theorem inForce_or_above (p : SnapshotProvider) (height : BlockHeight) :
    (∃ accounts, p.InForce height accounts) ∨ ∀ q ∈ p.snapshots, height.val < q.1.val := by
  cases hanswer : p.snapshotAt? height with
  | none => exact .inr (snapshotAt?_eq_none_iff.1 hanswer)
  | some as => exact .inl ⟨as, inForce_of_snapshotAt? hanswer⟩

end Quorate.SnapshotProvider
