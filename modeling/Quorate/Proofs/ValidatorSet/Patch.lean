import Quorate.Proofs.ValidatorSet.Construction
import Quorate.ValidatorSet.Delta

/-!
# A difference is a patch

A set of validators is a map from addresses to accounts. The difference of two sets names the addresses at which
their maps differ, each of them once, and under the heading that says what to do there: insert, overwrite or erase.
Doing so to the old map gives the new one.
-/

namespace Quorate

abbrev AccountMap := Address → Option Account

namespace AccountMap

def put (m : AccountMap) (a : Account) : AccountMap :=
  Function.update m a.address (some a)

def erase (m : AccountMap) (x : Address) : AccountMap :=
  Function.update m x none

def putAll (m : AccountMap) (as : List Account) : AccountMap :=
  as.foldl put m

def eraseAll (m : AccountMap) (xs : List Address) : AccountMap :=
  xs.foldl erase m

variable {m : AccountMap} {as : List Account} {a : Account} {x : Address}

theorem putAll_of_notMem (h : x ∉ as.map Account.address) : putAll m as x = m x := by
  induction as generalizing m with
  | nil => rfl
  | cons b rest ih =>
    rw [List.map_cons, List.mem_cons, not_or] at h
    exact (ih h.2).trans (Function.update_of_ne h.1 _ _)

/-- Of accounts without repeated addresses none is overwritten by a later one. -/
theorem putAll_of_mem (hdistinct : (as.map Account.address).Nodup) (ha : a ∈ as) :
    putAll m as a.address = some a := by
  induction as generalizing m with
  | nil => cases ha
  | cons b rest ih =>
    rw [List.map_cons, List.nodup_cons] at hdistinct
    rcases List.mem_cons.1 ha with rfl | ha
    · exact (putAll_of_notMem hdistinct.1).trans (Function.update_self _ _ _)
    · exact ih hdistinct.2 ha

theorem eraseAll_apply (m : AccountMap) (xs : List Address) (x : Address) :
    eraseAll m xs x = if x ∈ xs then none else m x := by
  induction xs generalizing m with
  | nil => rfl
  | cons y rest ih =>
    rw [eraseAll, List.foldl_cons, ← eraseAll, ih]
    by_cases hrest : x ∈ rest
    · simp [hrest]
    · by_cases hxy : x = y
      · simp [hxy, erase]
      · simp [hrest, hxy, erase]

end AccountMap

namespace ValidatorSet

variable {s t : ValidatorSet} {a : Account}

def accountMap (s : ValidatorSet) : AccountMap :=
  AccountMap.putAll (fun _ => none) s.accounts

theorem accountMap_apply (s : ValidatorSet) (x : Address) : s.accountMap x = s.find? x := by
  cases hfind : s.find? x with
  | none =>
    have hnobody := find?_eq_none_iff.1 hfind
    apply AccountMap.putAll_of_notMem
    intro hmem
    obtain ⟨a, ha, haddress⟩ := List.mem_map.1 hmem
    exact hnobody a ha haddress
  | some a =>
    obtain ⟨ha, rfl⟩ := find?_eq_some_iff.1 hfind
    exact AccountMap.putAll_of_mem s.distinct ha

theorem mem_accounts_iff_accountMap : a ∈ s.accounts ↔ s.accountMap a.address = some a := by
  rw [accountMap_apply, find?_eq_some_iff, and_iff_left rfl]

theorem accountMap_eq_iff_perm : s.accountMap = t.accountMap ↔ s.accounts.Perm t.accounts := by
  rw [List.perm_ext_iff_of_nodup s.nodup_accounts t.nodup_accounts]
  constructor
  · intro h a
    rw [mem_accounts_iff_accountMap, mem_accounts_iff_accountMap, h]
  · intro h
    funext x
    rw [accountMap_apply, accountMap_apply]
    apply Option.ext
    intro a
    rw [find?_eq_some_iff, find?_eq_some_iff, h]

end ValidatorSet

namespace ValidatorSetDelta

/-- Erase what was removed, overwrite what was updated and insert what was added. -/
def patch (d : ValidatorSetDelta) (m : AccountMap) : AccountMap :=
  ((m.eraseAll d.removed).putAll d.updated).putAll d.added

def addresses (d : ValidatorSetDelta) : List Address :=
  d.added.map Account.address ++ d.updated.map Account.address ++ d.removed

variable {old new : ValidatorSet} {a : Account} {x : Address}

section Headings

theorem mem_added : a ∈ (between old new).added ↔ a ∈ new.accounts ∧ old.find? a.address = none := by
  rw [between, List.mem_filter, Bool.not_eq_true', ← Bool.not_eq_true, ValidatorSet.contains_iff,
    ValidatorSet.find?_eq_none_iff]
  push Not
  rfl

theorem mem_updated : a ∈ (between old new).updated ↔
    a ∈ new.accounts ∧ ∃ previous, old.find? a.address = some previous ∧ previous ≠ a := by
  rw [between, List.mem_filter]
  cases old.find? a.address <;> simp

theorem mem_removed : x ∈ (between old new).removed ↔
    (∃ previous, old.find? x = some previous) ∧ new.find? x = none := by
  rw [between, List.mem_filter, Bool.not_eq_true', ← Bool.not_eq_true, ValidatorSet.contains_iff,
    ValidatorSet.find?_eq_none_iff, List.mem_map]
  simp only [ValidatorSet.find?_eq_some_iff]
  push Not
  rfl

theorem mem_addedAddresses : x ∈ (between old new).added.map Account.address ↔
    old.find? x = none ∧ ∃ a, new.find? x = some a := by
  simp only [List.mem_map, mem_added, ValidatorSet.find?_eq_some_iff]
  constructor
  · rintro ⟨a, ⟨ha, hold⟩, rfl⟩
    exact ⟨hold, a, ha, rfl⟩
  · rintro ⟨hold, a, ha, rfl⟩
    exact ⟨a, ⟨ha, hold⟩, rfl⟩

theorem mem_updatedAddresses : x ∈ (between old new).updated.map Account.address ↔
    ∃ previous a, old.find? x = some previous ∧ new.find? x = some a ∧ previous ≠ a := by
  simp only [List.mem_map, mem_updated, ValidatorSet.find?_eq_some_iff (s := new)]
  constructor
  · rintro ⟨a, ⟨ha, previous, hold, hne⟩, rfl⟩
    exact ⟨previous, a, hold, ⟨ha, rfl⟩, hne⟩
  · rintro ⟨previous, a, hold, ⟨ha, rfl⟩, hne⟩
    exact ⟨a, ⟨ha, previous, hold, hne⟩, rfl⟩

theorem added_sublist (old new : ValidatorSet) : (between old new).added.Sublist new.accounts :=
  List.filter_sublist

theorem updated_sublist (old new : ValidatorSet) : (between old new).updated.Sublist new.accounts :=
  List.filter_sublist

theorem removed_sublist (old new : ValidatorSet) :
    (between old new).removed.Sublist (old.accounts.map Account.address) :=
  List.filter_sublist

theorem nodup_addedAddresses (old new : ValidatorSet) : ((between old new).added.map Account.address).Nodup :=
  ((added_sublist old new).map _).nodup new.distinct

theorem nodup_updatedAddresses (old new : ValidatorSet) : ((between old new).updated.map Account.address).Nodup :=
  ((updated_sublist old new).map _).nodup new.distinct

end Headings

theorem nodup_addresses (old new : ValidatorSet) : (between old new).addresses.Nodup := by
  refine List.nodup_append'.2 ⟨List.nodup_append'.2 ⟨nodup_addedAddresses old new, nodup_updatedAddresses old new, ?_⟩,
    (removed_sublist old new).nodup old.distinct, ?_⟩
  · intro x hadded hupdated
    obtain ⟨hold, -⟩ := mem_addedAddresses.1 hadded
    obtain ⟨_, _, hold', -⟩ := mem_updatedAddresses.1 hupdated
    cases hold.symm.trans hold'
  · intro x hput hremoved
    obtain ⟨-, hnew⟩ := mem_removed.1 hremoved
    rcases List.mem_append.1 hput with hadded | hupdated
    · obtain ⟨-, a, hnew'⟩ := mem_addedAddresses.1 hadded
      cases hnew.symm.trans hnew'
    · obtain ⟨_, a, -, hnew', -⟩ := mem_updatedAddresses.1 hupdated
      cases hnew.symm.trans hnew'

/-- The addresses that are named are those at which the maps differ. -/
theorem mem_addresses_iff : x ∈ (between old new).addresses ↔ old.accountMap x ≠ new.accountMap x := by
  rw [addresses, List.mem_append, List.mem_append, mem_addedAddresses, mem_updatedAddresses, mem_removed,
    ValidatorSet.accountMap_apply, ValidatorSet.accountMap_apply]
  cases old.find? x <;> cases new.find? x <;> simp

theorem patch_between (old new : ValidatorSet) : (between old new).patch old.accountMap = new.accountMap := by
  funext x
  -- What stands at an address is put there under the heading that names it, and under no other.
  by_cases hadded : x ∈ (between old new).added.map Account.address
  · obtain ⟨a, ha, rfl⟩ := List.mem_map.1 hadded
    have hnew := ValidatorSet.mem_accounts_iff_accountMap.1 (mem_added.1 ha).1
    exact (AccountMap.putAll_of_mem (nodup_addedAddresses old new) ha).trans hnew.symm
  rw [patch, AccountMap.putAll_of_notMem hadded]
  by_cases hupdated : x ∈ (between old new).updated.map Account.address
  · obtain ⟨a, ha, rfl⟩ := List.mem_map.1 hupdated
    have hnew := ValidatorSet.mem_accounts_iff_accountMap.1 (mem_updated.1 ha).1
    exact (AccountMap.putAll_of_mem (nodup_updatedAddresses old new) ha).trans hnew.symm
  rw [AccountMap.putAll_of_notMem hupdated, AccountMap.eraseAll_apply]
  by_cases hremoved : x ∈ (between old new).removed
  · rw [if_pos hremoved, ValidatorSet.accountMap_apply, (mem_removed.1 hremoved).2]
  · rw [if_neg hremoved]
    by_contra hne
    have hnamed := mem_addresses_iff.2 hne
    simp only [addresses, List.mem_append, hadded, hupdated, hremoved, or_self] at hnamed

theorem isEmpty_iff_addresses {d : ValidatorSetDelta} : d.isEmpty = true ↔ d.addresses = [] := by
  simp [isEmpty, addresses, and_assoc]

theorem isEmpty_between_iff : (between old new).isEmpty = true ↔ old.accountMap = new.accountMap := by
  rw [isEmpty_iff_addresses, List.eq_nil_iff_forall_not_mem, funext_iff]
  exact forall_congr' fun x => (not_congr mem_addresses_iff).trans not_not

/-- What is added one way is removed the other way, in the same order. -/
theorem addedAddresses_between (old new : ValidatorSet) :
    (between old new).added.map Account.address = (between new old).removed :=
  (List.filter_map (f := Account.address) (p := fun x => !old.contains x)).symm

theorem mem_updatedAddresses_swap : x ∈ (between old new).updated.map Account.address ↔
    x ∈ (between new old).updated.map Account.address := by
  rw [mem_updatedAddresses, mem_updatedAddresses]
  constructor
  · rintro ⟨previous, a, hold, hnew, hne⟩
    exact ⟨a, previous, hnew, hold, hne.symm⟩
  · rintro ⟨a, previous, hnew, hold, hne⟩
    exact ⟨previous, a, hold, hnew, hne.symm⟩

/-- The difference of two sets takes the map of the old to the map of the new. It names exactly the addresses at
which the maps differ, each once: as added those that the old set does not have, as updated those that both have
with different accounts, and as removed those that the new set does not have. Each heading keeps the order of the
set that it is taken from. It is empty just if the maps are the same. And the other way round, what is added is
removed and what is updated is updated. -/
theorem difference_is_patch (old new : ValidatorSet) :
    let d := between old new
    d.patch old.accountMap = new.accountMap ∧
    d.addresses.Nodup ∧
    (∀ x, x ∈ d.addresses ↔ old.accountMap x ≠ new.accountMap x) ∧
    ((∀ a, a ∈ d.added ↔ old.accountMap a.address = none ∧ new.accountMap a.address = some a) ∧
      (∀ a, a ∈ d.updated ↔ (∃ previous, old.accountMap a.address = some previous ∧ previous ≠ a) ∧
        new.accountMap a.address = some a) ∧
      ∀ x, x ∈ d.removed ↔ (∃ previous, old.accountMap x = some previous) ∧ new.accountMap x = none) ∧
    (d.added.Sublist new.accounts ∧ d.updated.Sublist new.accounts ∧
      d.removed.Sublist (old.accounts.map Account.address)) ∧
    (d.isEmpty = true ↔ old.accountMap = new.accountMap) ∧
    d.added.map Account.address = (between new old).removed ∧
    ∀ x, x ∈ d.updated.map Account.address ↔ x ∈ (between new old).updated.map Account.address := by
  intro d
  refine ⟨patch_between old new, nodup_addresses old new, fun x => mem_addresses_iff, ⟨?_, ?_, ?_⟩,
    ⟨added_sublist old new, updated_sublist old new, removed_sublist old new⟩, isEmpty_between_iff,
    addedAddresses_between old new, fun x => mem_updatedAddresses_swap⟩
  · intro a
    rw [mem_added, ValidatorSet.mem_accounts_iff_accountMap, ValidatorSet.accountMap_apply old, and_comm]
  · intro a
    rw [mem_updated, ValidatorSet.mem_accounts_iff_accountMap, ValidatorSet.accountMap_apply old, and_comm]
  · intro x
    rw [mem_removed, ValidatorSet.accountMap_apply, ValidatorSet.accountMap_apply]

end ValidatorSetDelta

end Quorate
