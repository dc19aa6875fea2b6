import Mathlib
import Quorate.ValidatorSet.Basic

/-!
# Looking up validators

A validator set holds no address twice, so its address names a validator, and so does its position. An
address set that is followed through the look-up gives every validator it names once, and no other.
-/

namespace Quorate

namespace AddressSet

theorem nodup (s : AddressSet) : s.toList.Nodup := by
  refine s.ascending.imp ?_
  rintro a _ h rfl
  exact Address.lt_irrefl a h

theorem mem_foldl_insert {a : Address} {as : List Address} {s : AddressSet} :
    a ∈ as.foldl (fun s a => s.insert a) s ↔ a ∈ as ∨ a ∈ s := by
  induction as generalizing s with
  | nil => simp
  | cons b rest ih =>
    rw [List.foldl_cons, ih, mem_insert, List.mem_cons]
    tauto

@[simp] theorem mem_ofList {a : Address} {as : List Address} : a ∈ ofList as ↔ a ∈ as := by
  have hempty : ¬ a ∈ empty := List.not_mem_nil
  rw [ofList, mem_foldl_insert]
  exact or_iff_left hempty

theorem ext {s t : AddressSet} (h : ∀ a, a ∈ s ↔ a ∈ t) : s = t := by
  have hperm : s.toList.Perm t.toList := (List.perm_ext_iff_of_nodup s.nodup t.nodup).2 h
  have heq : s.toList = t.toList := by
    refine hperm.eq_of_pairwise ?_ s.ascending t.ascending
    intro a b _ _ hab hba
    exact absurd (Address.lt_trans hab hba) (Address.lt_irrefl a)
  cases s
  cases t
  simp_all

end AddressSet

namespace ValidatorSet

variable {s : ValidatorSet} {a b : Account} {address : Address}

/-- Building gives the set of exactly the given accounts under the given policy, and every set is built. -/
theorem ofAccounts_eq_ok_iff {accounts : List Account} {policy : QuorumPolicy} :
    ofAccounts accounts policy = .ok s ↔ s.accounts = accounts ∧ s.policy = policy := by
  constructor
  · intro h
    unfold ofAccounts at h
    split at h
    · cases h
    · split at h
      · cases h
      · cases h
        exact ⟨rfl, rfl⟩
  · rintro ⟨rfl, rfl⟩
    have hvalid := QuorumPolicy.validate_eq_ok_iff.2 s.valid
    unfold ofAccounts
    split
    · rename_i h
      cases hvalid.symm.trans h
    · split
      · rename_i cause h
        rcases PowerRoll.lists_empty.enrollAll s.accounts with ⟨_, hrepeat, -⟩ | ⟨last, hlast, -⟩
        · exact absurd s.distinct (FirstRepeat.not_nodup hrepeat)
        · cases hlast.symm.trans h
      · exact congrArg Except.ok (ext rfl rfl)

/-- The set of accounts of which none repeats an address. -/
def ofDistinct (accounts : List Account) (policy : QuorumPolicy) (distinct : (accounts.map Account.address).Nodup)
    (valid : policy.Valid) : ValidatorSet where
  accounts := accounts
  index := ⟨accounts.map fun a => (a.address, a.power), by rwa [List.map_map]⟩
  total := VotingPower.sum (accounts.map Account.power)
  policy := policy
  lists := ⟨rfl, rfl⟩
  valid := valid

theorem nodup_accounts (s : ValidatorSet) : s.accounts.Nodup :=
  .of_map _ s.distinct

theorem eq_of_address_eq (ha : a ∈ s.accounts) (hb : b ∈ s.accounts) (h : a.address = b.address) :
    a = b :=
  List.inj_on_of_nodup_map s.distinct ha hb h

theorem mem_accounts_of_at? {i : Nat} (h : s.at? i = some a) : a ∈ s.accounts :=
  List.mem_of_getElem? h

theorem indexOf?_eq_none_iff : s.indexOf? address = none ↔ ∀ a ∈ s.accounts, a.address ≠ address := by
  rw [indexOf?, KeyedList.indexOf?_eq_none_iff, s.lists.keys_eq, List.mem_map]
  push Not
  rfl

/-- The index leads to an account for every address that it holds, so looking up never faults. -/
theorem get_eq_find? (s : ValidatorSet) (address : Address) : s.get address = .ok (s.find? address) := by
  unfold find?
  split
  · assumption
  · rename_i fault h
    exact absurd h (s.get_ne_error address fault)

theorem find?_eq_some_iff : s.find? address = some a ↔ a ∈ s.accounts ∧ a.address = address := by
  have hget := s.get_eq_find? address
  unfold get at hget
  cases hposition : s.indexOf? address with
  | none =>
    rw [hposition] at hget
    rw [← Except.ok.inj hget]
    exact iff_of_false nofun fun ⟨ha, haddress⟩ => indexOf?_eq_none_iff.1 hposition a ha haddress
  | some i =>
    obtain ⟨b, hb, hbaddress⟩ := indexOf?_eq_some_iff.1 hposition
    simp only [hposition, hb] at hget
    rw [← Except.ok.inj hget, Option.some.injEq]
    constructor
    · rintro rfl
      exact ⟨mem_accounts_of_at? hb, hbaddress⟩
    · rintro ⟨ha, haddress⟩
      exact eq_of_address_eq (mem_accounts_of_at? hb) ha (hbaddress.trans haddress.symm)

theorem find?_eq_none_iff : s.find? address = none ↔ ∀ a ∈ s.accounts, a.address ≠ address := by
  rw [Option.eq_none_iff_forall_ne_some]
  simp only [ne_eq, find?_eq_some_iff, not_and]

theorem contains_iff : s.contains address = true ↔ ∃ a ∈ s.accounts, a.address = address := by
  rw [contains, KeyedList.contains_iff, s.lists.keys_eq, List.mem_map]

/-- The power under an address is that of its account. -/
theorem power?_eq_map_find? (s : ValidatorSet) (address : Address) :
    s.power? address = (s.find? address).map Account.power := by
  apply Option.ext
  intro power
  rw [power?, KeyedList.get?_eq_some_iff, s.lists.index_eq, List.mem_map, Option.map_eq_some_iff]
  simp only [find?_eq_some_iff, Prod.mk.injEq, and_assoc]

def membersIn (s : ValidatorSet) (group : Address → Prop) [DecidablePred group] : List Account :=
  s.accounts.filter fun a => group a.address

section Groups

variable {group : Address → Prop} [DecidablePred group]

theorem mem_membersIn : a ∈ s.membersIn group ↔ a ∈ s.accounts ∧ group a.address := by
  rw [membersIn, List.mem_filter, decide_eq_true_eq]

theorem nodup_membersIn : (s.membersIn group).Nodup :=
  s.nodup_accounts.filter _

theorem membersIn_eq_accounts (h : ∀ a ∈ s.accounts, group a.address) : s.membersIn group = s.accounts :=
  List.filter_eq_self.2 fun a ha => decide_eq_true (h a ha)

end Groups

/-- Following an address set through the look-up gives the validators that it names, each once. -/
theorem filterMap_find?_perm (s : ValidatorSet) (signers : AddressSet) :
    (signers.toList.filterMap s.find?).Perm (s.membersIn (· ∈ signers)) := by
  -- Neither list repeats a validator, so it is enough that both have the same ones.
  have hfound : (signers.toList.filterMap s.find?).Nodup := by
    refine signers.nodup.filterMap ?_
    intro x y a hx hy
    rw [← (find?_eq_some_iff.1 hx).2, ← (find?_eq_some_iff.1 hy).2]
  refine (List.perm_ext_iff_of_nodup hfound nodup_membersIn).2 fun a => ?_
  simp only [List.mem_filterMap, mem_membersIn, find?_eq_some_iff]
  constructor
  · rintro ⟨x, hx, ha, rfl⟩
    exact ⟨ha, hx⟩
  · rintro ⟨ha, hx⟩
    exact ⟨a.address, hx, ha, rfl⟩

theorem at?_injective {i j : Nat} (hi : s.at? i = some a) (hj : s.at? j = some a) : i = j := by
  obtain ⟨hi', hia⟩ := List.getElem?_eq_some_iff.1 hi
  obtain ⟨hj', hja⟩ := List.getElem?_eq_some_iff.1 hj
  exact (List.Nodup.getElem_inj_iff s.nodup_accounts).1 (hia.trans hja.symm)

end ValidatorSet

end Quorate
