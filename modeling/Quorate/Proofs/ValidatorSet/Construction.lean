import Quorate.Proofs.ValidatorSet.GroupPower

/-!
# What a list of accounts builds

Accounts and a policy make a set exactly if the policy can be used and no address repeats. Of the set that
is built every look-up by address and every look-up by position tell of the same account: an address has the
one position at which its account stands, and an address of nobody has none.
-/

namespace Quorate

namespace ValidatorSet

section Positions

variable {s : ValidatorSet} {address other : Address} {i : Nat} {a : Account}

theorem lt_size_of_at? (h : s.at? i = some a) : i < s.size :=
  (List.getElem?_eq_some_iff.1 h).1

/-- All that a set answers about the address of a validator is that validator. -/
theorem lookups_of_indexOf? (h : s.indexOf? address = some i) :
    ∃ a, s.at? i = some a ∧ a.address = address ∧ s.find? address = some a ∧
      s.power? address = some a.power ∧ s.contains address = true := by
  obtain ⟨a, hat, haddress⟩ := indexOf?_eq_some_iff.1 h
  have hmem := mem_accounts_of_at? hat
  have hfind : s.find? address = some a := find?_eq_some_iff.2 ⟨hmem, haddress⟩
  refine ⟨a, hat, haddress, hfind, ?_, contains_iff.2 ⟨a, hmem, haddress⟩⟩
  rw [power?_eq_map_find?, hfind, Option.map_some]

theorem lookups_of_indexOf?_eq_none (h : s.indexOf? address = none) :
    s.find? address = none ∧ s.power? address = none ∧ s.contains address = false := by
  have hnobody := indexOf?_eq_none_iff.1 h
  have hfind := find?_eq_none_iff.2 hnobody
  refine ⟨hfind, ?_, ?_⟩
  · rw [power?_eq_map_find?, hfind, Option.map_none]
  · rw [← Bool.not_eq_true, contains_iff]
    rintro ⟨a, ha, haddress⟩
    exact hnobody a ha haddress

theorem contains_iff_indexOf? : s.contains address = true ↔ ∃ i, s.indexOf? address = some i := by
  rw [← Option.isSome_iff_exists, ← Option.ne_none_iff_isSome, Ne, indexOf?_eq_none_iff, contains_iff]
  push Not
  rfl

theorem indexOf?_eq_none_of_not_contains (h : s.contains address = false) : s.indexOf? address = none := by
  rw [← Option.not_isSome_iff_eq_none, Option.isSome_iff_exists, ← contains_iff_indexOf?, h]
  exact Bool.false_ne_true

theorem indexOf?_injective (h : s.indexOf? address = some i) (hother : s.indexOf? other = some i) :
    address = other := by
  obtain ⟨a, ha, rfl⟩ := indexOf?_eq_some_iff.1 h
  obtain ⟨b, hb, rfl⟩ := indexOf?_eq_some_iff.1 hother
  rw [Option.some.inj (ha.symm.trans hb)]

theorem indexOf?_lt (h : s.indexOf? address = some i) : i < s.size := by
  obtain ⟨a, ha, -⟩ := indexOf?_eq_some_iff.1 h
  exact lt_size_of_at? ha

end Positions

section Acceptance

variable {accounts : List Account} {policy : QuorumPolicy} {s : ValidatorSet} {address : Address}

theorem ofAccounts_of_validate_eq_error {cause : PolicyError} (h : policy.validate = .error cause) :
    ofAccounts accounts policy = .error (.invalidPolicy cause) := by
  unfold ofAccounts
  split
  · rename_i hp
    cases h.symm.trans hp
    rfl
  · rename_i hp
    cases h.symm.trans hp

theorem ofAccounts_of_refused (hpolicy : policy.validate = .ok ())
    (h : PowerRoll.empty.enrollAll accounts = .error (.duplicateValidator address)) :
    ofAccounts accounts policy = .error (.duplicateValidator address) := by
  unfold ofAccounts
  split
  · rename_i hp
    cases hpolicy.symm.trans hp
  · split
    · rename_i hr
      cases h.symm.trans hr
      rfl
    · rename_i hr
      cases h.symm.trans hr

theorem exists_ofAccounts_of_nodup (hpolicy : policy.validate = .ok ())
    (h : (accounts.map Account.address).Nodup) : ∃ s, ofAccounts accounts policy = .ok s :=
  ⟨ofDistinct accounts policy h (QuorumPolicy.validate_eq_ok_iff.1 hpolicy), ofAccounts_eq_ok_iff.2 ⟨rfl, rfl⟩⟩

/-- One of three things is true of accounts and a policy, and each has its own outcome. -/
theorem ofAccounts_cases (accounts : List Account) (policy : QuorumPolicy) :
    (∃ cause, policy.validate = .error cause ∧ ofAccounts accounts policy = .error (.invalidPolicy cause)) ∨
    (policy.validate = .ok () ∧ ∃ address, FirstRepeat (accounts.map Account.address) address ∧
      ofAccounts accounts policy = .error (.duplicateValidator address)) ∨
    policy.validate = .ok () ∧ (accounts.map Account.address).Nodup ∧
      ∃ s, ofAccounts accounts policy = .ok s := by
  cases hpolicy : policy.validate with
  | error cause => exact .inl ⟨cause, rfl, ofAccounts_of_validate_eq_error hpolicy⟩
  | ok _ =>
    right
    rcases PowerRoll.lists_empty.enrollAll accounts with ⟨address, hfirst, hrefused⟩ | ⟨last, -, hlists⟩
    · exact .inl ⟨rfl, address, hfirst, ofAccounts_of_refused hpolicy hrefused⟩
    · exact .inr ⟨rfl, hlists.nodup, exists_ofAccounts_of_nodup hpolicy hlists.nodup⟩

theorem ofAccounts_of_firstRepeat (hpolicy : policy.validate = .ok ())
    (h : FirstRepeat (accounts.map Account.address) address) :
    ofAccounts accounts policy = .error (.duplicateValidator address) := by
  rcases ofAccounts_cases accounts policy with ⟨_, hinvalid, -⟩ | ⟨-, other, hother, hbuild⟩ | ⟨-, hdistinct, -⟩
  · cases hpolicy.symm.trans hinvalid
  · rw [hbuild, h.unique hother]
  · exact absurd hdistinct h.not_nodup

theorem ofAccounts_eq_invalidPolicy_iff {cause : PolicyError} :
    ofAccounts accounts policy = .error (.invalidPolicy cause) ↔ policy.validate = .error cause := by
  refine ⟨fun h => ?_, ofAccounts_of_validate_eq_error⟩
  rcases ofAccounts_cases accounts policy with ⟨other, hpolicy, hbuild⟩ | ⟨-, _, -, hbuild⟩ |
    ⟨-, -, _, hbuild⟩
  · cases hbuild.symm.trans h
    exact hpolicy
  · cases hbuild.symm.trans h
  · cases hbuild.symm.trans h

theorem ofAccounts_eq_duplicateValidator_iff :
    ofAccounts accounts policy = .error (.duplicateValidator address) ↔
      policy.validate = .ok () ∧ FirstRepeat (accounts.map Account.address) address := by
  refine ⟨fun h => ?_, fun h => ofAccounts_of_firstRepeat h.1 h.2⟩
  rcases ofAccounts_cases accounts policy with ⟨_, -, hbuild⟩ | ⟨hpolicy, other, hrepeat, hbuild⟩ |
    ⟨-, -, _, hbuild⟩
  · cases hbuild.symm.trans h
  · cases hbuild.symm.trans h
    exact ⟨hpolicy, hrepeat⟩
  · cases hbuild.symm.trans h

theorem exists_ofAccounts_iff :
    (∃ s, ofAccounts accounts policy = .ok s) ↔
      policy.validate = .ok () ∧ (accounts.map Account.address).Nodup := by
  refine ⟨fun ⟨s, h⟩ => ?_, fun h => exists_ofAccounts_of_nodup h.1 h.2⟩
  obtain ⟨rfl, rfl⟩ := ofAccounts_eq_ok_iff.1 h
  exact ⟨QuorumPolicy.validate_eq_ok_iff.2 s.valid, s.distinct⟩

end Acceptance

/-- What accounts and a policy build: nothing, because of the policy, exactly if it is not valid; nothing,
because of the address that stands first at a position where an earlier one is repeated, exactly if the
policy is valid and addresses repeat; and else a set. The set has the accounts in the given order, and all
that it answers agrees: the powers and the total with the accounts, and for every address the position, the
account, the power and whether it is a member with each other. Following an address through the index never
leads to a position without an account. -/
theorem ofAccounts_exact (accounts : List Account) (policy : QuorumPolicy) :
    (∀ cause, ofAccounts accounts policy = .error (.invalidPolicy cause) ↔ policy.validate = .error cause) ∧
    (∀ address, ofAccounts accounts policy = .error (.duplicateValidator address) ↔
      policy.validate = .ok () ∧ FirstRepeat (accounts.map Account.address) address) ∧
    ((∃ s, ofAccounts accounts policy = .ok s) ↔
      policy.validate = .ok () ∧ (accounts.map Account.address).Nodup) ∧
    ∀ s, ofAccounts accounts policy = .ok s →
      (s.accounts = accounts ∧ s.policy = policy) ∧
      s.powers = accounts.map (fun a => (a.address, a.power)) ∧
      s.total.val = (accounts.map fun a => a.power.val).sum ∧
      (∀ i, s.at? i = accounts[i]?) ∧
      (∀ address i, s.indexOf? address = some i ↔ ∃ a, s.at? i = some a ∧ a.address = address) ∧
      (∀ address i, s.indexOf? address = some i → ∃ a, s.at? i = some a ∧ a.address = address ∧
        s.get address = .ok (some a) ∧ s.power? address = some a.power ∧ s.contains address = true) ∧
      (∀ address, (∀ a ∈ accounts, a.address ≠ address) →
        s.indexOf? address = none ∧ s.get address = .ok none ∧ s.power? address = none ∧
          s.contains address = false) ∧
      ∀ address, s.get address = .ok (s.find? address) := by
  refine ⟨fun _ => ofAccounts_eq_invalidPolicy_iff, fun _ => ofAccounts_eq_duplicateValidator_iff,
    exists_ofAccounts_iff, fun s h => ?_⟩
  obtain ⟨rfl, rfl⟩ := ofAccounts_eq_ok_iff.1 h
  refine ⟨⟨rfl, rfl⟩, s.powers_eq, s.val_total, fun _ => rfl, fun _ _ => indexOf?_eq_some_iff,
    fun address i hindex => ?_, fun address hnobody => ?_, s.get_eq_find?⟩
  · obtain ⟨a, hat, haddress, hfind, hpower, hcontains⟩ := lookups_of_indexOf? hindex
    exact ⟨a, hat, haddress, hfind ▸ s.get_eq_find? address, hpower, hcontains⟩
  · have hindex := indexOf?_eq_none_iff.2 hnobody
    obtain ⟨hfind, hpower, hcontains⟩ := lookups_of_indexOf?_eq_none hindex
    exact ⟨hindex, hfind ▸ s.get_eq_find? address, hpower, hcontains⟩

end ValidatorSet

end Quorate
