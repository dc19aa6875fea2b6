import Quorate.Proofs.ValidatorSet.QuorumRule

/-!
# When everybody together has quorum

All validators together aggregate the total, so whether they decide is a question about the policy alone:
it must not ask for more than there is. A ratio below one never does. A ratio of one asks for one unit more
than the total as soon as enough active validators are present and the total is large enough.
-/

namespace Quorate

namespace ValidatorSet

variable {s : ValidatorSet}

def addresses (s : ValidatorSet) : AddressSet :=
  .ofList (s.accounts.map Account.address)

theorem mem_addresses {x : Address} : x ∈ s.addresses ↔ ∃ a ∈ s.accounts, a.address = x := by
  rw [addresses, AddressSet.mem_ofList, List.mem_map]

theorem powerOf_addresses (s : ValidatorSet) : s.powerOf (· ∈ s.addresses) = s.total :=
  powerOf_eq_total fun a ha => mem_addresses.2 ⟨a, ha, rfl⟩

theorem activeIn_addresses (s : ValidatorSet) :
    s.activeIn (· ∈ s.addresses) = s.accounts.countP Account.isActive := by
  rw [activeIn, membersIn_eq_accounts fun a ha => mem_addresses.2 ⟨a, ha, rfl⟩]

theorem hasQuorum_addresses_iff (s : ValidatorSet) (height : BlockHeight) :
    s.hasQuorum height s.addresses = true ↔
      s.policy.quorumSize s.total (s.accounts.countP Account.isActive) ≤ s.total := by
  rw [hasQuorum_iff_quorumSize_le, powerOf_addresses, activeIn_addresses]

/-- All validators together have quorum exactly if the ratio is below one, or the rule asks for the total
because it is too small or too few validators are active; and under the same condition, for any number of
present signers, the rule asks for no more than the total. -/
theorem everybody_hasQuorum_iff {accounts : List Account} {policy : QuorumPolicy}
    (hpolicy : policy.validate = .ok ()) (hset : ofAccounts accounts policy = .ok s)
    (htotal : s.total.val ≠ 0) (height : BlockHeight) :
    (s.hasQuorum height s.addresses = true ↔
      policy.numerator < policy.denominator ∨
        accounts.countP Account.isActive < policy.minSigners.toNat ∨ s.total.val < policy.minTotal.toNat) ∧
    ∀ present, policy.quorumSize s.total present ≤ s.total ↔
      policy.numerator < policy.denominator ∨
        present < policy.minSigners.toNat ∨ s.total.val < policy.minTotal.toNat := by
  have hvalid := QuorumPolicy.validate_eq_ok_iff.1 hpolicy
  obtain ⟨rfl, rfl⟩ := ofAccounts_eq_ok_iff.1 hset
  have hsize : ∀ present, s.policy.quorumSize s.total present ≤ s.total ↔
      s.policy.numerator < s.policy.denominator ∨ s.policy.AsksForTotal s.total present :=
    fun _ => QuorumPolicy.quorumSize_le_total_iff hvalid htotal
  exact ⟨(s.hasQuorum_addresses_iff height).trans (hsize _), hsize⟩

def fourEqual (policy : QuorumPolicy) (valid : policy.Valid) : ValidatorSet :=
  .ofDistinct [.numbered 1 25, .numbered 2 25, .numbered 3 25, .numbered 4 25] policy (by decide) valid

def fourStandard : ValidatorSet :=
  fourEqual .standard QuorumPolicy.valid_standard

theorem everybody_hasQuorum_fourStandard :
    QuorumPolicy.standard.validate = .ok () ∧
    ofAccounts fourStandard.accounts .standard = .ok fourStandard ∧
    fourStandard.total.val ≠ 0 ∧
    fourStandard.hasQuorum ⟨1⟩ fourStandard.addresses = true := by
  have hpolicy : QuorumPolicy.standard.validate = .ok () := by decide
  have hset : ofAccounts fourStandard.accounts .standard = .ok fourStandard :=
    ofAccounts_eq_ok_iff.2 ⟨rfl, rfl⟩
  have htotal : fourStandard.total.val ≠ 0 := by decide
  have hratio : QuorumPolicy.standard.numerator < QuorumPolicy.standard.denominator := by decide
  exact ⟨hpolicy, hset, htotal, (everybody_hasQuorum_iff hpolicy hset htotal ⟨1⟩).1.2 (Or.inl hratio)⟩

/-- A policy with ratio one, which is accepted. -/
def ratioOne : QuorumPolicy :=
  { QuorumPolicy.standard with numerator := 1, denominator := 1 }

def fourRatioOne : ValidatorSet :=
  fourEqual ratioOne (by decide)

/-- Under an accepted policy the four together do not decide: of their 100 units it asks 101. -/
theorem ratioOne_asks_for_more_than_total :
    ratioOne.validate = .ok () ∧
    ofAccounts fourRatioOne.accounts ratioOne = .ok fourRatioOne ∧
    fourRatioOne.total = ⟨100⟩ ∧
    ratioOne.quorumSize fourRatioOne.total 4 = ⟨101⟩ ∧
    fourRatioOne.hasQuorum ⟨1⟩ fourRatioOne.addresses = false :=
  ⟨by decide, ofAccounts_eq_ok_iff.2 ⟨rfl, rfl⟩, by decide, by decide, by decide⟩

end ValidatorSet

end Quorate
