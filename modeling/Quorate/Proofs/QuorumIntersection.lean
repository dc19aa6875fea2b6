import Quorate.Proofs.Certificate.Check
import Quorate.Proofs.ValidatorSet.QuorumRule

/-!
# Quorums intersect

Under a policy whose ratio is at least one half, two groups that decide for the same set have a validator
with some power in common, whichever rule each of them met: all the power there is, or strictly more than
the ratio of it. The power they share is at least what both ratios together exceed the whole by. Two
certificates that pass the check therefore have a signer in common.
-/

namespace Quorate

theorem QuorumPolicy.standard_majority :
    QuorumPolicy.standard.denominator.toNat ≤ 2 * QuorumPolicy.standard.numerator.toNat := by
  decide

/-- Each group holds more than the ratio of the total or all of it; `shared` is at least what they hold
together beyond the total. -/
theorem shared_power_bound {numerator denominator total left right shared : Nat}
    (hden : 0 < denominator) (htotal : 0 < total) (hle : numerator ≤ denominator)
    (hratio : denominator ≤ 2 * numerator) (hshared : left + right ≤ shared + total)
    (hleft : total * numerator < left * denominator ∨ total ≤ left)
    (hright : total * numerator < right * denominator ∨ total ≤ right) :
    0 < shared ∧ (2 * numerator - denominator) * total ≤ denominator * shared := by
  have hscaled : left * denominator + right * denominator ≤ shared * denominator + total * denominator := by
    rw [← Nat.add_mul, ← Nat.add_mul]
    exact Nat.mul_le_mul_right denominator hshared
  have hbelow : total * numerator ≤ total * denominator := Nat.mul_le_mul_left total hle
  have hhalf : total * denominator ≤ 2 * (total * numerator) := by
    rw [Nat.mul_left_comm]
    exact Nat.mul_le_mul_left total hratio
  have hwhole : 0 < total * denominator := Nat.mul_pos htotal hden
  have hleft' : total * numerator < left * denominator ∨ total * denominator ≤ left * denominator :=
    hleft.imp_right fun h => Nat.mul_le_mul_right denominator h
  have hright' : total * numerator < right * denominator ∨ total * denominator ≤ right * denominator :=
    hright.imp_right fun h => Nat.mul_le_mul_right denominator h
  -- The products are the same in all of these, so the rest is linear in them.
  have hpos : 0 < shared * denominator := by omega
  have hexcess : 2 * (total * numerator) - total * denominator ≤ shared * denominator := by omega
  refine ⟨Nat.pos_of_mul_pos_right hpos, ?_⟩
  calc (2 * numerator - denominator) * total
      = 2 * (total * numerator) - total * denominator := by
        rw [Nat.sub_mul, Nat.mul_comm denominator, Nat.mul_assoc, Nat.mul_comm numerator]
    _ ≤ shared * denominator := hexcess
    _ = denominator * shared := Nat.mul_comm ..

namespace ValidatorSet

variable {s : ValidatorSet} {h₁ h₂ : BlockHeight} {S T : AddressSet}

theorem power_of_hasQuorum {height : BlockHeight} {signers : AddressSet}
    (h : s.hasQuorum height signers = true) :
    s.total.val * s.policy.numerator.toNat < (s.powerOf (· ∈ signers)).val * s.policy.denominator.toNat ∨
      s.total.val ≤ (s.powerOf (· ∈ signers)).val := by
  have hdecision := (s.hasQuorum_iff height signers).1 h
  split at hdecision
  · exact Or.inr hdecision
  · exact Or.inl hdecision

theorem shared_power_of_hasQuorum (htotal : 0 < s.total.val)
    (hratio : s.policy.denominator.toNat ≤ 2 * s.policy.numerator.toNat)
    (hS : s.hasQuorum h₁ S = true) (hT : s.hasQuorum h₂ T = true) :
    0 < (s.powerOf fun x => x ∈ S ∧ x ∈ T).val ∧
      (2 * s.policy.numerator.toNat - s.policy.denominator.toNat) * s.total.val ≤
        s.policy.denominator.toNat * (s.powerOf fun x => x ∈ S ∧ x ∈ T).val := by
  have hsum := s.powerOf_add_powerOf (· ∈ S) (· ∈ T)
  have hunion := s.powerOf_le_total fun x => x ∈ S ∨ x ∈ T
  refine shared_power_bound s.valid.denominator_pos htotal s.valid.numerator_le hratio ?_
    (power_of_hasQuorum hS) (power_of_hasQuorum hT)
  omega

end ValidatorSet

namespace Certificate

variable {c d : Certificate} {set : ValidatorSet} {height : BlockHeight} {message tag : Bytes}

theorem hasQuorum_of_verify (h : c.verify set height message tag = .ok ()) :
    set.hasQuorum height (c.signers set) = true := by
  unfold verify at h
  split at h
  · cases h
  · simp only at h
    split at h
    · cases h
    · split at h
      · cases h
      · rename_i hquorum
        simpa using hquorum

theorem exists_common_position {a : Account} (ha : a ∈ set.accounts) (hc : a.address ∈ c.signers set)
    (hd : a.address ∈ d.signers set) :
    ∃ i, set.at? i = some a ∧ c.bitmap.contains i = true ∧ d.bitmap.contains i = true := by
  obtain ⟨i, hi, hai⟩ := List.mem_filterMap.1 (mem_marked_iff.2 (ValidatorSet.mem_membersIn.2 ⟨ha, hc⟩))
  obtain ⟨j, hj, haj⟩ := List.mem_filterMap.1 (mem_marked_iff.2 (ValidatorSet.mem_membersIn.2 ⟨ha, hd⟩))
  have hij : i = j := ValidatorSet.at?_injective hai haj
  rw [Finset.mem_toList, SignerBitmap.mem_members] at hi hj
  exact ⟨i, hai, hi, hij ▸ hj⟩

end Certificate

/-- Two groups with quorum share a validator with some power, and the denominator's share of what they
have in common is at least what twice the ratio exceeds the whole by. Two certificates that pass the check
mark a common position of a validator with some power. -/
theorem quorums_intersect {accounts : List Account} {policy : QuorumPolicy} {set : ValidatorSet}
    (hset : ValidatorSet.ofAccounts accounts policy = .ok set) (htotal : 0 < set.total.val)
    (hratio : policy.denominator.toNat ≤ 2 * policy.numerator.toNat) :
    (∀ h₁ h₂ S T, set.hasQuorum h₁ S = true → set.hasQuorum h₂ T = true →
      (∃ a ∈ accounts, 0 < a.power.val ∧ a.address ∈ S ∧ a.address ∈ T) ∧
      (2 * policy.numerator.toNat - policy.denominator.toNat) * set.total.val ≤
        policy.denominator.toNat * (set.powerOf fun x => x ∈ S ∧ x ∈ T).val) ∧
    ∀ (c d : Certificate) h₁ h₂ m₁ m₂ t₁ t₂,
      c.verify set h₁ m₁ t₁ = .ok () → d.verify set h₂ m₂ t₂ = .ok () →
      ∃ i a, set.at? i = some a ∧ 0 < a.power.val ∧
        (c.bitmap.contains i = true ∧ a.address ∈ c.signers set) ∧
        (d.bitmap.contains i = true ∧ a.address ∈ d.signers set) := by
  obtain ⟨rfl, rfl⟩ := ValidatorSet.ofAccounts_eq_ok_iff.1 hset
  constructor
  · intro h₁ h₂ S T hS hT
    obtain ⟨hpos, hbound⟩ := ValidatorSet.shared_power_of_hasQuorum htotal hratio hS hT
    exact ⟨ValidatorSet.exists_of_powerOf_pos hpos, hbound⟩
  · intro c d h₁ h₂ m₁ m₂ t₁ t₂ hc hd
    have hquorum := ValidatorSet.shared_power_of_hasQuorum htotal hratio
      (Certificate.hasQuorum_of_verify hc) (Certificate.hasQuorum_of_verify hd)
    obtain ⟨a, ha, hpos, hac, had⟩ := ValidatorSet.exists_of_powerOf_pos hquorum.1
    obtain ⟨i, hi, hic, hid⟩ := Certificate.exists_common_position ha hac had
    exact ⟨i, a, hi, hpos, ⟨hic, hac⟩, ⟨hid, had⟩⟩

/-- Five validators with equal power and one without. -/
def fiveAndPending : ValidatorSet :=
  .ofDistinct [.numbered 1 10, .numbered 2 10, .numbered 6 0, .numbered 3 10, .numbered 4 10, .numbered 5 10]
    .standard (by decide) QuorumPolicy.valid_standard

def addressesOf (bytes : List UInt8) : AddressSet :=
  .ofList (bytes.map fun n => (Account.numbered n 0).address)

theorem quorums_intersect_fiveAndPending :
    ValidatorSet.ofAccounts fiveAndPending.accounts .standard = .ok fiveAndPending ∧
    0 < fiveAndPending.total.val ∧
    fiveAndPending.hasQuorum ⟨1⟩ (addressesOf [1, 2, 3, 4, 6, 9]) = true ∧
    fiveAndPending.hasQuorum ⟨2⟩ (addressesOf [9, 5, 4, 3, 2]) = true ∧
    (∃ a ∈ fiveAndPending.accounts, 0 < a.power.val ∧
      a.address ∈ addressesOf [1, 2, 3, 4, 6, 9] ∧ a.address ∈ addressesOf [9, 5, 4, 3, 2]) ∧
    (2 * 614 - 1000) * fiveAndPending.total.val ≤ 1000 * (fiveAndPending.powerOf fun x =>
      x ∈ addressesOf [1, 2, 3, 4, 6, 9] ∧ x ∈ addressesOf [9, 5, 4, 3, 2]).val := by
  have hset : ValidatorSet.ofAccounts fiveAndPending.accounts .standard = .ok fiveAndPending :=
    ValidatorSet.ofAccounts_eq_ok_iff.2 ⟨rfl, rfl⟩
  have htotal : 0 < fiveAndPending.total.val := by decide
  have hS : fiveAndPending.hasQuorum ⟨1⟩ (addressesOf [1, 2, 3, 4, 6, 9]) = true := by decide
  have hT : fiveAndPending.hasQuorum ⟨2⟩ (addressesOf [9, 5, 4, 3, 2]) = true := by decide
  exact ⟨hset, htotal, hS, hT,
    (quorums_intersect hset htotal QuorumPolicy.standard_majority).1 ⟨1⟩ ⟨2⟩ _ _ hS hT⟩

end Quorate
