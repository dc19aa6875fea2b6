import Quorate.Certificate
import Quorate.Proofs.MarkedPositions
import Quorate.Proofs.ValidatorSet.Lookup

/-!
# Checking certificates

A check goes from the marked positions to addresses, sorts these, and looks the keys up again. Nobody is
lost or merged on that way: the keys are those of the marked positions, each once. So the outcome is a
function of the set of marked positions, the quorum rule and the signature.
-/

namespace Quorate.Certificate

variable {c d : Certificate} {set : ValidatorSet} {x : Address}

theorem mem_signers :
    x ∈ c.signers set ↔ ∃ i ∈ c.bitmap.members, ∃ a, set.at? i = some a ∧ a.address = x := by
  simp only [signers, AddressSet.mem_ofList, List.mem_map, List.mem_filterMap, SignerBitmap.mem_toList,
    SignerBitmap.mem_members]
  constructor
  · rintro ⟨a, ⟨i, hi, ha⟩, rfl⟩
    exact ⟨i, hi, a, ha, rfl⟩
  · rintro ⟨i, hi, a, ha, rfl⟩
    exact ⟨a, ⟨i, hi, ha⟩, rfl⟩

theorem exists_mem_signers {i : Nat} (hi : i ∈ c.bitmap.members) (hlt : i < set.size) :
    ∃ x, x ∈ c.signers set := by
  have hat : set.at? i = some set.accounts[i] := List.getElem?_eq_getElem hlt
  exact ⟨_, mem_signers.2 ⟨i, hi, _, hat, rfl⟩⟩

theorem mem_marked_iff {a : Account} :
    a ∈ c.bitmap.members.toList.filterMap set.at? ↔ a ∈ set.membersIn (· ∈ c.signers set) := by
  simp only [List.mem_filterMap, Finset.mem_toList, ValidatorSet.mem_membersIn, mem_signers]
  constructor
  · rintro ⟨i, hi, ha⟩
    exact ⟨ValidatorSet.mem_accounts_of_at? ha, i, hi, a, ha, rfl⟩
  · rintro ⟨ha, i, hi, b, hb, haddress⟩
    have hba : b = a := ValidatorSet.eq_of_address_eq (ValidatorSet.mem_accounts_of_at? hb) ha haddress
    exact ⟨i, hi, hba ▸ hb⟩

/-- The keys that the signature is checked against are those of the marked positions. -/
theorem publicKeysOf_signers_perm (c : Certificate) (set : ValidatorSet) :
    (set.publicKeysOf (c.signers set)).Perm
      (c.bitmap.members.toList.filterMap fun i => (set.at? i).map Account.publicKey) := by
  have hmarked : (c.bitmap.members.toList.filterMap set.at?).Nodup :=
    c.bitmap.members.nodup_toList.filterMap fun _ _ _ hi hj => ValidatorSet.at?_injective hi hj
  have haccounts : (c.bitmap.members.toList.filterMap set.at?).Perm
      (set.membersIn (· ∈ c.signers set)) :=
    (List.perm_ext_iff_of_nodup hmarked ValidatorSet.nodup_membersIn).2 fun _ => mem_marked_iff
  rw [← List.map_filterMap]
  exact ((set.filterMap_find?_perm _).trans haccounts.symm).map _

theorem outOfRange?_eq (c : Certificate) (set : ValidatorSet) :
    c.outOfRange? set =
      if ∃ i ∈ c.bitmap.members, set.size ≤ i then some (c.bitmap.members.sup id) else none := by
  unfold outOfRange?
  cases hmax : c.bitmap.max? with
  | none =>
    have hempty := SignerBitmap.max?_eq_none_iff.1 hmax
    simp [hempty]
  | some k =>
    obtain ⟨hk, hgreatest⟩ := SignerBitmap.max?_eq_some_iff.1 hmax
    have hsup : c.bitmap.members.sup id = k :=
      Nat.le_antisymm (Finset.sup_le fun i hi => hgreatest hi) (Finset.le_sup (f := id) hk)
    have hrange : (∃ i ∈ c.bitmap.members, set.size ≤ i) ↔ set.size ≤ k :=
      ⟨fun ⟨i, hi, hle⟩ => hle.trans (hgreatest hi), fun hle => ⟨k, hk, hle⟩⟩
    rw [hsup]
    by_cases h : set.size ≤ k
    · rw [if_pos (hrange.2 h), Option.filter_some, if_pos (decide_eq_true h)]
    · rw [if_neg (mt hrange.1 h), Option.filter_some, if_neg (by simpa using h)]

theorem signers_congr (h : d.bitmap.members = c.bitmap.members) : d.signers set = c.signers set :=
  AddressSet.ext fun x => by rw [mem_signers, mem_signers, h]

theorem verify_congr (hsignature : d.signature = c.signature) (h : d.bitmap.members = c.bitmap.members) :
    d.verify set = c.verify set := by
  funext height message tag
  unfold verify
  rw [outOfRange?_eq, outOfRange?_eq, signers_congr h, h, hsignature]

theorem signers_isEmpty_iff (hrange : ¬ ∃ i ∈ c.bitmap.members, set.size ≤ i) :
    (c.signers set).toList.isEmpty = true ↔ c.bitmap.members = ∅ := by
  rw [List.isEmpty_iff, List.eq_nil_iff_forall_not_mem, Finset.eq_empty_iff_forall_notMem]
  constructor
  · intro hnone i hi
    have hlt : i < set.size := by
      by_contra hle
      exact hrange ⟨i, hi, Nat.le_of_not_lt hle⟩
    obtain ⟨x, hx⟩ := exists_mem_signers hi hlt
    exact hnone x hx
  · intro hnone x hx
    obtain ⟨i, hi, -⟩ := mem_signers.1 hx
    exact hnone i hi

/-- The outcome of a check, decided by the marked positions: the first of out of range, nobody marked, no
quorum of the marked addresses, and a signature that is not that of the marked keys. Bitmaps that mark the
same positions have the same outcome, whatever their length. -/
theorem verify_decided_by_marks (c : Certificate) (set : ValidatorSet) :
    ∃ (signers : AddressSet) (keys : List PublicKey),
      (∀ x, x ∈ signers ↔ ∃ i ∈ c.bitmap.members, ∃ a, set.at? i = some a ∧ a.address = x) ∧
      keys.Perm (c.bitmap.members.toList.filterMap fun i => (set.at? i).map Account.publicKey) ∧
      (∀ height message tag, c.verify set height message tag =
        if ∃ i ∈ c.bitmap.members, set.size ≤ i then
          .error (.bitmapOutOfRange (c.bitmap.members.sup id) set.size)
        else if c.bitmap.members = ∅ then .error .noSigners
        else if set.hasQuorum height signers = false then .error .quorumNotReached
        else if c.signature.verifyAggregate keys message tag = false then .error .invalidSignature
        else .ok ()) ∧
      (∀ d : Certificate, d.signature = c.signature → d.bitmap.members = c.bitmap.members →
        d.verify set = c.verify set) ∧
      ∀ n, ({ c with bitmap := ⟨c.bitmap.bytes ++ Bytes.zeros n⟩ } : Certificate).verify set =
        c.verify set := by
  refine ⟨c.signers set, set.publicKeysOf (c.signers set), fun x => mem_signers,
    publicKeysOf_signers_perm c set, ?_, fun d => verify_congr,
    fun n => verify_congr rfl (SignerBitmap.members_append_zeros n)⟩
  intro height message tag
  unfold verify
  rw [outOfRange?_eq]
  by_cases hrange : ∃ i ∈ c.bitmap.members, set.size ≤ i
  · rw [if_pos hrange, if_pos hrange]
  · rw [if_neg hrange, if_neg hrange]
    simp only [signers_isEmpty_iff hrange, Bool.not_eq_true']

end Quorate.Certificate
