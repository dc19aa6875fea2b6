import Quorate.Proofs.Epoch.Advance
import Quorate.Proofs.ValidatorSet.Encoding
import Quorate.Proofs.ValidatorSet.Patch
import Quorate.Proofs.ValidatorSet.QuorumRule

/-!
# What a clean comparison says

Comparing the active set with the provider's accounts goes by address, while the commitment and the positions in a
certificate go by the order of the accounts. A comparison that finds nothing says that the accounts are the same in
some order, and no more: the commitments and the positions are the same just if the order is, too.
-/

namespace Quorate

namespace ValidatorSet

variable {s t : ValidatorSet}

theorem at?_congr_iff : (∀ i, s.at? i = t.at? i) ↔ s.accounts = t.accounts :=
  ⟨List.ext_getElem?, fun h i => by rw [at?, at?, h]⟩

/-- If the digest does not collide on the two encodings, then sets of keys that can be had have one commitment just
if their accounts are the same. -/
theorem commitment_eq_iff_accounts (hs : ∀ a ∈ s.accounts, a.publicKey.Built) (ht : ∀ a ∈ t.accounts, a.publicKey.Built)
    (hcollision : blake3 s.encoding = blake3 t.encoding → s.encoding = t.encoding) :
    s.commitment = t.commitment ↔ s.accounts = t.accounts := by
  rw [commitment_eq_iff]
  exact ⟨fun h => accounts_eq_of_encoding_eq hs ht (hcollision h), fun h => congrArg blake3 (encoding_eq_of_accounts_eq h)⟩

end ValidatorSet

namespace EpochState

section AnyProvider

variable {S : Type} [StateProvider S] {s : EpochState S} {height : BlockHeight} {next : ValidatorSet}

theorem reconcile_of_snapshotSet (h : s.snapshotSet height = .ok next) :
    s.reconcile height = .ok (.between s.active.validators next) := by
  rw [reconcile, h]
  rfl

/-- Where the provider's accounts make a set, comparing gives a difference, and it is empty just if the set has the
active accounts in some order. Position by position the sets are the same just if their accounts are, and so are
the commitments, as far as the digest does not collide. -/
theorem reconcile_clean_up_to_order (hnext : s.snapshotSet height = .ok next) :
    (∃ delta, s.reconcile height = .ok delta ∧
      (delta.isEmpty = true ↔ next.accounts.Perm s.active.validators.accounts)) ∧
    ((∀ i, next.at? i = s.active.validators.at? i) ↔ next.accounts = s.active.validators.accounts) ∧
    ((∀ a ∈ next.accounts, a.publicKey.Built) → (∀ a ∈ s.active.validators.accounts, a.publicKey.Built) →
      (blake3 next.encoding = blake3 s.active.validators.encoding → next.encoding = s.active.validators.encoding) →
      (next.commitment = s.active.validators.commitment ↔ next.accounts = s.active.validators.accounts)) := by
  refine ⟨⟨_, reconcile_of_snapshotSet hnext, ?_⟩, ValidatorSet.at?_congr_iff, ValidatorSet.commitment_eq_iff_accounts⟩
  rw [ValidatorSetDelta.isEmpty_between_iff, ValidatorSet.accountMap_eq_iff_perm]
  exact ⟨List.Perm.symm, List.Perm.symm⟩

end AnyProvider

/-- Two validators of equal power in the given order. -/
def twoEqual (first second : UInt8) (distinct : first ≠ second) : ValidatorSet :=
  have haddress : (Account.numbered first 25).address ≠ (Account.numbered second 25).address :=
    fun h => distinct (List.cons.inj (congrArg Address.bytes h)).1
  .ofDistinct [.numbered first 25, .numbered second 25] .standard (by simp [haddress]) QuorumPolicy.valid_standard

/-- The first and the second are active, and the provider has them the other way round. -/
def swapped : EpochState SnapshotProvider where
  active := ⟨0, twoEqual 1 2 (by decide)⟩
  provider := .ofGenesis (twoEqual 2 1 (by decide)).accounts

theorem reconcile_clean_up_to_order_swapped :
    swapped.snapshotSet .genesis = .ok (twoEqual 2 1 (by decide)) ∧
    (∃ delta, swapped.reconcile .genesis = .ok delta ∧ delta.isEmpty = true) ∧
    ¬ ∀ i, (twoEqual 2 1 (by decide)).at? i = swapped.active.validators.at? i := by
  have hnext : swapped.snapshotSet .genesis = .ok (twoEqual 2 1 (by decide)) :=
    snapshotSet_eq_ok_iff.2 ⟨rfl, rfl⟩
  obtain ⟨⟨delta, hdelta, hempty⟩, hpositions, -⟩ := reconcile_clean_up_to_order hnext
  refine ⟨hnext, ⟨delta, hdelta, hempty.2 (List.Perm.swap ..)⟩, fun h => ?_⟩
  have haddresses := congrArg (List.map Account.address) (hpositions.1 h)
  exact absurd haddresses (by decide)

/-- The comparison with the swapped validators finds nothing and the log says that the set matches, but the
commitments differ, and so does who stands first. -/
theorem clean_although_commitments_differ :
    let next := twoEqual 2 1 (by decide)
    swapped.snapshotSet .genesis = .ok next ∧
    swapped.reconcile .genesis = .ok ⟨[], [], []⟩ ∧
    swapped.reconcileEvents .genesis (.ok ⟨[], [], []⟩) =
      [⟨.debug, "Validator set matches state", [("epoch", .number 0), ("height", .number 0)]⟩] ∧
    next.commitment ≠ swapped.active.validators.commitment ∧
    next.at? 0 ≠ swapped.active.validators.at? 0 := by
  intro next
  have hnext : swapped.snapshotSet .genesis = .ok next := snapshotSet_eq_ok_iff.2 ⟨rfl, rfl⟩
  refine ⟨hnext, (reconcile_of_snapshotSet hnext).trans (congrArg _ ?_), rfl, ?_, ?_⟩
  · decide
  · decide +kernel
  · decide

end EpochState

end Quorate
