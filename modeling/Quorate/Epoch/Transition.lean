import Quorate.Epoch.Active
import Quorate.Epoch.Provider
import Quorate.ValidatorSet.Delta

/-!
# Epoch changes

The two ways in which the active epoch meets a state provider. Reconciling compares the active set with
the provider's accounts and changes nothing. Advancing reads the provider's accounts, has the provider
take the commit, and makes the new set active; a refused commit leaves the active epoch as it was.
-/

namespace Quorate

inductive EpochError
  | provider (cause : ProviderError)
  | validatorSet (cause : ValidatorSetError)
  | stale (cause : StaleEpoch)
deriving DecidableEq

def EpochError.message : EpochError → String
  | provider cause => cause.message
  | validatorSet cause => s!"provider returned an invalid validator set: {cause.message}"
  | stale cause => cause.message

structure EpochState (S : Type) where
  active : ActiveEpoch
  provider : S

namespace EpochState

variable {S : Type} [StateProvider S]

/-- The provider's accounts at a height as a set under the active set's policy. -/
def snapshotSet (s : EpochState S) (height : BlockHeight) : Except EpochError ValidatorSet := do
  let accounts ← (StateProvider.accountsAt s.provider height).mapError .provider
  (ValidatorSet.ofAccounts accounts s.active.validators.policy).mapError .validatorSet

/-- What would change if the provider's accounts at a height became active. -/
def reconcile (s : EpochState S) (height : BlockHeight) : Except EpochError ValidatorSetDelta := do
  let snapshot ← s.snapshotSet height
  return .between s.active.validators snapshot

def reconcileEvents (s : EpochState S) (height : BlockHeight) :
    Except EpochError ValidatorSetDelta → List Event
  | .error _ => []
  | .ok delta =>
    let position : List (String × FieldValue) :=
      [("epoch", .number s.active.epoch.toNat), ("height", .number height.val.toNat)]
    if delta.isEmpty then [⟨.debug, "Validator set matches state", position⟩]
    else
      [⟨.warn, "Published validator set diverges from state", position ++ [
        ("added", .number delta.added.length), ("updated", .number delta.updated.length),
        ("removed", .number delta.removed.length)]⟩]

/-- Make the provider's accounts at a height the active set of a later epoch. -/
def advance (s : EpochState S) (epoch : UInt64) (endHeight : BlockHeight) :
    Except EpochError ActiveEpoch × EpochState S :=
  match s.snapshotSet endHeight with
  | .error e => (.error e, s)
  | .ok next =>
    if epoch ≤ s.active.epoch then (.error (.stale (.staleEpoch s.active.epoch epoch)), s)
    else
      match StateProvider.commit s.provider ⟨epoch, endHeight, next.commitment⟩ with
      | (.error e, provider) => (.error (.provider e), { s with provider })
      | (.ok (), provider) =>
        match s.active.publish epoch next with
        | .error e => (.error (.stale e), { s with provider })
        | .ok active => (.ok active, ⟨active, provider⟩)

def advanceEvents (endHeight : BlockHeight) : Except EpochError ActiveEpoch → List Event
  | .error _ => []
  | .ok active => [active.publishedEvent, ⟨.info, "Advanced epoch", [
      ("epoch", .number active.epoch.toNat), ("end_height", .number endHeight.val.toNat),
      ("validators", .number active.validators.size)]⟩]

/-- Make a set active for a later epoch without the provider. -/
def publish (s : EpochState S) (epoch : UInt64) (validators : ValidatorSet) :
    Except StaleEpoch ActiveEpoch × EpochState S :=
  match s.active.publish epoch validators with
  | .error e => (.error e, s)
  | .ok active => (.ok active, { s with active })

end EpochState

end Quorate
