import Quorate.Event
import Quorate.ValidatorSet.Basic

/-!
# The active epoch

The epoch in force with its validator set. It is replaced as a whole, and only by a later epoch.
-/

namespace Quorate

structure ActiveEpoch where
  epoch : UInt64
  validators : ValidatorSet
deriving DecidableEq

inductive StaleEpoch
  | staleEpoch (current attempted : UInt64)
deriving DecidableEq, Repr

def StaleEpoch.message : StaleEpoch → String
  | staleEpoch current attempted =>
    s!"epoch {attempted.toNat} is not newer than active epoch {current.toNat}"

namespace ActiveEpoch

/-- Replace the active epoch by a later one. -/
def publish (a : ActiveEpoch) (epoch : UInt64) (validators : ValidatorSet) :
    Except StaleEpoch ActiveEpoch :=
  if epoch ≤ a.epoch then .error (.staleEpoch a.epoch epoch) else .ok ⟨epoch, validators⟩

def publishedEvent (a : ActiveEpoch) : Event :=
  ⟨.info, "Published validator set", [
    ("epoch", .number a.epoch.toNat), ("validators", .number a.validators.size),
    ("total_voting_power", .text a.validators.total.text)]⟩

def summary (a : ActiveEpoch) : String :=
  s!"ValidatorSetHandle \x7b epoch: {a.epoch.toNat}, validators: {a.validators.size} \x7d"

end ActiveEpoch

end Quorate
