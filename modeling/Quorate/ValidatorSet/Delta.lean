import Quorate.ValidatorSet.Basic

/-!
# Differences of validator sets

What changed from one set to another, by address. Positions and the policy do not count.
-/

namespace Quorate

/-- What changed going from an old set to a new one. -/
structure ValidatorSetDelta where
  /-- Validators of the new set only, in its order. -/
  added : List Account
  /-- Validators of both sets whose record changed, as the new set has them, in its order. -/
  updated : List Account
  /-- Addresses of the old set only, in its order. -/
  removed : List Address
deriving DecidableEq

namespace ValidatorSetDelta

def between (old new : ValidatorSet) : ValidatorSetDelta where
  added := new.accounts.filter fun a => !old.contains a.address
  updated := new.accounts.filter fun a =>
    match old.find? a.address with
    | some previous => previous ≠ a
    | none => false
  removed := (old.accounts.map Account.address).filter fun address => !new.contains address

def isEmpty (d : ValidatorSetDelta) : Bool :=
  d.added.isEmpty && d.updated.isEmpty && d.removed.isEmpty

end ValidatorSetDelta

end Quorate
