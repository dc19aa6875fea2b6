import Quorate.BlockHeight
import Quorate.Event
import Quorate.ValidatorSet.Basic

/-!
# Quorum decisions

Whether a group of signers decides for a validator set. Only the set's own validators with some power
count; strangers and pending validators neither add power nor count as present.
-/

namespace Quorate

/-- Everything that a quorum decision rests on. -/
structure QuorumEvaluation where
  height : BlockHeight
  /-- How many addresses have signed. -/
  signers : Nat
  /-- How many of them are validators with some power. -/
  present : Nat
  /-- The power of those. -/
  aggregated : VotingPower
  /-- The power that decides. -/
  required : VotingPower
deriving DecidableEq

namespace QuorumEvaluation

def reached (e : QuorumEvaluation) : Bool :=
  QuorumPolicy.reaches e.aggregated e.required

def event (e : QuorumEvaluation) : Event where
  level := .debug
  message := "Evaluated quorum"
  fields := [
    ("height", .number e.height.val.toNat), ("signers", .number e.signers), ("present", .number e.present),
    ("aggregated_power", .text e.aggregated.text), ("quorum_size", .text e.required.text),
    ("has_quorum", .flag e.reached)]

end QuorumEvaluation

namespace ValidatorSet

/-- The powers of the signers that count. -/
def countedPowers (s : ValidatorSet) (signers : AddressSet) : List VotingPower :=
  (signers.toList.filterMap s.power?).filter fun p => !p.isZero

/-- Evaluate the quorum rule at a height. -/
def evaluateQuorum (s : ValidatorSet) (height : BlockHeight) (signers : AddressSet) : QuorumEvaluation :=
  let counted := s.countedPowers signers
  { height := height
    signers := signers.size
    present := counted.length
    aggregated := VotingPower.sum counted
    required := s.policy.quorumSize s.total counted.length }

def quorumSize (s : ValidatorSet) (height : BlockHeight) (signers : AddressSet) : VotingPower :=
  (s.evaluateQuorum height signers).required

def hasQuorum (s : ValidatorSet) (height : BlockHeight) (signers : AddressSet) : Bool :=
  (s.evaluateQuorum height signers).reached

end ValidatorSet

end Quorate
