import Quorate.Configuration.Basic

/-!
# Genesis

The validator set of the first epoch. Every validator needs a proof of possession that verifies for its
address and the configured chain under the configured tag.
-/

namespace Quorate

def GenesisValidator.toAccount (g : GenesisValidator) (chain : ChainId) (tag : Bytes) :
    Except ConfigurationError Account :=
  match g.possession with
  | none => .error (.missingPossession g.address)
  | some proof =>
    if g.publicKey.verifyPossession g.address chain tag proof then
      (Account.make g.address g.publicKey g.power).mapError .account
    else .error (.wrongPossession g.address)

namespace Configuration

/-- The accounts of the genesis validators, in order; the first that has none is the error. -/
def genesisAccounts (c : Configuration) : Except ConfigurationError (List Account) :=
  c.genesis.mapM fun g => g.toAccount c.chain c.domains.koskTag

def genesisSet (c : Configuration) : Except ConfigurationError ValidatorSet := do
  let accounts ← c.genesisAccounts
  (ValidatorSet.ofAccounts accounts c.quorum).mapError .validatorSet

def genesisEvents : Except ConfigurationError ValidatorSet → List Event
  | .ok set => [⟨.debug, "Built genesis validator set", [
      ("validators", .number set.size), ("total_voting_power", .text set.total.text)]⟩]
  | .error _ => []

end Configuration

end Quorate
