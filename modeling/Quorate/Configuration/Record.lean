import Quorate.Configuration.Basic
import Quorate.Record.Policy
import Quorate.Record.Scalar

/-!
# Configurations in value trees

Domains, policy and genesis validators may be absent, and so may a validator's proof of possession; an
absent proof is not written.
-/

namespace Quorate

namespace GenesisValidator

def fieldNames : List String :=
  ["address", "bls_public_key", "voting_power", "kosk_signature"]

def ofValue (format : TextFormat) (v : Value) : Except DecodeError GenesisValidator := do
  let given ← v.fieldsOf format fieldNames
  let address := given.read "address" Address.ofValue
  let publicKey := given.read "bls_public_key" PublicKey.ofValue
  let power := given.read "voting_power" (VotingPower.ofValue format)
  let possession := given.read "kosk_signature" fun
    | .null => .ok none
    | v => (Signature.ofValue v).map some
  given.settle [address.failure, publicKey.failure, power.failure, possession.failure]
  return {
    address := ← given.required address
    publicKey := ← given.required publicKey
    power := ← given.required power
    possession := ← possession.getD none }

def toValue (g : GenesisValidator) : Value :=
  .map ([("address", g.address.toValue), ("bls_public_key", g.publicKey.toValue),
    ("voting_power", g.power.toValue)] ++
    (g.possession.map fun s => ("kosk_signature", s.toValue)).toList)

end GenesisValidator

namespace Configuration

def fieldNames : List String :=
  ["chain_id", "domains", "quorum", "genesis_validators"]

def ofValue (format : TextFormat) (v : Value) : Except DecodeError Configuration := do
  let given ← v.fieldsOf format fieldNames
  let chain := given.read "chain_id" ChainId.ofValue
  let domains := given.read "domains" (SigningDomains.ofValue format)
  let quorum := given.read "quorum" (QuorumPolicy.ofValue format)
  let genesis := given.read "genesis_validators" fun
    | .list items => items.mapM (GenesisValidator.ofValue format)
    | _ => .error .wrongShape
  given.settle [chain.failure, domains.failure, quorum.failure, genesis.failure]
  return {
    chain := ← given.required chain
    domains := ← domains.getD .standard
    quorum := ← quorum.getD .standard
    genesis := ← genesis.getD [] }

def toValue (c : Configuration) : Value :=
  .map [("chain_id", c.chain.toValue), ("domains", c.domains.toValue), ("quorum", c.quorum.toValue),
    ("genesis_validators", .list (c.genesis.map GenesisValidator.toValue))]

end Configuration

end Quorate
