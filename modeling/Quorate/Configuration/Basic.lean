import Quorate.Event
import Quorate.FileTree
import Quorate.Key.Possession
import Quorate.Record.Basic
import Quorate.SigningDomains
import Quorate.Toml.Writer
import Quorate.ValidatorSet.Basic

/-!
# Configurations

What a node is told before it starts: its chain, the signing domains, the quorum policy, and the
validators of the first epoch with their proofs of possession.
-/

namespace Quorate

structure GenesisValidator where
  address : Address
  publicKey : PublicKey
  power : VotingPower
  /-- The proof of possession for the address and the configured chain. -/
  possession : Option Signature
deriving DecidableEq

structure Configuration where
  chain : ChainId
  domains : SigningDomains
  quorum : QuorumPolicy
  genesis : List GenesisValidator
deriving DecidableEq

inductive DocumentError
  | malformed
  | decode (cause : DecodeError)
deriving DecidableEq

/-- The wording of those errors that say more than that the document is malformed. -/
def DocumentError.message? : DocumentError → Option String
  | malformed => none
  | decode cause => cause.message?

inductive ConfigurationError
  | file (path : String) (cause : FileError)
  | document (cause : DocumentError)
  | unwritable (cause : Toml.WriteError)
  | zeroChain
  | policy (cause : PolicyError)
  | emptyDomain (name : String)
  | equalDomains
  | missingPossession (address : Address)
  | wrongPossession (address : Address)
  | account (cause : AccountError)
  | validatorSet (cause : ValidatorSetError)
deriving DecidableEq

def ConfigurationError.message? : ConfigurationError → Option String
  | file path cause => some s!"failed to read config file at {path}: {cause.message}"
  | document cause => cause.message?
  | unwritable _ => none
  | zeroChain => some "chain_id must be non-zero"
  | policy cause => some s!"invalid quorum policy: {cause.message}"
  | emptyDomain name => some s!"signing domain {Text.quoted name} must not be empty"
  | equalDomains => some "signing domains must be distinct"
  | missingPossession address => some s!"genesis validator {address.toHex} has no KOSK signature"
  | wrongPossession address =>
    some s!"KOSK signature of genesis validator {address.toHex} does not verify"
  | account cause => some cause.message
  | validatorSet cause => some cause.message

namespace Configuration

/-- The standard configuration of a chain, without validators. -/
def ofChain (chain : ChainId) : Configuration :=
  ⟨chain, .standard, .standard, []⟩

def emptyDomain? (d : SigningDomains) : Option String :=
  ([("kosk", d.kosk), ("checkpoint", d.checkpoint), ("common", d.common)].find? fun (_, tag) =>
    tag = "").map Prod.fst

def validate (c : Configuration) : Except ConfigurationError Unit := do
  if c.chain.val = 0 then throw .zeroChain
  c.quorum.validate.mapError .policy
  match emptyDomain? c.domains with
  | some name => throw (.emptyDomain name)
  | none =>
    if c.domains.kosk = c.domains.checkpoint ∨ c.domains.kosk = c.domains.common ∨
        c.domains.checkpoint = c.domains.common then
      throw .equalDomains

end Configuration

end Quorate
