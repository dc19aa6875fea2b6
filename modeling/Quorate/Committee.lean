import Quorate.Certificate
import Quorate.Key.Possession
import Quorate.SigningDomains

/-!
# Sample committees

Validators whose keys and addresses are determined by a number, so that committees of different sizes
share their first members. All their signatures are genuine.
-/

namespace Quorate

structure SampleValidator where
  index : Nat
  secretKey : SecretKey
  address : Address
  power : VotingPower

namespace SampleValidator

/-- The chain for which sample validators are meant. -/
def sampleChain : ChainId := ⟨8844⟩

/-- The digest of a label and the validator's number in 8 bytes. -/
def labelled (label : String) (index : Nat) : Digest :=
  .ofParts [Bytes.ofText label, Bytes.ofNatBE 8 index]

def keyOf (index : Nat) : Except KeyError SecretKey :=
  SecretKey.ofSeed (labelled "hydragon-test-validator-key" index).bytes

/-- The address of sample validator `index`: the end of a digest. -/
def addressOf (index : Nat) : Address :=
  let digest := labelled "hydragon-test-validator-address" index
  ⟨digest.bytes.drop 12, by simp [digest.length_eq]⟩

def make (index : Nat) (power : VotingPower) : Except KeyError SampleValidator := do
  let key ← keyOf index
  return ⟨index, key, addressOf index, power⟩

def publicKey (v : SampleValidator) : PublicKey :=
  v.secretKey.publicKey

def account (v : SampleValidator) : Except AccountError Account :=
  Account.make v.address v.publicKey v.power

/-- The proof of possession under the standard tag. -/
def possession (v : SampleValidator) (chain : ChainId) : Signature :=
  v.secretKey.provePossession v.address chain SigningDomains.standard.koskTag

end SampleValidator

/-- Sample validators in the order of their numbers. -/
structure Committee where
  validators : List SampleValidator

namespace Committee

def ofPowers (powers : List VotingPower) : Except KeyError Committee := do
  let validators ← powers.zipIdx.mapM fun (power, index) => SampleValidator.make index power
  return ⟨validators⟩

def size (c : Committee) : Nat :=
  c.validators.length

def accounts (c : Committee) : Except AccountError (List Account) :=
  c.validators.mapM SampleValidator.account

/-- Why there is no set or certificate of a committee. -/
inductive Failure
  | account (cause : AccountError)
  | validatorSet (cause : ValidatorSetError)
  | noSuchMember (index : Nat)
  | certificate (cause : CertificateError)

def validatorSet (c : Committee) : Except Failure ValidatorSet := do
  let accounts ← c.accounts.mapError .account
  (ValidatorSet.ofAccountsStandard accounts).mapError .validatorSet

def votes (c : Committee) (signers : List Nat) (message tag : Bytes) : Except Failure (List Vote) :=
  signers.mapM fun index =>
    match c.validators[index]? with
    | some v => .ok ⟨v.address, v.secretKey.sign message tag⟩
    | none => .error (.noSuchMember index)

def certificate (c : Committee) (signers : List Nat) (message tag : Bytes) :
    Except Failure Certificate := do
  let votes ← c.votes signers message tag
  let set ← c.validatorSet
  (Certificate.ofVotes set votes).mapError .certificate

end Committee

end Quorate
