import Quorate.Account
import Quorate.Event
import Quorate.SecretStore.Basic

/-!
# Loading secrets

Secrets are stored as hexadecimal text; blanks around it and one `0x` before it do not count. A secret
that is not there loads as nothing; one that is there and cannot be read is an error, never nothing.
-/

namespace Quorate

/-- What a validator publishes about itself. -/
structure ValidatorIdentity where
  address : Address
  publicKey : PublicKey
  possession : Signature
deriving DecidableEq

namespace ValidatorIdentity

def toAccount (i : ValidatorIdentity) (power : VotingPower) : Except AccountError Account :=
  Account.make i.address i.publicKey power

def event (i : ValidatorIdentity) (chain : ChainId) : Event :=
  ⟨.info, "Loaded validator identity",
    [("address", .text i.address.toHex), ("chain_id", .number chain.val.toNat)]⟩

end ValidatorIdentity

namespace SecretStore

def decodeStored (name : String) (stored : Bytes) : Except SecretError Bytes :=
  match Text.decodeUtf8 stored with
  | .error cause => .error (.invalid name (.notText cause))
  | .ok text =>
    match Hex.decode (Hex.dropMark (Text.trim text)) with
    | .error cause => .error (.invalid name (.notHex cause))
    | .ok raw => .ok raw

def load {A : Type} (s : SecretStore) (name : String) (decode : Bytes → Except SecretFault A) :
    Except SecretError (Option A) :=
  if s.contains name then do
    let stored ← s.read name
    let raw ← decodeStored name stored
    let value ← (decode raw).mapError (.invalid name)
    return some value
  else .ok none

def required {A : Type} (name : String) (loaded : Except SecretError (Option A)) : Except SecretError A :=
  match loaded with
  | .ok (some value) => .ok value
  | .ok none => .error (.notFound name)
  | .error e => .error e

def loadBlsSecretKey (s : SecretStore) : Except SecretError SecretKey :=
  required blsKeyName (s.load blsKeyName fun raw => (SecretKey.ofBytes raw).mapError .badKey)

def loadBlsPublicKey (s : SecretStore) : Except SecretError (Option PublicKey) :=
  if s.contains blsKeyName then s.loadBlsSecretKey.map fun key => some key.publicKey else .ok none

def loadAddress (s : SecretStore) : Except SecretError (Option Address) :=
  s.load accountKeyName fun raw =>
    ((AccountKey.ofBytes raw).map AccountKey.address).mapError .badAccountKey

def loadPossession (s : SecretStore) : Except SecretError (Option Signature) :=
  s.load possessionName fun raw => (Signature.ofBytes raw).mapError .badKey

def loadNodeKey (s : SecretStore) : Except SecretError (Option NodeKey) :=
  s.load nodeKeyName fun raw => (NodeKey.ofBytes raw).mapError .badKey

/-- Address, public key and proof of possession, all of which have to be there, with a proof that verifies
for the chain and the tag. -/
def loadIdentity (s : SecretStore) (chain : ChainId) (tag : Bytes) :
    Except SecretError ValidatorIdentity := do
  let address ← required accountKeyName s.loadAddress
  let publicKey ← required blsKeyName s.loadBlsPublicKey
  let possession ← required possessionName s.loadPossession
  if publicKey.verifyPossession address chain tag possession then
    return ⟨address, publicKey, possession⟩
  else throw (.invalid possessionName (.wrongPossession address chain))

end SecretStore

end Quorate
