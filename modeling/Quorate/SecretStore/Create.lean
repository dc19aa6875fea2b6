import Quorate.SecretStore.Load

/-!
# Creating secrets

Every secret is created at most once: creation refuses a name that is there, before anything else, and
writes hexadecimal text. Random bytes are arguments. A failed creation leaves the store as it was.
-/

namespace Quorate.SecretStore

/-- Create the secret `name`. From the store `make` gives the result and the bytes to be stored. -/
def create {A : Type} (name : String) (make : SecretStore → Except SecretError (A × Bytes))
    (s : SecretStore) : Except SecretError A × SecretStore :=
  if s.contains name then (.error (.alreadyPresent name), s)
  else
    match make s with
    | .error e => (.error e, s)
    | .ok (value, raw) =>
      match s.write name (Bytes.ofText (Hex.encode raw)) with
      | .error e => (.error e, s)
      | .ok s' => (.ok value, s')

def createBlsKey (seed : Bytes) : SecretStore → Except SecretError PublicKey × SecretStore :=
  create blsKeyName fun _ => do
    let key ← (SecretKey.ofSeed seed).mapError .key
    return (key.publicKey, key.toBytes)

def createAccountKey (draws : List Bytes) : SecretStore → Except SecretError Address × SecretStore :=
  create accountKeyName fun _ => do
    let key ← (AccountKey.ofDraws draws).mapError .key
    return (key.address, key.toBytes)

/-- Create the node key from what is given as its stored form or else from a random seed. -/
def createNodeKey (given : Option Bytes) (seed : Bytes) :
    SecretStore → Except SecretError NodeKey × SecretStore :=
  create nodeKeyName fun _ => do
    let raw ←
      match given.filter fun stored => !stored.isEmpty with
      | some stored => decodeStored nodeKeyName stored
      | none => pure seed
    let key ← (NodeKey.ofBytes raw).mapError fun e => .invalid nodeKeyName (.badKey e)
    return (key, key.toBytes)

/-- Create the proof of possession of the stored BLS key for an address on a chain. -/
def createPossession (address : Address) (chain : ChainId) (tag : Bytes) :
    SecretStore → Except SecretError Signature × SecretStore :=
  create possessionName fun s => do
    let key ← s.loadBlsSecretKey
    let proof := key.provePossession address chain tag
    return (proof, proof.toBytes)

def createdEvent (name : String) : Event :=
  ⟨.info, "Initialized secret", [("secret", .text name)]⟩

def createEvents {A : Type} (name : String) : Except SecretError A → List Event
  | .ok _ => [createdEvent name]
  | .error _ => []

def createNodeKeyEvents : Except SecretError NodeKey → List Event
  | .ok key => [createdEvent nodeKeyName, ⟨.debug, "Networking key ready", [("node_id", .text key.nodeId)]⟩]
  | .error _ => []

end Quorate.SecretStore
