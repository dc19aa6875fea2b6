import Quorate.Key.AccountKey
import Quorate.Key.NodeKey
import Quorate.Key.Possession
import Quorate.KeyedList
import Quorate.Order.Ascending
import Quorate.Text.Utf8

/-!
# Secret stores

Named secrets, each an opaque byte string, behind a backend that may refuse to read or to write. Asking
whether a name is there never fails.
-/

namespace Quorate

inductive SecretFault
  | notText (cause : Text.Utf8Error)
  | notHex (cause : Hex.Error)
  | badKey (cause : KeyError)
  | badAccountKey (cause : AccountKeyError)
  /-- The stored proof of possession is for another key, address, chain or tag. -/
  | wrongPossession (address : Address) (chain : ChainId)
deriving DecidableEq

def SecretFault.message : SecretFault → String
  | notText cause => cause.message
  | notHex cause => cause.message
  | badKey cause => cause.message
  | badAccountKey cause => cause.message
  | wrongPossession address chain =>
    s!"KOSK proof does not verify for {address.toHex} on chain {chain.text}"

inductive SecretError
  | notFound (name : String)
  | alreadyPresent (name : String)
  | invalid (name : String) (fault : SecretFault)
  | key (cause : KeyError)
  | backend (reason : String)
deriving DecidableEq

def SecretError.message : SecretError → String
  | notFound name => s!"secret {Text.quoted name} not found"
  | alreadyPresent name => s!"secret {Text.quoted name} has already been initialized"
  | invalid name fault => s!"secret {Text.quoted name} is invalid: {fault.message}"
  | key cause => cause.message
  | backend reason => s!"key store backend error: {reason}"

/-- The secrets of a node by name, and the reasons for which the backend refuses to read or write, if it
does. -/
structure SecretStore where
  entries : KeyedList String Bytes
  readRefusal : Option String
  writeRefusal : Option String
deriving DecidableEq

namespace SecretStore

def empty : SecretStore := ⟨.empty, none, none⟩

instance : Inhabited SecretStore := ⟨empty⟩

def accountKeyName : String := "validator-key"

def blsKeyName : String := "validator-bls-key"

def nodeKeyName : String := "network-key"

def possessionName : String := "validator-bls-signature"

def lookup? (s : SecretStore) (name : String) : Option Bytes :=
  s.entries.get? name

def contains (s : SecretStore) (name : String) : Bool :=
  (s.lookup? name).isSome

def size (s : SecretStore) : Nat :=
  s.entries.size

def isEmpty (s : SecretStore) : Bool :=
  s.entries.isEmpty

/-- The value under a name, as the backend gives it. -/
def read (s : SecretStore) (name : String) : Except SecretError Bytes :=
  match s.readRefusal with
  | some reason => .error (.backend reason)
  | none =>
    match s.lookup? name with
    | some value => .ok value
    | none => .error (.notFound name)

def write (s : SecretStore) (name : String) (value : Bytes) : Except SecretError SecretStore :=
  match s.writeRefusal with
  | some reason => .error (.backend reason)
  | none => .ok { s with entries := s.entries.put name value }

def loadEncoded (s : SecretStore) (name : String) : Except SecretError Bytes :=
  if s.contains name then s.read name else .error (.notFound name)

/-- The names in ascending order; values are not shown. -/
def summary (s : SecretStore) : String :=
  let names := (sortAscending s.entries.keys).map Text.quoted
  let listed := String.intercalate ", " names
  s!"MemoryKeyStore \x7b names: [{listed}] \x7d"

theorem write_eq_ok_iff {s t : SecretStore} {name : String} {value : Bytes} :
    s.write name value = .ok t ↔
      s.writeRefusal = none ∧ t = { s with entries := s.entries.put name value } := by
  unfold write
  split
  · rename_i h
    simp [h]
  · rename_i h
    simp [h, eq_comm]

end SecretStore

end Quorate
