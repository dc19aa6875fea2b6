import Quorate.Digest.Hmac
import Quorate.Key.PublicKey

/-!
# Secret keys

A secret key is a scalar between zero and the group order. It is derived from a seed, or read from its
32 bytes.
-/

namespace Quorate

open Bls12381 Weierstrass

@[ext] structure SecretKey where
  scalar : Nat
  pos : 0 < scalar
  lt_order : scalar < groupOrder

instance : DecidableEq SecretKey := fun _ _ => decidable_of_decidable_of_iff SecretKey.ext_iff.symm

namespace SecretKey

def ofScalar? (n : Nat) : Option SecretKey :=
  if h : 0 < n ∧ n < groupOrder then some ⟨n, h.1, h.2⟩ else none

/-- Derive a key from a secret seed: key material under the digest of the salt, reduced; should the scalar
be zero, again under the digest of that salt. -/
def deriveWith (seed : Bytes) : (attempts : Nat) → (salt : Bytes) → Except KeyError SecretKey
  | 0, _ => .error .derivationFailed
  | attempts + 1, salt =>
    let salt := sha256 salt
    let material := deriveKey salt (seed ++ [0]) (Bytes.ofNatBE 2 48) 48
    match ofScalar? (Bytes.toNatBE material % groupOrder) with
    | some key => .ok key
    | none => deriveWith seed attempts salt

def ofSeed (seed : Bytes) : Except KeyError SecretKey :=
  deriveWith seed 256 (Bytes.ofText "BLS-SIG-KEYGEN-SALT-")

def ofBytes (bs : Bytes) : Except KeyError SecretKey :=
  if bs.length ≠ Material.secretKey.size then .error (.wrongSize .secretKey bs.length)
  else
    match ofScalar? (Bytes.toNatBE bs) with
    | some key => .ok key
    | none => .error .scalarOutOfRange

def ofHex (s : String) : Except KeyError SecretKey :=
  materialOfHex s >>= ofBytes

def toBytes (k : SecretKey) : Bytes :=
  Bytes.ofNatBE 32 k.scalar

def publicKey (k : SecretKey) : PublicKey :=
  ⟨G1.generator.multiple k.scalar⟩

def sign (k : SecretKey) (message tag : Bytes) : Signature :=
  ⟨(hashToGroup message tag).multiple k.scalar⟩

/-- A short form for people, which tells the public key only. -/
def summary (k : SecretKey) : String :=
  s!"SecretKey \x7b public_key: {k.publicKey.summary} \x7d"

end SecretKey

end Quorate
