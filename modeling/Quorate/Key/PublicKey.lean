import Quorate.Bls12381.Pairing
import Quorate.Key.Signature

/-!
# Public keys

A public key is a point of the first group, one validator's own or summed from several. This module
holds its encodings, the order of its encodings, and the two ways to check a signature: against one key,
and against the sum of a list of keys.
-/

namespace Quorate

open Bls12381 Weierstrass

/-- A BLS public key, individual or aggregated. -/
structure PublicKey where
  point : G1
deriving DecidableEq

namespace PublicKey

def toBytes (k : PublicKey) : Bytes :=
  compress g1Coordinate k.point

/-- Read a compressed key; the identity is refused. -/
def ofBytes (bs : Bytes) : Except KeyError PublicKey :=
  if bs.length ≠ Material.publicKey.size then .error (.wrongSize .publicKey bs.length)
  else ((decompress g1Coordinate bs).map PublicKey.mk).mapError .notAPoint

def ofHex (s : String) : Except KeyError PublicKey :=
  materialOfHex s >>= ofBytes

def toHex (k : PublicKey) : String :=
  Hex.encode k.toBytes

def aggregate : List PublicKey → Except KeyError PublicKey
  | [] => .error .emptyAggregate
  | k :: rest => .ok ⟨Point.sum ((k :: rest).map point)⟩

instance : LT PublicKey := ⟨fun a b => a.toBytes < b.toBytes⟩

instance (a b : PublicKey) : Decidable (a < b) :=
  inferInstanceAs (Decidable (a.toBytes < b.toBytes))

/-- Whether the pairing of the point with the message equals that of the generator with the signature. The identity
is no key and no signature, and the signature has to lie in its group; whether the point does is looked at only if
`validate` says so. -/
def passes (validate : Bool) (point : G1) (message tag : Bytes) (signature : Signature) : Bool :=
  match point, signature.point with
  | .identity, _ => false
  | _, .identity => false
  | p, s =>
    (!validate || inSubgroup p) && inSubgroup s &&
      pairingProductIsOne [(p, hashToGroup message tag), (-G1.generator, s)]

/-- Whether the signature was made over the message under the tag with the secret of this key. The key is
validated again. -/
def verify (k : PublicKey) (message tag : Bytes) (signature : Signature) : Bool :=
  passes true k.point message tag signature

def summary (k : PublicKey) : String :=
  let hex := k.toHex
  s!"PublicKey({hex.take 8}..{hex.drop 88})"

end PublicKey

/-- Whether the signature is the sum of signatures over the message under the tag, one by each of the
keys. The empty list signs nothing. The sum of the keys is not validated, as each of them was when it was made. -/
def Signature.verifyAggregate (s : Signature) (keys : List PublicKey) (message tag : Bytes) : Bool :=
  !keys.isEmpty && PublicKey.passes false (Point.sum (keys.map PublicKey.point)) message tag s

end Quorate
