import Quorate.Address
import Quorate.Curve.Secp256k1
import Quorate.Digest.Keccak256
import Quorate.Key.Error

/-!
# Account keys

The key of a validator's account is a scalar of the curve secp256k1. The account's address is the end of
the Keccak-256 digest of the public point's coordinates.
-/

namespace Quorate

open Weierstrass

structure AccountKey where
  scalar : Nat
  pos : 0 < scalar
  lt_order : scalar < Secp256k1.groupOrder
deriving DecidableEq

inductive AccountKeyError
  | malformed
deriving DecidableEq, Repr

def AccountKeyError.message : AccountKeyError → String
  | malformed => "malformed or out-of-range secret key"

theorem length_keccak256 (message : Bytes) : (keccak256 message).length = 32 := by
  simp [keccak256, List.length_flatMap, List.map_const']

/-- The address of the account whose public point has the given coordinates: the last 20 bytes of their
digest. -/
def Address.ofCoordinates (x y : Secp256k1.Field) : Address :=
  ⟨(keccak256 (Secp256k1.coordinateBytes x y)).drop 12, by simp [length_keccak256]⟩

/-- The address of the account whose public key is encoded. -/
def Address.ofPublicEncoding? (bs : Bytes) : Option Address :=
  (Secp256k1.ofEncoding? bs).map fun (x, y) => ofCoordinates x y

namespace AccountKey

/-- Read a scalar of 32 bytes, most significant first. -/
def ofBytes (bs : Bytes) : Except AccountKeyError AccountKey :=
  if h : bs.length = 32 ∧ 0 < Bytes.toNatBE bs ∧ Bytes.toNatBE bs < Secp256k1.groupOrder then
    .ok ⟨Bytes.toNatBE bs, h.2.1, h.2.2⟩
  else .error .malformed

def toBytes (k : AccountKey) : Bytes :=
  Bytes.ofNatBE 32 k.scalar

def address (k : AccountKey) : Address :=
  match Secp256k1.generator.multiple k.scalar with
  | .affine x y => .ofCoordinates x y
  | .identity => .zero

/-- The first of at most eight random draws that is a key. -/
def ofDraws (draws : List Bytes) : Except KeyError AccountKey :=
  match (draws.take 8).findSome? fun draw => (ofBytes draw).toOption with
  | some key => .ok key
  | none => .error .noUsableDraw

/-- A short form for people, which tells the address only. -/
def summary (k : AccountKey) : String :=
  s!"EcdsaKey \x7b address: {k.address.summary} \x7d"

end AccountKey

end Quorate
