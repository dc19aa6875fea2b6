import Quorate.Bls12381.Compressed
import Quorate.Bytes.Hex

/-!
# Why key material is refused

The causes for which bytes or text are not a key or a signature, and the wording of each.
-/

namespace Quorate

inductive Material
  | secretKey
  | publicKey
  | signature
  | networkKey
deriving DecidableEq, Repr

namespace Material

def name : Material → String
  | secretKey => "secret key"
  | publicKey => "public key"
  | signature => "signature"
  | networkKey => "network key"

def size : Material → Nat
  | secretKey => 32
  | publicKey => 48
  | signature => 96
  | networkKey => 32

end Material

/-- A cause for which key material is refused. -/
inductive KeyError
  | wrongSize (material : Material) (actual : Nat)
  | notHex (cause : Hex.Error)
  | scalarOutOfRange
  | notAPoint (cause : Bls12381.PointError)
  /-- No scalar could be derived from a seed. -/
  | derivationFailed
  /-- No random draw gave an account key. -/
  | noUsableDraw
  | emptyAggregate
deriving DecidableEq, Repr

namespace KeyError

/-- The detail of an encoding that is refused, or of a point. -/
def detail : KeyError → String
  | wrongSize material actual => s!"{material.name}: expected {material.size} bytes, got {actual}"
  | notHex cause => cause.message
  | scalarOutOfRange => "secret scalar is zero or not reduced"
  | notAPoint .badEncoding => "BLST_BAD_ENCODING"
  | notAPoint .identity => "point is the identity"
  | notAPoint .notOnCurve => "point is not on the curve"
  | notAPoint .notInSubgroup => "point is not in the prime-order subgroup"
  | derivationFailed => "key derivation failed: BLST_BAD_ENCODING"
  | noUsableDraw => "could not draw a valid secp256k1 scalar"
  | emptyAggregate => "cannot aggregate empty list"

inductive Category
  | encoding
  | point
  | entropy
  | emptyAggregate
deriving DecidableEq, Repr

def category : KeyError → Category
  | notAPoint .badEncoding => .encoding
  | notAPoint _ => .point
  | noUsableDraw => .entropy
  | emptyAggregate => .emptyAggregate
  | _ => .encoding

def message (e : KeyError) : String :=
  match e.category with
  | .encoding => "invalid encoding: " ++ e.detail
  | .point => "invalid curve point: " ++ e.detail
  | .entropy => "entropy source unavailable: " ++ e.detail
  | .emptyAggregate => e.detail

end KeyError

/-- The bytes that a hexadecimal text writes, with or without `0x` before the digits. -/
def materialOfHex (s : String) : Except KeyError Bytes :=
  (Hex.decode (Hex.dropMark s.toList)).mapError .notHex

end Quorate
