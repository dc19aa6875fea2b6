import Quorate.Bls12381.HashToGroup
import Quorate.Key.Error

/-!
# Signatures

A signature is a point of the second group, made by one signer or summed from several. Two signatures
are equal when their points are, which is when their encodings are.
-/

namespace Quorate

open Bls12381 Weierstrass

/-- A BLS signature, individual or aggregated. -/
structure Signature where
  point : G2
deriving DecidableEq

namespace Signature

def toBytes (s : Signature) : Bytes :=
  compress g2Coordinate s.point

/-- Read a compressed signature; the identity is refused. -/
def ofBytes (bs : Bytes) : Except KeyError Signature :=
  if bs.length ≠ Material.signature.size then .error (.wrongSize .signature bs.length)
  else ((decompress g2Coordinate bs).map Signature.mk).mapError .notAPoint

def ofHex (s : String) : Except KeyError Signature :=
  materialOfHex s >>= ofBytes

def toHex (s : Signature) : String :=
  Hex.encode s.toBytes

def aggregate : List Signature → Except KeyError Signature
  | [] => .error .emptyAggregate
  | s :: rest => .ok ⟨Point.sum ((s :: rest).map point)⟩

def summary (s : Signature) : String :=
  let shown := s.toHex.take 16
  s!"Signature({shown}..)"

end Signature

/-- The point that a message hashes to, in the form in which others can check it. -/
structure MessagePoint where
  point : G2
deriving DecidableEq

namespace MessagePoint

def ofMessage (message tag : Bytes) : MessagePoint :=
  ⟨hashToGroup message tag⟩

def toBytes (p : MessagePoint) : Bytes :=
  compress g2Coordinate p.point

def summary (p : MessagePoint) : String :=
  let shown := (Hex.encode p.toBytes).take 16
  s!"MessagePoint({shown}..)"

end MessagePoint

end Quorate
