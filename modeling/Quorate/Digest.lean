import Quorate.Bytes.Hex
import Quorate.Digest.Blake3

/-!
# Commitments

The digest of 32 bytes by which validator sets and checkpoints are committed to.
-/

namespace Quorate

structure Digest where
  bytes : Bytes
  length_eq : bytes.length = 32
deriving DecidableEq

theorem length_blake3 (message : Bytes) : (blake3 message).length = 32 := by
  simp [blake3, Blake3.Node.compress, List.length_flatMap, Function.comp_def, List.map_const']

namespace Digest

def ofBytes (bs : Bytes) : Digest :=
  ⟨blake3 bs, length_blake3 bs⟩

def ofParts (parts : List Bytes) : Digest :=
  ofBytes parts.flatten

def ofRaw? (bs : Bytes) : Option Digest :=
  if h : bs.length = 32 then some ⟨bs, h⟩ else none

def toHex (d : Digest) : String :=
  Hex.encode d.bytes

def summary (d : Digest) : String :=
  s!"Hash({d.toHex.take 12}..)"

end Digest

end Quorate
