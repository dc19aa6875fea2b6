import Quorate.Curve.Ed25519
import Quorate.Key.Error

/-!
# Node keys

The key by which a node is known to its peers: a secret seed of 32 bytes, and the node's name, which is
the public key in hexadecimal.
-/

namespace Quorate

@[ext] structure NodeKey where
  seed : Bytes
  length_eq : seed.length = 32

instance : DecidableEq NodeKey := fun _ _ => decidable_of_decidable_of_iff NodeKey.ext_iff.symm

namespace NodeKey

def ofBytes (bs : Bytes) : Except KeyError NodeKey :=
  if h : bs.length = 32 then .ok ⟨bs, h⟩ else .error (.wrongSize .networkKey bs.length)

def toBytes (k : NodeKey) : Bytes :=
  k.seed

def nodeId (k : NodeKey) : String :=
  Hex.encode (Ed25519.publicKey k.seed)

/-- A short form for people, which tells the name only. -/
def summary (k : NodeKey) : String :=
  s!"NetworkKey \x7b node_id: {Text.quoted k.nodeId} \x7d"

end NodeKey

end Quorate
