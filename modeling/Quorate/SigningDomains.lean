import Quorate.Bytes.Basic

/-!
# Signing domains

The domain tag under which a message is hashed to the curve. A signature made under one tag is no
signature under another, even over the same bytes.
-/

namespace Quorate

/-- The tags in use by a node. -/
structure SigningDomains where
  /-- For proofs that a validator knows the secret of its key. -/
  kosk : String
  /-- For checkpoints and commits. -/
  checkpoint : String
  /-- For all else. -/
  common : String
deriving DecidableEq, Repr

namespace SigningDomains

/-- The tags that nodes agree on. -/
def standard : SigningDomains :=
  ⟨"DOMAIN_HYDRA_CHAIN", "DOMAIN_CHECKPOINT_MANAGER", "DOMAIN_COMMON_SIGNING"⟩

instance : Inhabited SigningDomains := ⟨standard⟩

def koskTag (d : SigningDomains) : Bytes :=
  Bytes.ofText d.kosk

def checkpointTag (d : SigningDomains) : Bytes :=
  Bytes.ofText d.checkpoint

def commonTag (d : SigningDomains) : Bytes :=
  Bytes.ofText d.common

end SigningDomains

end Quorate
