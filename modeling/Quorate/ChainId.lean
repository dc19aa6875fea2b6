import Quorate.Bytes.Basic

/-!
# Chain identifiers
-/

namespace Quorate

/-- The identifier of a chain, a word of 64 bits. -/
structure ChainId where
  val : UInt64
deriving DecidableEq, Repr, Inhabited

namespace ChainId

/-- The bytes of the word, most significant first, behind zeros up to 32 bytes. -/
def toBytes32 (c : ChainId) : Bytes :=
  Bytes.zeros 24 ++ Bytes.ofNatBE 8 c.val.toNat

def text (c : ChainId) : String :=
  s!"Chain({c.val.toNat})"

end ChainId

end Quorate
