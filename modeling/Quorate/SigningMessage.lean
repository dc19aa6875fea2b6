import Quorate.Address
import Quorate.BlockHeight
import Quorate.ChainId
import Quorate.Digest

/-!
# Signed messages

The bytes that validators sign. Every field stands at a fixed offset in a fixed width.
-/

namespace Quorate.SigningMessage

/-- What a proof of possession signs: the address, with zeros before it up to 32 bytes, and the chain in 32
bytes. -/
def possession (address : Address) (chain : ChainId) : Bytes :=
  Bytes.zeros 12 ++ address.bytes ++ chain.toBytes32

def possessionSize : Nat := 64

/-- What certifies a checkpoint: the chain in 32 bytes, epoch and height in 8 bytes each, and the digests of
the block and of the validator set. -/
def checkpoint (chain : ChainId) (epoch : UInt64) (height : BlockHeight) (block validators : Digest) :
    Bytes :=
  chain.toBytes32 ++ Bytes.ofNatBE 8 epoch.toNat ++ Bytes.ofNatBE 8 height.val.toNat ++ block.bytes ++
    validators.bytes

end Quorate.SigningMessage
