import Quorate.Key.SecretKey
import Quorate.SigningMessage

/-!
# Proofs of possession

A validator proves that it knows the secret of its key by signing its own address and the chain.
Aggregates of signatures mean something only among keys with such proofs.
-/

namespace Quorate

def SecretKey.provePossession (k : SecretKey) (address : Address) (chain : ChainId) (tag : Bytes) :
    Signature :=
  k.sign (SigningMessage.possession address chain) tag

/-- Whether the signature proves possession of the key's secret for an address on a chain. -/
def PublicKey.verifyPossession (k : PublicKey) (address : Address) (chain : ChainId) (tag : Bytes)
    (proof : Signature) : Bool :=
  k.verify (SigningMessage.possession address chain) tag proof

end Quorate
