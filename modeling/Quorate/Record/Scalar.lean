import Quorate.BlockHeight
import Quorate.ChainId
import Quorate.Key.PublicKey
import Quorate.Record.Basic

/-!
# Scalars in value trees

Heights and chains are integers. Addresses, keys and signatures are hexadecimal text. A power is written
as decimal text and read from such text or from an integer.
-/

namespace Quorate

namespace Value

def toText : Value → Except DecodeError String
  | text s => .ok s
  | _ => .error .wrongShape

/-- A whole number below `bound`. -/
def toNatBelow (bound : Nat) : Value → Except DecodeError Nat
  | int n => if 0 ≤ n ∧ n < bound then .ok n.toNat else .error .wrongShape
  | _ => .error .wrongShape

def toWord (v : Value) : Except DecodeError UInt64 :=
  (v.toNatBelow UInt64.size).map UInt64.ofNat

def ofWord (n : UInt64) : Value :=
  int n.toNat

end Value

namespace BlockHeight

def ofValue (v : Value) : Except DecodeError BlockHeight :=
  v.toWord.map mk

def toValue (h : BlockHeight) : Value :=
  .ofWord h.val

end BlockHeight

namespace ChainId

def ofValue (v : Value) : Except DecodeError ChainId :=
  v.toWord.map mk

def toValue (c : ChainId) : Value :=
  .ofWord c.val

end ChainId

namespace Address

def ofValue (v : Value) : Except DecodeError Address := do
  (ofHex (← v.toText)).mapError .address

def toValue (a : Address) : Value :=
  .text a.toHex

end Address

namespace PublicKey

def ofValue (v : Value) : Except DecodeError PublicKey := do
  (ofHex (← v.toText)).mapError .key

def toValue (k : PublicKey) : Value :=
  .text k.toHex

end PublicKey

namespace Signature

def ofValue (v : Value) : Except DecodeError Signature := do
  (ofHex (← v.toText)).mapError .key

def toValue (s : Signature) : Value :=
  .text s.toHex

end Signature

namespace VotingPower

def ofValue (format : TextFormat) : Value → Except DecodeError VotingPower
  | .text s => (ofText s).mapError .powerText
  | .int n =>
    if n < 0 then .error .negativePower
    else if n < UInt64.size then .ok ⟨n.toNat⟩
    else .error .wrongShape
  | v => .error (.notAPower (v.kind format))

def toValue (p : VotingPower) : Value :=
  .text p.text

end VotingPower

end Quorate
