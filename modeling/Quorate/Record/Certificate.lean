import Quorate.Certificate
import Quorate.Record.Scalar

/-!
# Certificates in value trees

A bitmap is a record with the list of its bytes, and a certificate one of its signature and its bitmap.
No field may be absent.
-/

namespace Quorate

namespace SignerBitmap

def ofValue (format : TextFormat) (v : Value) : Except DecodeError SignerBitmap := do
  let given ← v.fieldsOf format ["bits"]
  let bits := given.read "bits" fun
    | .list items => items.mapM fun item => (item.toNatBelow 256).map UInt8.ofNat
    | _ => .error .wrongShape
  given.settle [bits.failure]
  return ⟨← given.required bits⟩

def toValue (m : SignerBitmap) : Value :=
  .map [("bits", .ofBytes m.bytes)]

end SignerBitmap

namespace Certificate

def ofValue (format : TextFormat) (v : Value) : Except DecodeError Certificate := do
  let given ← v.fieldsOf format ["signature", "bitmap"]
  let signature := given.read "signature" Signature.ofValue
  let bitmap := given.read "bitmap" (SignerBitmap.ofValue format)
  given.settle [signature.failure, bitmap.failure]
  return ⟨← given.required signature, ← given.required bitmap⟩

def toValue (c : Certificate) : Value :=
  .map [("signature", c.signature.toValue), ("bitmap", c.bitmap.toValue)]

end Certificate

end Quorate
