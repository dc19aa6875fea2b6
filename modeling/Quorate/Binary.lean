import Quorate.BlockHeight
import Quorate.Certificate
import Quorate.ChainId
import Quorate.Text.Utf8

/-!
# Binary records

The binary form of records: integers in eight bytes, least significant first; byte strings and texts
after their length, an integer; the fields of a record one after the other. Readers give what is left of
the input behind the record.
-/

namespace Quorate

inductive BinaryError
  /-- The input ends too early, or a text is not UTF-8. -/
  | malformed
  | address (cause : AddressError)
  | key (cause : KeyError)
deriving DecidableEq

/-- The wording of those errors that say more than that the input is malformed. -/
def BinaryError.message? : BinaryError → Option String
  | malformed => none
  | address cause => some cause.message
  | key cause => some cause.message

namespace Binary

def writeWord (n : UInt64) : Bytes :=
  Bytes.ofNatLE 8 n.toNat

def readWord (bs : Bytes) : Except BinaryError (UInt64 × Bytes) :=
  if bs.length < 8 then .error .malformed
  else .ok (UInt64.ofNat (Bytes.toNatLE (bs.take 8)), bs.drop 8)

def writeBlock (bs : Bytes) : Bytes :=
  Bytes.ofNatLE 8 bs.length ++ bs

def readBlock (bs : Bytes) : Except BinaryError (Bytes × Bytes) := do
  let (length, rest) ← readWord bs
  if rest.length < length.toNat then throw .malformed
  else return (rest.take length.toNat, rest.drop length.toNat)

def writeText (s : String) : Bytes :=
  writeBlock (Bytes.ofText s)

def readText (bs : Bytes) : Except BinaryError (String × Bytes) := do
  let (block, rest) ← readBlock bs
  match Text.decodeUtf8 block with
  | .ok cs => return (String.ofList cs, rest)
  | .error _ => throw .malformed

theorem readWord_writeWord_append (n : UInt64) (rest : Bytes) :
    readWord (writeWord n ++ rest) = .ok (n, rest) := by
  have hl : (writeWord n).length = 8 := Bytes.length_ofNatLE 8 _
  have hn : Bytes.toNatLE (writeWord n) = n.toNat := by
    rw [writeWord, Bytes.toNatLE_ofNatLE]
    exact Nat.mod_eq_of_lt n.toNat_lt
  have hlen : ¬ (writeWord n ++ rest).length < 8 := by
    rw [List.length_append]
    omega
  rw [readWord, if_neg hlen, ← hl, List.take_left, List.drop_left, hn, UInt64.ofNat_toNat]

end Binary

namespace BlockHeight

def toBinary (h : BlockHeight) : Bytes :=
  Binary.writeWord h.val

def ofBinary (bs : Bytes) : Except BinaryError (BlockHeight × Bytes) := do
  let (n, rest) ← Binary.readWord bs
  return (⟨n⟩, rest)

end BlockHeight

namespace ChainId

def toBinary (c : ChainId) : Bytes :=
  Binary.writeWord c.val

def ofBinary (bs : Bytes) : Except BinaryError (ChainId × Bytes) := do
  let (n, rest) ← Binary.readWord bs
  return (⟨n⟩, rest)

end ChainId

namespace Address

def toBinary (a : Address) : Bytes :=
  Binary.writeText a.toHex

def ofBinary (bs : Bytes) : Except BinaryError (Address × Bytes) := do
  let (s, rest) ← Binary.readText bs
  return (← (ofHex s).mapError .address, rest)

end Address

namespace PublicKey

def toBinary (k : PublicKey) : Bytes :=
  Binary.writeBlock k.toBytes

def ofBinary (bs : Bytes) : Except BinaryError (PublicKey × Bytes) := do
  let (block, rest) ← Binary.readBlock bs
  return (← (ofBytes block).mapError .key, rest)

end PublicKey

namespace Signature

def toBinary (s : Signature) : Bytes :=
  Binary.writeBlock s.toBytes

def ofBinary (bs : Bytes) : Except BinaryError (Signature × Bytes) := do
  let (block, rest) ← Binary.readBlock bs
  return (← (ofBytes block).mapError .key, rest)

end Signature

namespace SignerBitmap

def toBinary (m : SignerBitmap) : Bytes :=
  Binary.writeBlock m.bytes

def ofBinary (bs : Bytes) : Except BinaryError (SignerBitmap × Bytes) := do
  let (block, rest) ← Binary.readBlock bs
  return (⟨block⟩, rest)

end SignerBitmap

namespace Certificate

def toBinary (c : Certificate) : Bytes :=
  c.signature.toBinary ++ c.bitmap.toBinary

def ofBinary (bs : Bytes) : Except BinaryError (Certificate × Bytes) := do
  let (signature, rest) ← Signature.ofBinary bs
  let (bitmap, rest) ← SignerBitmap.ofBinary rest
  return (⟨signature, bitmap⟩, rest)

end Certificate

end Quorate
