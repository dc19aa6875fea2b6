import Quorate.Digest.Sha2

/-!
# Keyed digests and key derivation

HMAC over SHA-256, and the extract-and-expand derivation of key material built from it.
-/

namespace Quorate

/-- HMAC with SHA-256. A key longer than a block is digested first. -/
def hmacSha256 (key message : Bytes) : Bytes :=
  let key := if key.length ≤ 64 then key else sha256 key
  let key := key ++ Bytes.zeros (64 - key.length)
  sha256 (key.map (· ^^^ 0x5c) ++ sha256 (key.map (· ^^^ 0x36) ++ message))

/-- `count` blocks of expanded key material, each keyed digest taking in the block before it. -/
def expandKey (key info : Bytes) : (count : Nat) → (index : Nat) → (previous : Bytes) → Bytes
  | 0, _, _ => []
  | count + 1, index, previous =>
    let block := hmacSha256 key (previous ++ info ++ [UInt8.ofNat index])
    block ++ expandKey key info count (index + 1) block

/-- `length` bytes of key material from a secret, under a salt and a description of its use. -/
def deriveKey (salt secret info : Bytes) (length : Nat) : Bytes :=
  (expandKey (hmacSha256 salt secret) info ((length + 31) / 32) 1 []).take length

end Quorate
