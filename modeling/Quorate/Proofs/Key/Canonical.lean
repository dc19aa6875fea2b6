import Quorate.Key.AccountKey
import Quorate.Key.SecretKey
import Quorate.Proofs.Binary
import Quorate.Proofs.Bls12381.Canonical
import Quorate.Proofs.Key.Encodings

/-!
# Keys and signatures have one spelling

A point is read only from its compressed form, and a scalar only from its digits.
-/

namespace Quorate

open Bls12381

variable {bs : Bytes}

theorem PublicKey.toBytes_of_ofBytes {k : PublicKey} (h : ofBytes bs = .ok k) : k.toBytes = bs := by
  obtain ⟨hlength, p, hpoint, rfl⟩ := sizedPoint_eq_ok h
  exact canonical_g1Coordinate.compress_of_decompress hlength hpoint

theorem Signature.toBytes_of_ofBytes {s : Signature} (h : ofBytes bs = .ok s) : s.toBytes = bs := by
  obtain ⟨hlength, p, hpoint, rfl⟩ := sizedPoint_eq_ok h
  exact canonical_g2Coordinate.compress_of_decompress hlength hpoint

theorem SecretKey.toBytes_of_ofBytes {k : SecretKey} (h : ofBytes bs = .ok k) : k.toBytes = bs := by
  unfold ofBytes at h
  split at h
  · cases h
  · rename_i hlength
    split at h
    · rename_i key hkey
      cases h
      obtain ⟨hrange, hk⟩ := Option.dite_none_right_eq_some.1 hkey
      obtain rfl := Option.some.inj hk
      have hdigits := Bytes.ofNatBE_toNatBE bs
      rwa [not_not.1 hlength] at hdigits
    · cases h

theorem AccountKey.toBytes_of_ofBytes {k : AccountKey} (h : ofBytes bs = .ok k) : k.toBytes = bs := by
  unfold ofBytes at h
  split at h
  · rename_i hvalid
    cases h
    have hdigits := Bytes.ofNatBE_toNatBE bs
    rwa [hvalid.1] at hdigits
  · cases h

theorem PublicKey.canonical : CanonicalBytes ofBytes toBytes :=
  .of_write_eq fun _ _ => toBytes_of_ofBytes

theorem Signature.canonical : CanonicalBytes ofBytes toBytes :=
  .of_write_eq fun _ _ => toBytes_of_ofBytes

theorem SecretKey.canonical : CanonicalBytes ofBytes toBytes :=
  .of_write_eq fun _ _ => toBytes_of_ofBytes

theorem AccountKey.canonical : CanonicalBytes ofBytes toBytes :=
  .of_write_eq fun _ _ => toBytes_of_ofBytes

end Quorate
