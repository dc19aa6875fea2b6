import Quorate.Address
import Quorate.Key.PublicKey
import Quorate.Proofs.Bls12381.Decompression
import Quorate.Proofs.Bytes.Hex
import Quorate.Proofs.Traversal

/-!
# What is written is read back

Addresses, and the keys and signatures that are points of their group other than the identity, are read back from
their bytes and from their text. Keys and signatures that were read are such points. An encoding of the identity is
refused.
-/

namespace Quorate

open Bls12381

theorem Address.ofHex_toHex (a : Address) : ofHex a.toHex = .ok a := by
  have hmark : Hex.dropMark a.toHex.toList = (Hex.encode a.bytes).toList := by
    rw [toHex, String.toList_append]
    rfl
  have hlength : ((Hex.encode a.bytes).toList.flatMap String.utf8EncodeChar).length = 40 := by
    rw [Hex.length_encode, a.length_eq]
  simp only [ofHex, hmark, hlength, ne_eq, not_true_eq_false, if_false, Hex.decode_encode, ofBytes, a.length_eq,
    dite_true]

theorem materialOfHex_encode (bs : Bytes) : materialOfHex (Hex.encode bs) = .ok bs := by
  rw [materialOfHex, Hex.dropMark_encode, Hex.decode_encode]
  rfl

/-- A point in an encoding of a fixed size is read from bytes of this size. -/
theorem sizedPoint_eq_ok {F A : Type} [Field F] [DecidableEq F] {c : Coordinate F} {material : Material}
    {make : Weierstrass.Point F → A} {bs : Bytes} {a : A}
    (h : (if bs.length ≠ material.size then .error (.wrongSize material bs.length)
      else ((decompress c bs).map make).mapError .notAPoint : Except KeyError A) = .ok a) :
    bs.length = material.size ∧ ∃ p, decompress c bs = .ok p ∧ make p = a := by
  split at h
  · cases h
  · rename_i hlength
    have hpoint := mapError_eq_ok h
    cases hp : decompress c bs with
    | error cause =>
      rw [hp] at hpoint
      cases hpoint
    | ok p =>
      rw [hp] at hpoint
      exact ⟨not_not.1 hlength, p, rfl, Except.ok.inj hpoint⟩

namespace Signature

variable {s : Signature}

def InGroup (s : Signature) : Prop :=
  Bls12381.InGroup G2.constantTerm s.point

@[simp] theorem length_toBytes (s : Signature) : s.toBytes.length = 96 :=
  lawful_g2Coordinate.length_compress s.point

theorem ofBytes_toBytes_eq (s : Signature) :
    ofBytes s.toBytes = ((decompress g2Coordinate s.toBytes).map mk).mapError .notAPoint :=
  if_neg (not_not.2 s.length_toBytes)

theorem ofBytes_toBytes (hs : s.InGroup) (hne : s.point ≠ .identity) : ofBytes s.toBytes = .ok s := by
  rw [ofBytes_toBytes_eq, toBytes, readable_g2Coordinate.decompress_compress hs hne]
  rfl

theorem ofBytes_toBytes_identity (h : s.point = .identity) :
    ofBytes s.toBytes = .error (.notAPoint .identity) := by
  rw [ofBytes_toBytes_eq, toBytes, h, readable_g2Coordinate.decompress_compress_identity]
  rfl

theorem inGroup_of_ofBytes {bs : Bytes} (h : ofBytes bs = .ok s) : s.InGroup ∧ s.point ≠ .identity := by
  obtain ⟨-, p, hpoint, rfl⟩ := sizedPoint_eq_ok h
  exact readable_g2Coordinate.inGroup_of_decompress hpoint

theorem ofHex_toHex (s : Signature) : ofHex s.toHex = ofBytes s.toBytes := by
  rw [ofHex, toHex, materialOfHex_encode]
  rfl

end Signature

namespace PublicKey

variable {k : PublicKey}

def InGroup (k : PublicKey) : Prop :=
  Bls12381.InGroup G1.constantTerm k.point

@[simp] theorem length_toBytes (k : PublicKey) : k.toBytes.length = 48 :=
  lawful_g1Coordinate.length_compress k.point

theorem ofBytes_toBytes (hk : k.InGroup) (hne : k.point ≠ .identity) : ofBytes k.toBytes = .ok k := by
  have hlength : ¬ k.toBytes.length ≠ Material.publicKey.size := not_not.2 k.length_toBytes
  rw [ofBytes, if_neg hlength, toBytes, readable_g1Coordinate.decompress_compress hk hne]
  rfl

theorem inGroup_of_ofBytes {bs : Bytes} (h : ofBytes bs = .ok k) : k.InGroup ∧ k.point ≠ .identity := by
  obtain ⟨-, p, hpoint, rfl⟩ := sizedPoint_eq_ok h
  exact readable_g1Coordinate.inGroup_of_decompress hpoint

theorem ofHex_toHex (k : PublicKey) : ofHex k.toHex = ofBytes k.toBytes := by
  rw [ofHex, toHex, materialOfHex_encode]
  rfl

end PublicKey

end Quorate
