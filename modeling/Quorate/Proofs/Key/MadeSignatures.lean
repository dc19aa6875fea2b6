import Quorate.Proofs.Bls12381.HashToGroup
import Quorate.Proofs.Key.BuiltKeys

/-!
# The signatures that there are

A signature is read from bytes or made with a secret, and is a point of the group either way. One that was made with a
secret is the identity only if its message hashes to the identity. If not, then it is read back from its encoding, and
whether it passes is a question to the pairings alone.
-/

namespace Quorate

open Bls12381 Weierstrass

theorem SecretKey.point_publicKey (k : SecretKey) : k.publicKey.point = G1.generator.multiple k.scalar := rfl

theorem SecretKey.point_sign (k : SecretKey) (message tag : Bytes) :
    (k.sign message tag).point = (hashToGroup message tag).multiple k.scalar := by
  rw [sign]

namespace Signature

variable {s : Signature}

inductive Made : Signature → Prop
  | read {bs : Bytes} {s : Signature} (h : ofBytes bs = .ok s) : Made s
  | signed (secret : SecretKey) (message tag : Bytes) : Made (secret.sign message tag)

theorem inGroup_sign (secret : SecretKey) (message tag : Bytes) : (secret.sign message tag).InGroup := by
  rw [InGroup, SecretKey.point_sign]
  exact (inGroup_hashToGroup message tag).multiple G2.discriminant_ne_zero secret.scalar

theorem Made.inGroup (h : s.Made) : s.InGroup := by
  cases h with
  | read h => exact (inGroup_of_ofBytes h).1
  | signed secret message tag => exact inGroup_sign secret message tag

theorem Made.onCurve (h : s.Made) : s.OnCurve :=
  h.inGroup.1

theorem made_of_inGroup (hs : s.InGroup) (hne : s.point ≠ .identity) : s.Made :=
  .read (ofBytes_toBytes hs hne)

end Signature

namespace SecretKey

variable {k : SecretKey} {message tag signed signedTag : Bytes}

theorem publicKey_ne_identity (k : SecretKey) : k.publicKey.point ≠ .identity := by
  rw [point_publicKey]
  exact G1.inGroup_generator.multiple_ne_identity G1.discriminant_ne_zero nofun k.pos k.lt_order

theorem sign_eq_identity_iff : (k.sign message tag).point = .identity ↔ hashToGroup message tag = .identity := by
  rw [point_sign]
  constructor
  · intro h
    by_contra hne
    exact (inGroup_hashToGroup message tag).multiple_ne_identity G2.discriminant_ne_zero hne k.pos k.lt_order h
  · intro h
    rw [h]
    rfl

/-- The key's signature is read back from its encoding. -/
def SignsReadably (k : SecretKey) (message tag : Bytes) : Prop :=
  Signature.ofBytes (k.sign message tag).toBytes = .ok (k.sign message tag)

/-- Whether signatures are read back does not depend on the key. -/
theorem signsReadably_iff : k.SignsReadably message tag ↔ hashToGroup message tag ≠ .identity := by
  rw [Ne, ← sign_eq_identity_iff (k := k)]
  constructor
  · intro h hidentity
    cases (Signature.ofBytes_toBytes_identity hidentity).symm.trans h
  · exact Signature.ofBytes_toBytes (Signature.inGroup_sign k message tag)

theorem verify_sign (h : hashToGroup signed signedTag ≠ .identity) :
    k.publicKey.verify message tag (k.sign signed signedTag) =
      pairingProductIsOne [(k.publicKey.point, hashToGroup message tag),
        (-G1.generator, (k.sign signed signedTag).point)] := by
  have hkey := k.publicKey_ne_identity
  have hsignature : (k.sign signed signedTag).point ≠ .identity := mt sign_eq_identity_iff.1 h
  have hkeyGroup := (PublicKey.inGroup_publicKey k).2
  have hsignatureGroup := (Signature.inGroup_sign k signed signedTag).2
  unfold PublicKey.verify PublicKey.passes
  cases hp : k.publicKey.point with
  | identity => exact absurd hp hkey
  | affine x y =>
    cases hs : (k.sign signed signedTag).point with
    | identity => exact absurd hs hsignature
    | affine x' y' =>
      rw [hp] at hkeyGroup
      rw [hs] at hsignatureGroup
      simp [hkeyGroup, hsignatureGroup]

end SecretKey

end Quorate
