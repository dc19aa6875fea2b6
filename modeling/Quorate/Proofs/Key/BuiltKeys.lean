import Quorate.Key.SecretKey
import Quorate.Proofs.Key.Aggregate

/-!
# The public keys that there are

A public key is read from bytes, belongs to a secret, or is the sum of public keys. Each of the three gives a
point of the group, and so keys are equal exactly if their encodings are.
-/

namespace Quorate

open Bls12381 Weierstrass

namespace Bls12381

theorem G1.isOn_generator : G1.generator.isOn G1.constantTerm = true := by
  decide

theorem G1.inGroup_generator : InGroup G1.constantTerm G1.generator :=
  ⟨G1.isOn_generator, by decide +kernel⟩

end Bls12381

namespace PublicKey

inductive Built : PublicKey → Prop
  | read {bs : Bytes} {k : PublicKey} (h : ofBytes bs = .ok k) : Built k
  | ofSecret (secret : SecretKey) : Built secret.publicKey
  | sum {keys : List PublicKey} {k : PublicKey} (hkeys : ∀ key ∈ keys, Built key)
      (h : aggregate keys = .ok k) : Built k

def OnCurve (k : PublicKey) : Prop :=
  k.point.isOn G1.constantTerm = true

variable {k l : PublicKey}

theorem inGroup_publicKey (secret : SecretKey) : secret.publicKey.InGroup :=
  Bls12381.InGroup.multiple G1.discriminant_ne_zero secret.scalar G1.inGroup_generator

theorem inGroup_of_aggregate {keys : List PublicKey} (hkeys : ∀ key ∈ keys, key.InGroup)
    (h : aggregate keys = .ok k) : k.InGroup := by
  cases keys with
  | nil => cases h
  | cons first rest =>
    cases h
    apply inGroup_sum G1.discriminant_ne_zero
    intro p hp
    obtain ⟨key, hkey, rfl⟩ := List.mem_map.1 hp
    exact hkeys key hkey

theorem Built.inGroup (h : k.Built) : k.InGroup := by
  induction h with
  | read h => exact (inGroup_of_ofBytes h).1
  | ofSecret secret => exact inGroup_publicKey secret
  | sum _ h ih => exact inGroup_of_aggregate ih h

theorem Built.onCurve (h : k.Built) : k.OnCurve :=
  h.inGroup.1

/-- Keys are told apart by their encodings. -/
theorem Built.eq_of_toBytes_eq (hk : k.Built) (hl : l.Built) (h : k.toBytes = l.toBytes) : k = l :=
  congrArg mk (lawful_g1Coordinate.compress_injective hk.onCurve hl.onCurve h)

end PublicKey

end Quorate
