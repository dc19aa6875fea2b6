import Quorate.Proofs.Key.Encodings

/-!
# Sums of signatures

Signatures are points of the curve of the second group. Their sum does not depend on their order.
-/

namespace Quorate

open Bls12381 Weierstrass

namespace Signature

def OnCurve (s : Signature) : Prop :=
  s.point.isOn G2.constantTerm = true

/-- The conventional generator of the second group. -/
def generator : Signature where
  point := .affine
    (.ofNats
      0x024aa2b2f08f0a91260805272dc51051c6e47ad4fa403b02b4510b647ae3d1770bac0326a805bbefd48056c8c121bdb8
      0x13e02b6052719f607dacd3a088274f65596bd0d09920b61ab5da61bbdc7f5049334cf11213945d57e5ac7d055d042b7e)
    (.ofNats
      0x0ce5d527727d6e118cc9cdc6da2e351aadfd9baa8cbdd3a76d429a695160d12c923ac9cc3baca289e193548608b82801
      0x0606c4a02ea734cc32acd2b02bc28b99cb3e287e85a763af267492ab572e99ab3f370d275cec1da1aaa9075ff05f79be)

theorem onCurve_generator : generator.OnCurve := by
  unfold OnCurve
  decide

theorem aggregate_eq_ok {ss : List Signature} (hne : ss ≠ []) :
    aggregate ss = .ok ⟨Point.sum (ss.map point)⟩ := by
  cases ss with
  | nil => exact absurd rfl hne
  | cons s rest => rfl

end Signature

end Quorate
