import Quorate.Bls12381.Group
import Quorate.Proofs.Bls12381.Fields
import Quorate.Proofs.Curve.Multiple

/-!
# The two groups

The points of a curve whose order divides the group order are closed under sums and multiples.
-/

namespace Quorate.Bls12381

open Weierstrass

theorem G1.discriminant_ne_zero : (curve G1.constantTerm).Δ ≠ 0 := by
  rw [discriminant_curve]
  decide +kernel

theorem G2.discriminant_ne_zero : (curve G2.constantTerm).Δ ≠ 0 := by
  rw [discriminant_curve]
  decide +kernel

variable {F : Type} [Field F] [DecidableEq F] {b : F} {p : Point F}

theorem inSubgroup_iff : inSubgroup p = true ↔ p.multiple groupOrder = .identity := by
  unfold inSubgroup
  cases p.multiple groupOrder with
  | identity => exact iff_of_true rfl rfl
  | affine x y => exact iff_of_false Bool.false_ne_true nofun

theorem inSubgroup_coordinates {P : (curve b).Point} : inSubgroup (coordinates P) = true ↔ groupOrder • P = 0 := by
  rw [inSubgroup_iff, multiple_eq_identity_iff]

/-- A point of the group on the curve with constant term `b`. -/
def InGroup (b : F) (p : Point F) : Prop :=
  p.isOn b = true ∧ inSubgroup p = true

instance : Decidable (InGroup b p) :=
  inferInstanceAs (Decidable (_ ∧ _))

theorem inGroup_iff (hb : (curve b).Δ ≠ 0) :
    InGroup b p ↔ ∃ P : (curve b).Point, groupOrder • P = 0 ∧ coordinates P = p := by
  constructor
  · rintro ⟨hon, hsub⟩
    obtain ⟨P, rfl⟩ := (exists_coordinates_iff hb).2 hon
    exact ⟨P, inSubgroup_coordinates.1 hsub, rfl⟩
  · rintro ⟨P, hP, rfl⟩
    exact ⟨(exists_coordinates_iff hb).1 ⟨P, rfl⟩, inSubgroup_coordinates.2 hP⟩

theorem inGroup_sum (hb : (curve b).Δ ≠ 0) {ps : List (Point F)} (hps : ∀ p ∈ ps, InGroup b p) :
    InGroup b (Point.sum ps) := by
  obtain ⟨Ps, rfl⟩ := exists_map_coordinates hb fun p hp => (hps p hp).1
  refine (inGroup_iff hb).2 ⟨Ps.sum, ?_, (sum_map_coordinates Ps).symm⟩
  rw [List.smul_sum]
  refine List.sum_eq_zero fun Q hQ => ?_
  obtain ⟨P, hP, rfl⟩ := List.mem_map.1 hQ
  exact inSubgroup_coordinates.1 (hps _ (List.mem_map_of_mem hP)).2

theorem InGroup.neg (hb : (curve b).Δ ≠ 0) (hp : InGroup b p) : InGroup b (-p) := by
  obtain ⟨P, hP, rfl⟩ := (inGroup_iff hb).1 hp
  refine (inGroup_iff hb).2 ⟨-P, ?_, coordinates_neg P⟩
  rw [smul_neg, hP, neg_zero]

theorem InGroup.multiple (hb : (curve b).Δ ≠ 0) (n : ℕ) (hp : InGroup b p) : InGroup b (p.multiple n) := by
  obtain ⟨P, hP, rfl⟩ := (inGroup_iff hb).1 hp
  refine (inGroup_iff hb).2 ⟨n • P, ?_, (multiple_coordinates n P).symm⟩
  rw [smul_comm, hP, smul_zero]

end Quorate.Bls12381
