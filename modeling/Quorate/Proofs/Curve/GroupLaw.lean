import Mathlib
import Quorate.Curve.Weierstrass

/-!
# The group law

Over a field, addition by chord and tangent makes the points of a curve y² = x³ + b a commutative group,
unless the curve is singular. So the sum of points of one curve does not depend on their order. Pairs of
coordinates off the curve can be added too, but then the order matters.
-/

namespace Quorate.Weierstrass

open WeierstrassCurve.Affine

variable {F : Type} [Field F] {b : F}

def curve (b : F) : WeierstrassCurve.Affine F :=
  ⟨0, 0, 0, 0, b⟩

theorem equation_curve_iff {x y : F} : (curve b).Equation x y ↔ y * y = x * x * x + b := by
  have hleft : y ^ 2 + 0 * x * y + 0 * y = y * y := by ring
  have hright : x ^ 3 + 0 * x ^ 2 + 0 * x + b = x * x * x + b := by ring
  rw [equation_iff, curve, hleft, hright]

theorem negY_curve (x y : F) : (curve b).negY x y = -y := by
  rw [negY, curve, zero_mul, sub_zero, sub_zero]

theorem discriminant_curve (b : F) : (curve b).Δ = -432 * b * b := by
  simp only [WeierstrassCurve.Δ, WeierstrassCurve.b₂, WeierstrassCurve.b₄, WeierstrassCurve.b₆,
    WeierstrassCurve.b₈, curve]
  ring

def coordinates : (curve b).Point → Point F
  | .zero => .identity
  | .some x y _ => .affine x y

theorem coordinates_injective : Function.Injective (coordinates (b := b)) := by
  rintro (_ | ⟨x, y, h⟩) (_ | ⟨x', y', h'⟩) heq
  · rfl
  · cases heq
  · cases heq
  · cases heq
    rfl

theorem affine_eq_onLine (x₁ y₁ x₂ slope : F) :
    Point.affine ((curve b).addX x₁ x₂ slope) ((curve b).addY x₁ x₂ y₁ slope) =
      Point.onLine slope x₁ y₁ x₂ := by
  rw [addY, negY_curve, negAddY, addX, curve, Point.onLine, Point.affine.injEq]
  constructor <;> ring

theorem coordinates_neg (P : (curve b).Point) : coordinates (-P) = -coordinates P := by
  cases P with
  | zero => rfl
  | some x y h =>
    change Point.affine x ((curve b).negY x y) = .affine x (-y)
    rw [negY_curve]

variable [DecidableEq F]

theorem exists_coordinates_iff (hb : (curve b).Δ ≠ 0) {p : Point F} :
    (∃ P : (curve b).Point, coordinates P = p) ↔ p.isOn b = true := by
  constructor
  · rintro ⟨_ | ⟨x, y, h⟩, rfl⟩
    · rfl
    · exact beq_iff_eq.2 (equation_curve_iff.1 h.1)
  · intro h
    cases p with
    | identity => exact ⟨.zero, rfl⟩
    | affine x y =>
      have hequation := equation_curve_iff.2 (beq_iff_eq.1 h)
      exact ⟨.some x y ((equation_iff_nonsingular_of_Δ_ne_zero hb).1 hequation), rfl⟩

section Line

variable {x₁ y₁ x₂ y₂ : F}

theorem slope_curve_of_x_ne (hx : x₁ ≠ x₂) :
    (curve b).slope x₁ x₂ y₁ y₂ = (y₂ - y₁) * (x₂ - x₁)⁻¹ := by
  rw [slope_of_X_ne hx, ← neg_sub y₂, ← neg_sub x₂, neg_div_neg_eq, div_eq_mul_inv]

theorem slope_curve_of_x_eq (hx : x₁ = x₂) (hy : y₁ ≠ -y₂) :
    (curve b).slope x₁ x₂ y₁ y₂ = (x₁ * x₁ + x₁ * x₁ + x₁ * x₁) * (y₁ + y₁)⁻¹ := by
  have hneg : y₁ ≠ (curve b).negY x₂ y₂ := by rwa [negY_curve]
  rw [slope_of_Y_ne hx hneg, negY_curve, sub_neg_eq_add, div_eq_mul_inv]
  simp only [curve]
  ring

end Line

theorem coordinates_add (P Q : (curve b).Point) :
    coordinates (P + Q) = coordinates P + coordinates Q := by
  cases P with
  | zero => rfl
  | some x₁ y₁ h₁ =>
    cases Q with
    | zero => rfl
    | some x₂ y₂ h₂ =>
      change coordinates (.some x₁ y₁ h₁ + .some x₂ y₂ h₂) =
        if x₁ = x₂ then
          if y₁ = -y₂ then .identity
          else Point.onLine ((x₁ * x₁ + x₁ * x₁ + x₁ * x₁) * (y₁ + y₁)⁻¹) x₁ y₁ x₂
        else Point.onLine ((y₂ - y₁) * (x₂ - x₁)⁻¹) x₁ y₁ x₂
      by_cases hx : x₁ = x₂
      · rw [if_pos hx]
        by_cases hy : y₁ = -y₂
        · rw [if_pos hy, Point.add_of_Y_eq hx (hy.trans (negY_curve _ _).symm)]
          rfl
        · have hneg : y₁ ≠ (curve b).negY x₂ y₂ := by rwa [negY_curve]
          rw [if_neg hy, Point.add_of_Y_ne hneg, coordinates, affine_eq_onLine, slope_curve_of_x_eq hx hy]
      · rw [if_neg hx, Point.add_of_X_ne hx, coordinates, affine_eq_onLine, slope_curve_of_x_ne hx]

theorem Point.isOn_add (hb : (curve b).Δ ≠ 0) {p q : Point F} (hp : p.isOn b = true) (hq : q.isOn b = true) :
    (p + q).isOn b = true := by
  obtain ⟨P, rfl⟩ := (exists_coordinates_iff hb).2 hp
  obtain ⟨Q, rfl⟩ := (exists_coordinates_iff hb).2 hq
  rw [← coordinates_add]
  exact (exists_coordinates_iff hb).1 ⟨P + Q, rfl⟩

theorem sum_map_coordinates (Ps : List (curve b).Point) :
    Point.sum (Ps.map coordinates) = coordinates Ps.sum := by
  have hfold (Q : (curve b).Point) : (Ps.map coordinates).foldl (· + ·) (coordinates Q) =
      coordinates (Ps.foldl (· + ·) Q) := by
    induction Ps generalizing Q with
    | nil => rfl
    | cons P Ps ih => rw [List.map_cons, List.foldl_cons, List.foldl_cons, ← coordinates_add, ih]
  rw [List.sum_eq_foldl]
  exact hfold 0

theorem exists_map_coordinates (hb : (curve b).Δ ≠ 0) {ps : List (Point F)}
    (hon : ∀ p ∈ ps, p.isOn b = true) : ∃ Ps : List (curve b).Point, Ps.map coordinates = ps := by
  have hmem : ps ∈ Set.range (List.map (coordinates (b := b))) := by
    rw [Set.range_list_map]
    exact fun p hp => (exists_coordinates_iff hb).2 (hon p hp)
  exact hmem

/-- Points of one curve have the same sum in every order. -/
theorem Point.sum_perm (hb : (curve b).Δ ≠ 0) {ps qs : List (Point F)} (h : ps.Perm qs)
    (hon : ∀ p ∈ ps, p.isOn b = true) : Point.sum ps = Point.sum qs := by
  obtain ⟨Ps, rfl⟩ := exists_map_coordinates hb hon
  obtain ⟨Qs, rfl⟩ := exists_map_coordinates hb fun p hp => hon p (h.mem_iff.2 hp)
  have hperm := (List.map_perm_map_iff coordinates_injective).1 h
  rw [sum_map_coordinates, sum_map_coordinates, hperm.sum_eq]

end Quorate.Weierstrass
