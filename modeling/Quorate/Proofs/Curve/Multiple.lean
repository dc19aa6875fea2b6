import Quorate.Proofs.Curve.GroupLaw
import Quorate.Proofs.Curve.Residue

/-!
# Multiples

In Jacobian coordinates the equation of the curve is Y² = X³ + b Z⁶. Doubling a triple and adding an affine
point to it keep the equation, and do to its point what chord and tangent do. So what is computed along the
binary digits of `n` is the sum of `n` equal points, and a point of the curve.
-/

namespace Quorate.Weierstrass

variable {F : Type} [Field F] {b : F}

/-- The triple stands for the identity or satisfies the equation of the curve. -/
def Jacobian.IsOn (b : F) (p : Jacobian F) : Prop :=
  p.z ≠ 0 → p.y * p.y = p.x * p.x * p.x + b * p.z ^ 6

theorem Jacobian.IsOn.double {p : Jacobian F} (hp : p.IsOn b) : p.double.IsOn b := by
  intro hz
  have hpz : p.z ≠ 0 := by
    intro h
    apply hz
    simp [Jacobian.double, h]
  have h := hp hpz
  simp only [Jacobian.double]
  linear_combination 64 * p.y ^ 6 * h

theorem affine_isOn_iff [DecidableEq F] {x y : F} :
    (Point.affine x y).isOn b = true ↔ y * y = x * x * x + b := by
  simp [Point.isOn]

variable [DecidableEq F]

theorem Jacobian.IsOn.addAffine {p : Jacobian F} {x y : F} (hp : p.IsOn b)
    (hq : (Point.affine x y).isOn b = true) : (p.addAffine x y).IsOn b := by
  have hxy := affine_isOn_iff.1 hq
  unfold Jacobian.addAffine
  by_cases hz : p.z = 0
  · intro _
    simp only [if_pos hz]
    linear_combination hxy
  · have h := hp hz
    simp only [if_neg hz]
    split
    · split
      · exact hp.double
      · intro hzero
        exact absurd rfl hzero
    · intro _
      -- The chord meets the curve in three points, so the third one's equation is a combination of the other two.
      set u := x * (p.z * p.z) - p.x
      set w := y * (p.z * p.z) * p.z - p.y
      simp only
      linear_combination (u ^ 6 - u ^ 3 * (w ^ 2 - u ^ 3 - 3 * p.x * u ^ 2)) * h +
        p.z ^ 6 * u ^ 3 * (w ^ 2 - u ^ 3 - 3 * p.x * u ^ 2) * hxy

theorem Jacobian.IsOn.toPoint {p : Jacobian F} (hp : p.IsOn b) : p.toPoint.isOn b = true := by
  unfold Jacobian.toPoint
  by_cases hz : p.z = 0
  · simp [hz, Point.isOn]
  · have h := hp hz
    have hinv : (p.z * p.z⁻¹) ^ 6 = 1 := by
      rw [mul_inv_cancel₀ hz, one_pow]
    simp only [if_neg hz]
    rw [affine_isOn_iff]
    linear_combination p.z⁻¹ ^ 6 * h + b * hinv

section GroupLaw

variable {x y : F} {p : Jacobian F}

theorem Jacobian.toPoint_of_z_eq_zero (hz : p.z = 0) : p.toPoint = .identity :=
  if_pos hz

theorem Jacobian.toPoint_of_z_ne_zero (hz : p.z ≠ 0) :
    p.toPoint = .affine (p.x / p.z ^ 2) (p.y / p.z ^ 3) := by
  rw [toPoint, if_neg hz, Point.affine.injEq]
  constructor
  · field_simp
  · field_simp

theorem Jacobian.toPoint_eq_identity_iff : p.toPoint = .identity ↔ p.z = 0 := by
  constructor
  · intro h
    by_contra hz
    rw [toPoint_of_z_ne_zero hz] at h
    cases h
  · exact toPoint_of_z_eq_zero

theorem affine_add_affine {x₁ y₁ x₂ y₂ : F} : Point.affine x₁ y₁ + .affine x₂ y₂ =
    if x₁ = x₂ then
      if y₁ = -y₂ then .identity
      else Point.onLine ((x₁ * x₁ + x₁ * x₁ + x₁ * x₁) * (y₁ + y₁)⁻¹) x₁ y₁ x₂
    else Point.onLine ((y₂ - y₁) * (x₂ - x₁)⁻¹) x₁ y₁ x₂ :=
  rfl

theorem Jacobian.toPoint_double (p : Jacobian F) : p.double.toPoint = p.toPoint + p.toPoint := by
  have hdouble : p.double.z = p.y * p.z + p.y * p.z := rfl
  by_cases hz : p.z = 0
  · have hz' : p.double.z = 0 := by rw [hdouble, hz, mul_zero, add_zero]
    rw [toPoint_of_z_eq_zero hz', toPoint_of_z_eq_zero hz]
    rfl
  · rw [toPoint_of_z_ne_zero hz, affine_add_affine, if_pos rfl]
    have hneg : p.y / p.z ^ 3 = -(p.y / p.z ^ 3) ↔ p.double.z = 0 := by
      rw [hdouble, eq_neg_iff_add_eq_zero, ← add_div, div_eq_zero_iff, ← add_mul, mul_eq_zero]
      simp [hz]
    by_cases hz' : p.double.z = 0
    · rw [if_pos (hneg.2 hz'), toPoint_of_z_eq_zero hz']
    · rw [if_neg (mt hneg.1 hz'), toPoint_of_z_ne_zero hz', Point.onLine, Point.affine.injEq]
      have htwo : p.double.z = 2 * p.y * p.z := by rw [hdouble]; ring
      have hy : p.y ≠ 0 := by
        rintro h
        simp [htwo, h] at hz'
      have h2 : (2 : F) ≠ 0 := by
        rintro h
        simp [htwo, h] at hz'
      rw [htwo]
      have hyy : p.y / p.z ^ 3 + p.y / p.z ^ 3 = 2 * p.y / p.z ^ 3 := by ring
      rw [hyy]
      simp only [Jacobian.double]
      constructor
      · field_simp
        ring
      · field_simp
        ring

theorem Jacobian.toPoint_addAffine (hp : p.IsOn b) (hq : (Point.affine x y).isOn b = true) :
    (p.addAffine x y).toPoint = p.toPoint + .affine x y := by
  unfold addAffine
  by_cases hz : p.z = 0
  · have hone : (1 : F) ≠ 0 := one_ne_zero
    rw [if_pos hz, toPoint_of_z_eq_zero hz, toPoint_of_z_ne_zero hone]
    simp only [one_pow, div_one]
    rfl
  · have hcurve := affine_isOn_iff.1 ((toPoint_of_z_ne_zero hz).symm ▸ hp.toPoint)
    have hpoint := toPoint_of_z_ne_zero hz
    have hx : x * (p.z * p.z) - p.x = 0 ↔ p.x / p.z ^ 2 = x := by
      rw [div_eq_iff (pow_ne_zero 2 hz), sub_eq_zero, eq_comm, sq]
    have hy : y * (p.z * p.z) * p.z - p.y = 0 ↔ p.y / p.z ^ 3 = y := by
      rw [div_eq_iff (pow_ne_zero 3 hz), sub_eq_zero, eq_comm, mul_assoc, ← sq, ← pow_succ]
    simp only [if_neg hz]
    by_cases hsame : p.x / p.z ^ 2 = x
    · rw [if_pos (hx.2 hsame)]
      by_cases htwice : p.y / p.z ^ 3 = y
      · rw [if_pos (hy.2 htwice), toPoint_double, hpoint, hsame, htwice]
      · -- Of the two points with this first coordinate it is the other one.
        have hsquares : p.y / p.z ^ 3 * (p.y / p.z ^ 3) = y * y := by
          rw [hcurve, affine_isOn_iff.1 hq, hsame]
        have hopposite := (mul_self_eq_mul_self_iff.1 hsquares).resolve_left htwice
        rw [if_neg (mt hy.1 htwice), toPoint_of_z_eq_zero rfl, hpoint, affine_add_affine, if_pos hsame,
          if_pos hopposite]
    · have hchord : x * (p.z * p.z) - p.x ≠ 0 := mt hx.1 hsame
      have hz' : p.z * (x * (p.z * p.z) - p.x) ≠ 0 := mul_ne_zero hz hchord
      have hrise : y - p.y / p.z ^ 3 = (y * (p.z * p.z) * p.z - p.y) / p.z ^ 3 := by field_simp
      rw [if_neg hchord, hpoint, affine_add_affine, if_neg hsame, toPoint_of_z_ne_zero hz', Point.onLine, hrise,
        Point.affine.injEq]
      -- In terms of the run of the chord, scaled by `Z²`, nothing else is divided by but `Z`.
      obtain ⟨u, hu⟩ : ∃ u, x * (p.z * p.z) - p.x = u := ⟨_, rfl⟩
      have hxu : x = (u + p.x) / p.z ^ 2 := by
        rw [← hu]
        field_simp
        ring
      rw [hu] at hchord
      have hrun : (u + p.x) / p.z ^ 2 - p.x / p.z ^ 2 = u / p.z ^ 2 := by ring
      simp only [hu]
      rw [hxu, hrun]
      constructor
      · field_simp
        ring
      · field_simp
        ring

/-- What is computed along the binary digits of `n` is the sum of `n` equal points. -/
theorem multiple_coordinates (n : ℕ) (P : (curve b).Point) : (coordinates P).multiple n = coordinates (n • P) := by
  cases P with
  | zero =>
    have hzero : n • (0 : (curve b).Point) = 0 := smul_zero n
    exact (congrArg coordinates hzero).symm
  | some x y h =>
    have hxy : (Point.affine x y).isOn b = true := affine_isOn_iff.2 (equation_curve_iff.1 h.1)
    set P : (curve b).Point := .some x y h
    refine (foldl_binaryDigits (R := fun n (acc : Jacobian F) => acc.IsOn b ∧ acc.toPoint = coordinates (n • P)) ?_
      ⟨fun h => absurd rfl h, ?_⟩ n).2
    · rintro n acc digit ⟨hon, hacc⟩
      have hdouble : acc.double.toPoint = coordinates ((2 * n) • P) := by
        rw [Jacobian.toPoint_double, hacc, ← coordinates_add, two_mul, add_smul]
      cases digit with
      | false => exact ⟨hon.double, hdouble⟩
      | true =>
        refine ⟨hon.double.addAffine hxy, ?_⟩
        rw [if_pos rfl, Jacobian.toPoint_addAffine hon.double hxy, hdouble, add_smul, coordinates_add, Bool.toNat_true,
          one_smul]
        rfl
    · rw [zero_smul]
      exact Jacobian.toPoint_of_z_eq_zero rfl

theorem multiple_eq_identity_iff {n : ℕ} {P : (curve b).Point} :
    (coordinates P).multiple n = .identity ↔ n • P = 0 := by
  rw [multiple_coordinates]
  exact ⟨fun h => coordinates_injective h, fun h => congrArg coordinates h⟩

end GroupLaw

end Quorate.Weierstrass
