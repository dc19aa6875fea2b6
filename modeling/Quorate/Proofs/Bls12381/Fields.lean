import Mathlib
import Quorate.Proofs.Bls12381.FieldModulus
import Quorate.Proofs.Curve.Residue

/-!
# The prime field and its quadratic extension

Both are fields under the operations that they are computed with. The extension is one because -1 has no
square root in the prime field: the modulus is 3 modulo 4, so the norm of an element that is not zero is not
zero.
-/

namespace Quorate.Bls12381

instance : Field Fp := Residue.field (by decide)

/-- In a sum of two squares that is zero the second is zero, and with it the first. -/
theorem Fp.eq_zero_of_sq_add_sq {x y : Fp} (h : x * x + y * y = 0) : y = 0 := by
  have hmod : fieldModulus % 4 = 3 := by decide
  by_contra hy
  have hne : Residue.toZModHom y ≠ 0 := by
    intro hzero
    exact hy (Residue.toZMod_injective (hzero.trans Residue.toZMod_zero.symm))
  have hsq : Residue.toZModHom x ^ 2 = -Residue.toZModHom y ^ 2 := by
    have himage := congrArg Residue.toZModHom h
    rw [map_add, map_mul, map_mul, map_zero] at himage
    linear_combination himage
  exact ZMod.mod_four_ne_three_of_sq_eq_neg_sq' hne hsq hmod

namespace Fp2

variable {a b c : Fp2}

theorem ext_parts (hre : a.re = b.re) (him : a.im = b.im) : a = b := by
  cases a
  cases b
  rw [mk.injEq]
  exact ⟨hre, him⟩

@[simp] theorem re_zero : (0 : Fp2).re = 0 := rfl
@[simp] theorem im_zero : (0 : Fp2).im = 0 := rfl
@[simp] theorem re_one : (1 : Fp2).re = 1 := rfl
@[simp] theorem im_one : (1 : Fp2).im = 0 := rfl
@[simp] theorem re_add (a b : Fp2) : (a + b).re = a.re + b.re := rfl
@[simp] theorem im_add (a b : Fp2) : (a + b).im = a.im + b.im := rfl
@[simp] theorem re_sub (a b : Fp2) : (a - b).re = a.re - b.re := rfl
@[simp] theorem im_sub (a b : Fp2) : (a - b).im = a.im - b.im := rfl
@[simp] theorem re_mul (a b : Fp2) : (a * b).re = a.re * b.re - a.im * b.im := rfl

/-- The product takes three multiplications in the prime field in the place of four. -/
@[simp] theorem im_mul (a b : Fp2) : (a * b).im = a.re * b.im + a.im * b.re := by
  change (a.re + a.im) * (b.re + b.im) - a.re * b.re - a.im * b.im = a.re * b.im + a.im * b.re
  ring

instance : CommRing Fp2 where
  add_assoc a b c := ext_parts (add_assoc ..) (add_assoc ..)
  zero_add a := ext_parts (zero_add _) (zero_add _)
  add_zero a := ext_parts (add_zero _) (add_zero _)
  add_comm a b := ext_parts (add_comm ..) (add_comm ..)
  neg_add_cancel a := ext_parts (neg_add_cancel _) (neg_add_cancel _)
  sub_eq_add_neg a b := ext_parts (sub_eq_add_neg ..) (sub_eq_add_neg ..)
  mul_assoc a b c := ext_parts (by simp only [re_mul, im_mul]; ring) (by simp only [re_mul, im_mul]; ring)
  one_mul a := ext_parts (by simp) (by simp)
  mul_one a := ext_parts (by simp) (by simp)
  mul_comm a b := ext_parts (by simp only [re_mul]; ring) (by simp only [im_mul]; ring)
  zero_mul a := ext_parts (by simp) (by simp)
  mul_zero a := ext_parts (by simp) (by simp)
  left_distrib a b c := ext_parts (by simp only [re_mul, re_add, im_add]; ring)
    (by simp only [im_mul, re_add, im_add]; ring)
  right_distrib a b c := ext_parts (by simp only [re_mul, re_add, im_add]; ring)
    (by simp only [im_mul, re_add, im_add]; ring)
  nsmul := nsmulRec
  zsmul := zsmulRec

theorem re_inv (a : Fp2) : a⁻¹.re = a.re * (a.re * a.re + a.im * a.im)⁻¹ := rfl

theorem im_inv (a : Fp2) : a⁻¹.im = -(a.im * (a.re * a.re + a.im * a.im)⁻¹) := rfl

theorem norm_ne_zero (ha : a ≠ 0) : a.re * a.re + a.im * a.im ≠ 0 := by
  intro h
  have him := Fp.eq_zero_of_sq_add_sq h
  have hre : a.re = 0 := by
    rw [him, mul_zero, add_zero] at h
    exact mul_self_eq_zero.1 h
  exact ha (ext_parts hre him)

theorem mul_inv_of_ne_zero (ha : a ≠ 0) : a * a⁻¹ = 1 := by
  have hnorm := mul_inv_cancel₀ (norm_ne_zero ha)
  apply ext_parts
  · rw [re_mul, re_inv, im_inv, re_one]
    linear_combination hnorm
  · rw [im_mul, re_inv, im_inv, im_one]
    ring

instance : Field Fp2 where
  __ := (inferInstance : CommRing Fp2)
  inv a := a⁻¹
  exists_pair_ne := ⟨0, 1, fun h => zero_ne_one (congrArg re h)⟩
  mul_inv_cancel _ h := mul_inv_of_ne_zero h
  inv_zero := ext_parts (zero_mul _) (by rw [im_inv, im_zero, zero_mul, neg_zero])
  nnqsmul := _
  qsmul := _

end Fp2

end Quorate.Bls12381
