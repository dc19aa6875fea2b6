import Mathlib
import Quorate.Proofs.Bls12381.Fields

/-!
# Square roots

Every square has a root that is found. In the prime field it is a power. In the extension the power is a root
up to a factor `α = y ^ (p - 1)`, which `(1 + α) ^ (p - 1)` makes up for, as the power `p` of `α` is its inverse;
where `α` is -1, the factor `u` does.
-/

namespace Quorate.Bls12381

namespace Fp

def toFin : Fp ≃ Fin fieldModulus where
  toFun x := ⟨x.val, x.val_lt⟩
  invFun i := ⟨i.val, i.isLt⟩
  left_inv _ := rfl
  right_inv _ := rfl

instance : Finite Fp := .of_equiv _ toFin.symm

theorem card : Nat.card Fp = fieldModulus := by
  rw [Nat.card_congr toFin, Nat.card_fin]

instance : CharP Fp fieldModulus :=
  (RingHom.charP_iff Residue.toZModHom Residue.toZMod_injective _).2 inferInstance

end Fp

namespace Fp2

def parts : Fp2 ≃ Fp × Fp where
  toFun a := (a.re, a.im)
  invFun x := ⟨x.1, x.2⟩
  left_inv _ := rfl
  right_inv _ := rfl

instance : Finite Fp2 := .of_equiv _ parts.symm

theorem card : Nat.card Fp2 = fieldModulus * fieldModulus := by
  rw [Nat.card_congr parts, Nat.card_prod, Fp.card]

/-- The prime field within the extension. -/
def ofFp : Fp →+* Fp2 where
  toFun x := ⟨x, 0⟩
  map_one' := rfl
  map_zero' := rfl
  map_add' x y := ext_parts rfl (add_zero 0).symm
  map_mul' x y := ext_parts (by simp) (by simp)

theorem ofFp_injective : Function.Injective ofFp :=
  fun _ _ h => congrArg re h

instance : CharP Fp2 fieldModulus :=
  (RingHom.charP_iff ofFp ofFp_injective _).1 inferInstance

end Fp2

theorem pow_card_pred {K : Type} [Field K] [Finite K] {y : K} (hy : y ≠ 0) : y ^ (Nat.card K - 1) = 1 := by
  have := Fintype.ofFinite K
  rw [Nat.card_eq_fintype_card]
  exact FiniteField.pow_card_sub_one_eq_one y hy

theorem Fp.mul_self_of_sqrt? {a root : Fp} (h : Fp.sqrt? a = some root) : root * root = a := by
  simp only [Fp.sqrt?, Option.ite_none_right_eq_some, Option.some.injEq] at h
  obtain ⟨hroot, rfl⟩ := h
  exact hroot

theorem Fp.exists_sqrt? (y : Fp) : ∃ root, Fp.sqrt? (y * y) = some root := by
  have hpower : power (y * y) ((fieldModulus + 1) / 4) = (y * y) ^ ((fieldModulus + 1) / 4) := power_eq_pow _ _
  have hroot : (y * y) ^ ((fieldModulus + 1) / 4) * (y * y) ^ ((fieldModulus + 1) / 4) = y * y := by
    by_cases hy : y = 0
    · rw [hy, mul_zero, zero_pow (by decide), mul_zero]
    · have hexponent : 2 * ((fieldModulus + 1) / 4) + 2 * ((fieldModulus + 1) / 4) = fieldModulus - 1 + 2 := by
        decide
      have hone := pow_card_pred hy
      rw [Fp.card] at hone
      rw [← pow_two y, ← pow_mul, ← pow_add, hexponent, pow_add, hone, one_mul]
  rw [← hpower] at hroot
  exact ⟨_, if_pos hroot⟩

namespace Fp2

theorem mul_self_of_sqrt? {a root : Fp2} (h : sqrt? a = some root) : root * root = a := by
  unfold sqrt? at h
  simp only [Option.ite_none_right_eq_some] at h
  obtain ⟨hroot, heq⟩ := h
  rwa [Option.some.inj heq] at hroot

theorem mul_self_turned (root : Fp2) : (⟨-root.im, root.re⟩ : Fp2) * ⟨-root.im, root.re⟩ = -(root * root) := by
  have hre : (-(root * root)).re = -(root * root).re := rfl
  have him : (-(root * root)).im = -(root * root).im := rfl
  apply ext_parts
  · rw [hre, re_mul, re_mul]
    ring
  · rw [him, im_mul, im_mul]
    ring

/-- The power `p - 1` of `1 + α` is the inverse of `α`, if the power `p` of `α` is. -/
theorem one_add_pow_mul {α : Fp2} (hα : α ^ fieldModulus * α = 1) (hne : α ≠ -1) :
    (1 + α) ^ (fieldModulus - 1) * α = 1 := by
  have hsum : 1 + α ≠ 0 := fun h => hne (eq_neg_of_add_eq_zero_right h)
  apply mul_right_cancel₀ hsum
  calc (1 + α) ^ (fieldModulus - 1) * α * (1 + α) = (1 + α) ^ (fieldModulus - 1 + 1) * α := by
        rw [pow_succ]
        ring
    _ = (1 + α ^ fieldModulus) * α := by
        have hexponent : fieldModulus - 1 + 1 = fieldModulus := by decide
        rw [hexponent, add_pow_char, one_pow]
    _ = 1 * (1 + α) := by
        rw [add_mul, hα, one_mul, one_mul, add_comm]

/-- In the extension a root of a square is found. -/
theorem exists_sqrt? (y : Fp2) : ∃ root, sqrt? (y * y) = some root := by
  have hpower (x : Fp2) (n : ℕ) : power x n = x ^ n := power_eq_pow x n
  unfold sqrt?
  simp only [hpower]
  set t := (y * y) ^ ((fieldModulus - 3) / 4)
  set α := t * (t * (y * y))
  suffices hroot : (if α = -1 then (⟨-(t * (y * y)).im, (t * (y * y)).re⟩ : Fp2)
      else (1 + α) ^ ((fieldModulus - 1) / 2) * (t * (y * y))) *
      (if α = -1 then (⟨-(t * (y * y)).im, (t * (y * y)).re⟩ : Fp2)
      else (1 + α) ^ ((fieldModulus - 1) / 2) * (t * (y * y))) = y * y from ⟨_, if_pos hroot⟩
  have hsquare : t * (y * y) * (t * (y * y)) = α * (y * y) := by ring
  split
  · rename_i hα
    rw [mul_self_turned, hsquare, hα, neg_one_mul, neg_neg]
  · rename_i hα
    by_cases hy : y = 0
    · simp [hy]
    · have hα' : α = y ^ (fieldModulus - 1) := by
        have hexponent : 2 * ((fieldModulus - 3) / 4) + (2 * ((fieldModulus - 3) / 4) + 2) = fieldModulus - 1 := by
          decide
        rw [← hexponent, pow_add, pow_add, pow_mul, sq]
      have hinverse : α ^ fieldModulus * α = 1 := by
        have hexponent : (fieldModulus - 1) * (fieldModulus + 1) = fieldModulus * fieldModulus - 1 := by decide
        rw [← pow_succ, hα', ← pow_mul, hexponent, ← card]
        exact pow_card_pred hy
      have hhalf : (fieldModulus - 1) / 2 + (fieldModulus - 1) / 2 = fieldModulus - 1 := by decide
      rw [mul_mul_mul_comm, ← pow_add, hhalf, hsquare, ← mul_assoc, one_add_pow_mul hinverse hα, one_mul]

end Fp2

end Quorate.Bls12381
