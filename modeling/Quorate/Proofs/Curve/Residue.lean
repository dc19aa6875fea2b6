import Mathlib
import Quorate.Curve.Residue

/-!
# Residues as a ring and as a field

The residues modulo `m` are the ring `ZMod m`, and for a prime modulus the power that stands for the inverse
is the inverse. So identities of residues are proved by `ring` and `field_simp`.
-/

namespace Quorate

section BinaryDigits

variable {A : Type} {R : ℕ → A → Prop} {step : A → Bool → A} {acc : A}

theorem foldl_testBit (hstep : ∀ n acc digit, R n acc → R (2 * n + digit.toNat) (step acc digit)) (n k : ℕ)
    (hacc : R (n >>> k) acc) : R n (((List.range k).reverse.map n.testBit).foldl step acc) := by
  induction k generalizing acc with
  | zero => exact hacc
  | succ k ih =>
    rw [List.range_succ, List.reverse_append, List.reverse_singleton, List.singleton_append, List.map_cons,
      List.foldl_cons]
    apply ih
    -- The digit at `k` leads from the number above it to the number from `k` on.
    have hsplit : n >>> k = 2 * (n >>> (k + 1)) + (n.testBit k).toNat := by
      rw [Nat.shiftRight_succ, Nat.toNat_testBit, Nat.shiftRight_eq_div_pow]
      omega
    rw [hsplit]
    exact hstep _ _ _ hacc

/-- If every digit takes what stands for a number to what stands for the number with that digit behind it, then
all digits of `n` take what stands for zero to what stands for `n`. -/
theorem foldl_binaryDigits (hstep : ∀ n acc digit, R n acc → R (2 * n + digit.toNat) (step acc digit))
    (hacc : R 0 acc) (n : ℕ) : R n ((binaryDigits n).foldl step acc) := by
  have htop : n >>> (n.log2 + 1) = 0 := by
    rw [Nat.shiftRight_eq_div_pow]
    exact Nat.div_eq_of_lt Nat.lt_log2_self
  apply foldl_testBit hstep
  rwa [htop]

end BinaryDigits

/-- Squaring along the binary digits gives the power. -/
theorem power_eq_pow {M : Type} [Monoid M] (x : M) (n : ℕ) : power x n = x ^ n := by
  refine foldl_binaryDigits (R := fun n acc => acc = x ^ n) ?_ (pow_zero x).symm n
  rintro n _ digit rfl
  cases digit <;> simp [pow_succ, two_mul, pow_add]

namespace Residue

variable {m : ℕ} {x y : Residue m}

def toZMod (x : Residue m) : ZMod m :=
  x.val

theorem toZMod_injective : Function.Injective (toZMod (m := m)) := by
  intro x y h
  have hmod : x.val % m = y.val % m := (ZMod.natCast_eq_natCast_iff' _ _ _).1 h
  rw [Nat.mod_eq_of_lt x.val_lt, Nat.mod_eq_of_lt y.val_lt] at hmod
  exact Residue.ext hmod

theorem ofNat_val [Modulus m] (x : Residue m) : ofNat x.val = x :=
  ext (Nat.mod_eq_of_lt x.val_lt)

theorem toZMod_ofNat [Modulus m] (n : ℕ) : (ofNat n : Residue m).toZMod = n :=
  ZMod.natCast_mod n m

theorem toZMod_zero [Modulus m] : (0 : Residue m).toZMod = 0 := by
  rw [← Nat.cast_zero]
  exact toZMod_ofNat 0

theorem toZMod_one [Modulus m] : (1 : Residue m).toZMod = 1 := by
  rw [← Nat.cast_one]
  exact toZMod_ofNat 1

theorem toZMod_add (x y : Residue m) : (x + y).toZMod = x.toZMod + y.toZMod := by
  change ((add x y).val : ZMod m) = x.val + y.val
  unfold add
  split
  · exact Nat.cast_add _ _
  · rename_i h
    rw [Nat.cast_sub (Nat.le_of_not_lt h), Nat.cast_add, ZMod.natCast_self, sub_zero]

theorem toZMod_mul (x y : Residue m) : (x * y).toZMod = x.toZMod * y.toZMod := by
  change ((x.val * y.val % m : ℕ) : ZMod m) = x.val * y.val
  rw [ZMod.natCast_mod, Nat.cast_mul]

theorem toZMod_neg (x : Residue m) : (-x).toZMod = -x.toZMod := by
  change ((neg x).val : ZMod m) = -x.val
  unfold neg
  split
  · rename_i h
    rw [h, Nat.cast_zero, neg_zero]
  · rw [Nat.cast_sub x.val_lt.le, ZMod.natCast_self, zero_sub]

theorem toZMod_sub (x y : Residue m) : (x - y).toZMod = x.toZMod - y.toZMod := by
  change ((sub x y).val : ZMod m) = x.val - y.val
  unfold sub
  split
  · rename_i h
    exact Nat.cast_sub h
  · have hle : y.val ≤ x.val + m := y.val_lt.le.trans (Nat.le_add_left _ _)
    rw [Nat.cast_sub hle, Nat.cast_add, ZMod.natCast_self, add_zero]

instance [Modulus m] : CommRing (Residue m) where
  add_assoc x y z := toZMod_injective (by simp only [toZMod_add, add_assoc])
  zero_add x := toZMod_injective (by rw [toZMod_add, toZMod_zero, zero_add])
  add_zero x := toZMod_injective (by rw [toZMod_add, toZMod_zero, add_zero])
  add_comm x y := toZMod_injective (by rw [toZMod_add, toZMod_add, add_comm])
  neg_add_cancel x := toZMod_injective (by rw [toZMod_add, toZMod_neg, toZMod_zero, neg_add_cancel])
  sub_eq_add_neg x y := toZMod_injective (by rw [toZMod_sub, toZMod_add, toZMod_neg, sub_eq_add_neg])
  mul_assoc x y z := toZMod_injective (by simp only [toZMod_mul, mul_assoc])
  one_mul x := toZMod_injective (by rw [toZMod_mul, toZMod_one, one_mul])
  mul_one x := toZMod_injective (by rw [toZMod_mul, toZMod_one, mul_one])
  mul_comm x y := toZMod_injective (by rw [toZMod_mul, toZMod_mul, mul_comm])
  zero_mul x := toZMod_injective (by rw [toZMod_mul, toZMod_zero, zero_mul])
  mul_zero x := toZMod_injective (by rw [toZMod_mul, toZMod_zero, mul_zero])
  left_distrib x y z := toZMod_injective (by simp only [toZMod_mul, toZMod_add, left_distrib])
  right_distrib x y z := toZMod_injective (by simp only [toZMod_mul, toZMod_add, right_distrib])
  nsmul := nsmulRec
  zsmul := zsmulRec

/-- The residues are the integers modulo `m`. -/
def toZModHom [Modulus m] : Residue m →+* ZMod m where
  toFun := toZMod
  map_zero' := toZMod_zero
  map_one' := toZMod_one
  map_add' := toZMod_add
  map_mul' := toZMod_mul

theorem ofNat_eq_cast [Modulus m] (n : ℕ) : (ofNat n : Residue m) = n := by
  apply toZMod_injective
  rw [toZMod_ofNat]
  exact (map_natCast toZModHom n).symm

/-- The power that stands for the inverse is one, by Fermat's theorem. -/
theorem mul_inv_of_ne_zero [Modulus m] [Fact m.Prime] (hx : x ≠ 0) : x * x⁻¹ = 1 := by
  have hinv : x⁻¹ = x ^ (m - 2) := power_eq_pow x (m - 2)
  have hexponent : m - 2 + 1 = m - 1 := by
    have := (Fact.out : m.Prime).two_le
    omega
  have hne : toZModHom x ≠ 0 := by
    intro h
    exact hx (toZMod_injective (h.trans toZMod_zero.symm))
  apply toZMod_injective
  calc toZModHom (x * x⁻¹) = toZModHom x ^ (m - 1) := by
        rw [hinv, ← pow_succ', hexponent, map_pow]
    _ = 1 := ZMod.pow_card_sub_one_eq_one hne
    _ = toZMod 1 := toZMod_one.symm

theorem zero_ne_one [Modulus m] (hm : 2 < m) : (0 : Residue m) ≠ 1 := by
  intro h
  have hval : 0 % m = 1 % m := congrArg val h
  rw [Nat.zero_mod, Nat.mod_eq_of_lt (by omega)] at hval
  cases hval

theorem inv_zero [Modulus m] (hm : 2 < m) : (0 : Residue m)⁻¹ = 0 := by
  have hinv : (0 : Residue m)⁻¹ = 0 ^ (m - 2) := power_eq_pow 0 (m - 2)
  rw [hinv, zero_pow (by omega)]

/-- Modulo two the power does not send zero to zero, so that modulus is left out. -/
abbrev field [Modulus m] [Fact m.Prime] (hm : 2 < m) : Field (Residue m) where
  __ := (inferInstance : CommRing (Residue m))
  inv x := x⁻¹
  exists_pair_ne := ⟨0, 1, zero_ne_one hm⟩
  mul_inv_cancel _ h := mul_inv_of_ne_zero h
  inv_zero := inv_zero hm
  nnqsmul := _
  qsmul := _

end Residue

end Quorate
