import Quorate.Bls12381.Group
import Quorate.Proofs.Bls12381.Fields
import Quorate.Proofs.Curve.Multiple

/-!
# Multiples in plain numbers

Long multiples of fixed points of the second curve are evaluated in proofs. Here they are computed in natural numbers
that stand for residues. A difference is a sum with a multiple by `p - 1`, so no number is subtracted, and every number
is evaluated before it is used, as one that is used twice would be computed twice.
-/

namespace Quorate.Bls12381

open Weierstrass

/-- Two numbers that stand for an element of the extension. They need not be reduced. -/
structure RawFp2 where
  re : ℕ
  im : ℕ

namespace RawFp2

variable {A : Type} {a b : RawFp2}

/-- Go on with the numbers evaluated, which matching on them does. -/
def force (a : RawFp2) (next : RawFp2 → A) : A :=
  match a.re, a.im with
  | 0, 0 => next ⟨0, 0⟩
  | 0, im + 1 => next ⟨0, im + 1⟩
  | re + 1, 0 => next ⟨re + 1, 0⟩
  | re + 1, im + 1 => next ⟨re + 1, im + 1⟩

@[simp] theorem force_eq (a : RawFp2) (next : RawFp2 → A) : a.force next = next a := by
  obtain ⟨_ | re, _ | im⟩ := a <;> rfl

instance : Add RawFp2 := ⟨fun a b => ⟨a.re + b.re, a.im + b.im⟩⟩

instance : Sub RawFp2 := ⟨fun a b =>
  ⟨(a.re + (fieldModulus - 1) * b.re) % fieldModulus, (a.im + (fieldModulus - 1) * b.im) % fieldModulus⟩⟩

instance : Mul RawFp2 := ⟨fun a b =>
  ⟨(a.re * b.re + (fieldModulus - 1) * (a.im * b.im)) % fieldModulus, (a.re * b.im + a.im * b.re) % fieldModulus⟩⟩

instance : Zero RawFp2 := ⟨⟨0, 0⟩⟩

instance : One RawFp2 := ⟨⟨1, 0⟩⟩

def isZero (a : RawFp2) : Bool :=
  a.re % fieldModulus == 0 && a.im % fieldModulus == 0

def toFp2 (a : RawFp2) : Fp2 :=
  .ofNats a.re a.im

def ofFp2 (a : Fp2) : RawFp2 :=
  ⟨a.re.val, a.im.val⟩

theorem toFp2_ofFp2 (a : Fp2) : (ofFp2 a).toFp2 = a :=
  Fp2.ext_parts (Residue.ofNat_val a.re) (Residue.ofNat_val a.im)

theorem re_toFp2 (a : RawFp2) : a.toFp2.re = (a.re : Fp) :=
  Residue.ofNat_eq_cast a.re

theorem im_toFp2 (a : RawFp2) : a.toFp2.im = (a.im : Fp) :=
  Residue.ofNat_eq_cast a.im

@[simp] theorem toFp2_add (a b : RawFp2) : (a + b).toFp2 = a.toFp2 + b.toFp2 := by
  apply Fp2.ext_parts
  · simp only [re_toFp2, Fp2.re_add]
    exact Nat.cast_add _ _
  · simp only [im_toFp2, Fp2.im_add]
    exact Nat.cast_add _ _

theorem cast_mod (n : ℕ) : ((n % fieldModulus : ℕ) : Fp) = n := by
  rw [← Residue.ofNat_eq_cast, ← Residue.ofNat_eq_cast]
  exact Residue.ext (Nat.mod_mod n fieldModulus)

theorem cast_pred : ((fieldModulus - 1 : ℕ) : Fp) = -1 := by
  rw [← Residue.ofNat_eq_cast]
  decide

@[simp] theorem toFp2_sub (a b : RawFp2) : (a - b).toFp2 = a.toFp2 - b.toFp2 := by
  have hcast (x y : ℕ) : (((x + (fieldModulus - 1) * y) % fieldModulus : ℕ) : Fp) = x - y := by
    rw [cast_mod, Nat.cast_add, Nat.cast_mul, cast_pred]
    ring
  apply Fp2.ext_parts
  · rw [re_toFp2, Fp2.re_sub, re_toFp2, re_toFp2]
    exact hcast a.re b.re
  · rw [im_toFp2, Fp2.im_sub, im_toFp2, im_toFp2]
    exact hcast a.im b.im

@[simp] theorem toFp2_mul (a b : RawFp2) : (a * b).toFp2 = a.toFp2 * b.toFp2 := by
  have hre : (((a.re * b.re + (fieldModulus - 1) * (a.im * b.im)) % fieldModulus : ℕ) : Fp) =
      a.re * b.re - a.im * b.im := by
    rw [cast_mod, Nat.cast_add, Nat.cast_mul, Nat.cast_mul, Nat.cast_mul, cast_pred]
    ring
  have him : (((a.re * b.im + a.im * b.re) % fieldModulus : ℕ) : Fp) = a.re * b.im + a.im * b.re := by
    rw [cast_mod, Nat.cast_add, Nat.cast_mul, Nat.cast_mul]
  apply Fp2.ext_parts
  · simp only [Fp2.re_mul, re_toFp2, im_toFp2]
    exact hre
  · simp only [Fp2.im_mul, re_toFp2, im_toFp2]
    exact him

theorem isZero_iff : a.isZero = true ↔ a.toFp2 = 0 := by
  have hcast (n : ℕ) : (Residue.ofNat n : Fp) = 0 ↔ n % fieldModulus = 0 :=
    ⟨fun h => congrArg Residue.val h, fun h => Residue.ext h⟩
  simp only [isZero, Bool.and_eq_true, beq_iff_eq, ← hcast]
  exact ⟨fun h => Fp2.ext_parts h.1 h.2, fun h => ⟨congrArg Fp2.re h, congrArg Fp2.im h⟩⟩

end RawFp2

structure RawJacobian where
  x : RawFp2
  y : RawFp2
  z : RawFp2

namespace RawJacobian

def toJacobian (p : RawJacobian) : Jacobian Fp2 :=
  ⟨p.x.toFp2, p.y.toFp2, p.z.toFp2⟩

def double (p : RawJacobian) : RawJacobian :=
  (p.x * p.x).force fun a => (p.y * p.y).force fun b => (b * b).force fun c => (p.x * b).force fun xb =>
  (xb + xb).force fun d₂ => (d₂ + d₂).force fun d => (a + a + a).force fun e =>
  (e * e - (d + d)).force fun x => (c + c).force fun c₂ => (c₂ + c₂).force fun c₄ =>
  (e * (d - x) - (c₄ + c₄)).force fun y => ((p.y + p.y) * p.z).force fun z => ⟨x, y, z⟩

theorem toJacobian_double (p : RawJacobian) : p.double.toJacobian = p.toJacobian.double := by
  simp only [double, toJacobian, Jacobian.double, RawFp2.force_eq, RawFp2.toFp2_add, RawFp2.toFp2_sub,
    RawFp2.toFp2_mul, Jacobian.mk.injEq]
  exact ⟨by ring, by ring, by ring⟩

def addAffine (p : RawJacobian) (x y : RawFp2) : RawJacobian :=
  if p.z.isZero then ⟨x, y, 1⟩
  else
    (p.z * p.z).force fun zz => (x * zz - p.x).force fun h => (y * zz * p.z - p.y).force fun r =>
    if h.isZero then
      if r.isZero then p.double else ⟨1, 1, 0⟩
    else
      (h * h).force fun hh => (hh * h).force fun hhh => (p.x * hh).force fun v =>
      (r * r - (hhh + (v + v))).force fun x' => (r * (v - x') - p.y * hhh).force fun y' =>
      (p.z * h).force fun z' => ⟨x', y', z'⟩

theorem toJacobian_addAffine (p : RawJacobian) (x y : RawFp2) :
    (p.addAffine x y).toJacobian = p.toJacobian.addAffine x.toFp2 y.toFp2 := by
  simp only [addAffine, Jacobian.addAffine, RawFp2.force_eq, RawFp2.isZero_iff, RawFp2.toFp2_sub, RawFp2.toFp2_mul,
    apply_ite toJacobian, toJacobian_double]
  refine if_congr Iff.rfl rfl (if_congr Iff.rfl rfl ?_)
  simp only [toJacobian, RawFp2.toFp2_add, RawFp2.toFp2_sub, RawFp2.toFp2_mul, Jacobian.mk.injEq, and_true]
  exact ⟨by ring, by ring⟩

/-- Double along the digits. Matching on the triple evaluates it before the next digit. -/
def run (x y : RawFp2) : List Bool → RawJacobian → RawJacobian
  | [], p => p
  | false :: digits, p =>
    match p.double with
    | ⟨x₁, y₁, z₁⟩ => run x y digits ⟨x₁, y₁, z₁⟩
  | true :: digits, p =>
    match p.double with
    | ⟨x₁, y₁, z₁⟩ =>
      match addAffine ⟨x₁, y₁, z₁⟩ x y with
      | ⟨x₂, y₂, z₂⟩ => run x y digits ⟨x₂, y₂, z₂⟩

theorem toJacobian_run (x y : RawFp2) (digits : List Bool) (p : RawJacobian) : (run x y digits p).toJacobian =
    digits.foldl (fun acc digit => if digit then acc.double.addAffine x.toFp2 y.toFp2 else acc.double)
      p.toJacobian := by
  induction digits generalizing p with
  | nil => rfl
  | cons digit digits ih =>
    cases digit with
    | false => simpa [run, toJacobian_double] using ih p.double
    | true => simpa [run, toJacobian_double, toJacobian_addAffine] using ih (p.double.addAffine x y)

/-- Whether the two triples stand for points with one first coordinate, if for points other than the identity. -/
def sameAbscissa (p q : RawJacobian) : Bool :=
  (p.x * (q.z * q.z) - q.x * (p.z * p.z)).isZero

theorem sameAbscissa_of_toPoint_eq {p q : RawJacobian} (h : p.toJacobian.toPoint = q.toJacobian.toPoint) :
    p.sameAbscissa q = true := by
  rw [sameAbscissa, RawFp2.isZero_iff]
  simp only [RawFp2.toFp2_sub, RawFp2.toFp2_mul]
  have hidentity := Jacobian.toPoint_eq_identity_iff (p := p.toJacobian)
  rw [h, Jacobian.toPoint_eq_identity_iff] at hidentity
  by_cases hp : p.z.toFp2 = 0
  · have hq : q.z.toFp2 = 0 := hidentity.2 hp
    rw [hp, hq]
    ring
  · have hq : q.z.toFp2 ≠ 0 := fun hzero => hp (hidentity.1 hzero)
    rw [Jacobian.toPoint_of_z_ne_zero hp, Jacobian.toPoint_of_z_ne_zero hq, Point.affine.injEq] at h
    have hx : p.x.toFp2 * q.z.toFp2 ^ 2 = q.x.toFp2 * p.z.toFp2 ^ 2 :=
      (div_eq_div_iff (pow_ne_zero 2 hp) (pow_ne_zero 2 hq)).1 h.1
    linear_combination hx

end RawJacobian

def rawMultiple (n : ℕ) : G2 → RawJacobian
  | .identity => ⟨1, 1, 0⟩
  | .affine x y => (RawFp2.ofFp2 x).force fun x => (RawFp2.ofFp2 y).force fun y =>
    .run x y (binaryDigits n) ⟨1, 1, 0⟩

theorem toPoint_rawMultiple (n : ℕ) (p : G2) : (rawMultiple n p).toJacobian.toPoint = p.multiple n := by
  cases p with
  | identity => rfl
  | affine x y =>
    simp only [rawMultiple, RawFp2.force_eq, RawJacobian.toJacobian_run, RawFp2.toFp2_ofFp2]
    rfl

/-- Whether the multiple of a point is the identity, in numbers. -/
def vanishes (n : ℕ) (p : G2) : Bool :=
  (rawMultiple n p).z.isZero

theorem vanishes_iff {n : ℕ} {p : G2} : vanishes n p = true ↔ p.multiple n = .identity := by
  rw [← toPoint_rawMultiple, Jacobian.toPoint_eq_identity_iff, vanishes, RawFp2.isZero_iff]
  rfl

theorem multiple_of_vanishes {n : ℕ} {p : G2} (h : vanishes n p = true) : p.multiple n = .identity :=
  vanishes_iff.1 h

theorem multiple_of_not_vanishes {n : ℕ} {p : G2} (h : vanishes n p = false) : p.multiple n ≠ .identity := by
  intro hzero
  rw [vanishes_iff.2 hzero] at h
  cases h

theorem multiple_ne_multiple_of_raw {m n : ℕ} {p q : G2}
    (h : (rawMultiple n p).sameAbscissa (rawMultiple m q) = false) : p.multiple n ≠ q.multiple m := by
  intro heq
  rw [← toPoint_rawMultiple, ← toPoint_rawMultiple] at heq
  rw [RawJacobian.sameAbscissa_of_toPoint_eq heq] at h
  cases h

end Quorate.Bls12381
