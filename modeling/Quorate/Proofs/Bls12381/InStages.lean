import Quorate.Bls12381.HashToGroup
import Quorate.Bls12381.Pairing
import Quorate.Proofs.Bls12381.RawTower

/-!
# Pairings in stages

Signatures over fixed messages are checked in proofs. A loop whose state is not evaluated before the next step leaves a
term as deep as the loop is long, so here every state is handed on in numerals. Each stage comes to what it stands for.
-/

namespace Quorate.Bls12381

open Weierstrass

variable {A : Type}

section Values

def forceNumber (n : ℕ) (next : ℕ → A) : A :=
  match n with
  | 0 => next 0
  | n + 1 => next (n + 1)

@[simp] theorem forceNumber_eq (n : ℕ) (next : ℕ → A) : forceNumber n next = next n := by
  cases n <;> rfl

def Fp.force (a : Fp) (next : Fp → A) : A :=
  forceNumber a.val fun n => next (.ofNat n)

@[simp] theorem Fp.force_eq (a : Fp) (next : Fp → A) : a.force next = next a := by
  rw [force, forceNumber_eq, Residue.ofNat_val]

def Fp2.force (a : Fp2) (next : Fp2 → A) : A :=
  a.re.force fun re => a.im.force fun im => next ⟨re, im⟩

@[simp] theorem Fp2.force_eq (a : Fp2) (next : Fp2 → A) : a.force next = next a := by
  simp [force]

def forceJacobian (p : Jacobian Fp) (next : Jacobian Fp → A) : A :=
  p.x.force fun x => p.y.force fun y => p.z.force fun z => next ⟨x, y, z⟩

@[simp] theorem forceJacobian_eq (p : Jacobian Fp) (next : Jacobian Fp → A) : forceJacobian p next = next p := by
  simp [forceJacobian]

def forcePoint {F : Type} (force : F → (F → A) → A) (p : Point F) (next : Point F → A) : A :=
  match p with
  | .identity => next .identity
  | .affine x y => force x fun x => force y fun y => next (.affine x y)

theorem forcePoint_eq {F : Type} {force : F → (F → A) → A} (hforce : ∀ a next, force a next = next a) (p : Point F)
    (next : Point F → A) : forcePoint force p next = next p := by
  cases p with
  | identity => rfl
  | affine x y => rw [forcePoint, hforce, hforce]

end Values

section Loops

variable {S D : Type} {step : S → D → (S → A) → A} {f : S → D → S}

/-- A loop whose step hands its result on, and so can evaluate it first. -/
def foldInStages (step : S → D → (S → A) → A) : List D → S → (S → A) → A
  | [], s, next => next s
  | d :: ds, s, next => step s d fun s => foldInStages step ds s next

theorem foldInStages_eq (hstep : ∀ s d next, step s d next = next (f s d)) (ds : List D) (s : S) (next : S → A) :
    foldInStages step ds s next = next (ds.foldl f s) := by
  induction ds generalizing s with
  | nil => rfl
  | cons d ds ih => rw [foldInStages, hstep, ih, List.foldl_cons]

def G1.multipleInStages (n : ℕ) (p : G1) (next : G1 → A) : A :=
  match p with
  | .identity => next .identity
  | .affine x y =>
    foldInStages (fun acc digit => forceJacobian (if digit then acc.double.addAffine x y else acc.double))
      (binaryDigits n) ⟨1, 1, 0⟩ fun p => forcePoint Fp.force p.toPoint next

@[simp] theorem G1.multipleInStages_eq (n : ℕ) (p : G1) (next : G1 → A) :
    G1.multipleInStages n p next = next (p.multiple n) := by
  cases p with
  | identity => rfl
  | affine x y =>
    rw [multipleInStages, foldInStages_eq fun _ _ => forceJacobian_eq _, forcePoint_eq Fp.force_eq]
    rfl

def G2.multipleInStages (n : ℕ) (p : G2) (next : G2 → A) : A :=
  forcePoint Fp2.force (rawMultiple n p).toJacobian.toPoint next

@[simp] theorem G2.multipleInStages_eq (n : ℕ) (p : G2) (next : G2 → A) :
    G2.multipleInStages n p next = next (p.multiple n) := by
  rw [multipleInStages, forcePoint_eq Fp2.force_eq, toPoint_rawMultiple]

end Loops

section Inverses

/-- The power of a number, by the digits of the exponent to base 64 from a given one down. -/
def powerFrom (a exponent : ℕ) : ℕ → ℕ → (ℕ → A) → A
  | 0, acc, next => next acc
  | i + 1, acc, next => forceNumber (acc ^ 64 * a ^ (exponent / 64 ^ i % 64) % fieldModulus) fun acc =>
    powerFrom a exponent i acc next

/-- Before a digit is taken the number stands for the power by the digits above it. -/
theorem powerFrom_eq {a exponent i acc : ℕ} (h : (acc : Fp) = (a : Fp) ^ (exponent / 64 ^ i)) (next : ℕ → A) :
    ∃ n : ℕ, (n : Fp) = (a : Fp) ^ exponent ∧ powerFrom a exponent i acc next = next n := by
  induction i generalizing acc with
  | zero => exact ⟨acc, by simpa using h, rfl⟩
  | succ i ih =>
    rw [powerFrom, forceNumber_eq]
    apply ih
    have hsplit : exponent / 64 ^ i = exponent / 64 ^ (i + 1) * 64 + exponent / 64 ^ i % 64 := by
      rw [pow_succ, ← Nat.div_div_eq_div_mul, Nat.div_add_mod']
    rw [RawFp2.cast_mod, Nat.cast_mul, Nat.cast_pow, Nat.cast_pow, h, ← pow_mul, ← pow_add, ← hsplit]

def Fp.invInStages (a : Fp) (next : Fp → A) : A :=
  forceNumber a.val fun n => powerFrom n (fieldModulus - 2) 64 1 fun n => next (.ofNat n)

@[simp] theorem Fp.invInStages_eq (a : Fp) (next : Fp → A) :
    a.invInStages next = next (power a (fieldModulus - 2)) := by
  have hstart : ((1 : ℕ) : Fp) = (a.val : Fp) ^ ((fieldModulus - 2) / 64 ^ 64) := by
    rw [Nat.cast_one, show (fieldModulus - 2) / 64 ^ 64 = 0 by decide, pow_zero]
  obtain ⟨n, hn, hpower⟩ := powerFrom_eq hstart fun n => next (.ofNat n)
  rw [invInStages, forceNumber_eq, hpower, Residue.ofNat_eq_cast, hn, ← Residue.ofNat_eq_cast, Residue.ofNat_val,
    power_eq_pow]

def Fp2.invInStages (a : Fp2) (next : Fp2 → A) : A :=
  (a.re * a.re + a.im * a.im).invInStages fun i => next ⟨a.re * i, -(a.im * i)⟩

@[simp] theorem Fp2.invInStages_eq (a : Fp2) (next : Fp2 → A) : a.invInStages next = next a.inv := by
  rw [invInStages, Fp.invInStages_eq]
  rfl

end Inverses

section Hashing

def mapInStages (t : Fp2) (next : G2 → A) : A :=
  (mapToIsogenous t).1.force fun x => (mapToIsogenous t).2.force fun y => forcePoint Fp2.force (isogeny (x, y)) next

theorem mapInStages_eq (t : Fp2) (next : G2 → A) : mapInStages t next = next (isogeny (mapToIsogenous t)) := by
  rw [mapInStages, Fp2.force_eq, Fp2.force_eq, forcePoint_eq Fp2.force_eq]

def hashInStages (message tag : Bytes) (next : G2 → A) : A :=
  (hashToField message tag).1.force fun t₀ => (hashToField message tag).2.force fun t₁ =>
  mapInStages t₀ fun p₀ => mapInStages t₁ fun p₁ => forcePoint Fp2.force (p₀ + p₁) fun p =>
  G2.multipleInStages effectiveCofactor p next

@[simp] theorem hashInStages_eq (message tag : Bytes) (next : G2 → A) :
    hashInStages message tag next = next (hashToGroup message tag) := by
  rw [hashInStages, Fp2.force_eq, Fp2.force_eq, mapInStages_eq, mapInStages_eq, forcePoint_eq Fp2.force_eq,
    G2.multipleInStages_eq]
  rfl

end Hashing

section Pairings

namespace MillerState

variable (s : MillerState) (slope x₂ qx qy : Fp2) (px py : Fp) (next : MillerState → A)

def followLineInStages : A :=
  (slope * slope - s.x - x₂).force fun x => (slope * (s.x - x) - s.y).force fun y =>
  s.value.mulInStages (lineValue slope s.x s.y px py) fun value => next ⟨value, x, y⟩

@[simp] theorem followLineInStages_eq :
    s.followLineInStages slope x₂ px py next = next (s.followLine slope x₂ px py) := by
  simp [followLineInStages, followLine]

def doubleInStages : A :=
  (s.y + s.y).invInStages fun i => ((s.x * s.x + s.x * s.x + s.x * s.x) * i).force fun slope =>
  s.value.mulInStages s.value fun value => followLineInStages ⟨value, s.x, s.y⟩ slope s.x px py next

@[simp] theorem doubleInStages_eq : s.doubleInStages px py next = next (s.double px py) := by
  simp only [doubleInStages, Fp2.invInStages_eq, Fp2.force_eq, Fp12.mulInStages_eq, followLineInStages_eq]
  rfl

def addInStages : A :=
  (qx - s.x).invInStages fun i => ((qy - s.y) * i).force fun slope => s.followLineInStages slope qx px py next

@[simp] theorem addInStages_eq : s.addInStages qx qy px py next = next (s.add qx qy px py) := by
  simp only [addInStages, Fp2.invInStages_eq, Fp2.force_eq, followLineInStages_eq]
  rfl

end MillerState

def millerInStages (p : G1) (q : G2) (next : Fp12 → A) : A :=
  match p, q with
  | .affine px py, .affine qx qy =>
    foldInStages (fun (s : MillerState) digit next => s.doubleInStages px py fun s =>
      if digit then s.addInStages qx qy px py next else next s)
      ((binaryDigits parameter).drop 1) ⟨1, qx, qy⟩ fun s => next s.value
  | _, _ => next 1

@[simp] theorem millerInStages_eq (p : G1) (q : G2) (next : Fp12 → A) :
    millerInStages p q next = next (millerLoop p q) := by
  cases p with
  | identity => cases q <;> rfl
  | affine px py =>
    cases q with
    | identity => rfl
    | affine qx qy =>
      refine foldInStages_eq (fun s digit next => ?_) _ _ _
      cases digit <;> simp

def powParameterInStages (f : Fp12) (next : Fp12 → A) : A :=
  foldInStages (fun (acc : Fp12) digit next => acc.mulInStages acc fun acc =>
    if digit then acc.mulInStages f next else next acc) (binaryDigits parameter) 1 fun g => next g.conjugate

@[simp] theorem powParameterInStages_eq (f : Fp12) (next : Fp12 → A) :
    powParameterInStages f next = next (powParameter f) := by
  refine foldInStages_eq (fun acc digit next => ?_) _ _ _
  cases digit <;> simp

def finalExponentiationInStages (f : Fp12) (next : Fp12 → A) : A :=
  f.conjugate.mulInStages f⁻¹ fun unitary => unitary.frobenius.frobenius.mulInStages unitary fun f =>
  powParameterInStages f fun power => power.mulInStages f.conjugate fun g =>
  powParameterInStages g fun power => power.mulInStages g.conjugate fun g =>
  powParameterInStages g fun power => power.mulInStages g.frobenius fun g =>
  powParameterInStages g fun power => powParameterInStages power fun power =>
  power.mulInStages g.frobenius.frobenius fun h => h.mulInStages g.conjugate fun g =>
  f.mulInStages f fun h => h.mulInStages f fun cube => g.mulInStages cube next

@[simp] theorem finalExponentiationInStages_eq (f : Fp12) (next : Fp12 → A) :
    finalExponentiationInStages f next = next (finalExponentiation f) := by
  simp only [finalExponentiationInStages, Fp12.mulInStages_eq, powParameterInStages_eq]
  rfl

def pairingsInStages (p q : G1) (h s : G2) : Bool :=
  millerInStages p h fun f₁ => millerInStages q s fun f₂ =>
  Fp12.mulInStages 1 f₁ fun f => f.mulInStages f₂ fun f => finalExponentiationInStages f fun e => e == 1

theorem pairingsInStages_eq (p q : G1) (h s : G2) :
    pairingsInStages p q h s = pairingProductIsOne [(p, h), (q, s)] := by
  simp only [pairingsInStages, millerInStages_eq, Fp12.mulInStages_eq, finalExponentiationInStages_eq]
  rfl

end Pairings

end Quorate.Bls12381
