import Quorate.Bls12381.Tower
import Quorate.Proofs.Bls12381.RawMultiple

/-!
# Products of the tower in plain numbers

The values of pairings are multiplied many hundred times over where a signature is checked in a proof. Like the points
they are kept there as natural numbers that stand for residues.
-/

namespace Quorate.Bls12381

variable {A : Type}

theorem Fp2.mulByNonresidue_eq (a : Fp2) : a.mulByNonresidue = ⟨1, 1⟩ * a := by
  apply Fp2.ext_parts
  · simp only [Fp2.mulByNonresidue, Fp2.re_mul]
    ring
  · simp only [Fp2.mulByNonresidue, Fp2.im_mul]
    ring

namespace Fp6

theorem add_eq (a b : Fp6) : a + b = ⟨a.c₀ + b.c₀, a.c₁ + b.c₁, a.c₂ + b.c₂⟩ := rfl

theorem sub_eq (a b : Fp6) : a - b = ⟨a.c₀ - b.c₀, a.c₁ - b.c₁, a.c₂ - b.c₂⟩ := rfl

/-- The product takes six multiplications in the place of nine. -/
theorem mul_eq (a b : Fp6) : a * b =
    ⟨a.c₀ * b.c₀ + ⟨1, 1⟩ * (a.c₁ * b.c₂ + a.c₂ * b.c₁), a.c₀ * b.c₁ + a.c₁ * b.c₀ + ⟨1, 1⟩ * (a.c₂ * b.c₂),
      a.c₀ * b.c₂ + a.c₁ * b.c₁ + a.c₂ * b.c₀⟩ := by
  change mul a b = _
  simp only [mul, Fp2.mulByNonresidue_eq, mk.injEq]
  exact ⟨by ring, by ring, by ring⟩

theorem mul_cross (a b c d : Fp6) : (a + b) * (c + d) - a * c - b * d = a * d + b * c := by
  simp only [add_eq, sub_eq, mul_eq, mk.injEq]
  exact ⟨by ring, by ring, by ring⟩

end Fp6

/-- Three pairs of numbers that stand for an element of the extension of degree six. -/
structure RawFp6 where
  c₀ : RawFp2
  c₁ : RawFp2
  c₂ : RawFp2

namespace RawFp6

def force (a : RawFp6) (next : RawFp6 → A) : A :=
  a.c₀.force fun c₀ => a.c₁.force fun c₁ => a.c₂.force fun c₂ => next ⟨c₀, c₁, c₂⟩

@[simp] theorem force_eq (a : RawFp6) (next : RawFp6 → A) : a.force next = next a := by
  simp [force]

instance : Add RawFp6 := ⟨fun a b => ⟨a.c₀ + b.c₀, a.c₁ + b.c₁, a.c₂ + b.c₂⟩⟩

instance : Mul RawFp6 := ⟨fun a b =>
  ⟨a.c₀ * b.c₀ + ⟨1, 1⟩ * (a.c₁ * b.c₂ + a.c₂ * b.c₁), a.c₀ * b.c₁ + a.c₁ * b.c₀ + ⟨1, 1⟩ * (a.c₂ * b.c₂),
    a.c₀ * b.c₂ + a.c₁ * b.c₁ + a.c₂ * b.c₀⟩⟩

def mulByV (a : RawFp6) : RawFp6 :=
  ⟨⟨1, 1⟩ * a.c₂, a.c₀, a.c₁⟩

def toFp6 (a : RawFp6) : Fp6 :=
  ⟨a.c₀.toFp2, a.c₁.toFp2, a.c₂.toFp2⟩

def ofFp6 (a : Fp6) : RawFp6 :=
  ⟨.ofFp2 a.c₀, .ofFp2 a.c₁, .ofFp2 a.c₂⟩

theorem toFp6_mk (c₀ c₁ c₂ : RawFp2) : toFp6 ⟨c₀, c₁, c₂⟩ = ⟨c₀.toFp2, c₁.toFp2, c₂.toFp2⟩ := rfl

theorem toFp2_nonresidue : RawFp2.toFp2 ⟨1, 1⟩ = ⟨1, 1⟩ := rfl

@[simp] theorem toFp6_ofFp6 (a : Fp6) : (ofFp6 a).toFp6 = a := by
  simp only [ofFp6, toFp6_mk, RawFp2.toFp2_ofFp2]

@[simp] theorem toFp6_add (a b : RawFp6) : (a + b).toFp6 = a.toFp6 + b.toFp6 := by
  refine (toFp6_mk _ _ _).trans ?_
  simp only [RawFp2.toFp2_add, Fp6.add_eq, toFp6]

@[simp] theorem toFp6_mul (a b : RawFp6) : (a * b).toFp6 = a.toFp6 * b.toFp6 := by
  refine (toFp6_mk _ _ _).trans ?_
  simp only [RawFp2.toFp2_add, RawFp2.toFp2_mul, toFp2_nonresidue, Fp6.mul_eq, toFp6]

@[simp] theorem toFp6_mulByV (a : RawFp6) : a.mulByV.toFp6 = a.toFp6.mulByV := by
  simp only [mulByV, toFp6, Fp6.mulByV, Fp2.mulByNonresidue_eq, RawFp2.toFp2_mul, toFp2_nonresidue]

end RawFp6

/-- Two such triples, for an element of the extension of degree twelve. -/
structure RawFp12 where
  c₀ : RawFp6
  c₁ : RawFp6

namespace RawFp12

def force (a : RawFp12) (next : RawFp12 → A) : A :=
  a.c₀.force fun c₀ => a.c₁.force fun c₁ => next ⟨c₀, c₁⟩

@[simp] theorem force_eq (a : RawFp12) (next : RawFp12 → A) : a.force next = next a := by
  simp [force]

instance : Mul RawFp12 := ⟨fun a b => ⟨a.c₀ * b.c₀ + (a.c₁ * b.c₁).mulByV, a.c₀ * b.c₁ + a.c₁ * b.c₀⟩⟩

def toFp12 (a : RawFp12) : Fp12 :=
  ⟨a.c₀.toFp6, a.c₁.toFp6⟩

def ofFp12 (a : Fp12) : RawFp12 :=
  ⟨.ofFp6 a.c₀, .ofFp6 a.c₁⟩

@[simp] theorem toFp12_ofFp12 (a : Fp12) : (ofFp12 a).toFp12 = a := by
  simp only [toFp12, ofFp12, RawFp6.toFp6_ofFp6]

@[simp] theorem toFp12_mul (a b : RawFp12) : (a * b).toFp12 = a.toFp12 * b.toFp12 := by
  change (⟨(_ + _ : RawFp6).toFp6, (_ + _ : RawFp6).toFp6⟩ : Fp12) = Fp12.mul _ _
  simp only [Fp12.mul, Fp6.mul_cross, RawFp6.toFp6_add, RawFp6.toFp6_mul, RawFp6.toFp6_mulByV, toFp12]

end RawFp12

/-- The product, computed in numbers. -/
def Fp12.mulInStages (a b : Fp12) (next : Fp12 → A) : A :=
  (RawFp12.ofFp12 a).force fun a => (RawFp12.ofFp12 b).force fun b => (a * b).force fun c => next c.toFp12

@[simp] theorem Fp12.mulInStages_eq (a b : Fp12) (next : Fp12 → A) : a.mulInStages b next = next (a * b) := by
  simp [mulInStages]

end Quorate.Bls12381
