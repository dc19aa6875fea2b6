import Quorate.Bls12381.Field

/-!
# The degree-twelve extension

`Fp6` adjoins to `Fp2` a cube root `v` of `1 + u`, and `Fp12` adjoins to `Fp6` a square root `w` of
`v`. Pairings take their values in `Fp12`.
-/

namespace Quorate.Bls12381

/-- The element `c₀ + c₁ v + c₂ v²`, where `v³ = 1 + u`. -/
structure Fp6 where
  c₀ : Fp2
  c₁ : Fp2
  c₂ : Fp2
deriving DecidableEq, Inhabited

namespace Fp6

instance : Zero Fp6 := ⟨⟨0, 0, 0⟩⟩

instance : One Fp6 := ⟨⟨1, 0, 0⟩⟩

def add (a b : Fp6) : Fp6 :=
  ⟨a.c₀ + b.c₀, a.c₁ + b.c₁, a.c₂ + b.c₂⟩

def sub (a b : Fp6) : Fp6 :=
  ⟨a.c₀ - b.c₀, a.c₁ - b.c₁, a.c₂ - b.c₂⟩

def neg (a : Fp6) : Fp6 :=
  ⟨-a.c₀, -a.c₁, -a.c₂⟩

def mul (a b : Fp6) : Fp6 :=
  let t₀ := a.c₀ * b.c₀
  let t₁ := a.c₁ * b.c₁
  let t₂ := a.c₂ * b.c₂
  ⟨((a.c₁ + a.c₂) * (b.c₁ + b.c₂) - t₁ - t₂).mulByNonresidue + t₀,
    (a.c₀ + a.c₁) * (b.c₀ + b.c₁) - t₀ - t₁ + t₂.mulByNonresidue,
    (a.c₀ + a.c₂) * (b.c₀ + b.c₂) - t₀ - t₂ + t₁⟩

instance : Add Fp6 := ⟨add⟩

instance : Sub Fp6 := ⟨sub⟩

instance : Neg Fp6 := ⟨neg⟩

instance : Mul Fp6 := ⟨mul⟩

def mulByV (a : Fp6) : Fp6 :=
  ⟨a.c₂.mulByNonresidue, a.c₀, a.c₁⟩

/-- The cofactors of the element's norm, divided by the norm. -/
def inv (a : Fp6) : Fp6 :=
  let t₀ := a.c₀ * a.c₀ - (a.c₁ * a.c₂).mulByNonresidue
  let t₁ := (a.c₂ * a.c₂).mulByNonresidue - a.c₀ * a.c₁
  let t₂ := a.c₁ * a.c₁ - a.c₀ * a.c₂
  let i := (a.c₀ * t₀ + (a.c₂ * t₁ + a.c₁ * t₂).mulByNonresidue)⁻¹
  ⟨t₀ * i, t₁ * i, t₂ * i⟩

instance : Inv Fp6 := ⟨inv⟩

end Fp6

/-- The element `c₀ + c₁ w`, where `w² = v`. -/
structure Fp12 where
  c₀ : Fp6
  c₁ : Fp6
deriving DecidableEq, Inhabited

namespace Fp12

instance : One Fp12 := ⟨⟨1, 0⟩⟩

def mul (a b : Fp12) : Fp12 :=
  let t₀ := a.c₀ * b.c₀
  let t₁ := a.c₁ * b.c₁
  ⟨t₀ + t₁.mulByV, (a.c₀ + a.c₁) * (b.c₀ + b.c₁) - t₀ - t₁⟩

instance : Mul Fp12 := ⟨mul⟩

/-- The image of the element under `w ↦ -w`, which is its power `p ^ 6`. -/
def conjugate (a : Fp12) : Fp12 :=
  ⟨a.c₀, -a.c₁⟩

def inv (a : Fp12) : Fp12 :=
  let i := (a.c₀ * a.c₀ - (a.c₁ * a.c₁).mulByV)⁻¹
  ⟨a.c₀ * i, -(a.c₁ * i)⟩

instance : Inv Fp12 := ⟨inv⟩

/-- The power `p - 1` of `w`. -/
def twist : Fp2 :=
  power ⟨1, 1⟩ ((fieldModulus - 1) / 6)

/-- The power `p` of the element: each coefficient is conjugated, and `w ^ i` gives the factor
`twist ^ i`. -/
def frobenius (a : Fp12) : Fp12 :=
  let t₂ := twist * twist
  let t₃ := t₂ * twist
  let t₄ := t₂ * t₂
  ⟨⟨a.c₀.c₀.conjugate, a.c₀.c₁.conjugate * t₂, a.c₀.c₂.conjugate * t₄⟩,
    ⟨a.c₁.c₀.conjugate * twist, a.c₁.c₁.conjugate * t₃, a.c₁.c₂.conjugate * (t₄ * twist)⟩⟩

end Fp12

end Quorate.Bls12381
