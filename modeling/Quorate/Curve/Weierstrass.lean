import Quorate.Curve.Residue

/-!
# Curves of the form y² = x³ + b

The group of points of a curve without a linear term, over any field given by its operations. Sums are
taken on affine points, where equal points have equal coordinates. Multiples are computed in Jacobian
coordinates, which need a single inversion at the end: the triple `(X, Y, Z)` with `Z ≠ 0` stands for
the point `(X / Z², Y / Z³)`, and a triple with `Z = 0` for the identity.
-/

namespace Quorate.Weierstrass

inductive Point (F : Type)
  | identity
  | affine (x y : F)
deriving DecidableEq

structure Jacobian (F : Type) where
  x : F
  y : F
  z : F

variable {F : Type} [Zero F] [One F] [Add F] [Sub F] [Neg F] [Mul F] [Inv F] [DecidableEq F]

/-- Whether the point satisfies y² = x³ + b. -/
def Point.isOn (b : F) : Point F → Bool
  | .identity => true
  | .affine x y => y * y == x * x * x + b

def Point.neg : Point F → Point F
  | .identity => .identity
  | .affine x y => .affine x (-y)

/-- The third point of the chord or tangent with slope `slope` through `(x₁, y₁)`, reflected. -/
def Point.onLine (slope x₁ y₁ x₂ : F) : Point F :=
  let x := slope * slope - x₁ - x₂
  .affine x (slope * (x₁ - x) - y₁)

def Point.add : Point F → Point F → Point F
  | .identity, q => q
  | p, .identity => p
  | .affine x₁ y₁, .affine x₂ y₂ =>
    if x₁ = x₂ then
      if y₁ = -y₂ then .identity
      else Point.onLine ((x₁ * x₁ + x₁ * x₁ + x₁ * x₁) * (y₁ + y₁)⁻¹) x₁ y₁ x₂
    else Point.onLine ((y₂ - y₁) * (x₂ - x₁)⁻¹) x₁ y₁ x₂

instance : Neg (Point F) := ⟨Point.neg⟩

instance : Add (Point F) := ⟨Point.add⟩

instance : Zero (Point F) := ⟨.identity⟩

/-- Twice a triple. A triple with `Z = 0` or `Y = 0` gives one with `Z = 0`. -/
def Jacobian.double (p : Jacobian F) : Jacobian F :=
  let a := p.x * p.x
  let b := p.y * p.y
  let c := b * b
  let t := (p.x + b) * (p.x + b) - a - c
  let d := t + t
  let e := a + a + a
  let x := e * e - (d + d)
  let c₂ := c + c
  let c₄ := c₂ + c₂
  let yz := p.y * p.z
  ⟨x, e * (d - x) - (c₄ + c₄), yz + yz⟩

def Jacobian.addAffine (p : Jacobian F) (x y : F) : Jacobian F :=
  if p.z = 0 then ⟨x, y, 1⟩
  else
    let zz := p.z * p.z
    let h := x * zz - p.x
    let r := y * zz * p.z - p.y
    if h = 0 then
      if r = 0 then p.double else ⟨1, 1, 0⟩
    else
      let hh := h * h
      let hhh := hh * h
      let v := p.x * hh
      let x' := r * r - hhh - (v + v)
      ⟨x', r * (v - x') - p.y * hhh, p.z * h⟩

def Jacobian.toPoint (p : Jacobian F) : Point F :=
  if p.z = 0 then .identity
  else
    let i := p.z⁻¹
    let ii := i * i
    .affine (p.x * ii) (p.y * ii * i)

/-- `n` times a point, by doubling along the binary digits of `n`. -/
def Point.multiple (n : Nat) : Point F → Point F
  | .identity => .identity
  | .affine x y =>
    ((binaryDigits n).foldl (fun acc digit =>
      if digit then acc.double.addAffine x y else acc.double) (⟨1, 1, 0⟩ : Jacobian F)).toPoint

/-- The sum of a list of points, from the left. -/
def Point.sum (points : List (Point F)) : Point F :=
  points.foldl (· + ·) 0

end Quorate.Weierstrass
