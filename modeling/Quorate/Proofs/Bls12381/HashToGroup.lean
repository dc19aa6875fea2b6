import Quorate.Proofs.Bls12381.GroupOrder

/-!
# Messages hash into the group

Of the two candidates on the isogenous curve one gives a square, as the values at them differ by the nonsquare of the
map and a square. The isogeny is on the curve by an identity of polynomials, which is checked on their coefficients.
The cofactor then moves the sum into the group.
-/

namespace Quorate.Bls12381

open Weierstrass

section NonSquares

variable {K : Type} [Field K] [Finite K] {a b : K}

theorem isSquare_mul_of_not_isSquare (ha : ¬ IsSquare a) (hb : ¬ IsSquare b) : IsSquare (a * b) := by
  classical
  have := Fintype.ofFinite K
  have hab : a * b ≠ 0 := by
    refine mul_ne_zero ?_ ?_
    · rintro rfl
      exact ha (IsSquare.zero)
    · rintro rfl
      exact hb (IsSquare.zero)
  rw [← quadraticChar_one_iff_isSquare hab, map_mul, quadraticChar_neg_one_iff_not_isSquare.2 ha,
    quadraticChar_neg_one_iff_not_isSquare.2 hb]
  rfl

end NonSquares

namespace Fp2

variable {a : Fp2}

theorem not_isSquare_of_sqrt? (h : sqrt? a = none) : ¬ IsSquare a := by
  rintro ⟨y, rfl⟩
  obtain ⟨root, hroot⟩ := exists_sqrt? y
  rw [hroot] at h
  cases h

/-- The default root is never used of a square. -/
theorem mul_self_getD_sqrt? (h : IsSquare a) : (sqrt? a).getD 0 * (sqrt? a).getD 0 = a := by
  obtain ⟨y, rfl⟩ := h
  obtain ⟨root, hroot⟩ := exists_sqrt? y
  rw [hroot]
  exact mul_self_of_sqrt? hroot

theorem norm_mul (a b : Fp2) : (a * b).re * (a * b).re + (a * b).im * (a * b).im =
    (a.re * a.re + a.im * a.im) * (b.re * b.re + b.im * b.im) := by
  rw [re_mul, im_mul]
  ring

end Fp2

/-- By quadratic reciprocity. -/
theorem Fp.not_isSquare_five : ¬ IsSquare (5 : Fp) := by
  have hsymbol : jacobiSym 5 fieldModulus = -1 := by norm_num [fieldModulus]
  rintro ⟨y, hy⟩
  apply ZMod.nonsquare_of_jacobiSym_eq_neg_one hsymbol
  refine ⟨Residue.toZModHom y, ?_⟩
  rw [← map_mul, ← hy, map_ofNat]
  rfl

/-- Its norm is five. -/
theorem not_isSquare_mapNonsquare : ¬ IsSquare mapNonsquare := by
  rintro ⟨y, hy⟩
  apply Fp.not_isSquare_five
  refine ⟨y.re * y.re + y.im * y.im, ?_⟩
  rw [← Fp2.norm_mul, ← hy]
  decide

section IsogenousCurve

/-- The right side of the equation of the isogenous curve. -/
def isogenousRight (x : Fp2) : Fp2 :=
  (x * x + isogenousA) * x + isogenousB

/-- The second candidate for the first coordinate. -/
theorem isogenousRight_mul {s x : Fp2} (hs : s * s + s ≠ 0)
    (hx : x = -isogenousB * isogenousA⁻¹ * (1 + (s * s + s)⁻¹)) :
    isogenousRight (s * x) = s * s * s * isogenousRight x := by
  have hA : isogenousA ≠ 0 := by decide
  have hinv := mul_inv_cancel₀ hs
  have hAx : isogenousA * x = -isogenousB * (1 + (s * s + s)⁻¹) := by
    rw [hx]
    linear_combination -isogenousB * (1 + (s * s + s)⁻¹) * mul_inv_cancel₀ hA
  unfold isogenousRight
  linear_combination (s - s * s * s) * hAx + isogenousB * (s - 1) * hinv

/-- Where the fraction for the first candidate has no denominator, the first candidate gives a square. -/
theorem isSquare_isogenousRight_exceptional :
    IsSquare (isogenousRight (isogenousB * (mapNonsquare * isogenousA)⁻¹)) := by
  set x : Fp2 := .ofNats
    0x01a59d4b6bbf912a32d63b43028e2deeebe8d5d97ca64b6d66f64ac7a265a9305e1a40da5edb81b4e3ac4f5c28f5bd27
    0x15103a07f641331bb298f5ed3ba1230aa0bcc9f87d923077324df24a0f7ffa93045d3d6f94c17ae10efa11eb851e7336 with hx
  set y : Fp2 := .ofNats
    0x028a5c165c0f2b6f84373bd5beb9a30d9ffef84fe5dc9a01a5e6825ee681d72252e4afbaf882c28f1c2935d806d2f71b
    0x17407d2938baedf8f3a537708747853994282b0535a8c4d8ffd7c0ebe3e31b581e4adea8190ec4a4a8ecaae9fd615d8a with hy
  have hchecked : isogenousB = x * (mapNonsquare * isogenousA) ∧ mapNonsquare * isogenousA ≠ 0 ∧
      isogenousRight x = y * y := by
    decide
  obtain ⟨hproduct, hne, hsquare⟩ := hchecked
  rw [hproduct, mul_inv_cancel_right₀ hne]
  exact ⟨y, hsquare⟩

def firstCandidate (s : Fp2) : Fp2 :=
  if s * s + s = 0 then isogenousB * (mapNonsquare * isogenousA)⁻¹
  else -isogenousB * isogenousA⁻¹ * (1 + (s * s + s)⁻¹)

/-- Where the first candidate gives no square the second does. -/
theorem isSquare_secondCandidate {s t : Fp2} (hs : s = mapNonsquare * (t * t))
    (hnot : ¬ IsSquare (isogenousRight (firstCandidate s))) : IsSquare (isogenousRight (s * firstCandidate s)) := by
  unfold firstCandidate at *
  by_cases hzero : s * s + s = 0
  · rw [if_pos hzero] at hnot
    exact absurd isSquare_isogenousRight_exceptional hnot
  · rw [if_neg hzero] at hnot ⊢
    obtain ⟨y, hy⟩ := isSquare_mul_of_not_isSquare not_isSquare_mapNonsquare hnot
    rw [isogenousRight_mul hzero rfl]
    refine ⟨mapNonsquare * (t * t * t) * y, ?_⟩
    rw [hs] at hy ⊢
    linear_combination mapNonsquare ^ 2 * t ^ 6 * hy

theorem mapToIsogenous_isOn (t : Fp2) :
    (mapToIsogenous t).2 * (mapToIsogenous t).2 = isogenousRight (mapToIsogenous t).1 := by
  have hsign (odd : Bool) (y : Fp2) : (if odd then y else -y) * (if odd then y else -y) = y * y := by
    cases odd
    · exact neg_mul_neg y y
    · rfl
  have hright (x : Fp2) : (x * x + isogenousA) * x + isogenousB = isogenousRight x := rfl
  have hfirst (s : Fp2) : (if s * s + s = 0 then isogenousB * (mapNonsquare * isogenousA)⁻¹
      else -isogenousB * isogenousA⁻¹ * (1 + (s * s + s)⁻¹)) = firstCandidate s := rfl
  unfold mapToIsogenous
  simp only [hsign, hright, hfirst]
  split
  · rename_i y hy
    exact Fp2.mul_self_of_sqrt? hy
  · rename_i hnone
    dsimp only
    exact Fp2.mul_self_getD_sqrt? (isSquare_secondCandidate rfl (Fp2.not_isSquare_of_sqrt? hnone))

end IsogenousCurve

section Polynomials

def polynomialSum : List Fp2 → List Fp2 → List Fp2
  | [], q => q
  | a :: p, [] => a :: p
  | a :: p, b :: q => (a + b) :: polynomialSum p q

def polynomialProduct : List Fp2 → List Fp2 → List Fp2
  | [], _ => []
  | a :: p, q => polynomialSum (q.map (a * ·)) (0 :: polynomialProduct p q)

variable {x : Fp2}

theorem evaluate_cons (a : Fp2) (p : List Fp2) : evaluate (a :: p) x = evaluate p x * x + a :=
  rfl

theorem evaluate_sum (p q : List Fp2) : evaluate (polynomialSum p q) x = evaluate p x + evaluate q x := by
  induction p generalizing q with
  | nil => exact (zero_add _).symm
  | cons a p ih =>
    cases q with
    | nil => exact (add_zero _).symm
    | cons b q =>
      rw [polynomialSum, evaluate_cons, evaluate_cons, evaluate_cons, ih]
      ring

theorem evaluate_map_mul (a : Fp2) (q : List Fp2) : evaluate (q.map (a * ·)) x = a * evaluate q x := by
  induction q with
  | nil => exact (mul_zero a).symm
  | cons b q ih =>
    rw [List.map_cons, evaluate_cons, evaluate_cons, ih]
    ring

theorem evaluate_product (p q : List Fp2) :
    evaluate (polynomialProduct p q) x = evaluate p x * evaluate q x := by
  induction p with
  | nil => exact (zero_mul _).symm
  | cons a p ih =>
    rw [polynomialProduct, evaluate_sum, evaluate_map_mul, evaluate_cons, evaluate_cons, ih]
    ring

end Polynomials

section Isogeny

variable {x : Fp2}

/-- The two denominators are the square and the cube of one polynomial. On the isogenous curve the numerators satisfy
the equation of the curve, over these denominators. -/
theorem isogeny_polynomials :
    polynomialProduct isogenyXDenominator (polynomialProduct isogenyXDenominator isogenyXDenominator) =
      polynomialProduct isogenyYDenominator isogenyYDenominator ∧
    polynomialProduct [isogenousB, isogenousA, 0, 1] (polynomialProduct isogenyYNumerator isogenyYNumerator) =
      polynomialSum (polynomialProduct isogenyXNumerator (polynomialProduct isogenyXNumerator isogenyXNumerator))
        (polynomialProduct [G2.constantTerm] (polynomialProduct isogenyYDenominator isogenyYDenominator)) := by
  decide

theorem isogeny_denominators :
    evaluate isogenyXDenominator x ^ 3 = evaluate isogenyYDenominator x ^ 2 := by
  have h := congrArg (evaluate · x) isogeny_polynomials.1
  simp only [evaluate_product] at h
  linear_combination h

theorem isogeny_numerators : isogenousRight x * evaluate isogenyYNumerator x ^ 2 =
    evaluate isogenyXNumerator x ^ 3 + G2.constantTerm * evaluate isogenyYDenominator x ^ 2 := by
  have h := congrArg (evaluate · x) isogeny_polynomials.2
  simp only [evaluate_product, evaluate_sum] at h
  have hright : evaluate [isogenousB, isogenousA, 0, 1] x = isogenousRight x := by
    simp only [evaluate_cons, isogenousRight]
    change ((((0 : Fp2) * x + 1) * x + 0) * x + isogenousA) * x + isogenousB = _
    ring
  have hconstant : evaluate [G2.constantTerm] x = G2.constantTerm := by
    change (0 : Fp2) * x + G2.constantTerm = _
    ring
  rw [hright, hconstant] at h
  linear_combination h

theorem isogeny_isOn {p : Fp2 × Fp2} (hp : p.2 * p.2 = isogenousRight p.1) :
    (isogeny p).isOn G2.constantTerm = true := by
  have hdenominators := isogeny_denominators (x := p.1)
  have hnumerators := isogeny_numerators (x := p.1)
  rw [← hp] at hnumerators
  unfold isogeny
  by_cases hpole : evaluate isogenyXDenominator p.1 = 0 ∨ evaluate isogenyYDenominator p.1 = 0
  · simp only [if_pos hpole]
    rfl
  · simp only [if_neg hpole]
    obtain ⟨hx, hy⟩ := not_or.1 hpole
    have hinverses : (evaluate isogenyXDenominator p.1)⁻¹ ^ 3 = (evaluate isogenyYDenominator p.1)⁻¹ ^ 2 := by
      rw [inv_pow, inv_pow, hdenominators]
    have hone : (evaluate isogenyYDenominator p.1 * (evaluate isogenyYDenominator p.1)⁻¹) ^ 2 = 1 := by
      rw [mul_inv_cancel₀ hy, one_pow]
    rw [affine_isOn_iff]
    linear_combination (evaluate isogenyYDenominator p.1)⁻¹ ^ 2 * hnumerators + G2.constantTerm * hone -
      evaluate isogenyXNumerator p.1 ^ 3 * hinverses

/-- A message hashes to a point of the group, under every tag. -/
theorem inGroup_hashToGroup (message tag : Bytes) : InGroup G2.constantTerm (hashToGroup message tag) := by
  have hmapped (t : Fp2) : (isogeny (mapToIsogenous t)).isOn G2.constantTerm = true :=
    isogeny_isOn (mapToIsogenous_isOn t)
  unfold hashToGroup
  exact inGroup_multiple_effectiveCofactor (Point.isOn_add G2.discriminant_ne_zero (hmapped _) (hmapped _))

end Isogeny

end Quorate.Bls12381
