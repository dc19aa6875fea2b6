import Quorate.Proofs.Curve.Multiple

/-!
# Points of prime order

A point of prime order shows that the prime divides the number of points of a curve, and two such points that are no
multiples of each other show it of the square of the prime. Both are said of multiples that can be computed.
-/

namespace Quorate

section Group

variable {G : Type} [AddCommGroup G] {ℓ : ℕ} {P Q : G}

theorem dvd_card_of_smul_eq_zero (hℓ : ℓ.Prime) (hP : ℓ • P = 0) (hne : P ≠ 0) : ℓ ∣ Nat.card G := by
  have : Fact ℓ.Prime := ⟨hℓ⟩
  rw [← addOrderOf_eq_prime hP hne]
  exact addOrderOf_dvd_natCard P

theorem mul_self_dvd_card [Finite G] (hℓ : ℓ.Prime) (hP : ℓ • P = 0) (hne : P ≠ 0) (hQ : ℓ • Q = 0)
    (hindependent : ∀ i < ℓ, i • P ≠ Q) : ℓ * ℓ ∣ Nat.card G := by
  classical
  have : Fact ℓ.Prime := ⟨hℓ⟩
  have horder : addOrderOf P = ℓ := addOrderOf_eq_prime hP hne
  have hnotin : Q ∉ AddSubgroup.zmultiples P := by
    rw [mem_zmultiples_iff_mem_range_addOrderOf, horder, Finset.mem_image]
    rintro ⟨i, hi, heq⟩
    exact hindependent i (Finset.mem_range.1 hi) heq
  -- In the quotient by the multiples of `P` the point `Q` still has order `ℓ`.
  have hquotient : ℓ ∣ Nat.card (G ⧸ AddSubgroup.zmultiples P) := by
    refine dvd_card_of_smul_eq_zero (P := (Q : G ⧸ AddSubgroup.zmultiples P)) hℓ ?_ ?_
    · rw [← QuotientAddGroup.mk_nsmul, hQ, QuotientAddGroup.mk_zero]
    · rwa [Ne, QuotientAddGroup.eq_zero_iff]
  rw [AddSubgroup.card_eq_card_quotient_mul_card_addSubgroup (AddSubgroup.zmultiples P), Nat.card_zmultiples, horder]
  exact Nat.mul_dvd_mul_right hquotient ℓ

end Group

namespace Weierstrass

variable {F : Type} [Field F] [DecidableEq F] {b : F} {p q : Point F} {ℓ k m n : ℕ}

/-- The multiple `k` of a point has the order `ℓ`. -/
theorem dvd_card_points (hb : (curve b).Δ ≠ 0) (hℓ : ℓ.Prime) (hp : p.isOn b = true)
    (hzero : p.multiple (ℓ * k) = .identity) (hne : p.multiple k ≠ .identity) : ℓ ∣ Nat.card (curve b).Point := by
  obtain ⟨P, rfl⟩ := (exists_coordinates_iff hb).2 hp
  rw [multiple_eq_identity_iff, mul_smul] at hzero
  rw [Ne, multiple_eq_identity_iff] at hne
  exact dvd_card_of_smul_eq_zero hℓ hzero hne

theorem dvd_card_points_of_ne (hb : (curve b).Δ ≠ 0) (hℓ : ℓ.Prime) (hp : p.isOn b = true)
    (hzero : p.multiple ℓ = .identity) (hne : p ≠ .identity) : ℓ ∣ Nat.card (curve b).Point := by
  obtain ⟨P, rfl⟩ := (exists_coordinates_iff hb).2 hp
  refine dvd_card_of_smul_eq_zero hℓ (multiple_eq_identity_iff.1 hzero) ?_
  rintro rfl
  exact hne rfl

/-- The multiple `k` of one point and the multiple `m` of another have the order `ℓ` and are no multiples of each
other. -/
theorem mul_self_dvd_card_points [Finite (curve b).Point] (hb : (curve b).Δ ≠ 0) (hℓ : ℓ.Prime)
    (hp : p.isOn b = true) (hq : q.isOn b = true)
    (hpzero : p.multiple (ℓ * k) = .identity) (hpne : p.multiple k ≠ .identity)
    (hqzero : q.multiple (ℓ * m) = .identity) (hindependent : ∀ i < ℓ, p.multiple (i * k) ≠ q.multiple m) :
    ℓ * ℓ ∣ Nat.card (curve b).Point := by
  obtain ⟨P, rfl⟩ := (exists_coordinates_iff hb).2 hp
  obtain ⟨Q, rfl⟩ := (exists_coordinates_iff hb).2 hq
  rw [multiple_eq_identity_iff, mul_smul] at hpzero hqzero
  rw [Ne, multiple_eq_identity_iff] at hpne
  refine mul_self_dvd_card hℓ hpzero hpne hqzero fun i hi heq => hindependent i hi ?_
  rw [multiple_coordinates, multiple_coordinates, mul_smul, heq]

end Weierstrass

end Quorate
