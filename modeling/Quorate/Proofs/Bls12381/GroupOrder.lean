import Quorate.Bls12381.HashToGroup
import Quorate.Proofs.Bls12381.RawMultiple
import Quorate.Proofs.Curve.Torsion
import Quorate.Proofs.Key.Aggregate
import Quorate.Proofs.PrimeCertificate

/-!
# The number of points of the second curve

A point is determined by its first coordinate and by which of the two it is, so there are at most `2 p² + 1` points.
The orders of four points give a divisor of the number of points that is more than half of that bound, so it is the
number. A multiple of it is the effective cofactor times the group order, so the effective cofactor moves every point
of the curve into the group.
-/

namespace Quorate.Bls12381

open Weierstrass

def groupOrderSteps : List PrimeStep :=
  [⟨groupOrder, [859267, 906349, 2508409, 2529403, 52437899, 254760293]⟩]

theorem prime_groupOrder : groupOrder.Prime := by
  have hfound : ∀ q ∈ [859267, 906349, 2508409, 2529403, 52437899, 254760293], q.Prime := by norm_num
  have hcertifies : certifies [859267, 906349, 2508409, 2529403, 52437899, 254760293] groupOrderSteps = true := by
    decide +kernel
  exact prime_of_certifies hfound hcertifies (by simp [groupOrderSteps])

/-- The group order is prime, so a multiple that a secret key can stand for leads to the identity from nowhere else. -/
theorem InGroup.multiple_ne_identity {F : Type} [Field F] [DecidableEq F] {b : F} {p : Point F} {n : ℕ}
    (hb : (curve b).Δ ≠ 0) (hp : InGroup b p) (hne : p ≠ .identity) (hpos : 0 < n) (hlt : n < groupOrder) :
    p.multiple n ≠ .identity := by
  obtain ⟨P, hP, rfl⟩ := (inGroup_iff hb).1 hp
  have hP₀ : P ≠ 0 := by
    rintro rfl
    exact hne rfl
  have : Fact groupOrder.Prime := ⟨prime_groupOrder⟩
  have horder : addOrderOf P = groupOrder := addOrderOf_eq_prime hP hP₀
  rw [Ne, multiple_eq_identity_iff]
  intro hn
  have hdvd := addOrderOf_dvd_of_nsmul_eq_zero hn
  rw [horder] at hdvd
  exact Nat.not_dvd_of_pos_of_lt hpos hlt hdvd

/-- The large prime factor of the number of points beside the group order. -/
def cofactorPrime : ℕ :=
  402096035359507321594726366720466575392706800671181159425656785868777272553337714697862511267018014931937703598282857976535744623203249

def cofactorPrimeSteps : List PrimeStep := [
  ⟨12192593745179, [541, 1367711]⟩,
  ⟨512088937297519, [12192593745179]⟩,
  ⟨1857858664515398933, [512088937297519]⟩,
  ⟨22294303974184787197, [1857858664515398933]⟩,
  ⟨19931107752921199754119, [22294303974184787197]⟩,
  ⟨81162125843606155545104998607900118769099783, [19931107752921199754119]⟩,
  ⟨26935696298915610574513298451669528361624243820491956655650666425177,
    [81162125843606155545104998607900118769099783]⟩,
  ⟨4638704574076146691498289350639807119782054683906549022985642612861209609656189848749536921852444848596916990932297,
    [26935696298915610574513298451669528361624243820491956655650666425177]⟩,
  ⟨cofactorPrime,
    [4638704574076146691498289350639807119782054683906549022985642612861209609656189848749536921852444848596916990932297]⟩]

theorem prime_cofactorPrime : cofactorPrime.Prime := by
  have hfound : ∀ q ∈ [541, 1367711], q.Prime := by norm_num
  have hcertifies : certifies [541, 1367711] cofactorPrimeSteps = true := by decide +kernel
  exact prime_of_certifies hfound hcertifies (by simp [cofactorPrimeSteps])

/-- The number of points of the curve. -/
def curveOrder : ℕ :=
  13 * 13 * (23 * 23) * 2713 * 11953 * 262069 * cofactorPrime * groupOrder

theorem effectiveCofactor_mul_groupOrder :
    effectiveCofactor * groupOrder = 3 * (parameter * parameter - 1) * curveOrder := by
  decide

section Bound

variable {F : Type} [Field F] {c : Coordinate F}

/-- The first coordinate of a point, and which of the two points with it the point is. -/
def pointCode (c : Coordinate F) : (curve c.constantTerm).Point → Option (F × Bool)
  | .zero => none
  | .some x y _ => some (x, c.isLarger y)

variable [DecidableEq F]

theorem pointCode_injective (hc : c.Lawful) : Function.Injective (pointCode c) := by
  rintro (_ | ⟨x, y, h⟩) (_ | ⟨x', y', h'⟩) heq
  · rfl
  · cases heq
  · cases heq
  · simp only [pointCode, Option.some.injEq, Prod.mk.injEq] at heq
    obtain ⟨rfl, hlarger⟩ := heq
    obtain rfl := hc.eq_of_isLarger_eq (affine_isOn_iff.2 (equation_curve_iff.1 h.1))
      (affine_isOn_iff.2 (equation_curve_iff.1 h'.1)) hlarger
    rfl

theorem finite_points [Finite F] (hc : c.Lawful) : Finite (curve c.constantTerm).Point :=
  .of_injective _ (pointCode_injective hc)

theorem card_points_le [Finite F] (hc : c.Lawful) : Nat.card (curve c.constantTerm).Point ≤ 2 * Nat.card F + 1 := by
  have hle := Nat.card_le_card_of_injective _ (pointCode_injective hc)
  rw [Finite.card_option, Nat.card_prod, Nat.card_eq_fintype_card (α := Bool), Fintype.card_bool] at hle
  omega

end Bound

/-- A point of order 13 · 23. -/
def pointOfSmallOrder : G2 := .affine
  (.ofNats
    0x0db388e244feea50d9c0f6ff19dac4448d921c0136a67da95d30e83d5f1ec4c30aec69a9f7bf6251cb6dc63befdb6d80
    0x052ea61eabe1681cf295fac7f0733905c3463a398531ad0cf6aa1d9831e7ae6406d6dccdcc6a479a911d959174c1a28e)
  (.ofNats
    0x0d1fa46c4c6abd01caf9d9adc9c9b3072269d76746f46c2e43d28d4b9cba3011c317e3288400c5fd7f32cade4091c055
    0x18ea3a0decfbce7926210260c67131a46a67da15d2465154ffeda0cbc8068b4a59d3bbebce65e8ebcca293fe59268516)

/-- A point of order 13 · 23 · 2713 · 11953 · 262069. -/
def pointOfMixedOrder : G2 := .affine
  (.ofNats
    0x007840388da2c6aea5f7b82aa19fc62ef984e481814884c14259d53f7f91d00f2dddb1ff68775acc791704cb5ddc257b
    0x0f6b87154aaaeea826a1aa9b9a2ade10e1537d08371bc2485c9f0f711178541943fb9462a717821f220aa0cae5cde182)
  (.ofNats
    0x026c686000f09c1ce6f15245fee0b509974b34ed47076bde2291360f48d75f84326b907b12701147af817722afffaa79
    0x03bcc6e387b267cdaa1718ad11a890ea142fc307400e204161b13f1429f196a200f7a431f6de198e98cece7f0945d4e0)

/-- A point whose order is the large prime factor of the cofactor. -/
def pointOfLargeOrder : G2 := .affine
  (.ofNats
    0x0b24f2743f5b4f3ebe36db6f5754c42ac3011f300c87c56763b77f73e61f12ad8a526923a9911042dbcbea62730f8115
    0x11758e4d4f5c27be84b2bb30621f428b50d8f868fb330a6d6da699471422eb853386adb788b9c89a6371df5507222d37)
  (.ofNats
    0x00d550aa35da7236ce65745ca7170a5af98d0eef38066330d6d9cf79888bd3070d5b384d4a4ad386634bc711b481f248
    0x15a4222f30c5c1a4753d7dd1a2cc443bab3d0e220bb522564614036013b10b3598c6cc7c5afc629e5133d93af89f8fad)

theorem points_isOn : pointOfSmallOrder.isOn G2.constantTerm = true ∧
    pointOfMixedOrder.isOn G2.constantTerm = true ∧ pointOfLargeOrder.isOn G2.constantTerm = true := by
  decide

/-- What is computed of the four points, all at once. -/
theorem rawMultiples_of_points :
    (vanishes (13 * 23) pointOfSmallOrder = true ∧ vanishes 23 pointOfSmallOrder = false ∧
      vanishes 13 pointOfSmallOrder = false) ∧
    (vanishes (13 * 23 * 2713 * 11953 * 262069) pointOfMixedOrder = true ∧
      vanishes (13 * 23 * 11953 * 262069) pointOfMixedOrder = false ∧
      vanishes (13 * 23 * 2713 * 262069) pointOfMixedOrder = false ∧
      vanishes (13 * 23 * 2713 * 11953) pointOfMixedOrder = false) ∧
    ((∀ i < 13, (rawMultiple (i * 23) pointOfSmallOrder).sameAbscissa
        (rawMultiple (23 * 2713 * 11953 * 262069) pointOfMixedOrder) = false) ∧
      ∀ i < 23, (rawMultiple (i * 13) pointOfSmallOrder).sameAbscissa
        (rawMultiple (13 * 2713 * 11953 * 262069) pointOfMixedOrder) = false) ∧
    vanishes cofactorPrime pointOfLargeOrder = true ∧ vanishes groupOrder Signature.generator.point = true := by
  decide +kernel

theorem inGroup_generator : InGroup G2.constantTerm Signature.generator.point :=
  ⟨Signature.onCurve_generator, inSubgroup_iff.2 (multiple_of_vanishes rawMultiples_of_points.2.2.2.2)⟩

instance : Finite (curve G2.constantTerm).Point :=
  finite_points lawful_g2Coordinate

theorem dvd_card_of_mixed {ℓ k : ℕ} (hℓ : ℓ.Prime) (hk : ℓ * k = 13 * 23 * 2713 * 11953 * 262069)
    (hne : vanishes k pointOfMixedOrder = false) : ℓ ∣ Nat.card (curve G2.constantTerm).Point := by
  refine dvd_card_points (k := k) G2.discriminant_ne_zero hℓ points_isOn.2.1 ?_ (multiple_of_not_vanishes hne)
  rw [hk]
  exact multiple_of_vanishes rawMultiples_of_points.2.1.1

theorem mul_self_dvd_card_of_mixed {ℓ k m : ℕ} (hℓ : ℓ.Prime) (hk : ℓ * k = 13 * 23)
    (hm : ℓ * m = 13 * 23 * 2713 * 11953 * 262069) (hne : vanishes k pointOfSmallOrder = false)
    (hindependent : ∀ i < ℓ, (rawMultiple (i * k) pointOfSmallOrder).sameAbscissa
      (rawMultiple m pointOfMixedOrder) = false) : ℓ * ℓ ∣ Nat.card (curve G2.constantTerm).Point := by
  refine mul_self_dvd_card_points (k := k) (m := m) G2.discriminant_ne_zero hℓ points_isOn.1 points_isOn.2.1 ?_
    (multiple_of_not_vanishes hne) ?_ fun i hi => multiple_ne_multiple_of_raw (hindependent i hi)
  · rw [hk]
    exact multiple_of_vanishes rawMultiples_of_points.1.1
  · rw [hm]
    exact multiple_of_vanishes rawMultiples_of_points.2.1.1

theorem curveOrder_dvd_card : curveOrder ∣ Nat.card (curve G2.constantTerm).Point := by
  obtain ⟨⟨-, hne₁₃, hne₂₃⟩, ⟨-, hne₁, hne₂, hne₃⟩, ⟨hind₁₃, hind₂₃⟩, hlarge, hgroup⟩ := rawMultiples_of_points
  have hthirteen : 13 * 13 ∣ Nat.card (curve G2.constantTerm).Point :=
    mul_self_dvd_card_of_mixed (by norm_num) (by norm_num) (by norm_num) hne₁₃ hind₁₃
  have htwentythree : 23 * 23 ∣ Nat.card (curve G2.constantTerm).Point :=
    mul_self_dvd_card_of_mixed (by norm_num) (by norm_num) (by norm_num) hne₂₃ hind₂₃
  have h₁ : 2713 ∣ Nat.card (curve G2.constantTerm).Point := dvd_card_of_mixed (by norm_num) (by norm_num) hne₁
  have h₂ : 11953 ∣ Nat.card (curve G2.constantTerm).Point := dvd_card_of_mixed (by norm_num) (by norm_num) hne₂
  have h₃ : 262069 ∣ Nat.card (curve G2.constantTerm).Point := dvd_card_of_mixed (by norm_num) (by norm_num) hne₃
  have h₄ : cofactorPrime ∣ Nat.card (curve G2.constantTerm).Point :=
    dvd_card_points_of_ne G2.discriminant_ne_zero prime_cofactorPrime points_isOn.2.2 (multiple_of_vanishes hlarge)
      nofun
  have h₅ : groupOrder ∣ Nat.card (curve G2.constantTerm).Point :=
    dvd_card_points_of_ne G2.discriminant_ne_zero prime_groupOrder Signature.onCurve_generator
      (multiple_of_vanishes hgroup) nofun
  unfold curveOrder
  refine Nat.Coprime.mul_dvd_of_dvd_of_dvd (by norm_num [cofactorPrime, groupOrder]) ?_ h₅
  refine Nat.Coprime.mul_dvd_of_dvd_of_dvd (by norm_num [cofactorPrime]) ?_ h₄
  refine Nat.Coprime.mul_dvd_of_dvd_of_dvd (by norm_num) ?_ h₃
  refine Nat.Coprime.mul_dvd_of_dvd_of_dvd (by norm_num) ?_ h₂
  refine Nat.Coprime.mul_dvd_of_dvd_of_dvd (by norm_num) ?_ h₁
  exact Nat.Coprime.mul_dvd_of_dvd_of_dvd (by norm_num) hthirteen htwentythree

theorem card_points_lt : Nat.card (curve G2.constantTerm).Point < 2 * curveOrder := by
  have hle : Nat.card (curve G2.constantTerm).Point ≤ 2 * Nat.card Fp2 + 1 :=
    card_points_le (c := g2Coordinate) lawful_g2Coordinate
  have hroom : 2 * (fieldModulus * fieldModulus) + 1 < 2 * curveOrder := by decide
  rw [Fp2.card] at hle
  exact lt_of_le_of_lt hle hroom

theorem card_points_eq : Nat.card (curve G2.constantTerm).Point = curveOrder :=
  Nat.eq_of_dvd_of_lt_two_mul Nat.card_pos.ne' curveOrder_dvd_card card_points_lt

/-- The effective cofactor moves every point of the curve into the group. -/
theorem inGroup_multiple_effectiveCofactor {p : G2} (hp : p.isOn G2.constantTerm = true) :
    InGroup G2.constantTerm (p.multiple effectiveCofactor) := by
  obtain ⟨P, rfl⟩ := (exists_coordinates_iff G2.discriminant_ne_zero).2 hp
  rw [multiple_coordinates]
  refine (inGroup_iff G2.discriminant_ne_zero).2 ⟨_, ?_, rfl⟩
  rw [← mul_smul, mul_comm, effectiveCofactor_mul_groupOrder, mul_smul, ← card_points_eq, card_nsmul_eq_zero', smul_zero]

end Quorate.Bls12381
