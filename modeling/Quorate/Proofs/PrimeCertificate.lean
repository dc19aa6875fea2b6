import Mathlib
import Quorate.Proofs.Curve.Residue

/-!
# Primes by certificates

Pocklington's criterion: if `q` is a prime factor of `n - 1`, `2 ^ (n - 1)` is one modulo `n`, and
`2 ^ ((n - 1) / q) - 1` has no factor in common with `n`, then every prime factor of `n` is one more than a multiple
of `q`. If the product of such `q` is above the square root of `n`, there is no room for two prime factors. A
certificate lists numbers, each with factors that were shown to be primes before it.
-/

namespace Quorate

def powMod (n a e : ℕ) : ℕ :=
  (binaryDigits e).foldl (fun acc digit => if digit then acc * acc * a % n else acc * acc % n) 1

theorem cast_powMod (n a e : ℕ) : (powMod n a e : ZMod n) = (a : ZMod n) ^ e := by
  have hone : ((1 : ℕ) : ZMod n) = (a : ZMod n) ^ 0 := by
    rw [Nat.cast_one, pow_zero]
  refine foldl_binaryDigits (R := fun e (acc : ℕ) => (acc : ZMod n) = (a : ZMod n) ^ e) ?_ hone e
  intro e acc digit hacc
  cases digit
  · simp [hacc, two_mul, pow_add]
  · simp [hacc, two_mul, pow_add, pow_succ]

/-- Whether all prime factors of `n` are shown to be one more than a multiple of the prime `q`. -/
def restricts (q n : ℕ) : Bool :=
  let t := powMod n 2 ((n - 1) / q)
  powMod n t q == 1 && Nat.gcd (t - 1) n == 1

theorem dvd_pred_of_restricts {q n r : ℕ} (hq : q.Prime) (h : restricts q n = true) (hr : r.Prime) (hrn : r ∣ n) :
    q ∣ r - 1 := by
  have : Fact q.Prime := ⟨hq⟩
  have : Fact r.Prime := ⟨hr⟩
  simp only [restricts, Bool.and_eq_true, beq_iff_eq] at h
  obtain ⟨hpow, hgcd⟩ := h
  set t := powMod n 2 ((n - 1) / q)
  -- Modulo `r` the number `t` has order exactly `q`, and the order of an element divides `r - 1`.
  have hroot : (t : ZMod r) ^ q = 1 := by
    have himage := congrArg (ZMod.castHom hrn (ZMod r)) ((cast_powMod n t q).symm.trans (congrArg Nat.cast hpow))
    rwa [map_pow, map_natCast, Nat.cast_one, map_one] at himage
  have hne_zero : (t : ZMod r) ≠ 0 := by
    intro hzero
    rw [hzero, zero_pow hq.ne_zero] at hroot
    exact zero_ne_one hroot
  have hpos : 1 ≤ t := by
    by_contra hlt
    rw [Nat.lt_one_iff.1 (not_le.1 hlt), Nat.cast_zero] at hne_zero
    exact hne_zero rfl
  have hne_one : (t : ZMod r) ≠ 1 := by
    intro hone
    have hdvd : r ∣ t - 1 := by
      rw [← ZMod.natCast_eq_zero_iff, Nat.cast_sub hpos, hone, Nat.cast_one, sub_self]
    exact hr.one_lt.ne' (Nat.dvd_one.1 (hgcd ▸ Nat.dvd_gcd hdvd hrn))
  rw [← orderOf_eq_prime hroot hne_one]
  exact ZMod.orderOf_dvd_card_sub_one hne_zero

theorem prime_of_dvd_pred {n k : ℕ} (hn : 1 < n) (hlt : n < k * k) (hk : ∀ r, r.Prime → r ∣ n → k ∣ r - 1) :
    n.Prime := by
  by_contra hcomposite
  have hr := Nat.minFac_prime hn.ne'
  have hle : n.minFac * n.minFac ≤ n := by
    rw [← sq]
    exact Nat.minFac_sq_le_self (by omega) hcomposite
  have hdvd := hk _ hr n.minFac_dvd
  have hpos : 0 < n.minFac - 1 := by
    have := hr.two_le
    omega
  have hbound : k < n.minFac := by
    have := Nat.le_of_dvd hpos hdvd
    omega
  have hsq := Nat.mul_lt_mul'' hbound hbound
  omega

/-- A number and some prime factors of its predecessor. -/
structure PrimeStep where
  number : ℕ
  factors : List ℕ

/-- Whether the number is a prime because its factors are. -/
def PrimeStep.holds (s : PrimeStep) : Bool :=
  s.factors.all (fun q => restricts q s.number) && decide s.factors.Nodup && decide (1 < s.number) &&
    decide (s.number < s.factors.prod * s.factors.prod)

theorem PrimeStep.prime {s : PrimeStep} (hfactors : ∀ q ∈ s.factors, q.Prime) (h : s.holds = true) :
    s.number.Prime := by
  simp only [holds, Bool.and_eq_true, List.all_eq_true, decide_eq_true_eq] at h
  obtain ⟨⟨⟨hrestricts, hnodup⟩, hone⟩, hlt⟩ := h
  refine prime_of_dvd_pred hone hlt fun r hr hrn => ?_
  have hprod : ∏ q ∈ s.factors.toFinset, q = s.factors.prod := by
    rw [List.prod_toFinset _ hnodup, List.map_id']
  rw [← hprod]
  refine Finset.prod_primes_dvd _ (fun q hq => ?_) fun q hq => ?_
  · exact (hfactors q (List.mem_toFinset.1 hq)).prime
  · have hmem := List.mem_toFinset.1 hq
    exact dvd_pred_of_restricts (hfactors q hmem) (hrestricts q hmem) hr hrn

/-- Whether every step holds, with factors among the primes found before it. -/
def certifies : (found : List ℕ) → List PrimeStep → Bool
  | _, [] => true
  | found, s :: steps => s.factors.all (· ∈ found) && s.holds && certifies (s.number :: found) steps

theorem prime_of_certifies {found : List ℕ} {steps : List PrimeStep} {n : ℕ} (hfound : ∀ q ∈ found, q.Prime)
    (h : certifies found steps = true) (hn : n ∈ steps.map PrimeStep.number) : n.Prime := by
  induction steps generalizing found with
  | nil => cases hn
  | cons first steps ih =>
    simp only [certifies, Bool.and_eq_true, List.all_eq_true, decide_eq_true_eq] at h
    obtain ⟨⟨hfactors, hholds⟩, hrest⟩ := h
    have hfirst := PrimeStep.prime (fun q hq => hfound q (hfactors q hq)) hholds
    rcases List.mem_cons.1 hn with rfl | hn
    · exact hfirst
    · exact ih (List.forall_mem_cons.2 ⟨hfirst, hfound⟩) hrest hn

end Quorate
