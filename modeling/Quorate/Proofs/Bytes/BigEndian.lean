import Mathlib
import Quorate.Bytes.Basic

/-!
# Numbers in bytes, most significant first

What a number's low digits write is the number modulo the power of 256 that they hold, so a width that holds
the number determines it.
-/

namespace Quorate.Bytes

theorem foldl_digits (n : ℕ) (bs : Bytes) :
    bs.foldl (fun n b => n * 256 + b.toNat) n = n * 256 ^ bs.length + toNatBE bs := by
  induction bs generalizing n with
  | nil => simp [toNatBE]
  | cons b bs ih =>
    have hrest : toNatBE (b :: bs) = b.toNat * 256 ^ bs.length + toNatBE bs := by
      simp [toNatBE, ih b.toNat]
    rw [List.foldl_cons, ih, hrest, List.length_cons]
    ring

theorem toNatBE_cons (b : UInt8) (bs : Bytes) :
    toNatBE (b :: bs) = b.toNat * 256 ^ bs.length + toNatBE bs := by
  have h := foldl_digits b.toNat bs
  simpa [toNatBE] using h

theorem toNat_digit (width n : ℕ) : (UInt8.ofNat (n >>> (8 * width))).toNat = n / 256 ^ width % 256 := by
  have hpow : 2 ^ (8 * width) = 256 ^ width := by rw [Nat.pow_mul]
  rw [UInt8.toNat_ofNat', Nat.shiftRight_eq_div_pow, hpow]

/-- The digits that are written are those of the number, without the digits above the width. -/
theorem toNatBE_ofNatBE (width n : ℕ) : toNatBE (ofNatBE width n) = n % 256 ^ width := by
  induction width with
  | zero => simp [ofNatBE, toNatBE, Nat.mod_one]
  | succ width ih =>
    rw [ofNatBE, toNatBE_cons, ih, toNat_digit, length_ofNatBE, pow_succ, Nat.mod_mul]
    ring

theorem toNatBE_ofNatBE_of_lt {width n : ℕ} (h : n < 256 ^ width) : toNatBE (ofNatBE width n) = n := by
  rw [toNatBE_ofNatBE, Nat.mod_eq_of_lt h]

theorem ofNatBE_injective_of_lt {width m n : ℕ} (hm : m < 256 ^ width) (hn : n < 256 ^ width)
    (h : ofNatBE width m = ofNatBE width n) : m = n := by
  rw [← toNatBE_ofNatBE_of_lt hm, h, toNatBE_ofNatBE_of_lt hn]

/-- Words are told apart by their bytes in any width that holds them. -/
theorem eq_of_ofNatBE_word {width : ℕ} (hwidth : 8 ≤ width) {m n : UInt64}
    (h : ofNatBE width m.toNat = ofNatBE width n.toNat) : m = n := by
  have hword : 2 ^ 64 ≤ 256 ^ width := (Nat.pow_le_pow_right (by decide) hwidth : 256 ^ 8 ≤ 256 ^ width)
  exact UInt64.toNat_inj.1 (ofNatBE_injective_of_lt (m.toNat_lt.trans_le hword) (n.toNat_lt.trans_le hword) h)

theorem toNatBE_lt (bs : Bytes) : toNatBE bs < 256 ^ bs.length := by
  induction bs with
  | nil => simp [toNatBE]
  | cons b bs ih =>
    have hb : (b.toNat + 1) * 256 ^ bs.length ≤ 256 * 256 ^ bs.length := Nat.mul_le_mul_right _ b.toNat_lt
    rw [toNatBE_cons, List.length_cons, pow_succ, Nat.mul_comm (256 ^ bs.length)]
    linarith

/-- Byte strings of one length stand in the order of their numbers. -/
theorem lt_iff_toNatBE_lt {as bs : Bytes} (hlength : as.length = bs.length) :
    as < bs ↔ toNatBE as < toNatBE bs := by
  induction as generalizing bs with
  | nil =>
    obtain rfl := List.eq_nil_of_length_eq_zero hlength.symm
    exact iff_of_false (List.lt_irrefl _) (Nat.lt_irrefl _)
  | cons a as ih =>
    cases bs with
    | nil => cases hlength
    | cons b bs =>
      have hrest : as.length = bs.length := Nat.succ.inj hlength
      have has := toNatBE_lt as
      have hbs := toNatBE_lt bs
      rw [hrest] at has
      rw [List.cons_lt_cons_iff, ih hrest, toNatBE_cons, toNatBE_cons, hrest, UInt8.lt_iff_toNat_lt, ← UInt8.toNat_inj]
      -- the first digit decides, as the others together stay below its place
      constructor
      · rintro (hfirst | ⟨hfirst, hlt⟩)
        · have hplace := Nat.mul_le_mul_right (256 ^ bs.length) hfirst
          linarith
        · rw [hfirst]
          omega
      · intro hlt
        rcases Nat.lt_trichotomy a.toNat b.toNat with hfirst | hfirst | hfirst
        · exact Or.inl hfirst
        · rw [hfirst] at hlt
          exact Or.inr ⟨hfirst, by omega⟩
        · have hplace := Nat.mul_le_mul_right (256 ^ bs.length) hfirst
          linarith

theorem eq_of_toNatBE_eq {as bs : Bytes} (hlength : as.length = bs.length) (h : toNatBE as = toNatBE bs) :
    as = bs := by
  apply List.le_antisymm
  · rw [← List.not_lt, lt_iff_toNatBE_lt hlength.symm, h]
    exact Nat.lt_irrefl _
  · rw [← List.not_lt, lt_iff_toNatBE_lt hlength, h]
    exact Nat.lt_irrefl _

theorem ofNatBE_toNatBE (bs : Bytes) : ofNatBE bs.length (toNatBE bs) = bs :=
  eq_of_toNatBE_eq (length_ofNatBE _ _) (toNatBE_ofNatBE_of_lt (toNatBE_lt bs))

theorem toNatBE_zeros_append (k : ℕ) (bs : Bytes) : toNatBE (zeros k ++ bs) = toNatBE bs := by
  induction k with
  | zero => rfl
  | succ k ih =>
    rw [zeros, List.replicate_succ, List.cons_append, toNatBE_cons, UInt8.toNat_zero, Nat.zero_mul, Nat.zero_add]
    exact ih

theorem zeros_append_ofNatBE {width n : ℕ} (k : ℕ) (h : n < 256 ^ width) :
    zeros k ++ ofNatBE width n = ofNatBE (k + width) n := by
  apply eq_of_toNatBE_eq
  · simp
  · have hwide : 256 ^ width ≤ 256 ^ (k + width) := Nat.pow_le_pow_right (by decide) (Nat.le_add_left _ _)
    rw [toNatBE_zeros_append, toNatBE_ofNatBE_of_lt h, toNatBE_ofNatBE_of_lt (h.trans_le hwide)]

/-- The shortest bytes of a number are enough for it. -/
theorem lt_length_shortestBE (n : ℕ) : n < 256 ^ (shortestBE n).length := by
  have hbits : n < 2 ^ (n.log2 + 1) := Nat.lt_log2_self
  have hbytes : 2 ^ (n.log2 + 1) ≤ 2 ^ (8 * (n.log2 / 8 + 1)) := Nat.pow_le_pow_right (by decide) (by omega)
  rw [shortestBE, length_ofNatBE]
  exact (hbits.trans_le hbytes).trans_eq (Nat.pow_mul 2 8 _)

/-- No width that holds a number is below the length of its shortest bytes. -/
theorem length_shortestBE_le {width n : ℕ} (hpos : 0 < width) (h : n < 256 ^ width) :
    (shortestBE n).length ≤ width := by
  rw [shortestBE, length_ofNatBE]
  by_cases hn : n = 0
  · rw [hn, Nat.log2_zero]
    omega
  · have hpow : 256 ^ width = 2 ^ (8 * width) := (Nat.pow_mul 2 8 width).symm
    have hlog : n.log2 < 8 * width := (Nat.log2_lt hn).2 (hpow ▸ h)
    omega

/-- Filled up with zeros, the shortest bytes are those of the width. -/
theorem zeros_append_shortestBE {width n : ℕ} (hpos : 0 < width) (h : n < 256 ^ width) :
    zeros (width - (shortestBE n).length) ++ shortestBE n = ofNatBE width n := by
  have hle := length_shortestBE_le hpos h
  have hlt := lt_length_shortestBE n
  rw [shortestBE, length_ofNatBE] at *
  rw [zeros_append_ofNatBE _ hlt, Nat.sub_add_cancel hle]

/-- A bound on the number bounds its first digit. -/
theorem exists_first_digit {width n k : ℕ} (h : n < k * 256 ^ width) (hk : k ≤ 256) :
    ∃ b rest, ofNatBE (width + 1) n = b :: rest ∧ b.toNat < k := by
  have hquotient : n / 256 ^ width < k := (Nat.div_lt_iff_lt_mul (by positivity)).2 h
  refine ⟨_, _, rfl, ?_⟩
  rw [toNat_digit, Nat.mod_eq_of_lt (hquotient.trans_le hk)]
  exact hquotient

end Quorate.Bytes
