import Quorate.Json.Reader
import Quorate.Proofs.Text.Decimal

/-!
# Integers in JSON

The decimal text of an integer is read back as this integer if it fits into 64 bits, with or without sign, and as a
double otherwise. Minus zero is no decimal text of an integer.
-/

namespace Quorate.Json

open Text (isDecimalDigit)

variable {c : Char} {cs : List Char} {fuel : ℕ}

def wholeNumber (negative : Bool) (n : ℕ) : Numeral :=
  ⟨negative, Nat.toDigits 10 n, none, none⟩

theorem digits?_toDigits (n : ℕ) : digits? (Nat.toDigits 10 n) = some (Nat.toDigits 10 n, []) := by
  have hdigits : ∀ c ∈ Nat.toDigits 10 n, isDecimalDigit c = true := fun _ => Text.isDecimalDigit_of_mem_toDigits
  have htake := List.takeWhile_eq_self_iff.2 hdigits
  have hdrop := List.dropWhile_eq_nil_iff.2 hdigits
  have hempty : (Nat.toDigits 10 n).isEmpty = false := List.isEmpty_eq_false_iff.2 Nat.toDigits_ne_nil
  simp only [digits?, htake, hdrop, hempty, Bool.false_eq_true, if_false]

theorem whole?_toDigits (n : ℕ) : whole? (Nat.toDigits 10 n) = some (Nat.toDigits 10 n, []) := by
  by_cases hn : n = 0
  · rw [hn]
    rfl
  · unfold whole?
    split
    · rename_i heq
      exact absurd (congrArg List.head? heq) (Text.head?_toDigits hn)
    · exact digits?_toDigits n

theorem numeral?_toDigits (n : ℕ) :
    numeral? (Nat.toDigits 10 n) = some (wholeNumber false n, []) := by
  have hwhole := whole?_toDigits n
  obtain ⟨c, cs, hcs, hc⟩ := Text.exists_toDigits_eq_cons n
  have hminus : c ≠ '-' := Text.ne_of_isDecimalDigit hc (by decide)
  rw [hcs] at hwhole
  rw [wholeNumber, hcs]
  unfold numeral?
  split
  · rename_i heq
    split at heq
    · rename_i h
      exact absurd (List.cons.inj h).1 hminus
    · obtain ⟨rfl, rfl⟩ := Prod.mk.inj heq
      rw [hwhole]
      rfl

theorem numeral?_minus (n : ℕ) :
    numeral? ('-' :: Nat.toDigits 10 n) = some (wholeNumber true n, []) := by
  unfold numeral?
  simp only [whole?_toDigits]
  rfl

/-- A value that begins like a number is one. -/
theorem value?_eq_numeral? (hc : isDecimalDigit c = true ∨ c = '-') : value? (fuel + 1) (c :: cs) =
    (numeral? (c :: cs)).bind fun (n, rest) => n.toValue?.map (·, rest) := by
  have hother : ∀ d, isDecimalDigit d = false → d ≠ '-' → c ≠ d := by
    rintro d hd hminus rfl
    rcases hc with hc | hc
    · rw [hc] at hd
      cases hd
    · exact hminus hc
  have hskip : skipBlank (c :: cs) = c :: cs := by
    have hblank : isBlank c = false := by
      simp only [isBlank, Bool.or_eq_false_iff, beq_eq_false_iff_ne]
      exact ⟨⟨⟨hother _ (by decide) (by decide), hother _ (by decide) (by decide)⟩,
        hother _ (by decide) (by decide)⟩, hother _ (by decide) (by decide)⟩
    simp [skipBlank, hblank]
  rw [value?, hskip]
  split
  case h_7 =>
    cases numeral? (c :: cs) with
    | none => rfl
    | some found => cases h : found.1.toValue? <;> simp [h]
  -- No value of another kind begins with a digit or a minus.
  all_goals
    rename_i heq
    exact absurd (List.cons.inj heq).1 (hother _ (by decide) (by decide))

/-- Without sign, a whole number below 2 ^ 64 is an integer, and every other number is a double. -/
theorem toValue?_wholeNumber_natural (n : ℕ) : (wholeNumber false n).toValue? =
    if n < UInt64.size then some (.int n) else (wholeNumber false n).toDouble?.map .float := by
  simp [Numeral.toValue?, wholeNumber, Text.ofDecimal_toDigits]

/-- Behind a minus, a whole number other than zero is an integer up to 2 ^ 63, and every other number is a double. -/
theorem toValue?_wholeNumber_negated (n : ℕ) : (wholeNumber true n).toValue? =
    if n ≠ 0 ∧ n ≤ Value.signedBound then some (.int (-n)) else (wholeNumber true n).toDouble?.map .float := by
  simp [Numeral.toValue?, wholeNumber, Text.ofDecimal_toDigits]

/-- A text that is read as a number to its end is this number. -/
theorem read?_of_numeral? {s : String} {n : Numeral} (hs : s.toList = c :: cs)
    (hc : isDecimalDigit c = true ∨ c = '-') (hn : numeral? (c :: cs) = some (n, [])) : read? s = n.toValue? := by
  simp only [read?, hs, value?_eq_numeral? hc, hn, Option.bind_some]
  cases n.toValue? <;> rfl

theorem read?_natCast (n : ℕ) : read? (toString (n : ℤ)) = (wholeNumber false n).toValue? := by
  have hnumeral := numeral?_toDigits n
  obtain ⟨c, cs, hcs, hc⟩ := Text.exists_toDigits_eq_cons n
  rw [hcs] at hnumeral
  exact read?_of_numeral? ((Text.toList_toString_natCast n).trans hcs) (Or.inl hc) hnumeral

theorem read?_negSucc (n : ℕ) : read? (toString (Int.negSucc n)) = (wholeNumber true (n + 1)).toValue? :=
  read?_of_numeral? (Text.toList_toString_negSucc n) (Or.inr rfl) (numeral?_minus (n + 1))

/-- An integer that fits into 64 bits, with or without sign, is read back, and every other one is no integer. -/
theorem read?_toString (z : ℤ) : ∃ d : Option Double, read? (toString z) =
    if -Value.signedBound ≤ z ∧ z < UInt64.size then some (.int z) else d.map .float := by
  cases z with
  | ofNat n =>
    have hrange : (-Value.signedBound ≤ (n : ℤ) ∧ (n : ℤ) < UInt64.size) ↔ n < UInt64.size := by omega
    refine ⟨(wholeNumber false n).toDouble?, ?_⟩
    rw [Int.ofNat_eq_natCast, read?_natCast, toValue?_wholeNumber_natural]
    simp only [hrange]
  | negSucc n =>
    have hrange : (-Value.signedBound ≤ Int.negSucc n ∧ Int.negSucc n < UInt64.size) ↔
        n + 1 ≠ 0 ∧ n + 1 ≤ Value.signedBound := by omega
    refine ⟨(wholeNumber true (n + 1)).toDouble?, ?_⟩
    rw [read?_negSucc, toValue?_wholeNumber_negated]
    simp only [hrange]
    rfl

end Quorate.Json
