import Quorate.Proofs.Toml.Document

/-!
# Integers in TOML

The decimal text of an integer behind a key is read back as this integer if it fits into 64 bits with sign. A document
with any other one is not well formed.
-/

namespace Quorate.Toml

open Text (isDecimalDigit)

variable {room fuel : ℕ} {key : String} {rest : List Char}

theorem fixedNumber?_minus (count : ℕ) (cs : List Char) : fixedNumber? (count + 1) ('-' :: cs) = none := by
  have hminus : isDecimalDigit '-' = false := by decide
  simp [fixedNumber?, hminus]

theorem value?_minus (cs : List Char) : value? room (fuel + 1) ('-' :: cs) = number? ('-' :: cs) := by
  have hdate : startsDate ('-' :: cs) = false := by rw [startsDate, fixedNumber?_minus]; rfl
  have htime : startsTime ('-' :: cs) = false := by rw [startsTime, twoDigits?, fixedNumber?_minus]; rfl
  rw [value?, hdate, htime]
  · rfl
  all_goals
    intro _ heq
    exact absurd (List.cons.inj heq).1 (by decide)

theorem value?_natCast (n : ℕ) : value? room (fuel + 1) ((toString (n : ℤ)).toList ++ '\n' :: rest) =
    (integer? false n).map (·, '\n' :: rest) := by
  rw [Text.toList_toString_natCast, value?_toDigits]

theorem value?_negSucc (n : ℕ) : value? room (fuel + 1) ((toString (Int.negSucc n)).toList ++ '\n' :: rest) =
    (integer? true (n + 1)).map (·, '\n' :: rest) := by
  rw [Text.toList_toString_negSucc, List.cons_append, value?_minus, number?_minus]

/-- Exactly the integers of 64 bits with sign are values, each of them itself. -/
theorem value?_toString (z : ℤ) : value? room (fuel + 1) ((toString z).toList ++ '\n' :: rest) =
    if -Value.signedBound ≤ z ∧ z < Value.signedBound then some (.int z, '\n' :: rest) else none := by
  cases z with
  | ofNat n =>
    have hrange : (-Value.signedBound ≤ (n : ℤ) ∧ (n : ℤ) < Value.signedBound) ↔ n < Value.signedBound := by omega
    rw [Int.ofNat_eq_natCast, value?_natCast]
    simp only [integer?, hrange, Bool.false_eq_true, if_false]
    split_ifs <;> rfl
  | negSucc n =>
    have hrange : (-Value.signedBound ≤ Int.negSucc n ∧ Int.negSucc n < Value.signedBound) ↔
        n + 1 ≤ Value.signedBound := by omega
    rw [value?_negSucc]
    simp only [integer?, hrange, if_true]
    split_ifs <;> rfl

theorem isSpace_head_toString (z : ℤ) : ∃ c cs, (toString z).toList = c :: cs ∧ isSpace c = false := by
  cases z with
  | ofNat n =>
    obtain ⟨c, cs, hcs, hc⟩ := Text.exists_toDigits_eq_cons n
    exact ⟨c, cs, (Text.toList_toString_natCast n).trans hcs, isSpace_of_isDecimalDigit hc⟩
  | negSucc n => exact ⟨'-', _, Text.toList_toString_negSucc n, rfl⟩

/-- A document of one line, with an integer behind the key, has this integer in its field if the integer fits into 64
bits with sign, and is not well formed otherwise. -/
theorem read?_toString (hkey : BareKey key) (z : ℤ) : read? (key ++ " = " ++ toString z ++ "\n") =
    if -Value.signedBound ≤ z ∧ z < Value.signedBound then some (.map [(key, .int z)]) else none := by
  obtain ⟨c, cs, hcs, hc⟩ := isSpace_head_toString z
  have hdocument : (key ++ " = " ++ toString z ++ "\n").toList =
      key.toList ++ ' ' :: '=' :: ' ' :: c :: (cs ++ ['\n']) := by
    rw [String.toList_append, String.toList_append, String.toList_append, hcs]
    simp
  have hvalue (fuel : ℕ) : value? (maxDepth - 1) (fuel + 1) (c :: (cs ++ ['\n'])) =
      if -Value.signedBound ≤ z ∧ z < Value.signedBound then some (.int z, ['\n']) else none := by
    rw [← List.cons_append, ← hcs]
    exact value?_toString z
  obtain ⟨fuel, hfuel⟩ : ∃ fuel, (key.toList ++ ' ' :: '=' :: ' ' :: c :: (cs ++ ['\n'])).length = fuel + 1 :=
    ⟨_, List.length_append.trans (Nat.add_succ _ _)⟩
  simp only [read?, hdocument, dropByteOrderMark_keyed hkey, hfuel, lines?_keyed hkey, line?_keyed hkey hc, hvalue]
  split_ifs
  · rfl
  · rfl

end Quorate.Toml
