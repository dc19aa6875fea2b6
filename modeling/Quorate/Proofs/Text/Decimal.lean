import Quorate.Proofs.Text.Blank
import Quorate.VotingPower

/-!
# Decimal text

The digits of a number are decimal digits and write that number. They are not blank and are no underscores, so a
power is read back from its text.
-/

namespace Quorate

namespace Text

variable {n : ℕ} {c : Char}

theorem isDecimalDigit_iff : isDecimalDigit c = true ↔ 48 ≤ c.toNat ∧ c.toNat ≤ 57 := by
  rw [isDecimalDigit, Bool.and_eq_true, decide_eq_true_iff, decide_eq_true_iff, Char.le_def, Char.le_def,
    UInt32.le_iff_toNat_le, UInt32.le_iff_toNat_le]
  rfl

theorem isDecimalDigit_of_mem_toDigits (h : c ∈ Nat.toDigits 10 n) : isDecimalDigit c = true :=
  isDecimalDigit_iff.2 (Char.isDigit_iff_toNat.1 (Nat.isDigit_of_mem_toDigits (by decide) (by decide) h))

theorem isBlank_of_isDecimalDigit (h : isDecimalDigit c = true) : isBlank c = false := by
  have hrange := isDecimalDigit_iff.1 h
  simp only [isBlank, Bool.or_eq_false_iff, Bool.and_eq_false_iff, decide_eq_false_iff_not, beq_eq_false_iff_ne]
  omega

theorem ofDecimal_toDigits (n : ℕ) : ofDecimal (Nat.toDigits 10 n) = n :=
  Nat.ofDigitChars_ten_toDigits

theorem ne_of_isDecimalDigit {d : Char} (hc : isDecimalDigit c = true) (hd : isDecimalDigit d = false) : c ≠ d := by
  rintro rfl
  rw [hc] at hd
  cases hd

theorem head?_toDigits (hn : n ≠ 0) : (Nat.toDigits 10 n).head? ≠ some '0' := by
  induction n using Nat.strong_induction_on with
  | _ n ih =>
    rw [Nat.toDigits_eq_if (by decide)]
    split
    · rw [List.head?_cons, Ne, Option.some.injEq, Nat.digitChar_eq_zero]
      exact hn
    · have hrest := ih (n / 10) (by omega) (by omega)
      rwa [List.head?_append_of_ne_nil _ Nat.toDigits_ne_nil]

theorem exists_toDigits_eq_cons (n : ℕ) : ∃ c cs, Nat.toDigits 10 n = c :: cs ∧ isDecimalDigit c = true := by
  obtain ⟨c, cs, hcs⟩ := List.exists_cons_of_ne_nil (Nat.toDigits_ne_nil (b := 10) (n := n))
  refine ⟨c, cs, hcs, isDecimalDigit_of_mem_toDigits (n := n) ?_⟩
  rw [hcs]
  exact List.mem_cons_self

theorem toList_toString_natCast (n : ℕ) : (toString (n : ℤ)).toList = Nat.toDigits 10 n := by
  change (Nat.repr n).toList = _
  rw [Nat.repr_eq_ofList_toDigits, String.toList_ofList]

theorem toList_toString_negSucc (n : ℕ) : (toString (Int.negSucc n)).toList = '-' :: Nat.toDigits 10 (n + 1) := by
  change ("-" ++ Nat.repr (n + 1)).toList = _
  rw [String.toList_append, Nat.repr_eq_ofList_toDigits, String.toList_ofList, String.toList_ofList,
    List.singleton_append]

end Text

theorem VotingPower.ofText_text (p : VotingPower) : ofText p.text = .ok p := by
  have htext : p.text.toList = Nat.toDigits 10 p.val := by
    rw [text, Nat.repr_eq_ofList_toDigits, String.toList_ofList]
  have htrim : Text.trim (Nat.toDigits 10 p.val) = Nat.toDigits 10 p.val :=
    Text.trim_eq_self fun c hc => Text.isBlank_of_isDecimalDigit (Text.isDecimalDigit_of_mem_toDigits hc)
  have hfilter : (Nat.toDigits 10 p.val).filter (· ≠ '_') = Nat.toDigits 10 p.val := by
    refine List.filter_eq_self.2 fun c hc => decide_eq_true ?_
    rintro rfl
    exact Nat.underscore_not_in_toDigits hc
  have hempty : (Nat.toDigits 10 p.val).isEmpty = false :=
    List.isEmpty_eq_false_iff.2 Nat.toDigits_ne_nil
  have hdigits : (Nat.toDigits 10 p.val).all Text.isDecimalDigit = true :=
    List.all_eq_true.2 fun _ => Text.isDecimalDigit_of_mem_toDigits
  simp only [ofText, htext, htrim, hfilter, hempty, hdigits, Bool.not_true, Bool.or_self, Bool.false_eq_true,
    if_false, Text.ofDecimal_toDigits]

end Quorate
