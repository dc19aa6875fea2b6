import Quorate.Proofs.Text.Decimal

/-!
# Numerals

A numeral is digits with underscores anywhere among them. The number that it writes is the sum of its digits times
their powers of ten. A power is read from just the numerals of at least one digit, between blanks, and is that number.
-/

namespace Quorate

namespace Text

def decimalDigit (d : Fin 10) : Char :=
  Nat.digitChar d

/-- The characters are the digits in their order, with underscores before, between and behind them. -/
inductive Numeral : List Char → List (Fin 10) → Prop
  | nil : Numeral [] []
  | underscore {cs : List Char} {ds : List (Fin 10)} (h : Numeral cs ds) : Numeral ('_' :: cs) ds
  | digit {cs : List Char} {ds : List (Fin 10)} (d : Fin 10) (h : Numeral cs ds) :
    Numeral (decimalDigit d :: cs) (d :: ds)

/-- The number that digits write, the last of them in ones. -/
def numeralValue (ds : List (Fin 10)) : ℕ :=
  Nat.ofDigits 10 (ds.reverse.map Fin.val)

variable {cs : List Char} {ds : List (Fin 10)} {c : Char}

section Digit

theorem exists_decimalDigit (h : isDecimalDigit c = true) : ∃ d, c = decimalDigit d := by
  obtain ⟨hlow, hhigh⟩ := isDecimalDigit_iff.1 h
  have hchar : ∀ d : Fin 10, Char.ofNat (48 + d) = decimalDigit d := by decide
  refine ⟨⟨c.toNat - 48, by omega⟩, ?_⟩
  rw [← hchar, Nat.add_sub_cancel' hlow, Char.ofNat_toNat]

theorem toNat_decimalDigit : ∀ d, (decimalDigit d).toNat - 48 = d := by
  decide

theorem isDecimalDigit_decimalDigit : ∀ d, isDecimalDigit (decimalDigit d) = true := by
  decide

theorem decimalDigit_ne_underscore : ∀ d, decimalDigit d ≠ '_' := by
  decide

end Digit

/-- A numeral is its digits, once its underscores are gone. -/
theorem Numeral.filter_eq (h : Numeral cs ds) : cs.filter (· ≠ '_') = ds.map decimalDigit := by
  induction h with
  | nil => rfl
  | underscore _ ih => exact ih
  | digit d _ ih =>
    rw [List.filter_cons_of_pos (by simpa using decimalDigit_ne_underscore d), ih, List.map_cons]

/-- The characters of a numeral are digits and underscores, and any such characters are a numeral. -/
theorem exists_numeral_iff : (∃ ds, Numeral cs ds) ↔ ∀ c ∈ cs, isDecimalDigit c = true ∨ c = '_' := by
  constructor
  · rintro ⟨ds, h⟩
    induction h with
    | nil => nofun
    | underscore _ ih => exact List.forall_mem_cons.2 ⟨Or.inr rfl, ih⟩
    | digit d _ ih => exact List.forall_mem_cons.2 ⟨Or.inl (isDecimalDigit_decimalDigit d), ih⟩
  · intro h
    induction cs with
    | nil => exact ⟨[], .nil⟩
    | cons c cs ih =>
      obtain ⟨hc, hcs⟩ := List.forall_mem_cons.1 h
      obtain ⟨ds, hds⟩ := ih hcs
      rcases hc with hc | rfl
      · obtain ⟨d, rfl⟩ := exists_decimalDigit hc
        exact ⟨d :: ds, .digit d hds⟩
      · exact ⟨ds, .underscore hds⟩

theorem Numeral.isBlank_eq_false (h : Numeral cs ds) (hc : c ∈ cs) : isBlank c = false := by
  rcases exists_numeral_iff.1 ⟨ds, h⟩ c hc with hdigit | rfl
  · exact isBlank_of_isDecimalDigit hdigit
  · decide

theorem ofDecimal_map_decimalDigit (ds : List (Fin 10)) : ofDecimal (ds.map decimalDigit) = numeralValue ds := by
  induction ds using List.reverseRecOn with
  | nil => rfl
  | append_singleton ds d ih =>
    have hfold : ofDecimal ((ds ++ [d]).map decimalDigit) = 10 * ofDecimal (ds.map decimalDigit) + d := by
      simp [ofDecimal, toNat_decimalDigit]
    have hvalue : numeralValue (ds ++ [d]) = d + 10 * numeralValue ds := by
      simp [numeralValue, Nat.ofDigits_cons]
    rw [hfold, hvalue, ih, Nat.add_comm]

end Text

namespace VotingPower

open Text

/-- The text writes the number: as a numeral of at least one digit, between blanks. -/
def Written (s : String) (n : ℕ) : Prop :=
  ∃ (lead numeral trail : List Char) (ds : List (Fin 10)), s.toList = lead ++ numeral ++ trail ∧
    (∀ c ∈ lead ++ trail, isBlank c = true) ∧ Numeral numeral ds ∧ ds ≠ [] ∧ n = numeralValue ds

variable {s : String} {p : VotingPower} {n : ℕ} {ds : List (Fin 10)}

theorem ofText_of_numeral (h : Numeral (trim s.toList) ds) (hne : ds ≠ []) : ofText s = .ok ⟨numeralValue ds⟩ := by
  have hempty : (ds.map decimalDigit).isEmpty = false := by
    simpa using hne
  have hdigits : (ds.map decimalDigit).all isDecimalDigit = true := by
    simp [isDecimalDigit_decimalDigit]
  simp only [ofText, h.filter_eq, hempty, hdigits, Bool.not_true, Bool.or_self, Bool.false_eq_true, if_false,
    ofDecimal_map_decimalDigit]

/-- Either the text between the blanks is a numeral of at least one digit, or the whole text is the error. -/
theorem ofText_cases (s : String) :
    (∃ ds, Numeral (trim s.toList) ds ∧ ds ≠ []) ∨ ofText s = .error ⟨s⟩ := by
  by_cases h : ∀ c ∈ trim s.toList, isDecimalDigit c = true ∨ c = '_'
  · obtain ⟨ds, hds⟩ := exists_numeral_iff.2 h
    by_cases hne : ds = []
    · subst hne
      right
      simp only [ofText, hds.filter_eq]
      rfl
    · exact Or.inl ⟨ds, hds, hne⟩
  · right
    push Not at h
    obtain ⟨c, hc, hdigit, hunderscore⟩ := h
    have hother : ((trim s.toList).filter (· ≠ '_')).all isDecimalDigit = false :=
      List.all_eq_false.2 ⟨c, List.mem_filter.2 ⟨hc, decide_eq_true hunderscore⟩, hdigit⟩
    simp only [ofText, hother, Bool.not_false, Bool.or_true, if_true]

theorem written_of_numeral (h : Numeral (trim s.toList) ds) (hne : ds ≠ []) : Written s (numeralValue ds) := by
  obtain ⟨lead, trail, hsplit, hblank⟩ := exists_trim s.toList
  exact ⟨lead, trim s.toList, trail, ds, hsplit, hblank, h, hne, rfl⟩

theorem ofText_of_written (h : Written s n) : ofText s = .ok ⟨n⟩ := by
  obtain ⟨lead, numeral, trail, ds, hsplit, hblank, hds, hne, rfl⟩ := h
  have htrim : trim s.toList = numeral := by
    rw [hsplit]
    exact trim_append hblank fun c => hds.isBlank_eq_false
  exact ofText_of_numeral (htrim ▸ hds) hne

theorem ofText_eq_ok_iff : ofText s = .ok p ↔ Written s p.val := by
  constructor
  · intro h
    rcases ofText_cases s with ⟨ds, hds, hne⟩ | herror
    · obtain rfl := Except.ok.inj ((ofText_of_numeral hds hne).symm.trans h)
      exact written_of_numeral hds hne
    · cases herror.symm.trans h
  · exact ofText_of_written

theorem ofText_of_not_written (h : ∀ n, ¬ Written s n) : ofText s = .error ⟨s⟩ := by
  rcases ofText_cases s with ⟨ds, hds, hne⟩ | herror
  · exact absurd (written_of_numeral hds hne) (h _)
  · exact herror

-- A blank behind an underscore is not at the end of the text.
example : ofText "_ 7" = .error ⟨"_ 7"⟩ := by cbv

end VotingPower

end Quorate
