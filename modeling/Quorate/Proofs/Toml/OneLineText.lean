import Mathlib
import Quorate.Toml.Text
import Quorate.Toml.Writer

/-!
# Texts on one line

A text in double quotes or in single quotes on one line is read back. An escape is read character by character, and all
readers read it alike.
-/

namespace Quorate.Toml

section Characters

variable {c : Char}

theorem isPrintable_of_not_isControl (h : isControl c = false) (hline : c ≠ '\n') : isPrintable c = true := by
  simp only [isControl, Bool.or_eq_false_iff, Bool.and_eq_false_iff, decide_eq_false_iff_not, beq_eq_false_iff_ne] at h
  simp only [isPrintable, Bool.or_eq_true, Bool.and_eq_true, decide_eq_true_eq, beq_iff_eq]
  by_cases htab : c = '\t'
  · exact .inl htab
  · obtain ⟨(hlow | htab') | hline', hdelete⟩ := h
    · exact .inr ⟨by omega, hdelete⟩
    · exact absurd htab htab'
    · exact absurd hline hline'

/-- The character that the characters behind a backslash write. -/
def escaped? : Escape → List Char → Option Char
  | .begun, c :: cs =>
    match beginEscape c with
    | some (.goOn escape) => escaped? escape cs
    | some (.done d) => if cs = [] then some d else none
    | none => none
  | .numeric left number, c :: cs =>
    match numericStep left number c with
    | some (.goOn escape) => escaped? escape cs
    | some (.done d) => if cs = [] then some d else none
    | none => none
  | _, _ => none

/-- A control character is read from its number. -/
theorem escaped?_controlEscape (h : isControl c = true) :
    escaped? .begun ['u', '0', '0', upperDigit (c.toNat / 16), upperDigit (c.toNat % 16)] = some c := by
  have hcodes : ∀ n < 128,
      escaped? .begun ['u', '0', '0', upperDigit (n / 16), upperDigit (n % 16)] = some (Char.ofNat n) := by
    decide
  have hbound : c.toNat < 128 := by
    simp only [isControl, Bool.or_eq_true, Bool.and_eq_true, decide_eq_true_eq, beq_iff_eq] at h
    omega
  rw [hcodes c.toNat hbound, Char.ofNat_toNat]

/-- Between double quotes a character stands as it is or behind a backslash. -/
theorem escapeChar_cases (c : Char) (hline : c ≠ '\n') :
    (escapeChar c = [c] ∧ isPrintable c = true ∧ c ≠ '\\') ∨
      ∃ cs, escapeChar c = '\\' :: cs ∧ escaped? .begun cs = some c := by
  unfold escapeChar
  split
  · rename_i h
    exact .inr ⟨['b'], rfl, by rw [h]; rfl⟩
  split
  · rename_i h
    exact .inr ⟨['t'], rfl, by rw [h]; rfl⟩
  split
  · rename_i h
    exact .inr ⟨['f'], rfl, by rw [h]; rfl⟩
  split
  · rename_i h
    exact .inr ⟨['r'], rfl, by rw [h]; rfl⟩
  split
  · rename_i h
    exact .inr ⟨['\\'], rfl, by rw [h]; rfl⟩
  · rename_i hbackslash
    split
    · rename_i h
      exact .inr ⟨_, rfl, escaped?_controlEscape h⟩
    · rename_i h
      exact .inl ⟨rfl, isPrintable_of_not_isControl (Bool.eq_false_iff.2 h) hline, hbackslash⟩

end Characters

section OneLine

variable {c d : Char} {cs rest s : List Char} {escape : Escape}

/-- How a reader of text goes on after one character of an escape. -/
def afterStep (tail? : Escape → List Char → Option (List Char × List Char)) :
    EscapeStep → List Char → Option (List Char × List Char)
  | .goOn escape, rest => tail? escape rest
  | .done d, rest => (tail? .none rest).map fun (s, rest) => (d :: s, rest)

/-- A reader that takes an escape character by character reads what it writes. -/
theorem read_escaped {tail? : Escape → List Char → Option (List Char × List Char)}
    (hbegun : ∀ {c step rest}, beginEscape c = some step → tail? .begun (c :: rest) = afterStep tail? step rest)
    (hnumeric : ∀ {left number c step rest}, numericStep left number c = some step →
      tail? (.numeric left number) (c :: rest) = afterStep tail? step rest)
    (h : escaped? escape cs = some d) :
    tail? escape (cs ++ rest) = (tail? .none rest).map fun (s, rest) => (d :: s, rest) := by
  induction cs generalizing escape with
  | nil => cases escape <;> cases h
  | cons c cs ih =>
    have hstep {step : EscapeStep} (h : (match some step with
        | some (.goOn escape) => escaped? escape cs
        | some (.done d) => if cs = [] then some d else none
        | none => none) = some d) :
        afterStep tail? step (cs ++ rest) = (tail? .none rest).map fun (s, rest) => (d :: s, rest) := by
      cases step with
      | goOn escape => exact ih h
      | done d' =>
        simp only [Option.ite_none_right_eq_some, Option.some.injEq] at h
        obtain ⟨rfl, rfl⟩ := h
        rfl
    cases escape with
    | none => cases h
    | folding _ => cases h
    | begun =>
      rw [escaped?] at h
      cases hbegin : beginEscape c with
      | none => simp [hbegin] at h
      | some step =>
        rw [hbegin] at h
        rw [List.cons_append, hbegun hbegin, hstep h]
    | numeric left number =>
      rw [escaped?] at h
      cases hdigit : numericStep left number c with
      | none => simp [hdigit] at h
      | some step =>
        rw [hdigit] at h
        rw [List.cons_append, hnumeric hdigit, hstep h]

theorem basicTail?_escaped (h : escaped? escape cs = some d) :
    basicTail? escape (cs ++ rest) = (basicTail? .none rest).map fun (s, rest) => (d :: s, rest) := by
  refine read_escaped ?_ ?_ h
  · intro c step rest hstep
    rw [basicTail?, hstep]
    cases step <;> rfl
  · intro left number c step rest hstep
    rw [basicTail?, hstep]
    cases step <;> rfl

theorem basicTail?_backslash (h : escaped? .begun cs = some d) :
    basicTail? .none ('\\' :: cs ++ rest) = (basicTail? .none rest).map fun (s, rest) => (d :: s, rest) := by
  rw [← basicTail?_escaped h]
  rfl

theorem basicTail?_escapeBasic (s rest : List Char) :
    basicTail? .none (escapeBasic s ++ '"' :: rest) = some (s, rest) := by
  induction s with
  | nil => rfl
  | cons c s ih =>
    rw [escapeBasic, List.append_assoc]
    by_cases hquote : c = '"'
    · subst hquote
      have hescape : escaped? .begun ['"'] = some '"' := rfl
      rw [if_pos rfl, basicTail?_backslash hescape, ih]
      rfl
    by_cases hline : c = '\n'
    · subst hline
      have hescape : escaped? .begun ['n'] = some '\n' := rfl
      rw [if_neg (by decide), if_pos rfl, basicTail?_backslash hescape, ih]
      rfl
    rw [if_neg hquote, if_neg hline]
    rcases escapeChar_cases c hline with ⟨hplain, hprintable, hbackslash⟩ | ⟨cs, hescape, hread⟩
    · rw [hplain, List.singleton_append, basicTail?, if_neg hquote, if_neg hbackslash, if_pos hprintable, ih]
      rfl
    · rw [hescape, basicTail?_backslash hread, ih]
      rfl

theorem literalTail?_append (hplain : ∀ c ∈ s, isPrintable c = true ∧ c ≠ '\'') :
    literalTail? (s ++ '\'' :: rest) = some (s, rest) := by
  induction s with
  | nil => rfl
  | cons c s ih =>
    obtain ⟨hprintable, hquote⟩ := hplain c List.mem_cons_self
    rw [List.cons_append, literalTail?, if_neg hquote, if_pos hprintable,
      ih fun d hd => hplain d (List.mem_cons_of_mem c hd)]
    rfl

end OneLine

end Quorate.Toml
