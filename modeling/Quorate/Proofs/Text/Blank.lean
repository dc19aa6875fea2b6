import Mathlib
import Quorate.Text.Blank

/-!
# Blanks at both ends

Trimming cuts a text into blanks, what is left, and blanks. Around a text without blanks it removes just the
blanks.
-/

namespace Quorate.Text

theorem exists_trim (cs : List Char) :
    ∃ lead trail, cs = lead ++ trim cs ++ trail ∧ ∀ c ∈ lead ++ trail, isBlank c = true := by
  refine ⟨cs.takeWhile isBlank, (cs.dropWhile isBlank).rtakeWhile isBlank, ?_, ?_⟩
  · have htrim : trim cs = (cs.dropWhile isBlank).rdropWhile isBlank := rfl
    rw [htrim, List.append_assoc, List.rdropWhile_append_rtakeWhile, List.takeWhile_append_dropWhile]
  · intro c hc
    rcases List.mem_append.1 hc with hc | hc
    · exact List.mem_takeWhile_imp hc
    · exact List.mem_rtakeWhile_imp hc

theorem trim_append {lead core trail : List Char} (hblank : ∀ c ∈ lead ++ trail, isBlank c = true)
    (hcore : ∀ c ∈ core, isBlank c = false) : trim (lead ++ core ++ trail) = core := by
  obtain ⟨hlead, htrail⟩ := List.forall_mem_append.1 hblank
  have hdrop : ∀ ds : List Char, (∀ c ∈ ds, isBlank c = false) → ds.dropWhile isBlank = ds := by
    intro ds hds
    cases ds with
    | nil => rfl
    | cons d ds => simp [hds d List.mem_cons_self]
  rw [trim, List.append_assoc, List.dropWhile_append_of_pos hlead]
  cases core with
  | nil => simp [List.dropWhile_eq_nil_iff.2 htrail]
  | cons c core =>
    have hc : isBlank c = false := hcore c List.mem_cons_self
    rw [List.cons_append, List.dropWhile_cons_of_neg (by simp [hc]), ← List.cons_append, List.reverse_append,
      List.dropWhile_append_of_pos (fun d hd => htrail d (List.mem_reverse.1 hd)),
      hdrop _ (fun d hd => hcore d (List.mem_reverse.1 hd)), List.reverse_reverse]

theorem trim_eq_self {cs : List Char} (h : ∀ c ∈ cs, isBlank c = false) : trim cs = cs := by
  have hnone : ∀ c ∈ ([] ++ [] : List Char), isBlank c = true := nofun
  simpa using trim_append hnone h

end Quorate.Text
