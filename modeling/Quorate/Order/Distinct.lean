/-!
# Lists without repeats

The first element of a list that stands in it before, if there is one.
-/

namespace Quorate

variable {A : Type} [DecidableEq A]

/-- The first element that is in `seen` or repeats an earlier one. -/
def firstRepeatedAfter (seen : List A) : List A → Option A
  | [] => none
  | a :: rest => if a ∈ seen then some a else firstRepeatedAfter (a :: seen) rest

def firstRepeated (as : List A) : Option A :=
  firstRepeatedAfter [] as

theorem firstRepeatedAfter_eq_none_iff {seen as : List A} :
    firstRepeatedAfter seen as = none ↔ as.Nodup ∧ ∀ a ∈ as, a ∉ seen := by
  induction as generalizing seen with
  | nil => simp [firstRepeatedAfter]
  | cons a rest ih =>
    by_cases h : a ∈ seen
    · simp [firstRepeatedAfter, h]
    · simp only [firstRepeatedAfter, if_neg h, ih, List.nodup_cons, List.mem_cons, not_or]
      constructor
      · rintro ⟨hn, hs⟩
        refine ⟨⟨fun hm => (hs a hm).1 rfl, hn⟩, ?_⟩
        rintro b (rfl | hb)
        · exact h
        · exact (hs b hb).2
      · rintro ⟨⟨ha, hn⟩, hs⟩
        exact ⟨hn, fun b hb => ⟨fun e => ha (e ▸ hb), hs b (.inr hb)⟩⟩

theorem firstRepeated_eq_none_iff {as : List A} : firstRepeated as = none ↔ as.Nodup := by
  simp [firstRepeated, firstRepeatedAfter_eq_none_iff]

/-- The element stands in the list before, and nothing up to there stands twice. -/
def FirstRepeat (as : List A) (a : A) : Prop :=
  ∃ earlier later, as = earlier ++ a :: later ∧ a ∈ earlier ∧ earlier.Nodup

theorem firstRepeatedAfter_append {seen earlier rest : List A} (hdistinct : earlier.Nodup)
    (hseen : ∀ b ∈ earlier, b ∉ seen) :
    firstRepeatedAfter seen (earlier ++ rest) = firstRepeatedAfter (earlier.reverse ++ seen) rest := by
  induction earlier generalizing seen with
  | nil => rfl
  | cons b earlier ih =>
    rw [List.nodup_cons] at hdistinct
    have hb : b ∉ seen := hseen b List.mem_cons_self
    have hrest : ∀ c ∈ earlier, c ∉ b :: seen := by
      intro c hc hs
      rcases List.mem_cons.1 hs with rfl | hs
      · exact hdistinct.1 hc
      · exact hseen c (List.mem_cons_of_mem _ hc) hs
    rw [List.cons_append, firstRepeatedAfter, if_neg hb, ih hdistinct.2 hrest, List.reverse_cons,
      List.append_assoc, List.singleton_append]

theorem exists_of_firstRepeatedAfter_eq_some {seen as : List A} {a : A}
    (h : firstRepeatedAfter seen as = some a) :
    ∃ earlier later, as = earlier ++ a :: later ∧ (a ∈ earlier ∨ a ∈ seen) ∧ earlier.Nodup ∧
      ∀ b ∈ earlier, b ∉ seen := by
  induction as generalizing seen with
  | nil => cases h
  | cons b rest ih =>
    unfold firstRepeatedAfter at h
    split at h
    · rename_i hb
      cases h
      exact ⟨[], rest, rfl, .inr hb, .nil, by simp⟩
    · rename_i hb
      obtain ⟨earlier, later, rfl, hrepeat, hdistinct, hseen⟩ := ih h
      refine ⟨b :: earlier, later, rfl, ?_, ?_, ?_⟩
      · rcases hrepeat with ha | ha
        · exact .inl (List.mem_cons_of_mem _ ha)
        · rcases List.mem_cons.1 ha with rfl | ha
          · exact .inl List.mem_cons_self
          · exact .inr ha
      · exact List.nodup_cons.2 ⟨fun hm => hseen b hm List.mem_cons_self, hdistinct⟩
      · intro c hc
        rcases List.mem_cons.1 hc with rfl | hc
        · exact hb
        · exact fun hs => hseen c hc (List.mem_cons_of_mem _ hs)

theorem firstRepeated_eq_some_iff {as : List A} {a : A} : firstRepeated as = some a ↔ FirstRepeat as a := by
  constructor
  · intro h
    obtain ⟨earlier, later, rfl, hrepeat, hdistinct, -⟩ := exists_of_firstRepeatedAfter_eq_some h
    exact ⟨earlier, later, rfl, hrepeat.resolve_right List.not_mem_nil, hdistinct⟩
  · rintro ⟨earlier, later, rfl, ha, hdistinct⟩
    rw [firstRepeated, firstRepeatedAfter_append hdistinct (by simp), firstRepeatedAfter,
      if_pos (by simpa using ha)]

theorem FirstRepeat.not_nodup {as : List A} {a : A} (h : FirstRepeat as a) : ¬ as.Nodup := by
  intro hdistinct
  have hnone := firstRepeated_eq_none_iff.2 hdistinct
  rw [firstRepeated_eq_some_iff.2 h] at hnone
  cases hnone

theorem FirstRepeat.unique {as : List A} {a b : A} (h : FirstRepeat as a) (h' : FirstRepeat as b) : a = b :=
  Option.some.inj ((firstRepeated_eq_some_iff.2 h).symm.trans (firstRepeated_eq_some_iff.2 h'))

end Quorate
