import Mathlib

/-!
# Steps that may fail

What success and failure of several steps say about each of them: of two steps one after the other, and of one
step for each element of a list.
-/

namespace Quorate

variable {A B E : Type}

theorem bind_eq_ok {x : Except E A} {f : A → Except E B} {b : B} (h : x >>= f = .ok b) :
    ∃ a, x = .ok a ∧ f a = .ok b := by
  cases x with
  | error e => cases h
  | ok a => exact ⟨a, rfl, h⟩

theorem mapError_eq_ok {E' : Type} {x : Except E A} {f : E → E'} {a : A} (h : x.mapError f = .ok a) :
    x = .ok a := by
  cases x with
  | error e => cases h
  | ok b =>
    cases h
    rfl

theorem forM_eq_ok_iff {f : A → Except E PUnit} {as : List A} : as.forM f = .ok () ↔ ∀ a ∈ as, f a = .ok () := by
  induction as with
  | nil => simp [List.forM, pure, Except.pure]
  | cons a as ih =>
    rw [List.forall_mem_cons, ← ih]
    constructor
    · intro h
      obtain ⟨_, ha, hrest⟩ := bind_eq_ok h
      exact ⟨ha, hrest⟩
    · rintro ⟨ha, hrest⟩
      exact (congrArg (· >>= fun _ => as.forM f) ha).trans hrest

variable {f : A → Except E B} {as : List A} {bs : List B} {e : E}

theorem mapM_cons_of_error {a : A} (h : f a = .error e) : (a :: as).mapM f = .error e := by
  rw [List.mapM_cons, h]
  rfl

theorem mapM_cons_of_ok {a : A} {b : B} (h : f a = .ok b) : (a :: as).mapM f = (as.mapM f).map (b :: ·) := by
  rw [List.mapM_cons, h]
  cases as.mapM f <;> rfl

theorem mapM_eq_ok_iff : as.mapM f = .ok bs ↔ List.Forall₂ (fun a b => f a = .ok b) as bs := by
  induction as generalizing bs with
  | nil => cases bs <;> simp [pure, Except.pure]
  | cons a as ih =>
    cases ha : f a with
    | error e => cases bs <;> simp [mapM_cons_of_error ha, ha]
    | ok b =>
      rw [mapM_cons_of_ok ha]
      cases hrest : as.mapM f with
      | error e =>
        cases bs with
        | nil => simp [Except.map]
        | cons c cs => simp [Except.map, ← ih, hrest]
      | ok rest =>
        cases bs with
        | nil => simp [Except.map]
        | cons c cs => simp [Except.map, ← ih, hrest, ha]

/-- A traversal undoes what was done to each element, if the step does. -/
theorem mapM_map_eq_ok {g : B → Except E A} {f : A → B} (h : ∀ a ∈ as, g (f a) = .ok a) :
    (as.map f).mapM g = .ok as := by
  rw [mapM_eq_ok_iff, List.forall₂_map_left_iff, List.forall₂_same]
  exact h

/-- A traversal fails as its first element that fails does. -/
theorem mapM_eq_error_iff :
    as.mapM f = .error e ↔ ∃ earlier a later, as = earlier ++ a :: later ∧
      (∀ x ∈ earlier, ∃ b, f x = .ok b) ∧ f a = .error e := by
  constructor
  · intro h
    induction as with
    | nil => cases h
    | cons a as ih =>
      cases ha : f a with
      | error cause =>
        rw [mapM_cons_of_error ha] at h
        cases h
        exact ⟨[], a, as, rfl, by simp, ha⟩
      | ok b =>
        rw [mapM_cons_of_ok ha] at h
        cases hrest : as.mapM f with
        | ok rest =>
          rw [hrest] at h
          cases h
        | error cause =>
          rw [hrest] at h
          cases h
          obtain ⟨earlier, x, later, rfl, hearlier, hx⟩ := ih hrest
          refine ⟨a :: earlier, x, later, rfl, ?_, hx⟩
          intro y hy
          rcases List.mem_cons.1 hy with rfl | hy
          · exact ⟨b, ha⟩
          · exact hearlier y hy
  · rintro ⟨earlier, a, later, rfl, hearlier, ha⟩
    induction earlier with
    | nil => exact mapM_cons_of_error ha
    | cons x earlier ih =>
      obtain ⟨b, hb⟩ := hearlier x List.mem_cons_self
      have hrest := ih fun y hy => hearlier y (List.mem_cons_of_mem x hy)
      rw [List.cons_append, mapM_cons_of_ok hb, hrest]
      rfl

end Quorate
