import Quorate.Proofs.Traversal
import Quorate.Record.Scalar

/-!
# Records whose fields can all be read

A field that is there and can be read, or is absent and may be, is no failure. If no field is a failure, reading the
record comes to reading its fields, wherever these stand.
-/

namespace Quorate

variable {A V : Type} {name : String}

theorem mem_of_lookup {fields : List (String × V)} {v : V} (h : fields.lookup name = some v) : (name, v) ∈ fields := by
  obtain ⟨before, after, rfl, -⟩ := List.lookup_eq_some_iff.1 h
  exact List.mem_append_right before List.mem_cons_self

theorem lookup_filter (fields : List (String × V)) (keep : String → Bool) (name : String) :
    (fields.filter fun field => keep field.1).lookup name = if keep name then fields.lookup name else none := by
  induction fields with
  | nil => simp
  | cons field fields ih =>
    obtain ⟨key, v⟩ := field
    by_cases hname : name = key
    · subst hname
      cases hkeep : keep name <;> simp [hkeep, ih]
    · have hbeq : (name == key) = false := beq_false_of_ne hname
      cases hkeep : keep key <;> simp [hkeep, ih, List.lookup_cons, hbeq]

theorem Field.failure_eq_none_of_getD {f : Field A} {a default : A} (h : f.getD default = .ok a) :
    f.failure.2 = none := by
  obtain ⟨_, outcome⟩ := f
  rcases outcome with _ | _ | _
  · rfl
  · cases h
  · rfl

namespace FieldList

variable {l : FieldList} {f : Field A} {a : A}

theorem required_eq_ok_iff : l.required f = .ok a ↔ f.outcome = some (.ok a) := by
  unfold required
  split
  · rename_i outcome h
    rw [h, Option.some.injEq]
  · rename_i h
    rw [h]
    exact iff_of_false nofun nofun

theorem failure_eq_none_of_required (h : l.required f = .ok a) : f.failure.2 = none := by
  rw [Field.failure, required_eq_ok_iff.1 h]

theorem settle_eq_ok {failures : List (String × Option DecodeError)} (hsurplus : l.surplus = false)
    (h : ∀ failure ∈ failures, failure.2 = none) : l.settle failures = .ok () := by
  have hnone : ∀ field ∈ l.fields, (failures.lookup field.1).join = none := by
    intro field _
    cases hlookup : failures.lookup field.1 with
    | none => rfl
    | some failure => exact h _ (mem_of_lookup hlookup)
  rw [settle, List.findSome?_eq_none_iff.2 hnone]
  simp [hsurplus]

end FieldList

end Quorate
