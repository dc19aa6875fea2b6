import Mathlib
import Quorate.Toml.Tree

/-!
# What lines assemble to

Entries go to the end of the table whose header came last, if their keys are new there. That table is the last entry of
the document, or the last element of a list of tables that is, so the entries before it stay as they are.
-/

namespace Quorate.Toml

def entryLines (fields : List (String × Value)) : List (Line Value) :=
  fields.map fun (key, v) => .entry [] key v

def valueEntries (fields : List (String × Value)) : Entries :=
  fields.map fun (key, v) => (key, .value v)

theorem keys_valueEntries (fields : List (String × Value)) :
    (valueEntries fields).map Prod.fst = fields.map Prod.fst := by
  rw [valueEntries, List.map_map]
  rfl

section Finish

theorem finish_append (entries others : Entries) : finish (entries ++ others) = finish entries ++ finish others := by
  induction entries with
  | nil => rw [List.nil_append, finish, List.nil_append]
  | cons entry entries ih =>
    obtain ⟨key, node⟩ := entry
    rw [List.cons_append, finish, finish, ih, List.cons_append]

theorem finish_valueEntries (fields : List (String × Value)) : finish (valueEntries fields) = fields := by
  induction fields with
  | nil => rw [valueEntries, List.map_nil, finish]
  | cons field fields ih =>
    obtain ⟨key, v⟩ := field
    rw [valueEntries] at ih ⊢
    rw [List.map_cons, finish, ih, Node.toValue]

theorem finishAll_map_valueEntries (tables : List (List (String × Value))) :
    finishAll (tables.map valueEntries) = tables.map Value.map := by
  induction tables with
  | nil => rw [List.map_nil, List.map_nil, finishAll]
  | cons fields tables ih => rw [List.map_cons, List.map_cons, finishAll, ih, finish_valueEntries]

end Finish

section Alter

variable {key : String} {change : Option Node → Option Node} {entries : Entries} {node : Node}

theorem Entries.alter_of_notMem (h : key ∉ entries.map Prod.fst) :
    alter key change entries = (change none).map fun node => entries ++ [(key, node)] := by
  induction entries with
  | nil => rfl
  | cons entry entries ih =>
    obtain ⟨k, old⟩ := entry
    rw [List.map_cons, List.mem_cons, not_or] at h
    rw [alter, if_neg (Ne.symm h.1), ih h.2]
    cases change none <;> rfl

theorem Entries.alter_last (h : key ∉ entries.map Prod.fst) : alter key change (entries ++ [(key, node)]) =
    (change (some node)).map fun node => entries ++ [(key, node)] := by
  induction entries with
  | nil =>
    rw [List.nil_append, alter, if_pos rfl]
    rfl
  | cons entry entries ih =>
    obtain ⟨k, old⟩ := entry
    rw [List.map_cons, List.mem_cons, not_or] at h
    rw [List.cons_append, alter, if_neg (Ne.symm h.1), ih h.2]
    cases change (some node) <;> rfl

theorem Entries.lookup_eq_none (h : key ∉ entries.map Prod.fst) : entries.lookup key = none := by
  rw [List.lookup_eq_none_iff]
  intro entry hentry
  rw [bne_iff_ne]
  rintro rfl
  exact h (List.mem_map_of_mem hentry)

end Alter

namespace Draft

variable {name key : String} {v : Value} {before sub root : Entries} {done : List Entries}

/-- The draft whose next entries are those of the document itself. -/
def atRoot (root : Entries) : Draft :=
  ⟨[], root⟩

/-- The draft whose next entries are those of the table at its end. -/
def atTable (before : Entries) (name : String) (sub : Entries) : Draft :=
  ⟨[name], before ++ [(name, .table .written sub)]⟩

/-- The draft whose next entries are those of the last element of the list of tables at its end. -/
def atElement (before : Entries) (name : String) (done : List Entries) (sub : Entries) : Draft :=
  ⟨[name], before ++ [(name, .elements (done ++ [sub]))]⟩

theorem define_of_notMem (h : key ∉ sub.map Prod.fst) :
    Entries.define [] key v .written sub = some (sub ++ [(key, .value v)]) := by
  simp [Entries.define, Entries.within, Entries.alter_of_notMem h]

theorem atRoot_add (h : key ∉ root.map Prod.fst) :
    (atRoot root).add (.entry [] key v) = some (atRoot (root ++ [(key, .value v)])) := by
  simp [add, atRoot, Entries.within, define_of_notMem h]

theorem atTable_add (hname : name ∉ before.map Prod.fst) (h : key ∉ sub.map Prod.fst) :
    (atTable before name sub).add (.entry [] key v) = some (atTable before name (sub ++ [(key, .value v)])) := by
  simp [add, atTable, Entries.within, Entries.alter_last hname, define_of_notMem h]

theorem atElement_add (hname : name ∉ before.map Prod.fst) (done : List Entries) (h : key ∉ sub.map Prod.fst) :
    (atElement before name done sub).add (.entry [] key v) =
      some (atElement before name done (sub ++ [(key, .value v)])) := by
  simp [add, atElement, Entries.within, Entries.alter_last hname, define_of_notMem h]

/-- Wherever entries with new keys go to the end, several do. -/
theorem foldlM_entryLines {place : Entries → Draft}
    (hplace : ∀ {sub key v}, key ∉ sub.map Prod.fst →
      (place sub).add (.entry [] key v) = some (place (sub ++ [(key, .value v)])))
    (sub : Entries) {fields : List (String × Value)} (hkeys : (sub.map Prod.fst ++ fields.map Prod.fst).Nodup) :
    (entryLines fields).foldlM add (place sub) = some (place (sub ++ valueEntries fields)) := by
  induction fields generalizing sub with
  | nil => simp [entryLines, valueEntries]
  | cons field fields ih =>
    obtain ⟨key, v⟩ := field
    have hnew : key ∉ sub.map Prod.fst := by
      intro hmem
      exact (List.nodup_append.1 hkeys).2.2 key hmem key List.mem_cons_self rfl
    have hkeys' : ((sub ++ [(key, Node.value v)]).map Prod.fst ++ fields.map Prod.fst).Nodup := by
      simpa using hkeys
    have hrest := ih _ hkeys'
    simp only [entryLines, valueEntries, List.map_cons, List.foldlM_cons, hplace hnew] at hrest ⊢
    simpa using hrest

theorem add_table (hname : name ∉ root.map Prod.fst) (current : List String) :
    (⟨current, root⟩ : Draft).add (.table [] name) = some (atTable root name []) := by
  simp [add, Entries.openTable, Entries.within, Entries.lookup_eq_none hname, atTable]

theorem add_element (hname : name ∉ root.map Prod.fst) (current : List String) :
    (⟨current, root⟩ : Draft).add (.element [] name) = some (atElement root name [] []) := by
  simp [add, Entries.openElement, Entries.within, Entries.alter_of_notMem hname, atElement]

theorem atElement_add_element (hname : name ∉ before.map Prod.fst) :
    (atElement before name done sub).add (.element [] name) = some (atElement before name (done ++ [sub]) []) := by
  simp [add, Entries.openElement, Entries.within, Entries.alter_last hname, atElement]

theorem foldlM_table (hname : name ∉ root.map Prod.fst) {fields : List (String × Value)}
    (hkeys : (fields.map Prod.fst).Nodup) (current : List String) :
    (.table [] name :: entryLines fields).foldlM add (⟨current, root⟩ : Draft) =
      some (atTable root name (valueEntries fields)) := by
  rw [List.foldlM_cons, add_table hname, Option.bind_eq_bind, Option.bind_some]
  exact foldlM_entryLines (atTable_add hname) [] hkeys

theorem foldlM_more_elements (hname : name ∉ before.map Prod.fst) (done : List Entries) (sub : Entries)
    {tables : List (List (String × Value))} (hkeys : ∀ fields ∈ tables, (fields.map Prod.fst).Nodup) :
    (tables.flatMap fun fields => .element [] name :: entryLines fields).foldlM add (atElement before name done sub) =
      some ⟨[name], before ++ [(name, .elements (done ++ [sub] ++ tables.map valueEntries))]⟩ := by
  induction tables generalizing done sub with
  | nil => simp [atElement]
  | cons fields tables ih =>
    have hfields := foldlM_entryLines (atElement_add hname (done ++ [sub])) [] (hkeys fields List.mem_cons_self)
    have hrest := ih (done ++ [sub]) (valueEntries fields) fun fs hfs => hkeys fs (List.mem_cons_of_mem fields hfs)
    rw [List.flatMap_cons, List.cons_append, List.foldlM_cons, atElement_add_element hname, Option.bind_eq_bind,
      Option.bind_some, List.foldlM_append, hfields, Option.bind_eq_bind, Option.bind_some, List.nil_append, hrest]
    simp

/-- Headers of elements, each with its fields, make a list of tables. -/
theorem foldlM_elements (hname : name ∉ root.map Prod.fst) (fields : List (String × Value))
    (tables : List (List (String × Value))) (hkeys : ∀ fs ∈ fields :: tables, (fs.map Prod.fst).Nodup)
    (current : List String) :
    ((fields :: tables).flatMap fun fs => .element [] name :: entryLines fs).foldlM add (⟨current, root⟩ : Draft) =
      some ⟨[name], root ++ [(name, .elements ((fields :: tables).map valueEntries))]⟩ := by
  have hfields := foldlM_entryLines (atElement_add hname []) [] (hkeys fields List.mem_cons_self)
  have hrest := foldlM_more_elements hname [] (valueEntries fields) fun fs hfs => hkeys fs (List.mem_cons_of_mem fields hfs)
  rw [List.flatMap_cons, List.cons_append, List.foldlM_cons, add_element hname, Option.bind_eq_bind,
    Option.bind_some, List.foldlM_append, hfields, Option.bind_eq_bind, Option.bind_some, List.nil_append, hrest]
  rfl

end Draft

end Quorate.Toml
