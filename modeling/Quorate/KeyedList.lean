/-!
# Keyed lists

A finite map whose keys keep the order in which they came. Inserting under a key that is there replaces the
value in its place and gives the value that stood there; a new key goes to the end. So every key has one
position, which later insertions do not move.
-/

namespace Quorate

structure KeyedList (K V : Type) where
  entries : List (K × V)
  distinct : (entries.map Prod.fst).Nodup
deriving DecidableEq

namespace KeyedList

variable {K V : Type}

def empty : KeyedList K V := ⟨[], .nil⟩

instance : Inhabited (KeyedList K V) := ⟨empty⟩

def keys (m : KeyedList K V) : List K :=
  m.entries.map Prod.fst

def size (m : KeyedList K V) : Nat :=
  m.entries.length

def isEmpty (m : KeyedList K V) : Bool :=
  m.entries.isEmpty

theorem ext_entries {m n : KeyedList K V} (h : m.entries = n.entries) : m = n := by
  cases m
  cases n
  simp_all

variable [DecidableEq K]

def get? (m : KeyedList K V) (key : K) : Option V :=
  m.entries.lookup key

def indexOf? (m : KeyedList K V) (key : K) : Option Nat :=
  m.entries.findIdx? fun e => e.1 = key

def contains (m : KeyedList K V) (key : K) : Bool :=
  (m.get? key).isSome

/-- Entries with `value` under `key`, in place of an earlier value if there is one. -/
def putEntry (key : K) (value : V) : List (K × V) → List (K × V)
  | [] => [(key, value)]
  | (k, v) :: rest => if k = key then (key, value) :: rest else (k, v) :: putEntry key value rest

theorem keys_putEntry (key : K) (value : V) (entries : List (K × V)) :
    (putEntry key value entries).map Prod.fst =
      if key ∈ entries.map Prod.fst then entries.map Prod.fst else entries.map Prod.fst ++ [key] := by
  induction entries with
  | nil => rfl
  | cons e rest ih =>
    obtain ⟨k, v⟩ := e
    by_cases h : k = key
    · simp [putEntry, h]
    · have hne : ¬ key = k := fun e => h e.symm
      simp only [putEntry, if_neg h, List.map_cons, ih, List.mem_cons, hne, false_or]
      split <;> rfl

theorem nodup_putEntry {key : K} {value : V} {entries : List (K × V)} (h : (entries.map Prod.fst).Nodup) :
    ((putEntry key value entries).map Prod.fst).Nodup := by
  rw [keys_putEntry]
  split
  · exact h
  · rename_i hnew
    exact List.nodup_append.2 ⟨h, by simp, fun k hk l hl => by
      rw [List.mem_singleton.1 hl]
      rintro rfl
      exact hnew hk⟩

def put (m : KeyedList K V) (key : K) (value : V) : KeyedList K V :=
  ⟨putEntry key value m.entries, nodup_putEntry m.distinct⟩

/-- Put a value under a key. The value that stood there comes with the new list. -/
def insert (m : KeyedList K V) (key : K) (value : V) : Option V × KeyedList K V :=
  (m.get? key, m.put key value)

variable {m : KeyedList K V} {key other : K} {value : V}

theorem get?_eq_none_iff : m.get? key = none ↔ key ∉ m.keys := by
  rw [get?, List.lookup_eq_none_iff, keys]
  constructor
  · intro h hmem
    obtain ⟨e, he, rfl⟩ := List.mem_map.1 hmem
    exact bne_iff_ne.1 (h e he) rfl
  · intro h e he
    rw [bne_iff_ne]
    rintro rfl
    exact h (List.mem_map_of_mem he)

theorem get?_eq_some_iff : m.get? key = some value ↔ (key, value) ∈ m.entries := by
  obtain ⟨entries, distinct⟩ := m
  change entries.lookup key = some value ↔ (key, value) ∈ entries
  induction entries with
  | nil => simp
  | cons e rest ih =>
    obtain ⟨k, v⟩ := e
    rw [List.map_cons, List.nodup_cons] at distinct
    rw [List.lookup_cons, List.mem_cons, Prod.mk.injEq]
    by_cases h : key = k
    · subst h
      have hrest : (key, value) ∉ rest := fun hmem => distinct.1 (List.mem_map.2 ⟨_, hmem, rfl⟩)
      simp [hrest, eq_comm]
    · simp [h, beq_eq_false_iff_ne.2 h, ih distinct.2]

theorem contains_iff : m.contains key = true ↔ key ∈ m.keys := by
  rw [contains, Option.isSome_iff_ne_none, Ne, get?_eq_none_iff, Decidable.not_not]

theorem indexOf?_eq_none_iff : m.indexOf? key = none ↔ key ∉ m.keys := by
  rw [indexOf?, List.findIdx?_eq_none_iff, keys, List.mem_map, not_exists]
  simp only [decide_eq_false_iff_not, not_and]

/-- A key has the position at which it stands. -/
theorem indexOf?_eq_some_iff {i : Nat} : m.indexOf? key = some i ↔ m.keys[i]? = some key := by
  rw [keys, List.getElem?_map, Option.map_eq_some_iff]
  constructor
  · intro h
    obtain ⟨hlt, hkey, -⟩ := List.findIdx?_eq_some_iff_getElem.1 h
    exact ⟨m.entries[i], List.getElem?_eq_getElem hlt, of_decide_eq_true hkey⟩
  · rintro ⟨e, he, rfl⟩
    obtain ⟨hlt, rfl⟩ := List.getElem?_eq_some_iff.1 he
    refine List.findIdx?_eq_some_iff_getElem.2 ⟨hlt, decide_eq_true rfl, ?_⟩
    -- an earlier entry with the key would repeat it
    intro j hj hsame
    have hpair := List.pairwise_iff_getElem.1 m.distinct j i (by simpa using Nat.lt_trans hj hlt)
      (by simpa using hlt) hj
    simp only [List.getElem_map] at hpair
    exact hpair (of_decide_eq_true hsame)

theorem get?_put (m : KeyedList K V) (key : K) (value : V) (k : K) :
    (m.put key value).get? k = if k = key then some value else m.get? k := by
  obtain ⟨entries, distinct⟩ := m
  change (putEntry key value entries).lookup k = if k = key then some value else entries.lookup k
  clear distinct
  induction entries with
  | nil =>
    rw [putEntry, List.lookup_cons]
    by_cases h : k = key
    · simp [h]
    · simp [h, beq_eq_false_iff_ne.2 h]
  | cons e rest ih =>
    obtain ⟨l, v⟩ := e
    by_cases hl : l = key
    · subst hl
      by_cases h : k = l
      · simp [putEntry, h]
      · simp [putEntry, List.lookup_cons, h, beq_eq_false_iff_ne.2 h]
    · by_cases h : k = l
      · subst h
        simp [putEntry, hl]
      · simp [putEntry, List.lookup_cons, hl, beq_eq_false_iff_ne.2 h, ih]

/-- A new key goes to the end. -/
theorem entries_put_of_get?_eq_none (h : m.get? key = none) :
    (m.put key value).entries = m.entries ++ [(key, value)] := by
  obtain ⟨entries, distinct⟩ := m
  have hnew : key ∉ entries.map Prod.fst := get?_eq_none_iff.1 h
  clear h
  change putEntry key value entries = entries ++ [(key, value)]
  induction entries with
  | nil => rfl
  | cons e rest ih =>
    obtain ⟨k, v⟩ := e
    rw [List.map_cons, List.nodup_cons] at distinct
    rw [List.map_cons, List.mem_cons, not_or] at hnew
    have hne : ¬ k = key := fun e => hnew.1 e.symm
    rw [putEntry, if_neg hne, ih distinct.2 hnew.2, List.cons_append]

end KeyedList

end Quorate
