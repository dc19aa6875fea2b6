import Quorate.Proofs.MarkedPositions

/-!
# Adding positions

A bitmap is its number of bytes and its members. Adding positions adds these and no others, in whatever
order, and a bitmap that was made with room for them keeps its number of bytes.
-/

namespace Quorate.SignerBitmap

variable {m m' : SignerBitmap} {i j n : Nat} {positions : List Nat}

theorem contains_ofSize (n i : Nat) : (ofSize n).contains i = false := by
  have hbyte : (Bytes.zeros ((n + 7) / 8)).getD (i / 8) 0 = 0 := by
    rw [List.getD_eq_getElem?_getD, Bytes.zeros, List.getElem?_replicate]
    split <;> rfl
  rw [contains, ofSize, hbyte, testBit_zero]

theorem length_ofSize (n : Nat) : (ofSize n).bytes.length = (n + 7) / 8 :=
  Bytes.length_zeros _

theorem length_insert (m : SignerBitmap) (i : Nat) :
    (m.insert i).bytes.length = max m.bytes.length (i / 8 + 1) := by
  rw [insert, List.length_modify, List.length_append, Bytes.length_zeros]
  omega

def insertAll (m : SignerBitmap) (positions : List Nat) : SignerBitmap :=
  positions.foldl insert m

theorem contains_insertAll : (m.insertAll positions).contains j = true ↔ j ∈ positions ∨ m.contains j = true := by
  unfold insertAll
  induction positions generalizing m with
  | nil => simp
  | cons i rest ih =>
    rw [List.foldl_cons, ih, contains_insert, List.mem_cons, Bool.or_eq_true, decide_eq_true_eq]
    tauto

theorem members_insertAll : (m.insertAll positions).members = m.members ∪ positions.toFinset := by
  ext i
  rw [mem_members, contains_insertAll, Finset.mem_union, mem_members, List.mem_toFinset, or_comm]

theorem members_ofSize (n : Nat) : (ofSize n).members = ∅ := by
  refine Finset.eq_empty_of_forall_notMem fun i hi => ?_
  rw [mem_members, contains_ofSize] at hi
  cases hi

theorem length_insertAll (hroom : ∀ i ∈ positions, i / 8 < m.bytes.length) :
    (m.insertAll positions).bytes.length = m.bytes.length := by
  unfold insertAll
  induction positions generalizing m with
  | nil => rfl
  | cons i rest ih =>
    have hi := hroom i List.mem_cons_self
    have hkeep : (m.insert i).bytes.length = m.bytes.length := by
      rw [length_insert]
      omega
    rw [List.foldl_cons, ih, hkeep]
    intro j hj
    rw [hkeep]
    exact hroom j (List.mem_cons_of_mem _ hj)

theorem length_insertAll_ofSize (h : ∀ i ∈ positions, i < n) :
    ((ofSize n).insertAll positions).bytes.length = (n + 7) / 8 := by
  rw [length_insertAll, length_ofSize]
  intro i hi
  have hlt := h i hi
  rw [length_ofSize]
  omega

/-- A bitmap is the set of its members, through any additions: these become members and nothing else changes. Each
addition makes the bitmap just as long as its position needs, nothing is a member past the end, and a bitmap that was
made for `n` positions keeps the least number of bytes for these while it is given no others. -/
theorem additions_exact (m : SignerBitmap) (positions : List Nat) :
    (m.insertAll positions).Describes (m.members ∪ positions.toFinset) ∧
    (∀ i, ((m.insertAll positions).insert i).bytes.length = max (m.insertAll positions).bytes.length (i / 8 + 1) ∧
      ∀ j, ((m.insertAll positions).insert i).contains j = true ↔ j = i ∨ (m.insertAll positions).contains j = true) ∧
    (∀ i, 8 * (m.insertAll positions).bytes.length ≤ i → (m.insertAll positions).contains i = false) ∧
    ∀ n, (ofSize n).members = ∅ ∧ ((∀ i ∈ positions, i < n) →
      n ≤ 8 * ((ofSize n).insertAll positions).bytes.length ∧
        8 * ((ofSize n).insertAll positions).bytes.length < n + 8) := by
  refine ⟨?_, ?_, ?_, ?_⟩
  · rw [← members_insertAll]
    exact describes_members _
  · refine fun i => ⟨length_insert _ i, fun j => ?_⟩
    rw [contains_insert, Bool.or_eq_true, decide_eq_true_eq, eq_comm]
  · intro i hi
    by_contra hcontains
    have hlt := lt_of_contains (Bool.eq_true_of_not_eq_false hcontains)
    omega
  · intro n
    refine ⟨members_ofSize n, fun hroom => ?_⟩
    rw [length_insertAll_ofSize hroom]
    omega

end Quorate.SignerBitmap
