import Mathlib
import Quorate.SignerBitmap

/-!
# Bitmaps as finite sets of positions

Everything that a bitmap answers is determined by the set of its members. The listing gives each member
once, the greatest member is the greatest element of the set, and zero bytes at the end add nothing.
-/

namespace Quorate.SignerBitmap

variable {m : SignerBitmap} {b : UInt8} {bs : Bytes} {i j : Nat}

theorem testBit_zero (j : Nat) : testBit 0 j = false :=
  Nat.zero_testBit j

theorem le_log2_of_testBit (h : testBit b j = true) : j ≤ b.toNat.log2 := by
  have hpow := Nat.ge_two_pow_of_testBit h
  have hne : b.toNat ≠ 0 := by
    have := Nat.two_pow_pos j
    omega
  exact (Nat.le_log2 hne).2 hpow

theorem testBit_log2 (h : b ≠ 0) : testBit b b.toNat.log2 = true := by
  refine Nat.testBit_log2 fun hzero => h ?_
  exact UInt8.toNat_inj.1 hzero

theorem lt_eight_of_testBit (h : testBit b j = true) : j < 8 := by
  by_contra hle
  have hlt : b.toNat < 2 ^ j :=
    b.toNat_lt.trans_le (Nat.pow_le_pow_right (by decide) (Nat.le_of_not_lt hle))
  have hfalse := Nat.testBit_lt_two_pow hlt
  rw [testBit, hfalse] at h
  cases h

theorem mem_bitsOf : j ∈ bitsOf b ↔ testBit b j = true := by
  rw [bitsOf, List.mem_filter, List.mem_range]
  exact and_iff_right_of_imp lt_eight_of_testBit

/-- A position is a member exactly if its byte is there and has its bit. -/
theorem contains_iff : m.contains i = true ↔ ∃ b, m.bytes[i / 8]? = some b ∧ testBit b (i % 8) = true := by
  rw [contains, List.getD_eq_getElem?_getD]
  cases h : m.bytes[i / 8]? with
  | none => simp [testBit_zero]
  | some b => simp

theorem lt_of_contains (h : m.contains i = true) : i < 8 * m.bytes.length := by
  obtain ⟨b, hb, -⟩ := contains_iff.1 h
  obtain ⟨hlt, -⟩ := List.getElem?_eq_some_iff.1 hb
  omega

def members (m : SignerBitmap) : Finset Nat :=
  (Finset.range (8 * m.bytes.length)).filter fun i => m.contains i = true

@[simp] theorem mem_members : i ∈ m.members ↔ m.contains i = true := by
  rw [members, Finset.mem_filter, Finset.mem_range]
  exact and_iff_right_of_imp lt_of_contains

theorem mem_toList : i ∈ m.toList ↔ m.contains i = true := by
  rw [toList, List.mem_flatMap, contains_iff]
  constructor
  · rintro ⟨⟨b, k⟩, hb, hi⟩
    obtain ⟨j, hj, rfl⟩ := List.mem_map.1 hi
    rw [mem_bitsOf] at hj
    have hlt := lt_eight_of_testBit hj
    have hbyte : m.bytes[k]? = some b := List.mem_zipIdx_iff_getElem?.1 hb
    have hdiv : (8 * k + j) / 8 = k := by omega
    have hmod : (8 * k + j) % 8 = j := by omega
    exact ⟨b, by rw [hdiv, hbyte], by rw [hmod, hj]⟩
  · rintro ⟨b, hb, hi⟩
    refine ⟨(b, i / 8), List.mem_zipIdx_iff_getElem?.2 hb, List.mem_map.2 ⟨i % 8, mem_bitsOf.2 hi, ?_⟩⟩
    exact Nat.div_add_mod i 8

theorem pairwise_bitsOf (b : UInt8) : (bitsOf b).Pairwise (· < ·) :=
  List.pairwise_lt_range.filter _

theorem pairwise_toList (m : SignerBitmap) : m.toList.Pairwise (· < ·) := by
  rw [toList, List.pairwise_flatMap]
  constructor
  · rintro ⟨b, k⟩ -
    refine (pairwise_bitsOf b).map _ fun i j h => ?_
    omega
  · have hindices : m.bytes.zipIdx.Pairwise fun x y => x.2 < y.2 := by
      rw [← List.pairwise_map (f := Prod.snd) (R := (· < ·)), List.zipIdx_map_snd]
      exact List.pairwise_lt_range'
    refine hindices.imp ?_
    rintro ⟨b, k⟩ ⟨c, l⟩ hkl i hi j hj
    -- Eight positions belong to a byte, and those of the byte before end before these begin.
    obtain ⟨x, hx, rfl⟩ := List.mem_map.1 hi
    obtain ⟨y, -, rfl⟩ := List.mem_map.1 hj
    have hlt := lt_eight_of_testBit (mem_bitsOf.1 hx)
    simp only at hkl ⊢
    omega

theorem nodup_toList (m : SignerBitmap) : m.toList.Nodup :=
  m.pairwise_toList.imp ne_of_lt

theorem length_toList (m : SignerBitmap) : m.toList.length = m.size := by
  have hbytes : m.bytes.zipIdx.map (fun x => ((bitsOf x.1).map (8 * x.2 + ·)).length) =
      m.bytes.map countOf := by
    conv_rhs => rw [← List.zipIdx_map_fst 0 m.bytes, List.map_map]
    exact List.map_congr_left fun x _ => List.length_map _
  rw [toList, List.length_flatMap, hbytes]
  rfl

theorem size_eq_card (m : SignerBitmap) : m.size = m.members.card := by
  have hmembers : m.toList.toFinset = m.members := by
    ext i
    rw [List.mem_toFinset, mem_toList, mem_members]
  rw [← hmembers, List.toFinset_card_of_nodup m.nodup_toList, length_toList]

/-- The last byte of a bitmap holds the last eight positions. -/
theorem contains_append_singleton :
    contains ⟨bs ++ [b]⟩ i = if i / 8 = bs.length then testBit b (i % 8) else contains ⟨bs⟩ i := by
  split
  · rename_i h
    simp [contains, h]
  · rename_i h
    rcases Nat.lt_or_gt_of_ne h with hlt | hgt
    · simp [contains, List.getElem?_append_left hlt]
    · have hout : bs.length + 1 ≤ i / 8 := hgt
      have hlong : (bs ++ [b])[i / 8]? = none := List.getElem?_eq_none (by simpa using hout)
      have hshort : bs[i / 8]? = none := List.getElem?_eq_none (by omega)
      simp [contains, hlong, hshort]

theorem max?_append_singleton :
    max? ⟨bs ++ [b]⟩ = if b = 0 then max? ⟨bs⟩ else some (8 * bs.length + b.toNat.log2) := by
  by_cases h : b = 0 <;> simp [max?, List.zipIdx_append, h]

/-- The search from the last byte finds the greatest member, unless there is none. -/
theorem max?_spec (m : SignerBitmap) :
    match m.max? with
    | none => ∀ i, m.contains i = false
    | some i => m.contains i = true ∧ ∀ j, m.contains j = true → j ≤ i := by
  obtain ⟨bs⟩ := m
  -- From the end, as the search goes: a last byte of zero adds no member and leaves the search to the rest.
  induction bs using List.reverseRecOn with
  | nil => exact fun i => testBit_zero _
  | append_singleton bs b ih =>
    rw [max?_append_singleton]
    by_cases hb : b = 0
    · have hcontains : ∀ i, contains ⟨bs ++ [b]⟩ i = contains ⟨bs⟩ i := by
        intro i
        rw [contains_append_singleton, hb, testBit_zero]
        split
        · rename_i h
          have hnone : bs[i / 8]? = none := List.getElem?_eq_none h.ge
          simp [contains, hnone, testBit_zero]
        · rfl
      simp only [if_pos hb, hcontains]
      exact ih
    · rw [if_neg hb]
      have hbit := testBit_log2 hb
      have hlt := lt_eight_of_testBit hbit
      constructor
      · have hdiv : (8 * bs.length + b.toNat.log2) / 8 = bs.length := by omega
        have hmod : (8 * bs.length + b.toNat.log2) % 8 = b.toNat.log2 := by omega
        rw [contains_append_singleton, if_pos hdiv, hmod, hbit]
      · intro j hj
        rw [contains_append_singleton] at hj
        split at hj
        · have hle := le_log2_of_testBit hj
          omega
        · have hbound := lt_of_contains hj
          simp only at hbound
          omega

theorem max?_eq_some_iff : m.max? = some i ↔ IsGreatest (m.members : Set Nat) i := by
  have hspec := m.max?_spec
  constructor
  · intro h
    rw [h] at hspec
    exact ⟨mem_members.2 hspec.1, fun j hj => hspec.2 j (mem_members.1 hj)⟩
  · rintro ⟨hi, hgreatest⟩
    rw [Finset.mem_coe, mem_members] at hi
    cases h : m.max? with
    | none =>
      rw [h] at hspec
      cases hi.symm.trans (hspec i)
    | some k =>
      rw [h] at hspec
      have hki := hgreatest (Finset.mem_coe.2 (mem_members.2 hspec.1))
      exact congrArg some (Nat.le_antisymm hki (hspec.2 i hi))

theorem max?_eq_none_iff : m.max? = none ↔ m.members = ∅ := by
  have hspec := m.max?_spec
  constructor
  · intro h
    rw [h] at hspec
    refine Finset.eq_empty_of_forall_notMem fun i hi => ?_
    cases (mem_members.1 hi).symm.trans (hspec i)
  · intro h
    cases hmax : m.max? with
    | none => rfl
    | some i =>
      have hi := (max?_eq_some_iff.1 hmax).1
      simp [h] at hi

/-- The bytes are all zero just when there is no member: a byte that is not zero has a greatest bit. -/
theorem isEmpty_iff : m.isEmpty = true ↔ m.members = ∅ := by
  rw [isEmpty, List.all_eq_true, Finset.eq_empty_iff_forall_notMem]
  constructor
  · intro hzero i hi
    obtain ⟨b, hb, hbit⟩ := contains_iff.1 (mem_members.1 hi)
    obtain rfl := eq_of_beq (hzero b (List.mem_of_getElem? hb))
    rw [testBit_zero] at hbit
    cases hbit
  · intro hnone b hb
    by_contra hne
    have hbit := testBit_log2 (b := b) fun hzero => hne (beq_iff_eq.2 hzero)
    have hlt := lt_eight_of_testBit hbit
    obtain ⟨k, hk⟩ := List.getElem?_of_mem hb
    have hdiv : (8 * k + b.toNat.log2) / 8 = k := by omega
    have hmod : (8 * k + b.toNat.log2) % 8 = b.toNat.log2 := by omega
    refine hnone (8 * k + b.toNat.log2) (mem_members.2 (contains_iff.2 ⟨b, ?_, ?_⟩))
    · rw [hdiv, hk]
    · rw [hmod, hbit]

/-- What the answers of a bitmap say of a set of positions: that it holds these, all of them before the end. -/
structure Describes (m : SignerBitmap) (positions : Finset Nat) : Prop where
  mem_iff : ∀ i, i ∈ positions ↔ m.contains i = true
  lt : ∀ i ∈ positions, i < 8 * m.bytes.length
  ascending : m.toList.Pairwise (· < ·)
  mem_toList_iff : ∀ i, i ∈ m.toList ↔ i ∈ positions
  size_eq : m.size = positions.card
  max_eq_some_iff : ∀ i, m.max? = some i ↔ IsGreatest (positions : Set Nat) i
  max_eq_none_iff : m.max? = none ↔ positions = ∅
  isEmpty_iff : m.isEmpty = true ↔ positions = ∅

/-- All answers of a bitmap go by one set. -/
theorem describes_members (m : SignerBitmap) : m.Describes m.members where
  mem_iff _ := mem_members
  lt _ hi := lt_of_contains (mem_members.1 hi)
  ascending := m.pairwise_toList
  mem_toList_iff _ := mem_toList.trans mem_members.symm
  size_eq := m.size_eq_card
  max_eq_some_iff _ := max?_eq_some_iff
  max_eq_none_iff := max?_eq_none_iff
  isEmpty_iff := isEmpty_iff

theorem members_append_zeros (n : Nat) : members ⟨bs ++ Bytes.zeros n⟩ = members ⟨bs⟩ := by
  ext i
  rw [mem_members, mem_members, contains_iff, contains_iff]
  constructor
  · rintro ⟨b, hb, hbit⟩
    by_cases h : i / 8 < bs.length
    · exact ⟨b, by rwa [List.getElem?_append_left h] at hb, hbit⟩
    · rw [List.getElem?_append_right (Nat.le_of_not_lt h)] at hb
      have hzero : b = 0 := List.eq_of_mem_replicate (List.mem_of_getElem? hb)
      rw [hzero, testBit_zero] at hbit
      cases hbit
  · rintro ⟨b, hb, hbit⟩
    obtain ⟨hlt, -⟩ := List.getElem?_eq_some_iff.1 hb
    exact ⟨b, by rwa [List.getElem?_append_left hlt], hbit⟩

end Quorate.SignerBitmap
