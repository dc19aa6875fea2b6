import Quorate.Bytes.Hex
import Quorate.Proofs.Text.Blank
import Quorate.Proofs.Text.Utf8

/-!
# Hexadecimal digits

Reading takes the digits that bytes are written with, in either case, and nothing else; there are such bytes just for
an even number of digits. No digit is blank and none is the `x` of the mark, so nothing is removed from them before
they are read.
-/

namespace Quorate.Hex

variable {bs rest raw : Bytes} {c : Char} {n index : Nat} {b : UInt8} {cs : List Char}

theorem exists_digit_of_mem_encode (h : c ∈ (encode bs).toList) : ∃ n < 16, c = digit n := by
  rw [encode, String.toList_ofList, List.mem_flatMap] at h
  obtain ⟨b, -, hc⟩ := h
  have hb := b.toNat_lt
  rcases List.mem_cons.1 hc with rfl | hc
  · exact ⟨_, by omega, rfl⟩
  · exact ⟨_, by omega, List.mem_singleton.1 hc⟩

def IsLowerDigit (c : Char) : Prop :=
  '0' ≤ c ∧ c ≤ '9' ∨ 'a' ≤ c ∧ c ≤ 'f'

instance (c : Char) : Decidable (IsLowerDigit c) :=
  inferInstanceAs (Decidable (_ ∨ _))

theorem isLowerDigit_of_mem_encode (h : c ∈ (encode bs).toList) : IsLowerDigit c := by
  have hdigit : ∀ n < 16, IsLowerDigit (digit n) := by decide
  obtain ⟨n, hn, rfl⟩ := exists_digit_of_mem_encode h
  exact hdigit n hn

theorem digit_ascii : ∀ n < 16, (digit n).toNat < 128 := by
  decide

theorem length_encode (bs : Bytes) : ((encode bs).toList.flatMap String.utf8EncodeChar).length = 2 * bs.length := by
  rw [encode, String.toList_ofList, length_digits]

/-- A hexadecimal digit, letters in either case. -/
def IsDigit (c : Char) : Prop :=
  '0' ≤ c ∧ c ≤ '9' ∨ 'a' ≤ c ∧ c ≤ 'f' ∨ 'A' ≤ c ∧ c ≤ 'F'

instance (c : Char) : Decidable (IsDigit c) :=
  inferInstanceAs (Decidable (_ ∨ _))

/-- Up to case, the characters are the digits that the bytes are written with. -/
def Writes (cs : List Char) (raw : Bytes) : Prop :=
  cs.map Char.toLower = raw.flatMap digits

section Digit

theorem value?_of_ascii : ∀ v < 128, ∀ n < 16,
    value? (UInt8.ofNat v) = some n ↔ (Char.ofNat v).toLower = digit n := by
  decide +kernel

theorem isDigit_of_ascii : ∀ v < 128, IsDigit (Char.ofNat v) ↔ ∃ n < 16, (Char.ofNat v).toLower = digit n := by
  decide +kernel

theorem toNat_lt_of_toLower_eq (hn : n < 16) (hc : c.toLower = digit n) : c.toNat < 128 := by
  unfold Char.toLower at hc
  split at hc
  · rename_i hupper
    have h := UInt32.le_iff_toNat_le.1 hupper.2
    exact h.trans_lt (by decide)
  · rw [hc]
    exact digit_ascii n hn

theorem isDigit_iff : IsDigit c ↔ ∃ n < 16, c.toLower = digit n := by
  have hiff : c.toNat < 128 → (IsDigit c ↔ ∃ n < 16, c.toLower = digit n) := by
    intro hascii
    have hv := isDigit_of_ascii c.toNat hascii
    rwa [Char.ofNat_toNat] at hv
  constructor
  · intro h
    have hascii : c.toNat < 128 := by
      rcases h with h | h | h <;> exact (UInt32.le_iff_toNat_le.1 h.2).trans_lt (by decide)
    exact (hiff hascii).1 h
  · rintro ⟨n, hn, hc⟩
    exact (hiff (toNat_lt_of_toLower_eq hn hc)).2 ⟨n, hn, hc⟩

theorem range_of_value? (h : value? b = some n) : b.toNat < 128 ∧ n < 16 := by
  unfold value? at h
  simp only at h
  split_ifs at h <;> cases h <;> omega

/-- A text that starts with the byte of a digit starts with that digit. -/
theorem eq_cons_of_written (h : cs.flatMap String.utf8EncodeChar = b :: rest) (hb : value? b = some n) :
    ∃ c more, cs = c :: more ∧ (n < 16 ∧ c.toLower = digit n) ∧ more.flatMap String.utf8EncodeChar = rest := by
  obtain ⟨hascii, hn⟩ := range_of_value? hb
  cases cs with
  | nil => cases h
  | cons c cs =>
    have hsequence := Text.sequence_written c
    rw [List.flatMap_cons] at h
    cases hc : String.utf8EncodeChar c with
    | nil =>
      rw [hc] at hsequence
      cases hsequence
    | cons b₀ tail =>
      rw [hc] at h hsequence
      obtain ⟨rfl, hrest⟩ := List.cons.inj h
      obtain ⟨rfl, rfl⟩ := hsequence.eq_of_lead_lt hascii
      refine ⟨_, cs, rfl, ⟨hn, (value?_of_ascii b₀.toNat hascii n hn).1 ?_⟩, hrest⟩
      rwa [UInt8.ofNat_toNat]

theorem exists_byte_of_toLower_eq (hn : n < 16) (hc : c.toLower = digit n) :
    ∃ b, String.utf8EncodeChar c = [b] ∧ value? b = some n := by
  have hascii := toNat_lt_of_toLower_eq hn hc
  refine ⟨UInt8.ofNat c.toNat, ?_, ?_⟩
  · rw [String.utf8EncodeChar]
    exact if_pos (Nat.lt_succ_iff.1 hascii)
  · rw [value?_of_ascii c.toNat hascii n hn, Char.ofNat_toNat]
    exact hc

end Digit

theorem digits_ofNat {high low : Nat} (hhigh : high < 16) (hlow : low < 16) :
    digits (UInt8.ofNat (16 * high + low)) = [digit high, digit low] := by
  have hsum : (UInt8.ofNat (16 * high + low)).toNat = 16 * high + low := by
    rw [UInt8.toNat_ofNat']
    omega
  have hdiv : (16 * high + low) / 16 = high := by omega
  have hmod : (16 * high + low) % 16 = low := by omega
  rw [digits, hsum, hdiv, hmod]

theorem Writes.cons_cons {high low : Char} {more : List Char} {m : Nat} (hn : n < 16) (hm : m < 16)
    (hhigh : high.toLower = digit n) (hlow : low.toLower = digit m) (h : Writes more raw) :
    Writes (high :: low :: more) (UInt8.ofNat (16 * n + m) :: raw) := by
  rw [Writes, List.flatMap_cons, digits_ofNat hn hm, List.map_cons, List.map_cons, hhigh, hlow, h]
  rfl

theorem exists_of_writes_cons (h : Writes cs (b :: raw)) :
    ∃ high low more, cs = high :: low :: more ∧ high.toLower = digit (b.toNat / 16) ∧
      low.toLower = digit (b.toNat % 16) ∧ Writes more raw := by
  obtain ⟨high, rest, rfl, hhigh, hrest⟩ := List.map_eq_cons_iff.1 h
  obtain ⟨low, more, rfl, hlow, hmore⟩ := List.map_eq_cons_iff.1 hrest
  exact ⟨high, low, more, rfl, hhigh, hlow, hmore⟩

theorem decodePairs_of_writes (h : Writes cs raw) (index : Nat) :
    decodePairs index (cs.flatMap String.utf8EncodeChar) = .ok raw ∧
      (cs.flatMap String.utf8EncodeChar).length % 2 = 0 := by
  induction raw generalizing cs index with
  | nil =>
    obtain rfl := List.map_eq_nil_iff.1 h
    exact ⟨rfl, rfl⟩
  | cons b raw ih =>
    have hb := b.toNat_lt
    obtain ⟨high, low, more, rfl, hhigh, hlow, hmore⟩ := exists_of_writes_cons h
    obtain ⟨byte, hbyte, hvalue⟩ := exists_byte_of_toLower_eq (by omega) hhigh
    obtain ⟨byte', hbyte', hvalue'⟩ := exists_byte_of_toLower_eq (by omega) hlow
    obtain ⟨hdecode, heven⟩ := ih hmore (index + 2)
    have hsum : 16 * (b.toNat / 16) + b.toNat % 16 = b.toNat := Nat.div_add_mod ..
    simp only [List.flatMap_cons, hbyte, hbyte', List.singleton_append, decodePairs, hvalue, hvalue', hdecode,
      hsum, UInt8.ofNat_toNat, List.length_cons]
    exact ⟨rfl, by omega⟩

theorem writes_of_decodePairs {text : Bytes} (h : decodePairs index text = .ok raw)
    (heven : text.length % 2 = 0) (hcs : cs.flatMap String.utf8EncodeChar = text) : Writes cs raw := by
  fun_induction decodePairs index text generalizing cs raw
  case case1 => cases h
  case case2 => cases h
  case case3 index high low rest n m hm hn ih =>
    obtain ⟨c, more, rfl, ⟨hn16, hc⟩, hmore⟩ := eq_cons_of_written hcs hn
    obtain ⟨c', more', rfl, ⟨hm16, hc'⟩, hmore'⟩ := eq_cons_of_written hmore hm
    cases hrest : decodePairs (index + 2) rest with
    | error e =>
      rw [hrest] at h
      cases h
    | ok raw' =>
      rw [hrest] at h
      cases h
      have hlength : rest.length % 2 = 0 := by
        simp only [List.length_cons] at heven
        omega
      exact (ih hrest hlength hmore').cons_cons hn16 hm16 hc hc'
  case case4 text index hshort =>
    cases h
    -- fewer than two bytes, and an even number of them
    have hnil : text = [] := by
      rcases text with _ | ⟨high, _ | ⟨low, rest⟩⟩
      · rfl
      · simp at heven
      · exact (hshort high low rest rfl).elim
    cases cs with
    | nil => rfl
    | cons c cs => simp [hnil] at hcs

/-- Hexadecimal text is read just as what it writes. -/
theorem decode_eq_ok_iff : decode cs = .ok raw ↔ Writes cs raw := by
  unfold decode
  constructor
  · intro h
    simp only at h
    split at h
    · cases h
    · rename_i hodd
      exact writes_of_decodePairs h (by omega) rfl
  · intro h
    obtain ⟨hdecode, heven⟩ := decodePairs_of_writes h 0
    simp only
    rw [if_neg (by omega), hdecode]

theorem writes_encode (raw : Bytes) : Writes (encode raw).toList raw :=
  decode_eq_ok_iff.1 (decode_encode raw)

theorem exists_writes (heven : cs.length % 2 = 0) (hdigits : ∀ c ∈ cs, IsDigit c) : ∃ raw, Writes cs raw := by
  induction cs using List.twoStepInduction with
  | nil => exact ⟨[], rfl⟩
  | singleton c => simp at heven
  | cons_cons high low rest ih _ =>
    obtain ⟨hhigh, hlow, hrest⟩ : IsDigit high ∧ IsDigit low ∧ ∀ c ∈ rest, IsDigit c := by simpa using hdigits
    obtain ⟨n, hn, hhigh⟩ := isDigit_iff.1 hhigh
    obtain ⟨m, hm, hlow⟩ := isDigit_iff.1 hlow
    have hlength : rest.length % 2 = 0 := by
      simp only [List.length_cons] at heven
      omega
    obtain ⟨raw, hraw⟩ := ih hlength hrest
    exact ⟨_, hraw.cons_cons hn hm hhigh hlow⟩

theorem Writes.length_eq (h : Writes cs raw) : cs.length = 2 * raw.length := by
  have hlength := congrArg List.length h
  simpa [List.length_flatMap, digits, Nat.mul_comm] using hlength

theorem Writes.isDigit (h : Writes cs raw) (hc : c ∈ cs) : IsDigit c := by
  have hmem : c.toLower ∈ raw.flatMap digits := by
    rw [← h]
    exact List.mem_map_of_mem hc
  have hencode : c.toLower ∈ (encode raw).toList := by rwa [encode, String.toList_ofList]
  exact isDigit_iff.2 (exists_digit_of_mem_encode hencode)

theorem Writes.unique {raw' : Bytes} (h : Writes cs raw) (h' : Writes cs raw') : raw = raw' :=
  Except.ok.inj ((decode_eq_ok_iff.2 h).symm.trans (decode_eq_ok_iff.2 h'))

theorem existsUnique_writes_iff : (∃! raw, Writes cs raw) ↔ cs.length % 2 = 0 ∧ ∀ c ∈ cs, IsDigit c := by
  constructor
  · rintro ⟨raw, hraw, -⟩
    have hlength := hraw.length_eq
    exact ⟨by omega, fun c => hraw.isDigit⟩
  · rintro ⟨heven, hdigits⟩
    obtain ⟨raw, hraw⟩ := exists_writes heven hdigits
    exact ⟨raw, hraw, fun raw' hraw' => hraw'.unique hraw⟩

section Mark

theorem IsDigit.plain (h : IsDigit c) : Text.isBlank c = false ∧ c ≠ 'x' := by
  simp only [IsDigit, Char.le_def, UInt32.le_iff_toNat_le] at h
  have hrange : 48 ≤ c.toNat ∧ c.toNat ≤ 57 ∨ 97 ≤ c.toNat ∧ c.toNat ≤ 102 ∨ 65 ≤ c.toNat ∧ c.toNat ≤ 70 := h
  constructor
  · simp only [Text.isBlank, Bool.or_eq_false_iff, Bool.and_eq_false_iff, decide_eq_false_iff_not, beq_eq_false_iff_ne]
    omega
  · rintro rfl
    revert hrange
    decide

theorem dropMark_eq_self (hcs : 'x' ∉ cs) : dropMark cs = cs := by
  unfold dropMark
  split
  · simp at hcs
  · rfl

theorem dropMark_encode (raw : Bytes) : dropMark (encode raw).toList = (encode raw).toList :=
  dropMark_eq_self fun hx => ((writes_encode raw).isDigit hx).plain.2 rfl

theorem exists_dropMark (cs : List Char) : ∃ mark, cs = mark ++ dropMark cs ∧ (mark = [] ∨ mark = ['0', 'x']) := by
  unfold dropMark
  split
  · exact ⟨['0', 'x'], rfl, Or.inr rfl⟩
  · exact ⟨[], rfl, Or.inl rfl⟩

theorem dropMark_append {mark : List Char} (hmark : mark = [] ∨ mark = ['0', 'x']) (hcs : 'x' ∉ cs) :
    dropMark (mark ++ cs) = cs := by
  rcases hmark with rfl | rfl
  · exact dropMark_eq_self hcs
  · rfl

/-- What a text is without one `0x` in front, if it has one there. -/
def Unmarked (text digits : List Char) : Prop :=
  text = '0' :: 'x' :: digits ∨ ¬ ['0', 'x'] <+: text ∧ text = digits

theorem unmarked_iff {text digits : List Char} : Unmarked text digits ↔ digits = dropMark text := by
  unfold dropMark
  split
  · rename_i rest
    have hmarked : ['0', 'x'] <+: '0' :: 'x' :: rest := ⟨rest, rfl⟩
    constructor
    · rintro (h | ⟨hnot, -⟩)
      · simpa using h.symm
      · exact absurd hmarked hnot
    · rintro rfl
      exact Or.inl rfl
  · rename_i hplain
    have hnot : ¬ ['0', 'x'] <+: text := by
      rintro ⟨rest, hrest⟩
      exact hplain rest hrest.symm
    constructor
    · rintro (h | ⟨-, h⟩)
      · exact absurd h (hplain digits)
      · exact h.symm
    · rintro rfl
      exact Or.inr ⟨hnot, rfl⟩

theorem existsUnique_unmarked (text : List Char) : ∃! digits, Unmarked text digits := by
  simp only [unmarked_iff, existsUnique_eq]

end Mark

section Order

theorem digit_lt_digit_iff : ∀ m < 16, ∀ n < 16, digit m < digit n ↔ m < n := by
  decide

theorem digit_eq_digit_iff : ∀ m < 16, ∀ n < 16, digit m = digit n ↔ m = n := by
  decide

theorem digits_append_lt_iff {a b : UInt8} (as bs : List Char) :
    digits a ++ as < digits b ++ bs ↔ a < b ∨ a = b ∧ as < bs := by
  have ha := a.toNat_lt
  have hb := b.toNat_lt
  have hhigh : a.toNat / 16 < 16 ∧ b.toNat / 16 < 16 := by omega
  have hlow : a.toNat % 16 < 16 ∧ b.toNat % 16 < 16 := by omega
  change digit _ :: digit _ :: as < digit _ :: digit _ :: bs ↔ _
  rw [List.cons_lt_cons_iff, List.cons_lt_cons_iff, digit_lt_digit_iff _ hhigh.1 _ hhigh.2,
    digit_eq_digit_iff _ hhigh.1 _ hhigh.2, digit_lt_digit_iff _ hlow.1 _ hlow.2,
    digit_eq_digit_iff _ hlow.1 _ hlow.2, UInt8.lt_iff_toNat_lt, ← UInt8.toNat_inj]
  by_cases hrest : as < bs
  · simp only [hrest, and_true]
    omega
  · simp only [hrest, and_false, or_false]
    omega

/-- Digits stand in the order of the bytes that they write. -/
theorem flatMap_digits_lt_iff {as bs : Bytes} : as.flatMap digits < bs.flatMap digits ↔ as < bs := by
  induction as generalizing bs with
  | nil =>
    cases bs with
    | nil => exact iff_of_false (List.lt_irrefl _) (List.lt_irrefl _)
    | cons b bs => exact iff_of_true (List.nil_lt_cons _ _) (List.nil_lt_cons _ _)
  | cons a as ih =>
    cases bs with
    | nil => exact iff_of_false (List.not_lt_nil _) (List.not_lt_nil _)
    | cons b bs => rw [List.flatMap_cons, List.flatMap_cons, digits_append_lt_iff, ih, List.cons_lt_cons_iff]

end Order

end Quorate.Hex
