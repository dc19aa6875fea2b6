import Quorate.Key.SecretKey
import Quorate.Proofs.Key.Encodings

/-!
# Hexadecimal forms

Which texts are read as an address, as a key or as a signature, what is said of the others, and how the text of an
address stands to the address. A text may have `0x` in front once; what is left of it counts.
-/

namespace Quorate

open Hex

variable {s : String} {digits : List Char} {raw : Bytes}

theorem length_written_eq_utf8ByteSize (cs : List Char) :
    (cs.flatMap String.utf8EncodeChar).length = (String.ofList cs).utf8ByteSize :=
  List.size_toByteArray.symm

theorem utf8ByteSize_of_isDigit (h : ∀ c ∈ digits, IsDigit c) : (String.ofList digits).utf8ByteSize = digits.length := by
  rw [← length_written_eq_utf8ByteSize]
  induction digits with
  | nil => rfl
  | cons c rest ih =>
    obtain ⟨hc, hrest⟩ := List.forall_mem_cons.1 h
    obtain ⟨n, hn, hdigit⟩ := isDigit_iff.1 hc
    obtain ⟨b, hb, -⟩ := exists_byte_of_toLower_eq hn hdigit
    rw [List.flatMap_cons, hb, List.singleton_append, List.length_cons, ih hrest, List.length_cons]

namespace Address

theorem toList_toHex (a : Address) : a.toHex.toList = '0' :: 'x' :: a.bytes.flatMap Hex.digits := by
  have hdigits : (encode a.bytes).toList = a.bytes.flatMap Hex.digits := String.toList_ofList
  rw [toHex, String.toList_append, hdigits]
  rfl

theorem lt_iff_toHex_lt {a b : Address} : a < b ↔ a.toHex < b.toHex := by
  rw [String.lt_iff_toList_lt, toList_toHex, toList_toHex]
  simp only [List.cons_lt_cons_iff, Char.lt_irrefl, false_or, true_and, flatMap_digits_lt_iff]
  rfl

/-- The length is looked at before the digits. -/
theorem ofHex_cases (h : Unmarked s.toList digits) :
    (String.ofList digits).utf8ByteSize ≠ 40 ∧
        ofHex s = .error (.wrongLength ((String.ofList digits).utf8ByteSize / 2)) ∨
      (String.ofList digits).utf8ByteSize = 40 ∧ (¬ ∀ c ∈ digits, IsDigit c) ∧ ofHex s = .error .notHex ∨
      (String.ofList digits).utf8ByteSize = 40 ∧ (∀ c ∈ digits, IsDigit c) ∧
        ∃ a, Writes digits a.bytes ∧ ofHex s = .ok a := by
  obtain rfl := unmarked_iff.1 h
  unfold ofHex
  simp only [length_written_eq_utf8ByteSize]
  by_cases hlength : (String.ofList (dropMark s.toList)).utf8ByteSize = 40
  · rw [if_neg (not_not.2 hlength)]
    right
    by_cases hdigits : ∀ c ∈ dropMark s.toList, IsDigit c
    · have hcount := (utf8ByteSize_of_isDigit hdigits).symm.trans hlength
      obtain ⟨raw, hraw⟩ := exists_writes (by rw [hcount]) hdigits
      have hsize : raw.length = 20 := by
        have := hraw.length_eq
        omega
      refine Or.inr ⟨hlength, hdigits, ⟨raw, hsize⟩, hraw, ?_⟩
      rw [decode_eq_ok_iff.2 hraw]
      exact dif_pos hsize
    · refine Or.inl ⟨hlength, hdigits, ?_⟩
      cases hread : decode (dropMark s.toList) with
      | ok raw => exact absurd (fun c => (decode_eq_ok_iff.1 hread).isDigit) hdigits
      | error cause => rfl
  · rw [if_pos hlength]
    exact Or.inl ⟨hlength, rfl⟩

/-- What is read as an address is forty digits, and the address is written with these, in lower case. -/
theorem exists_ofHex_iff (h : Unmarked s.toList digits) :
    (∃ a, ofHex s = .ok a) ↔ digits.length = 40 ∧ ∀ c ∈ digits, IsDigit c := by
  constructor
  · rintro ⟨a, ha⟩
    rcases ofHex_cases h with ⟨-, he⟩ | ⟨-, -, he⟩ | ⟨hlength, hdigits, -⟩
    · cases ha.symm.trans he
    · cases ha.symm.trans he
    · exact ⟨(utf8ByteSize_of_isDigit hdigits).symm.trans hlength, hdigits⟩
  · rintro ⟨hcount, hdigits⟩
    have hlength := (utf8ByteSize_of_isDigit hdigits).trans hcount
    rcases ofHex_cases h with ⟨hne, -⟩ | ⟨-, hnot, -⟩ | ⟨-, -, a, -, ha⟩
    · exact absurd hlength hne
    · exact absurd hdigits hnot
    · exact ⟨a, ha⟩

theorem toHex_of_ofHex (h : Unmarked s.toList digits) {a : Address} (ha : ofHex s = .ok a) :
    a.toHex.toList = '0' :: 'x' :: digits.map Char.toLower := by
  rcases ofHex_cases h with ⟨-, he⟩ | ⟨-, -, he⟩ | ⟨-, -, b, hwrites, hb⟩
  · cases ha.symm.trans he
  · cases ha.symm.trans he
  · obtain rfl := Except.ok.inj (ha.symm.trans hb)
    rw [toList_toHex, hwrites]

theorem ofHex_eq_wrongLength_iff (h : Unmarked s.toList digits) {n : ℕ} : ofHex s = .error (.wrongLength n) ↔
    (String.ofList digits).utf8ByteSize ≠ 40 ∧ n = (String.ofList digits).utf8ByteSize / 2 := by
  rcases ofHex_cases h with ⟨hne, he⟩ | ⟨hlength, -, he⟩ | ⟨hlength, -, a, -, ha⟩
  · rw [he]
    simp [hne, eq_comm]
  · simp [he, hlength]
  · simp [ha, hlength]

theorem ofHex_eq_notHex_iff (h : Unmarked s.toList digits) : ofHex s = .error .notHex ↔
    (String.ofList digits).utf8ByteSize = 40 ∧ ¬ ∀ c ∈ digits, IsDigit c := by
  rcases ofHex_cases h with ⟨hne, he⟩ | ⟨hlength, hnot, he⟩ | ⟨-, hdigits, a, -, ha⟩
  · simp [he, hne]
  · exact iff_of_true he ⟨hlength, hnot⟩
  · rw [ha]
    exact iff_of_false nofun fun hno => hno.2 hdigits

/-- Whether there is a mark in front makes no difference. -/
theorem ofHex_congr {t : String} (hs : Unmarked s.toList digits) (ht : Unmarked t.toList digits) :
    ofHex s = ofHex t := by
  rw [ofHex, ofHex, ← unmarked_iff.1 hs, ← unmarked_iff.1 ht]

theorem ofHex_encode (a : Address) : ofHex (encode a.bytes) = .ok a := by
  have hplain : Unmarked (encode a.bytes).toList (encode a.bytes).toList :=
    unmarked_iff.2 (dropMark_encode a.bytes).symm
  have hmarked : Unmarked a.toHex.toList (encode a.bytes).toList := by
    rw [toHex, String.toList_append]
    exact Or.inl rfl
  rw [ofHex_congr hplain hmarked, ofHex_toHex]

end Address

/-- How hexadecimal text is read by way of bytes. Digits in either case, two for each byte, are read as their bytes are;
any other text is no encoding. -/
structure ReadsHex {A : Type} (ofBytes : Bytes → Except KeyError A) (ofHex : String → Except KeyError A) : Prop where
  eq_ok_iff : ∀ s digits a, Unmarked s.toList digits → (ofHex s = .ok a ↔
    digits.length % 2 = 0 ∧ (∀ c ∈ digits, IsDigit c) ∧ ∃ raw, Writes digits raw ∧ ofBytes raw = .ok a)
  eq_of_writes : ∀ s digits raw, Unmarked s.toList digits → Writes digits raw → ofHex s = ofBytes raw
  malformed : ∀ s digits, Unmarked s.toList digits → ¬ (digits.length % 2 = 0 ∧ ∀ c ∈ digits, IsDigit c) →
    ∃ cause, ofHex s = .error (.notHex cause) ∧ (KeyError.notHex cause).category = .encoding

theorem materialOfHex_of_writes (h : Unmarked s.toList digits) (hwrites : Writes digits raw) :
    materialOfHex s = .ok raw := by
  obtain rfl := unmarked_iff.1 h
  rw [materialOfHex, decode_eq_ok_iff.2 hwrites]
  rfl

theorem materialOfHex_of_malformed (h : Unmarked s.toList digits)
    (hnot : ¬ (digits.length % 2 = 0 ∧ ∀ c ∈ digits, IsDigit c)) : ∃ cause, materialOfHex s = .error (.notHex cause) := by
  obtain rfl := unmarked_iff.1 h
  rw [materialOfHex]
  cases hread : decode (dropMark s.toList) with
  | ok raw =>
    have hwrites := decode_eq_ok_iff.1 hread
    have heven := hwrites.length_eq
    exact absurd ⟨by omega, fun c => hwrites.isDigit⟩ hnot
  | error cause => exact ⟨cause, rfl⟩

theorem readsHex_materialOfHex {A : Type} (ofBytes : Bytes → Except KeyError A) :
    ReadsHex ofBytes fun s => materialOfHex s >>= ofBytes := by
  have hwritten : ∀ s digits raw, Unmarked s.toList digits → Writes digits raw →
      materialOfHex s >>= ofBytes = ofBytes raw := by
    intro s digits raw h hwrites
    rw [materialOfHex_of_writes h hwrites]
    rfl
  have hmalformed : ∀ s digits, Unmarked s.toList digits → ¬ (digits.length % 2 = 0 ∧ ∀ c ∈ digits, IsDigit c) →
      ∃ cause, materialOfHex s >>= ofBytes = .error (.notHex cause) := by
    intro s digits h hnot
    obtain ⟨cause, hcause⟩ := materialOfHex_of_malformed h hnot
    exact ⟨cause, by rw [hcause]; rfl⟩
  refine ⟨?_, hwritten, ?_⟩
  · intro s digits a h
    constructor
    · intro ha
      by_cases hdigits : digits.length % 2 = 0 ∧ ∀ c ∈ digits, IsDigit c
      · obtain ⟨raw, hraw⟩ := exists_writes hdigits.1 hdigits.2
        exact ⟨hdigits.1, hdigits.2, raw, hraw, (hwritten s digits raw h hraw).symm.trans ha⟩
      · obtain ⟨cause, hcause⟩ := hmalformed s digits h hdigits
        cases ha.symm.trans hcause
    · rintro ⟨-, -, raw, hraw, ha⟩
      exact (hwritten s digits raw h hraw).trans ha
  · intro s digits h hnot
    obtain ⟨cause, hcause⟩ := hmalformed s digits h hnot
    exact ⟨cause, hcause, rfl⟩

/-- Every text leaves one text when its mark is removed. An address is read from exactly forty digits, in either case,
and written with these in lower case; any other text has the wrong length in bytes, or else a byte that is no digit. Keys
and signatures are read as the bytes that digits write. An address is read back from its text, with the mark and without,
and the texts of addresses stand in the order of the addresses. -/
theorem hexForms_exact :
    (∀ s : String, ∃! digits, Unmarked s.toList digits) ∧
    (∀ (s : String) digits, Unmarked s.toList digits →
      ((∃ a, Address.ofHex s = .ok a) ↔ digits.length = 40 ∧ ∀ c ∈ digits, IsDigit c) ∧
      (∀ a, Address.ofHex s = .ok a → a.toHex.toList = '0' :: 'x' :: digits.map Char.toLower) ∧
      (∀ n, Address.ofHex s = .error (.wrongLength n) ↔
        (String.ofList digits).utf8ByteSize ≠ 40 ∧ n = (String.ofList digits).utf8ByteSize / 2) ∧
      (Address.ofHex s = .error .notHex ↔
        (String.ofList digits).utf8ByteSize = 40 ∧ ¬ ∀ c ∈ digits, IsDigit c)) ∧
    ReadsHex PublicKey.ofBytes PublicKey.ofHex ∧ ReadsHex Signature.ofBytes Signature.ofHex ∧
    ReadsHex SecretKey.ofBytes SecretKey.ofHex ∧
    (∀ a : Address, Address.ofHex a.toHex = .ok a ∧ ∃ plain, a.toHex = "0x" ++ plain ∧ Address.ofHex plain = .ok a) ∧
    ∀ a b : Address, a < b ↔ a.toHex < b.toHex := by
  refine ⟨fun s => existsUnique_unmarked s.toList, ?_, readsHex_materialOfHex _, readsHex_materialOfHex _,
    readsHex_materialOfHex _, ?_, fun a b => Address.lt_iff_toHex_lt⟩
  · intro s digits h
    exact ⟨Address.exists_ofHex_iff h, fun a => Address.toHex_of_ofHex h, fun n => Address.ofHex_eq_wrongLength_iff h,
      Address.ofHex_eq_notHex_iff h⟩
  · intro a
    exact ⟨a.ofHex_toHex, _, rfl, a.ofHex_encode⟩

-- Twenty characters of two bytes each have the length of an address.
example : Address.ofHex (String.ofList ('0' :: 'x' :: List.replicate 20 'é')) = .error .notHex := by
  decide

end Quorate
