import Quorate.Proofs.Bytes.BigEndian
import Quorate.Proofs.Bytes.Hex
import Quorate.Proofs.SecretStore.Creation

/-!
# Reading back what was written

What a stored value has to look like, so that the steps of a load give bytes: reading it as UTF-8, removing blanks,
removing a mark and reading the digits. The text of an export is of that form, and its bytes are then read as the
key it was exported from.
-/

namespace Quorate

open Bls12381

theorem SecretKey.ofBytes_toBytes (k : SecretKey) : SecretKey.ofBytes k.toBytes = .ok k := by
  have hwidth : groupOrder < 256 ^ 32 := by decide
  have hscalar : Bytes.toNatBE k.toBytes = k.scalar :=
    Bytes.toNatBE_ofNatBE_of_lt (k.lt_order.trans hwidth)
  have hlength : ¬ k.toBytes.length ≠ Material.secretKey.size := by
    simp [toBytes, Material.size]
  have hread : ofScalar? k.scalar = some k := dif_pos ⟨k.pos, k.lt_order⟩
  rw [ofBytes, if_neg hlength, hscalar, hread]

theorem AccountKey.ofBytes_toBytes (k : AccountKey) : AccountKey.ofBytes k.toBytes = .ok k := by
  have hwidth : Secp256k1.groupOrder < 256 ^ 32 := by decide
  have hscalar : Bytes.toNatBE k.toBytes = k.scalar :=
    Bytes.toNatBE_ofNatBE_of_lt (k.lt_order.trans hwidth)
  have hvalid : k.toBytes.length = 32 ∧ 0 < Bytes.toNatBE k.toBytes ∧
      Bytes.toNatBE k.toBytes < Secp256k1.groupOrder := by
    rw [hscalar]
    exact ⟨Bytes.length_ofNatBE 32 k.scalar, k.pos, k.lt_order⟩
  rw [ofBytes, dif_pos hvalid]
  simp only [hscalar]

namespace SecretStore

/-- What stands for the bytes in a store: the UTF-8 form of their digits in either case, between blanks and after
at most one mark. Neither a digit nor the mark has a blank, so no blank is lost between them. -/
def HexText (stored raw : Bytes) : Prop :=
  ∃ lead mark digits trail : List Char,
    stored = (lead ++ (mark ++ digits) ++ trail).flatMap String.utf8EncodeChar ∧
      (∀ c ∈ lead ++ trail, Text.isBlank c = true) ∧ (mark = [] ∨ mark = ['0', 'x']) ∧ Hex.Writes digits raw

theorem decodeStored_eq_ok_iff {name : String} {stored raw : Bytes} :
    decodeStored name stored = .ok raw ↔ HexText stored raw := by
  constructor
  · intro h
    unfold decodeStored at h
    split at h
    · cases h
    · rename_i text htext
      split at h
      · cases h
      · rename_i raw' hraw
        cases h
        obtain ⟨lead, trail, hsplit, hblank⟩ := Text.exists_trim text
        obtain ⟨mark, hmark, hkind⟩ := Hex.exists_dropMark (Text.trim text)
        refine ⟨lead, mark, _, trail, ?_, hblank, hkind, Hex.decode_eq_ok_iff.1 hraw⟩
        rw [← hmark, ← hsplit]
        exact Text.decodeUtf8_eq_ok_iff.1 htext
  · rintro ⟨lead, mark, digits, trail, hstored, hblank, hkind, hwrites⟩
    have htext := Text.decodeUtf8_eq_ok_iff.2 hstored
    have hplain : ∀ c ∈ mark ++ digits, Text.isBlank c = false := by
      intro c hc
      rcases List.mem_append.1 hc with hc | hc
      · rcases hkind with rfl | rfl
        · cases hc
        · have hnone : ∀ c ∈ ['0', 'x'], Text.isBlank c = false := by simp [Text.isBlank]
          exact hnone c hc
      · exact (hwrites.isDigit hc).plain.1
    have htrim := Text.trim_append hblank hplain
    have hmark : Hex.dropMark (mark ++ digits) = digits :=
      Hex.dropMark_append hkind fun hx => (hwrites.isDigit hx).plain.2 rfl
    simp only [decodeStored, htext, htrim, hmark, Hex.decode_eq_ok_iff.2 hwrites]

example : decodeStored nodeKeyName (Bytes.ofText " 0xAb\n") = .ok [0xab] := by cbv

example : decodeStored nodeKeyName (Bytes.ofText "0x0xAb") =
    .error (.invalid nodeKeyName (.notHex (.badDigit 120 1))) := by cbv

theorem decodeStored_ofText_encode (name : String) (raw : Bytes) :
    decodeStored name (Bytes.ofText (Hex.encode raw)) = .ok raw :=
  decodeStored_eq_ok_iff.2 ⟨[], [], _, [], by simp [Bytes.ofText], nofun, Or.inl rfl, Hex.writes_encode raw⟩

variable {A : Type} {s : SecretStore} {name : String} {decode : Bytes → Except SecretFault A}

theorem load_of_absent (h : s.lookup? name = none) : s.load name decode = .ok none := by
  simp [load, contains, h]

theorem read_eq_ok_iff {stored : Bytes} :
    s.read name = .ok stored ↔ s.readRefusal = none ∧ s.lookup? name = some stored := by
  unfold read
  split
  · rename_i h
    simp [h]
  · rename_i h
    split <;> simp_all

/-- A load gives a value just when the store can be read and what stands under the name is read all through. -/
theorem load_eq_some_iff {value : A} :
    s.load name decode = .ok (some value) ↔ s.readRefusal = none ∧ ∃ stored raw,
      s.lookup? name = some stored ∧ decodeStored name stored = .ok raw ∧ decode raw = .ok value := by
  constructor
  · intro h
    by_cases hcontains : s.contains name = true
    · rw [load, if_pos hcontains] at h
      obtain ⟨stored, hstored, hrest⟩ := bind_eq_ok h
      obtain ⟨raw, hraw, hlast⟩ := bind_eq_ok hrest
      obtain ⟨value', hvalue, hsame⟩ := bind_eq_ok hlast
      obtain rfl : value' = value := by simpa [pure, Except.pure] using hsame
      obtain ⟨hread, hlookup⟩ := read_eq_ok_iff.1 hstored
      exact ⟨hread, stored, raw, hlookup, hraw, mapError_eq_ok hvalue⟩
    · rw [load, if_neg hcontains] at h
      cases h
  · rintro ⟨hread, stored, raw, hlookup, hraw, hvalue⟩
    have hcontains : s.contains name = true := by
      simp [contains, hlookup]
    have hstored : s.read name = .ok stored := read_eq_ok_iff.2 ⟨hread, hlookup⟩
    rw [load, if_pos hcontains, hstored]
    simp only [bind, Except.bind, hraw, hvalue]
    rfl

theorem load_of_stored {raw : Bytes} {value : A} (hread : s.readRefusal = none)
    (hstored : s.lookup? name = some (Bytes.ofText (Hex.encode raw))) (hdecode : decode raw = .ok value) :
    s.load name decode = .ok (some value) :=
  load_eq_some_iff.2 ⟨hread, _, raw, hstored, decodeStored_ofText_encode name raw, hdecode⟩

end SecretStore

end Quorate
