import Mathlib
import Quorate.Text.Utf8

/-!
# Reading UTF-8 inverts writing it

The sequences that the reader takes for characters come in four lengths, each with its ranges of bytes. They are
the sequences that characters are written with, so reading gives a text just on that text's bytes.
-/

namespace Quorate.Text

/-- The bytes that the reader takes for a character, in ranges of numbers. -/
inductive Sequence : Bytes → Char → Prop
  | one {b₀ : UInt8} (h₀ : b₀.toNat < 128) : Sequence [b₀] (assemble b₀.toNat [])
  | two {b₀ b₁ : UInt8} (h₀ : 194 ≤ b₀.toNat ∧ b₀.toNat < 224) (h₁ : isContinuation b₁ = true) :
    Sequence [b₀, b₁] (assemble (b₀.toNat % 32) [b₁])
  | three {b₀ b₁ b₂ : UInt8} (h₀ : 224 ≤ b₀.toNat ∧ b₀.toNat < 240) (h₁ : secondOfThree b₀ b₁ = true)
    (h₂ : isContinuation b₂ = true) : Sequence [b₀, b₁, b₂] (assemble (b₀.toNat % 16) [b₁, b₂])
  | four {b₀ b₁ b₂ b₃ : UInt8} (h₀ : 240 ≤ b₀.toNat ∧ b₀.toNat ≤ 244) (h₁ : secondOfFour b₀ b₁ = true)
    (h₂ : isContinuation b₂ = true) (h₃ : isContinuation b₃ = true) :
    Sequence [b₀, b₁, b₂, b₃] (assemble (b₀.toNat % 8) [b₁, b₂, b₃])

variable {b b₀ b₁ b₂ b₃ : UInt8} {bs rest : Bytes} {cs done : List Char} {c : Char} {index n : Nat}

section Ranges

theorem isContinuation_iff : isContinuation b = true ↔ 128 ≤ b.toNat ∧ b.toNat ≤ 191 := by
  simp [isContinuation, UInt8.le_iff_toNat_le]

/-- A second byte is a continuation, from `low` on after the byte `first` and up to `high` after the byte `last`. -/
theorem second_iff {first low last high : UInt8} (hne : first ≠ last) (hlow : 128 ≤ low.toNat)
    (hhigh : high.toNat ≤ 191) :
    (if b₀ = first then low ≤ b₁ && b₁ ≤ 0xbf
      else if b₀ = last then 0x80 ≤ b₁ && b₁ ≤ high else isContinuation b₁) = true ↔
    (128 ≤ b₁.toNat ∧ b₁.toNat ≤ 191) ∧ (b₀.toNat = first.toNat → low.toNat ≤ b₁.toNat) ∧
      (b₀.toNat = last.toNat → b₁.toNat ≤ high.toNat) := by
  have hfirst : b₀ = first ↔ b₀.toNat = first.toNat := UInt8.toNat_inj.symm
  have hlast : b₀ = last ↔ b₀.toNat = last.toNat := UInt8.toNat_inj.symm
  have hnumbers : first.toNat ≠ last.toNat := fun h => hne (UInt8.toNat_inj.1 h)
  simp only [hfirst, hlast]
  split_ifs with h h'
  · simp [UInt8.le_iff_toNat_le]
    omega
  · simp [UInt8.le_iff_toNat_le]
    omega
  · rw [isContinuation_iff]
    simp [h, h']

theorem secondOfThree_iff : secondOfThree b₀ b₁ = true ↔ (128 ≤ b₁.toNat ∧ b₁.toNat ≤ 191) ∧
    (b₀.toNat = 224 → 160 ≤ b₁.toNat) ∧ (b₀.toNat = 237 → b₁.toNat ≤ 159) :=
  second_iff (by decide) (by decide) (by decide)

theorem secondOfFour_iff : secondOfFour b₀ b₁ = true ↔ (128 ≤ b₁.toNat ∧ b₁.toNat ≤ 191) ∧
    (b₀.toNat = 240 → 144 ≤ b₁.toNat) ∧ (b₀.toNat = 244 → b₁.toNat ≤ 143) :=
  second_iff (by decide) (by decide) (by decide)

theorem lt_two_iff : b < 0x80 ↔ b.toNat < 128 := UInt8.lt_iff_toNat_lt

theorem lt_three_iff : b < 0xe0 ↔ b.toNat < 224 := UInt8.lt_iff_toNat_lt

theorem lt_four_iff : b < 0xf0 ↔ b.toNat < 240 := UInt8.lt_iff_toNat_lt

theorem not_lead_iff : (b < 0xc2 || 0xf4 < b) = true ↔ b.toNat < 194 ∨ 244 < b.toNat := by
  simp [UInt8.lt_iff_toNat_lt]

end Ranges

section Written

theorem ofNat_eq_of_toNat (h : n = b.toNat) : UInt8.ofNat n = b := by
  rw [h, UInt8.ofNat_toNat]

theorem toNat_assemble {lead : Nat} {continuation : Bytes}
    (hn : n = continuation.foldl (fun n b => n * 64 + b.toNat % 64) lead)
    (hvalid : n < 55296 ∨ 57343 < n ∧ n < 1114112) : (assemble lead continuation).val.toNat = n := by
  rw [assemble, ← hn]
  exact (Char.toNat_ofNat n).trans (if_pos hvalid)

theorem Sequence.written (h : Sequence bs c) : String.utf8EncodeChar c = bs := by
  cases h with
  | @one b₀ h₀ =>
    have hn : (assemble b₀.toNat []).val.toNat = b₀.toNat := toNat_assemble rfl (by omega)
    rw [String.utf8EncodeChar, hn, if_pos (by omega), UInt8.ofNat_toNat]
  | @two b₀ b₁ h₀ h₁ =>
    rw [isContinuation_iff] at h₁
    have hn : (assemble (b₀.toNat % 32) [b₁]).val.toNat = b₀.toNat % 32 * 64 + b₁.toNat % 64 :=
      toNat_assemble rfl (by omega)
    rw [String.utf8EncodeChar, hn, if_neg (by omega), if_pos (by omega)]
    congr 2
    · exact ofNat_eq_of_toNat (by omega)
    · exact ofNat_eq_of_toNat (by omega)
  | @three b₀ b₁ b₂ h₀ h₁ h₂ =>
    rw [secondOfThree_iff] at h₁
    rw [isContinuation_iff] at h₂
    have hn : (assemble (b₀.toNat % 16) [b₁, b₂]).val.toNat =
        (b₀.toNat % 16 * 64 + b₁.toNat % 64) * 64 + b₂.toNat % 64 :=
      toNat_assemble rfl (by omega)
    rw [String.utf8EncodeChar, hn, if_neg (by omega), if_neg (by omega), if_pos (by omega)]
    congr 3
    · exact ofNat_eq_of_toNat (by omega)
    · exact ofNat_eq_of_toNat (by omega)
    · exact ofNat_eq_of_toNat (by omega)
  | @four b₀ b₁ b₂ b₃ h₀ h₁ h₂ h₃ =>
    rw [secondOfFour_iff] at h₁
    rw [isContinuation_iff] at h₂ h₃
    have hn : (assemble (b₀.toNat % 8) [b₁, b₂, b₃]).val.toNat =
        ((b₀.toNat % 8 * 64 + b₁.toNat % 64) * 64 + b₂.toNat % 64) * 64 + b₃.toNat % 64 :=
      toNat_assemble rfl (by omega)
    rw [String.utf8EncodeChar, hn, if_neg (by omega), if_neg (by omega), if_neg (by omega)]
    congr 4
    · exact ofNat_eq_of_toNat (by omega)
    · exact ofNat_eq_of_toNat (by omega)
    · exact ofNat_eq_of_toNat (by omega)
    · exact ofNat_eq_of_toNat (by omega)

theorem toNat_ofNat_of_lt (h : n < 256) : (UInt8.ofNat n).toNat = n := by
  rw [UInt8.toNat_ofNat']
  omega

/-- Every character is written with a sequence of its own. -/
theorem sequence_written (c : Char) : Sequence (String.utf8EncodeChar c) c := by
  have hvalid : c.val.toNat < 55296 ∨ 57343 < c.val.toNat ∧ c.val.toNat < 1114112 := c.valid
  have hnumber : ∀ bs {lead continuation}, Sequence bs (assemble lead continuation) →
      continuation.foldl (fun n b => n * 64 + b.toNat % 64) lead = c.val.toNat → Sequence bs c := by
    intro bs lead continuation h hn
    have hc : assemble lead continuation = c := by
      rw [assemble, hn]
      exact Char.ofNat_toNat c
    rwa [hc] at h
  rw [String.utf8EncodeChar]
  generalize c.val.toNat = v at hvalid hnumber ⊢
  split_ifs with hone htwo hthree
  · have h₀ : (UInt8.ofNat v).toNat = v := toNat_ofNat_of_lt (by omega)
    refine hnumber _ (.one ?_) ?_
    · omega
    · exact h₀
  · have h₀ : (UInt8.ofNat (v / 64 % 32 + 192)).toNat = v / 64 % 32 + 192 := toNat_ofNat_of_lt (by omega)
    have h₁ : (UInt8.ofNat (v % 64 + 128)).toNat = v % 64 + 128 := toNat_ofNat_of_lt (by omega)
    refine hnumber _ (.two ?_ ?_) ?_
    · omega
    · rw [isContinuation_iff]
      omega
    · simp only [List.foldl, h₀, h₁]
      omega
  · have h₀ : (UInt8.ofNat (v / 4096 % 16 + 224)).toNat = v / 4096 % 16 + 224 := toNat_ofNat_of_lt (by omega)
    have h₁ : (UInt8.ofNat (v / 64 % 64 + 128)).toNat = v / 64 % 64 + 128 := toNat_ofNat_of_lt (by omega)
    have h₂ : (UInt8.ofNat (v % 64 + 128)).toNat = v % 64 + 128 := toNat_ofNat_of_lt (by omega)
    refine hnumber _ (.three ?_ ?_ ?_) ?_
    · omega
    · rw [secondOfThree_iff]
      omega
    · rw [isContinuation_iff]
      omega
    · simp only [List.foldl, h₀, h₁, h₂]
      omega
  · have h₀ : (UInt8.ofNat (v / 262144 % 8 + 240)).toNat = v / 262144 % 8 + 240 := toNat_ofNat_of_lt (by omega)
    have h₁ : (UInt8.ofNat (v / 4096 % 64 + 128)).toNat = v / 4096 % 64 + 128 := toNat_ofNat_of_lt (by omega)
    have h₂ : (UInt8.ofNat (v / 64 % 64 + 128)).toNat = v / 64 % 64 + 128 := toNat_ofNat_of_lt (by omega)
    have h₃ : (UInt8.ofNat (v % 64 + 128)).toNat = v % 64 + 128 := toNat_ofNat_of_lt (by omega)
    refine hnumber _ (.four ?_ ?_ ?_ ?_) ?_
    · omega
    · rw [secondOfFour_iff]
      omega
    · rw [isContinuation_iff]
      omega
    · rw [isContinuation_iff]
      omega
    · simp only [List.foldl, h₀, h₁, h₂, h₃]
      omega

end Written

/-- A sequence that begins below 128 is that one byte. -/
theorem Sequence.eq_of_lead_lt (h : Sequence (b :: bs) c) (hb : b.toNat < 128) :
    bs = [] ∧ c = assemble b.toNat [] := by
  cases h with
  | one => exact ⟨rfl, rfl⟩
  | two h₀ => omega
  | three h₀ => omega
  | four h₀ => omega

/-- The reader takes a sequence for its character and goes on behind it. -/
theorem Sequence.decodeFrom_append (h : Sequence bs c) :
    decodeFrom index done (bs ++ rest) = decodeFrom (index + bs.length) (c :: done) rest := by
  rw [decodeFrom.eq_def]
  cases h with
  | one h₀ =>
    simp only [List.cons_append, lt_two_iff]
    rw [if_pos h₀]
    rfl
  | two h₀ h₁ =>
    simp only [List.cons_append, lt_two_iff, not_lead_iff, lt_three_iff, h₁]
    rw [if_neg (by omega), if_neg (by omega), if_pos h₀.2]
    rfl
  | three h₀ h₁ h₂ =>
    simp only [List.cons_append, lt_two_iff, not_lead_iff, lt_three_iff, lt_four_iff, h₁, h₂]
    rw [if_neg (by omega), if_neg (by omega), if_neg (by omega), if_pos h₀.2]
    rfl
  | four h₀ h₁ h₂ h₃ =>
    simp only [List.cons_append, lt_two_iff, not_lead_iff, lt_three_iff, lt_four_iff, h₁, h₂, h₃]
    rw [if_neg (by omega), if_neg (by omega), if_neg (by omega), if_neg (by omega)]
    rfl

/-- Where the reader gives a text, it has taken a sequence for each further character. -/
theorem written_of_decodeFrom (h : decodeFrom index done bs = .ok cs) :
    ∃ more, cs = done.reverse ++ more ∧ bs = more.flatMap String.utf8EncodeChar := by
  have hcons : ∀ {sequence rest c done}, Sequence sequence c →
      (∃ more, cs = (c :: done).reverse ++ more ∧ rest = more.flatMap String.utf8EncodeChar) →
      ∃ more, cs = done.reverse ++ more ∧ sequence ++ rest = more.flatMap String.utf8EncodeChar := by
    rintro sequence rest c done hc ⟨more, rfl, rfl⟩
    exact ⟨c :: more, by simp, by rw [List.flatMap_cons, hc.written]⟩
  -- the reader goes on in four cases, one for each number of bytes; in the others it stops with an error
  fun_induction decodeFrom index done bs <;> try cases h
  case case1 => exact ⟨[], by simp⟩
  case case2 hone ih =>
    rw [lt_two_iff] at hone
    exact hcons (.one hone) (ih h)
  case case6 b₀ hone hlead b₁ rest htwo hcont ih =>
    rw [not_lead_iff] at hlead
    rw [lt_three_iff] at htwo
    rw [Bool.not_eq_true', Bool.not_eq_false] at hcont
    exact hcons (.two (by omega) hcont) (ih h)
  case case10 b₀ hone hlead b₁ htwo hthree hsecond b₂ rest hcont ih =>
    rw [lt_three_iff] at htwo
    rw [lt_four_iff] at hthree
    rw [Bool.not_eq_true', Bool.not_eq_false] at hsecond hcont
    exact hcons (.three (by omega) hsecond hcont) (ih h)
  case case16 b₀ hone hlead b₁ htwo hthree hsecond b₂ hcont b₃ rest hcont' ih =>
    rw [not_lead_iff] at hlead
    rw [lt_four_iff] at hthree
    rw [Bool.not_eq_true', Bool.not_eq_false] at hsecond hcont hcont'
    exact hcons (.four (by omega) hsecond hcont hcont') (ih h)

theorem decodeFrom_written (cs : List Char) (index : Nat) (done : List Char) :
    decodeFrom index done (cs.flatMap String.utf8EncodeChar) = .ok (done.reverse ++ cs) := by
  induction cs generalizing index done with
  | nil => simp [decodeFrom]
  | cons c cs ih =>
    rw [List.flatMap_cons, (sequence_written c).decodeFrom_append, ih]
    simp

theorem decodeUtf8_eq_ok_iff : decodeUtf8 bs = .ok cs ↔ bs = cs.flatMap String.utf8EncodeChar := by
  constructor
  · intro h
    obtain ⟨more, rfl, hbs⟩ := written_of_decodeFrom h
    exact hbs
  · rintro rfl
    exact decodeFrom_written cs 0 []

end Quorate.Text
