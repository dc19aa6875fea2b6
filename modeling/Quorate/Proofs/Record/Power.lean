import Quorate.Proofs.Json.Integer
import Quorate.Proofs.Record.Scalar
import Quorate.Proofs.Text.Numeral
import Quorate.Proofs.Toml.Integer

/-!
# Powers from text and from integers

A power is read from a numeral between blanks, and written as one. From an integer it is read if the format delivers
the integer and no bit of it is lost in 64 bits without sign; it is then the power that the text of the integer says.
-/

namespace Quorate

namespace TextFormat

/-- The value that the format makes of an integer that stands in its text. -/
def delivers? : TextFormat → ℤ → Option Value
  | json, z => Json.read? (toString z)
  | toml, z => (Toml.read? ("power" ++ " = " ++ toString z ++ "\n")).bind (Value.field? "power")

/-- The integers that the format knows are below this number. -/
def integerBound : TextFormat → ℕ
  | json => UInt64.size
  | toml => Value.signedBound

variable (format : TextFormat) (z : ℤ)

theorem integerBound_le : format.integerBound ≤ UInt64.size := by
  cases format <;> decide

/-- An integer in range is delivered as it is, and any other one as a double if at all. -/
theorem delivers?_eq : ∃ d : Option Double, format.delivers? z =
    if -Value.signedBound ≤ z ∧ z < format.integerBound then some (.int z) else d.map .float := by
  cases format with
  | json => exact Json.read?_toString z
  | toml =>
    have hkey : Toml.BareKey "power" := ⟨by simp, by simp; decide⟩
    refine ⟨none, ?_⟩
    rw [delivers?, Toml.read?_toString hkey, integerBound]
    split_ifs <;> rfl

end TextFormat

namespace VotingPower

variable {format : TextFormat} {z : ℤ} {p : VotingPower}

theorem ofText_toString_natCast (n : ℕ) : ofText (toString (n : ℤ)) = .ok ⟨n⟩ :=
  ofText_text ⟨n⟩

theorem ofValue_int_iff : ofValue format (.int z) = .ok p ↔
    (0 ≤ z ∧ z < UInt64.size) ∧ ofText (toString z) = .ok p := by
  rcases Int.lt_or_le z 0 with hneg | hpos
  · rw [ofValue, if_pos hneg]
    constructor
    · intro h
      cases h
    · rintro ⟨⟨hpos, -⟩, -⟩
      exact absurd hpos (Int.not_le.2 hneg)
  · obtain ⟨n, rfl⟩ := Int.eq_ofNat_of_zero_le hpos
    rw [ofValue, if_neg (Int.not_lt.2 hpos), ofText_toString_natCast, Int.toNat_natCast]
    split_ifs with hlt
    · have hword : 0 ≤ (n : ℤ) ∧ (n : ℤ) < UInt64.size := ⟨hpos, hlt⟩
      rw [Except.ok.injEq, Except.ok.injEq, and_iff_right hword]
    · constructor
      · intro h
        cases h
      · rintro ⟨⟨-, hword⟩, -⟩
        exact absurd hword hlt

/-- From an integer in the text of a format, a power is read if it is in the range of the format and not negative. -/
theorem ofValue_delivered_iff : (∃ v ∈ format.delivers? z, ofValue format v = .ok p) ↔
    (0 ≤ z ∧ z < format.integerBound) ∧ ofText (toString z) = .ok p := by
  obtain ⟨d, hdelivers⟩ := format.delivers?_eq z
  have hbound := format.integerBound_le
  rw [hdelivers]
  split_ifs with hrange
  · simp only [Option.mem_some_iff, exists_eq_left', ofValue_int_iff]
    constructor
    · rintro ⟨⟨hpos, -⟩, htext⟩
      exact ⟨⟨hpos, hrange.2⟩, htext⟩
    · rintro ⟨⟨hpos, hlt⟩, htext⟩
      exact ⟨⟨hpos, by omega⟩, htext⟩
  · constructor
    · rintro ⟨v, hv, hpower⟩
      obtain ⟨x, -, rfl⟩ := Option.map_eq_some_iff.1 hv
      cases hpower
    · rintro ⟨⟨hpos, hlt⟩, -⟩
      exact absurd ⟨by omega, hlt⟩ hrange

/-- Powers are read from exactly the numerals between blanks, as the number that the digits write, and any other text
is the error as it stands. A power is read back from its text, which is also its value in a record. An integer is read
if and only if it fits into 64 bits without sign, as far as the format delivers it, and as its text is. -/
theorem read_as_written :
    (∀ s p, ofText s = .ok p ↔ Written s p.val) ∧
    (∀ s, (∀ n, ¬ Written s n) → ofText s = .error ⟨s⟩) ∧
    (∀ p, ofText p.text = .ok p ∧ p.toValue = .text p.text ∧ ∀ format, ofValue format p.toValue = .ok p) ∧
    (∀ format z p, ofValue format (.int z) = .ok p ↔ (0 ≤ z ∧ z < UInt64.size) ∧ ofText (toString z) = .ok p) ∧
    ∀ (format : TextFormat) z p, (∃ v ∈ format.delivers? z, ofValue format v = .ok p) ↔
      (0 ≤ z ∧ z < format.integerBound) ∧ ofText (toString z) = .ok p := by
  refine ⟨fun s p => ofText_eq_ok_iff, fun s => ofText_of_not_written, fun p => ?_, fun _ _ _ => ofValue_int_iff,
    fun _ _ _ => ofValue_delivered_iff⟩
  exact ⟨ofText_text p, rfl, fun format => ofValue_toValue format p⟩

end VotingPower

end Quorate
