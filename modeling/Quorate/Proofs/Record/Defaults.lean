import Quorate.Proofs.Record.Fields
import Quorate.Record.Policy

/-!
# Fields that are left out

Policies and signing domains are read back from their fields, and a field that is left out has its standard value. Only
what stands under the names of the fields counts, not the order in which they stand.
-/

namespace Quorate

def Value.without (dropped : String → Bool) : Value → Value
  | map fields => map (fields.filter fun field => !dropped field.1)
  | v => v

/-- The map with another value under one name. -/
def Value.alterField (name : String) (change : Value → Value) : Value → Value
  | map fields => map (fields.map fun (key, v) => (key, if key = name then change v else v))
  | v => v

theorem Value.toText_text (s : String) : (Value.text s).toText = .ok s :=
  rfl

theorem Value.toWord_ofWord (n : UInt64) : (Value.ofWord n).toWord = .ok n := by
  have hrange : 0 ≤ (n.toNat : Int) ∧ (n.toNat : Int) < (UInt64.size : Nat) :=
    ⟨Int.natCast_nonneg _, Int.ofNat_lt.2 n.toNat_lt⟩
  rw [toWord, ofWord, toNatBelow, if_pos hrange, Except.map, Int.toNat_natCast, UInt64.ofNat_toNat]

section Fields

variable {A : Type} {fields : List (String × Value)} {name : String} {v : Value} {a default : A}
  {decode : Value → Except DecodeError A}

theorem getD_read_of_lookup (hlookup : fields.lookup name = some v) (hdecode : decode v = .ok a) :
    ((⟨fields, false, false⟩ : FieldList).read name decode).getD default = .ok a := by
  rw [FieldList.read, Field.getD, hlookup]
  exact hdecode

/-- A field that was written is read, or has its default if it was dropped. -/
theorem getD_read_filter (hlookup : fields.lookup name = some v) (hdecode : decode v = .ok a)
    (dropped : String → Bool) :
    ((⟨fields.filter fun field => !dropped field.1, false, false⟩ : FieldList).read name decode).getD default =
      .ok (if dropped name then default else a) := by
  rw [FieldList.read, Field.getD, lookup_filter fields (fun name => !dropped name), hlookup]
  cases dropped name with
  | true => rfl
  | false => exact hdecode

end Fields

namespace QuorumPolicy

variable {format : TextFormat} {fields : List (String × Value)} {p : QuorumPolicy}

/-- The policy with the standard value in the place of each field that is dropped. -/
def standardWhere (dropped : String → Bool) (p : QuorumPolicy) : QuorumPolicy where
  minSigners := if dropped "min_signers_for_supermajority" then standard.minSigners else p.minSigners
  numerator := if dropped "numerator" then standard.numerator else p.numerator
  denominator := if dropped "denominator" then standard.denominator else p.denominator
  minTotal := if dropped "min_total_voting_power" then standard.minTotal else p.minTotal

theorem ofValue_map {given : FieldList} (hgiven : given = ⟨fields, false, false⟩)
    (hminSigners : (given.read "min_signers_for_supermajority" Value.toWord).getD standard.minSigners = .ok p.minSigners)
    (hnumerator : (given.read "numerator" Value.toWord).getD standard.numerator = .ok p.numerator)
    (hdenominator : (given.read "denominator" Value.toWord).getD standard.denominator = .ok p.denominator)
    (hminTotal : (given.read "min_total_voting_power" Value.toWord).getD standard.minTotal = .ok p.minTotal) :
    ofValue format (.map fields) = .ok p := by
  have hsettled := FieldList.settle_eq_ok (l := given) (by rw [hgiven]) (List.forall_mem_cons.2
    ⟨Field.failure_eq_none_of_getD hminSigners, List.forall_mem_cons.2 ⟨Field.failure_eq_none_of_getD hnumerator,
      List.forall_mem_cons.2 ⟨Field.failure_eq_none_of_getD hdenominator,
        List.forall_mem_singleton.2 (Field.failure_eq_none_of_getD hminTotal)⟩⟩⟩)
  simp only [ofValue, Value.fieldsOf, bind, Except.bind, ← hgiven, hsettled, hminSigners, hnumerator, hdenominator,
    hminTotal]
  rfl

/-- A policy is read back, with standard values in the place of the fields that were dropped. -/
theorem ofValue_without (format : TextFormat) (p : QuorumPolicy) (dropped : String → Bool) :
    ofValue format (p.toValue.without dropped) = .ok (p.standardWhere dropped) :=
  ofValue_map rfl (getD_read_filter rfl (Value.toWord_ofWord p.minSigners) dropped)
    (getD_read_filter rfl (Value.toWord_ofWord p.numerator) dropped)
    (getD_read_filter rfl (Value.toWord_ofWord p.denominator) dropped)
    (getD_read_filter rfl (Value.toWord_ofWord p.minTotal) dropped)

theorem ofValue_toValue (format : TextFormat) (p : QuorumPolicy) : ofValue format p.toValue = .ok p :=
  p.ofValue_without format fun _ => false

end QuorumPolicy

namespace SigningDomains

variable {format : TextFormat} {fields : List (String × Value)} {d : SigningDomains}

/-- The domains with the standard tag in the place of each one that is dropped. -/
def standardWhere (dropped : String → Bool) (d : SigningDomains) : SigningDomains where
  kosk := if dropped "kosk" then standard.kosk else d.kosk
  checkpoint := if dropped "checkpoint" then standard.checkpoint else d.checkpoint
  common := if dropped "common" then standard.common else d.common

theorem ofValue_map {given : FieldList} (hgiven : given = ⟨fields, false, false⟩)
    (hkosk : (given.read "kosk" Value.toText).getD standard.kosk = .ok d.kosk)
    (hcheckpoint : (given.read "checkpoint" Value.toText).getD standard.checkpoint = .ok d.checkpoint)
    (hcommon : (given.read "common" Value.toText).getD standard.common = .ok d.common) :
    ofValue format (.map fields) = .ok d := by
  have hsettled := FieldList.settle_eq_ok (l := given) (by rw [hgiven]) (List.forall_mem_cons.2
    ⟨Field.failure_eq_none_of_getD hkosk, List.forall_mem_cons.2 ⟨Field.failure_eq_none_of_getD hcheckpoint,
      List.forall_mem_singleton.2 (Field.failure_eq_none_of_getD hcommon)⟩⟩)
  simp only [ofValue, Value.fieldsOf, bind, Except.bind, ← hgiven, hsettled, hkosk, hcheckpoint, hcommon]
  rfl

/-- Domains are read back, with standard tags in the place of those that were dropped. -/
theorem ofValue_without (format : TextFormat) (d : SigningDomains) (dropped : String → Bool) :
    ofValue format (d.toValue.without dropped) = .ok (d.standardWhere dropped) :=
  ofValue_map rfl (getD_read_filter rfl (Value.toText_text d.kosk) dropped)
    (getD_read_filter rfl (Value.toText_text d.checkpoint) dropped)
    (getD_read_filter rfl (Value.toText_text d.common) dropped)

theorem ofValue_toValue (format : TextFormat) (d : SigningDomains) : ofValue format d.toValue = .ok d :=
  d.ofValue_without format fun _ => false

end SigningDomains

end Quorate
