import Quorate.Address
import Quorate.Decimal.Shortest
import Quorate.Key.Error
import Quorate.Value
import Quorate.VotingPower

/-!
# Reading records from value trees

A record is given as a map of its fields or as a list of them in the order of their declaration. Fields
are read in the order in which they stand, and the first that cannot be read is the error; only then do
absent fields count. Fields that a record does not know are passed over.
-/

namespace Quorate

inductive TextFormat
  | json
  | toml
deriving DecidableEq, Repr

namespace TextFormat

/-- How messages write a double that was found. -/
def doubleForm : TextFormat → Double.Form
  | json => .compact
  | toml => .positional

/-- Whether a list may have more items than the record has fields. -/
def allowsSurplus : TextFormat → Bool
  | json => false
  | toml => true

end TextFormat

/-- Why a value is not what is asked for. -/
inductive DecodeError
  /-- The value is of the wrong kind, out of range, or a list of the wrong length. -/
  | wrongShape
  | missingField (name : String)
  | address (cause : AddressError)
  | key (cause : KeyError)
  | powerText (cause : PowerTextError)
  | negativePower
  /-- A power was asked for, and something else was found. -/
  | notAPower (found : String)
deriving DecidableEq

def DecodeError.message? : DecodeError → Option String
  | wrongShape => none
  | missingField name => some ("missing field \x60" ++ name ++ "\x60")
  | address cause => some cause.message
  | key cause => some cause.message
  | powerText cause => some cause.message
  | negativePower => some "voting power cannot be negative"
  | notAPower found => some s!"invalid type: {found}, expected a non-negative integer or decimal string"

/-- How messages call a value that is neither an integer nor a text. -/
def Value.kind (format : TextFormat) : Value → String
  | null => "null"
  | bool b => "boolean \x60" ++ toString b ++ "\x60"
  | int n => "integer \x60" ++ toString n ++ "\x60"
  | float d => "floating point \x60" ++ d.text format.doubleForm ++ "\x60"
  | text s => s!"string {Text.quoted s}"
  | list _ => "sequence"
  | moment | map _ => "map"

/-- The fields that a value gives to a record, in the order in which they are read. -/
structure FieldList where
  fields : List (String × Value)
  /-- Whether the fields are told by their positions, so that an absent one is not reported by name. -/
  positional : Bool
  /-- Whether the value holds more than the record can take. -/
  surplus : Bool

/-- A field as it was read; an absent field has no outcome. -/
structure Field (A : Type) where
  name : String
  outcome : Option (Except DecodeError A)

namespace Field

variable {A : Type}

def failure (f : Field A) : String × Option DecodeError :=
  (f.name, match f.outcome with
    | some (.error e) => some e
    | _ => none)

def getD (f : Field A) (default : A) : Except DecodeError A :=
  f.outcome.getD (.ok default)

end Field

/-- The fields of a record with the given field names, in the order of declaration. A date has no field
that any record knows. -/
def Value.fieldsOf (format : TextFormat) (names : List String) : Value → Except DecodeError FieldList
  | map fields => .ok ⟨fields, false, false⟩
  | moment => .ok ⟨[], false, false⟩
  | list items => .ok ⟨names.zip items, true, !format.allowsSurplus && decide (names.length < items.length)⟩
  | _ => .error .wrongShape

namespace FieldList

variable {A : Type}

def read (l : FieldList) (name : String) (decode : Value → Except DecodeError A) : Field A :=
  ⟨name, (l.fields.lookup name).map decode⟩

/-- Fail with the first failure in reading order. -/
def settle (l : FieldList) (failures : List (String × Option DecodeError)) : Except DecodeError Unit :=
  match l.fields.findSome? fun (name, _) => (failures.lookup name).join with
  | some e => .error e
  | none => if l.surplus then .error .wrongShape else .ok ()

def required (l : FieldList) (f : Field A) : Except DecodeError A :=
  match f.outcome with
  | some outcome => outcome
  | none => .error (if l.positional then .wrongShape else .missingField f.name)

end FieldList

end Quorate
