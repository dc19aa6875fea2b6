/-!
# Log events

What an operation reports to the log, as values. An operation's events are a function of its arguments
and its outcome, so the operation itself needs no log.
-/

namespace Quorate

inductive Level
  | debug
  | info
  | warn
deriving DecidableEq, Repr

inductive FieldValue
  | number (n : Nat)
  | text (s : String)
  | flag (b : Bool)
deriving DecidableEq, Repr

/-- One entry of the log. -/
structure Event where
  level : Level
  message : String
  fields : List (String × FieldValue)
deriving DecidableEq, Repr

end Quorate
