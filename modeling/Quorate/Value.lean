import Quorate.Bytes.Basic
import Quorate.Decimal.Double

/-!
# Value trees

What a text format writes, once its spelling is gone: scalars, lists, and maps whose fields stand in an
order. Records are read from such trees and written as such trees.
-/

namespace Quorate

/-- A tree of values. -/
inductive Value
  | null
  | bool (b : Bool)
  | int (n : Int)
  | float (d : Double)
  | text (s : String)
  /-- A date, a time, or both; nothing here asks which. -/
  | moment
  | list (items : List Value)
  | map (fields : List (String × Value))
deriving Repr, Inhabited

namespace Value

/-- Integers of 64 bits with sign are below this number and not below its negative. -/
def signedBound : Nat := 0x8000000000000000

/-- The value of a field that stands in a map. -/
def field? (name : String) : Value → Option Value
  | map fields => fields.lookup name
  | _ => none

/-- A list of byte values. -/
def ofBytes (bs : Bytes) : Value :=
  list (bs.map fun b => int b.toNat)

end Value

end Quorate
