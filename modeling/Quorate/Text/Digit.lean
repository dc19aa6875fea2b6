/-!
# Digits

The ASCII digits and the numbers that they write, in base 10 and in the bases up to 16.
-/

namespace Quorate.Text

def isDecimalDigit (c : Char) : Bool :=
  '0' ≤ c && c ≤ '9'

def ofDecimal (digits : List Char) : Nat :=
  digits.foldl (fun n c => 10 * n + (c.toNat - 48)) 0

/-- The value of an ASCII digit, letters in either case, if it is below `base`. -/
def digitValue? (base : Nat) (c : Char) : Option Nat :=
  let value? :=
    if isDecimalDigit c then some (c.toNat - 48)
    else if 'a' ≤ c && c ≤ 'f' then some (c.toNat - 87)
    else if 'A' ≤ c && c ≤ 'F' then some (c.toNat - 55)
    else none
  value?.filter (· < base)

def ofDigits? (base : Nat) (digits : List Char) : Option Nat :=
  digits.foldlM (fun n c => (digitValue? base c).map (base * n + ·)) 0

end Quorate.Text
