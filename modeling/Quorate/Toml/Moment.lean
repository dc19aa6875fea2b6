import Quorate.Text.Digit

/-!
# TOML dates and times

A date, a time, or a date with a time and perhaps an offset. The readers only find out where it ends:
nothing in a configuration is a date.
-/

namespace Quorate.Toml

def fixedNumber? (count : Nat) (cs : List Char) : Option (Nat × List Char) :=
  let digits := cs.take count
  if digits.length = count ∧ digits.all Text.isDecimalDigit then
    some (Text.ofDecimal digits, cs.drop count)
  else none

/-- A number of two digits from `low` to `high`. -/
def twoDigits? (low high : Nat) (cs : List Char) : Option (Nat × List Char) :=
  (fixedNumber? 2 cs).filter fun (n, _) => low ≤ n && n ≤ high

/-- What follows the given character. -/
def behind? (mark : Char) : List Char → Option (List Char)
  | c :: rest => if c = mark then some rest else none
  | [] => none

def daysOf (year month : Nat) : Nat :=
  if month = 2 then if year % 4 = 0 ∧ (year % 100 ≠ 0 ∨ year % 400 = 0) then 29 else 28
  else if month = 4 ∨ month = 6 ∨ month = 9 ∨ month = 11 then 30
  else 31

def startsDate (cs : List Char) : Bool :=
  ((fixedNumber? 4 cs).bind fun (_, rest) => behind? '-' rest).isSome

def startsTime (cs : List Char) : Bool :=
  ((twoDigits? 0 23 cs).bind fun (_, rest) => behind? ':' rest).isSome

/-- Hour, minute, second, and digits of a fraction of a second. -/
def afterTime? (cs : List Char) : Option (List Char) := do
  let (_, cs) ← twoDigits? 0 23 cs
  let (_, cs) ← twoDigits? 0 59 (← behind? ':' cs)
  let (_, cs) ← twoDigits? 0 60 (← behind? ':' cs)
  match cs with
  | '.' :: c :: rest =>
    if Text.isDecimalDigit c then return rest.dropWhile Text.isDecimalDigit else return cs
  | _ => return cs

/-- An offset behind a time, if there is one. -/
def afterOffset? : List Char → Option (List Char)
  | 'Z' :: rest | 'z' :: rest => some rest
  | '+' :: rest | '-' :: rest => do
    let (_, cs) ← twoDigits? 0 23 rest
    let (_, cs) ← twoDigits? 0 59 (← behind? ':' cs)
    return cs
  | cs => some cs

/-- A day that exists. -/
def afterDate? (cs : List Char) : Option (List Char) := do
  let (year, cs) ← fixedNumber? 4 cs
  let (month, cs) ← twoDigits? 1 12 (← behind? '-' cs)
  let (day, cs) ← twoDigits? 1 31 (← behind? '-' cs)
  if day ≤ daysOf year month then return cs else none

/-- The time behind a date, if there is one. -/
def afterDelimitedTime? : List Char → Option (List Char)
  | c :: rest =>
    if (c = 'T' || c = 't' || c = ' ') && startsTime rest then (afterTime? rest).bind afterOffset?
    else some (c :: rest)
  | [] => some []

/-- What follows a date or a time, from its first character. -/
def afterMoment? (cs : List Char) : Option (List Char) :=
  if startsDate cs then (afterDate? cs).bind afterDelimitedTime? else afterTime? cs

end Quorate.Toml
