import Quorate.Text.Digit
import Quorate.Value

/-!
# TOML numbers

Integers of 64 bits with sign, in base 10 or without sign in base 16, 8 or 2, and doubles. Single
underscores may stand between digits.
-/

namespace Quorate.Toml

/-- A run of digits with underscores between them: the digits, and what follows. -/
def digitRun (isDigit : Char → Bool) : List Char → List Char × List Char
  | [] => ([], [])
  | c :: rest =>
    if isDigit c then
      let (digits, rest) := digitRun isDigit rest
      (c :: digits, rest)
    else if c = '_' && rest.head?.any isDigit then digitRun isDigit rest
    else ([], c :: rest)

def digits? (isDigit : Char → Bool) (cs : List Char) : Option (List Char × List Char) :=
  if cs.head?.any isDigit then some (digitRun isDigit cs) else none

/-- The digits before the point: a zero stands alone. -/
def whole? : List Char → Option (List Char × List Char)
  | '0' :: rest => some (['0'], rest)
  | cs => digits? Text.isDecimalDigit cs

/-- A sign if there is one, and whether it is a minus. -/
def sign : List Char → Bool × List Char
  | '-' :: rest => (true, rest)
  | '+' :: rest => (false, rest)
  | cs => (false, cs)

def fraction? : List Char → Option (Option (List Char) × List Char)
  | '.' :: rest => (digits? Text.isDecimalDigit rest).map fun (digits, rest) => (some digits, rest)
  | cs => some (none, cs)

/-- The exponent behind its letter, if there is one. -/
def exponent? : List Char → Option (Option Int × List Char)
  | 'e' :: rest | 'E' :: rest =>
    let (negative, rest) := sign rest
    (digits? Text.isDecimalDigit rest).map fun (digits, rest) =>
      (some (if negative then -(Text.ofDecimal digits) else Text.ofDecimal digits), rest)
  | cs => some (none, cs)

/-- An integer in the range of 64 bits with sign. -/
def integer? (negative : Bool) (magnitude : Nat) : Option Value :=
  if negative then if magnitude ≤ Value.signedBound then some (.int (-magnitude)) else none
  else if magnitude < Value.signedBound then some (.int magnitude) else none

/-- A double; a positive number may not be too great for one. -/
def double? (negative : Bool) (whole fraction : List Char) (exponent : Int) : Option Value :=
  let d := Double.ofScientific negative (Text.ofDecimal (whole ++ fraction)) (exponent - fraction.length)
  if d.isInfinite && !negative then none else some (.float d)

def decimal? (cs : List Char) : Option (Value × List Char) :=
  match sign cs with
  | (negative, 'i' :: 'n' :: 'f' :: rest) => some (.float (.infinity negative), rest)
  | (_, 'n' :: 'a' :: 'n' :: rest) => some (.float .nan, rest)
  | (negative, cs) => do
    let (whole, cs) ← whole? cs
    let (fraction, cs) ← fraction? cs
    let (exponent, cs) ← exponent? cs
    match fraction, exponent with
    | none, none => return (← integer? negative (Text.ofDecimal whole), cs)
    | _, _ => return (← double? negative whole (fraction.getD []) (exponent.getD 0), cs)

def based? (base : Nat) (cs : List Char) : Option (Value × List Char) := do
  let (digits, rest) ← digits? (fun c => (Text.digitValue? base c).isSome) cs
  let magnitude ← Text.ofDigits? base digits
  return (← integer? false magnitude, rest)

def number? : List Char → Option (Value × List Char)
  | '0' :: 'x' :: rest => based? 16 rest
  | '0' :: 'o' :: rest => based? 8 rest
  | '0' :: 'b' :: rest => based? 2 rest
  | cs => decimal? cs

end Quorate.Toml
