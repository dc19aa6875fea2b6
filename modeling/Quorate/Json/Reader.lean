import Quorate.Json.Number

/-!
# Reading JSON

JSON text is read into a value tree. The fields of an object stand in ascending order of their names,
and of several fields of one name the last counts.
-/

namespace Quorate.Json

/-- The four blank characters of JSON. -/
def isBlank (c : Char) : Bool :=
  c == ' ' || c == '\t' || c == '\n' || c == '\r'

def skipBlank (cs : List Char) : List Char :=
  cs.dropWhile isBlank

/-- What follows `word` at the start of the text. -/
def after? : (word : List Char) → List Char → Option (List Char)
  | [], rest => some rest
  | w :: word, c :: rest => if w = c then after? word rest else none
  | _ :: _, [] => none

/-- The four digits of a numeric escape. -/
def unit? : List Char → Option (Nat × List Char)
  | a :: b :: c :: d :: rest => (Text.ofDigits? 16 [a, b, c, d]).map (·, rest)
  | _ => none

/-- The character of a numeric escape; a character above U+FFFF is written as two escapes. -/
def numericEscape? (cs : List Char) : Option (Char × List Char) := do
  let (first, rest) ← unit? cs
  if first < 0xd800 || 0xdfff < first then return (Char.ofNat first, rest)
  else if 0xdc00 ≤ first then none
  else
    let rest ← after? ['\\', 'u'] rest
    let (second, rest) ← unit? rest
    if 0xdc00 ≤ second && second ≤ 0xdfff then
      return (Char.ofNat (0x10000 + (first - 0xd800) * 0x400 + (second - 0xdc00)), rest)
    else none

/-- The character of an escape, from behind its backslash. -/
def escape? : List Char → Option (Char × List Char)
  | '"' :: rest => some ('"', rest)
  | '\\' :: rest => some ('\\', rest)
  | '/' :: rest => some ('/', rest)
  | 'b' :: rest => some ('\x08', rest)
  | 'f' :: rest => some ('\x0c', rest)
  | 'n' :: rest => some ('\n', rest)
  | 'r' :: rest => some ('\r', rest)
  | 't' :: rest => some ('\t', rest)
  | 'u' :: rest => numericEscape? rest
  | _ => none

/-- A text from behind its opening quote; `done` holds the characters read, last one first. -/
def textTail? (done : List Char) : (fuel : Nat) → List Char → Option (String × List Char)
  | 0, _ => none
  | _ + 1, [] => none
  | fuel + 1, c :: rest =>
    if c = '"' then some (String.ofList done.reverse, rest)
    else if c = '\\' then do
      let (d, rest) ← escape? rest
      textTail? (d :: done) fuel rest
    else if c.toNat < 0x20 then none
    else textTail? (c :: done) fuel rest

def digits? (cs : List Char) : Option (List Char × List Char) :=
  let digits := cs.takeWhile Text.isDecimalDigit
  if digits.isEmpty then none else some (digits, cs.dropWhile Text.isDecimalDigit)

/-- The digits before the point: a zero stands alone. -/
def whole? : List Char → Option (List Char × List Char)
  | '0' :: rest => if Text.isDecimalDigit (rest.headD ' ') then none else some (['0'], rest)
  | cs => digits? cs

def exponent? (cs : List Char) : Option (Int × List Char) := do
  let (negative, cs) := match cs with
    | '-' :: rest => (true, rest)
    | '+' :: rest => (false, rest)
    | _ => (false, cs)
  let (digits, rest) ← digits? cs
  let magnitude := Text.ofDecimal digits
  return (if negative then -magnitude else magnitude, rest)

def numeral? (cs : List Char) : Option (Numeral × List Char) := do
  let (negative, cs) := match cs with
    | '-' :: rest => (true, rest)
    | _ => (false, cs)
  let (whole, cs) ← whole? cs
  let (fraction, cs) ← match cs with
    | '.' :: rest => (digits? rest).map fun (digits, rest) => (some digits, rest)
    | _ => some (none, cs)
  let (exponent, cs) ← match cs with
    | 'e' :: rest | 'E' :: rest => (exponent? rest).map fun (e, rest) => (some e, rest)
    | _ => some (none, cs)
  return (⟨negative, whole, fraction, exponent⟩, cs)

/-- Put a field in its place, instead of an earlier one of the same name. -/
def putField (name : String) (value : Value) : List (String × Value) → List (String × Value)
  | [] => [(name, value)]
  | (n, v) :: rest =>
    if name < n then (name, value) :: (n, v) :: rest
    else if name = n then (name, value) :: rest
    else (n, v) :: putField name value rest

mutual

/-- A value, from its first character or blanks before it. -/
def value? : (fuel : Nat) → List Char → Option (Value × List Char)
  | 0, _ => none
  | fuel + 1, cs =>
    match skipBlank cs with
    | '"' :: rest => (textTail? [] fuel rest).map fun (s, rest) => (.text s, rest)
    | '[' :: rest =>
      match skipBlank rest with
      | ']' :: rest => some (.list [], rest)
      | rest => items? [] fuel rest
    | '\x7b' :: rest =>
      match skipBlank rest with
      | '\x7d' :: rest => some (.map [], rest)
      | rest => fields? [] fuel rest
    | 't' :: rest => (after? ['r', 'u', 'e'] rest).map (.bool true, ·)
    | 'f' :: rest => (after? ['a', 'l', 's', 'e'] rest).map (.bool false, ·)
    | 'n' :: rest => (after? ['u', 'l', 'l'] rest).map (.null, ·)
    | cs => do
      let (n, rest) ← numeral? cs
      return (← n.toValue?, rest)

/-- The items of a list and its end; `done` holds those read, last one first. -/
def items? (done : List Value) : (fuel : Nat) → List Char → Option (Value × List Char)
  | 0, _ => none
  | fuel + 1, cs => do
    let (v, rest) ← value? fuel cs
    match skipBlank rest with
    | ',' :: rest => items? (v :: done) fuel rest
    | ']' :: rest => return (.list (v :: done).reverse, rest)
    | _ => none

def fields? (done : List (String × Value)) : (fuel : Nat) → List Char → Option (Value × List Char)
  | 0, _ => none
  | fuel + 1, cs => do
    let cs ← after? ['"'] (skipBlank cs)
    let (name, rest) ← textTail? [] fuel cs
    let rest ← after? [':'] (skipBlank rest)
    let (v, rest) ← value? fuel rest
    match skipBlank rest with
    | ',' :: rest => fields? (putField name v done) fuel rest
    | '\x7d' :: rest => return (.map (putField name v done), rest)
    | _ => none

end

def read? (text : String) : Option Value :=
  let cs := text.toList
  match value? (2 * cs.length + 1) cs with
  | some (v, rest) => if (skipBlank rest).isEmpty then some v else none
  | none => none

end Quorate.Json
