import Quorate.Toml.Tree

/-!
# Writing TOML

A document is written line by line, a blank line before each header. A text is quoted in the first way
that can hold it without escapes: double quotes, single quotes, three double quotes, three single quotes;
if none can, in double quotes with escapes. Line ends need three quotes, and three quotes are followed by
a line end that does not count if the text has line ends. A number that TOML does not have, and a text
with too many equal quotes in a row, cannot be written; numbers are checked before texts.
-/

namespace Quorate.Toml

/-- What is written behind a key. -/
inductive Plain
  | number (n : Nat)
  | text (s : String)
  /-- A list without items. -/
  | noItems
deriving DecidableEq, Repr

inductive WriteError
  /-- TOML has integers of 64 bits with sign only. -/
  | numberTooGreat (n : Nat)
  /-- A text has more than `quoteLimit` equal quotes in a row. -/
  | tooManyQuotes (s : String)
deriving DecidableEq, Repr

/-- The value that is read where `p` was written. -/
def Plain.toValue : Plain → Value
  | number n => .int n
  | text s => .text s
  | noItems => .list []

/-- The ASCII control characters, tabulator and line feed apart. -/
def isControl (c : Char) : Bool :=
  (c.toNat < 0x20 && c ≠ '\t' && c ≠ '\n') || c.toNat == 0x7f

/-- The length of the longest run of `c`, when `run` of them stand before the characters. -/
def longestRun (c : Char) (run : Nat) : List Char → Nat
  | [] => run
  | d :: rest => if d = c then longestRun c (run + 1) rest else max run (longestRun c 0 rest)

def upperDigit (n : Nat) : Char :=
  Char.ofNat (if n < 10 then 48 + n else 55 + n)

def controlEscape (c : Char) : List Char :=
  ['\\', 'u', '0', '0', upperDigit (c.toNat / 16), upperDigit (c.toNat % 16)]

/-- A character between double quotes, quotes and line ends apart. -/
def escapeChar (c : Char) : List Char :=
  if c = '\x08' then ['\\', 'b']
  else if c = '\t' then ['\\', 't']
  else if c = '\x0c' then ['\\', 'f']
  else if c = '\r' then ['\\', 'r']
  else if c = '\\' then ['\\', '\\']
  else if isControl c then controlEscape c
  else [c]

/-- A text between double quotes on one line. -/
def escapeBasic : List Char → List Char
  | [] => []
  | c :: rest =>
    (if c = '"' then ['\\', '"'] else if c = '\n' then ['\\', 'n'] else escapeChar c) ++ escapeBasic rest

/-- A text between three double quotes, when it has `run` quotes right before the characters: every third
quote in a row is escaped. -/
def escapeMultiline (run : Nat) : List Char → List Char
  | [] => []
  | c :: rest =>
    if c = '"' then
      if run < 2 then '"' :: escapeMultiline (run + 1) rest else '\\' :: '"' :: escapeMultiline 0 rest
    else if c = '\n' then '\n' :: escapeMultiline 0 rest
    else escapeChar c ++ escapeMultiline 0 rest

/-- The opening quotes of a text of several lines. -/
def openMultiline (quote : Char) (s : List Char) : List Char :=
  [quote, quote, quote] ++ if s.any (· == '\n') then ['\n'] else []

def writeText (s : List Char) : List Char :=
  let control := s.any isControl
  let backslash := s.any (· == '\\')
  let newline := s.any (· == '\n')
  let doubles := longestRun '"' 0 s
  let singles := longestRun '\'' 0 s
  let basic := '"' :: escapeBasic s ++ ['"']
  let multilineBasic := openMultiline '"' s ++ escapeMultiline 0 s ++ ['"', '"', '"']
  if !control && !backslash && doubles == 0 && !newline then basic
  else if !control && singles == 0 && !newline then '\'' :: s ++ ['\'']
  else if !control && !backslash && doubles ≤ 2 then multilineBasic
  else if !control && singles ≤ 2 then openMultiline '\'' s ++ s ++ ['\'', '\'', '\'']
  else if newline then multilineBasic
  else basic

def Plain.write : Plain → List Char
  | number n => Nat.toDigits 10 n
  | text s => writeText s.toList
  | noItems => ['[', ']']

/-- The greatest number of equal quotes in a row. -/
def quoteLimit : Nat := 255

def Plain.checkNumber : Plain → Except WriteError Unit
  | number n => if n < Value.signedBound then .ok () else .error (.numberTooGreat n)
  | _ => .ok ()

/-- Check that the quotes in a text can be counted. -/
def Plain.checkText : Plain → Except WriteError Unit
  | text s =>
    if longestRun '"' 0 s.toList ≤ quoteLimit ∧ longestRun '\'' 0 s.toList ≤ quoteLimit then .ok ()
    else .error (.tooManyQuotes s)
  | _ => .ok ()

/-- A dotted key; the parts need no quotes. -/
def writeKey (path : List String) (key : String) : List Char :=
  (path.flatMap fun part => part.toList ++ ['.']) ++ key.toList

def Line.write : Line Plain → List Char
  | .entry path key value => writeKey path key ++ [' ', '=', ' '] ++ value.write ++ ['\n']
  | .table path key => ['\n', '['] ++ writeKey path key ++ [']', '\n']
  | .element path key => ['\n', '[', '['] ++ writeKey path key ++ [']', ']', '\n']

def Line.value? {V : Type} : Line V → Option V
  | .entry _ _ value => some value
  | _ => none

def write (lines : List (Line Plain)) : Except WriteError String := do
  let values := lines.filterMap Line.value?
  values.forM Plain.checkNumber
  values.forM Plain.checkText
  return String.ofList (lines.flatMap Line.write)

end Quorate.Toml
