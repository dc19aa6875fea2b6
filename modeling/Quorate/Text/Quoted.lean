import Quorate.Text.Escaped

/-!
# Quoted text in messages

Messages quote a text in double quotes and a single character in single quotes. A backslash and the
quote in use are written after a backslash, as are tabulator, line feed, carriage return and the zero
character; the other characters that a reader could not see are written by their number in base 16.
-/

namespace Quorate.Text

/-- The number of a character between braces, in lowercase base 16 without leading zeros. -/
def numericEscape (c : Char) : List Char :=
  ['\\', 'u', '\x7b'] ++ Nat.toDigits 16 c.toNat ++ ['\x7d']

/-- A character as it stands between two of the given quotes. -/
def quoteChar (quote c : Char) : List Char :=
  if c = '\x00' then ['\\', '0']
  else if c = '\t' then ['\\', 't']
  else if c = '\n' then ['\\', 'n']
  else if c = '\r' then ['\\', 'r']
  else if c = '\\' ∨ c = quote then ['\\', c]
  else if isEscaped c then numericEscape c
  else [c]

def quoted (s : String) : String :=
  String.ofList ('"' :: s.toList.flatMap (quoteChar '"') ++ ['"'])

def quotedChar (c : Char) : String :=
  String.ofList ('\'' :: quoteChar '\'' c ++ ['\''])

end Quorate.Text
