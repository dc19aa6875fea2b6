import Quorate.Text.Digit

/-!
# TOML texts

The four ways in which TOML quotes a text: with double quotes, where a backslash begins an escape, and
with single quotes, where it does not; each on one line or, with the quote three times, on several. The
readers start behind the opening quotes and give the text and what follows the closing quotes.
-/

namespace Quorate.Toml

def isSpace (c : Char) : Bool :=
  c == ' ' || c == '\t'

/-- The characters that may stand on a line: tabs and all that are no control characters of ASCII. -/
def isPrintable (c : Char) : Bool :=
  c == '\t' || (0x20 ≤ c.toNat && c.toNat ≠ 0x7f)

/-- How far an escape has been read. -/
inductive Escape
  | none
  /-- Its backslash. -/
  | begun
  /-- `left` more digits are to come; those read write `number`. -/
  | numeric (left number : Nat)
  /-- A backslash at the end of a line, which takes all blanks and line ends that follow; whether the line
  end has been read. -/
  | folding (ended : Bool)
deriving DecidableEq, Repr

/-- What follows from one character within an escape. -/
inductive EscapeStep
  | goOn (escape : Escape)
  | done (c : Char)
deriving DecidableEq, Repr

/-- The character behind a backslash. -/
def beginEscape : Char → Option EscapeStep
  | '"' => some (.done '"')
  | '\\' => some (.done '\\')
  | 'b' => some (.done '\x08')
  | 'f' => some (.done '\x0c')
  | 'n' => some (.done '\n')
  | 'r' => some (.done '\r')
  | 't' => some (.done '\t')
  | 'u' => some (.goOn (.numeric 4 0))
  | 'U' => some (.goOn (.numeric 8 0))
  | _ => none

/-- One more digit of a numeric escape; the number has to be that of a character. -/
def numericStep (left number : Nat) (c : Char) : Option EscapeStep := do
  let digit ← Text.digitValue? 16 c
  let number := 16 * number + digit
  if 1 < left then return .goOn (.numeric (left - 1) number)
  else if number.isValidChar then return .done (Char.ofNat number)
  else none

/-- A text in double quotes on one line. -/
def basicTail? : Escape → List Char → Option (List Char × List Char)
  | _, [] => none
  | .none, c :: rest =>
    if c = '"' then some ([], rest)
    else if c = '\\' then basicTail? .begun rest
    else if isPrintable c then (basicTail? .none rest).map fun (s, rest) => (c :: s, rest)
    else none
  | .begun, c :: rest =>
    match beginEscape c with
    | some (.goOn escape) => basicTail? escape rest
    | some (.done d) => (basicTail? .none rest).map fun (s, rest) => (d :: s, rest)
    | none => none
  | .numeric left number, c :: rest =>
    match numericStep left number c with
    | some (.goOn escape) => basicTail? escape rest
    | some (.done d) => (basicTail? .none rest).map fun (s, rest) => (d :: s, rest)
    | none => none
  | .folding _, _ :: _ => none

def literalTail? : List Char → Option (List Char × List Char)
  | [] => none
  | c :: rest =>
    if c = '\'' then some ([], rest)
    else if isPrintable c then (literalTail? rest).map fun (s, rest) => (c :: s, rest)
    else none

def dropLineEnd : List Char → List Char
  | '\n' :: rest => rest
  | '\r' :: '\n' :: rest => rest
  | cs => cs

/-- The end of a text of several lines, if the characters begin with the quote three times: up to two more
quotes before the last three belong to the text. -/
def closing? (quote : Char) (cs : List Char) : Option (List Char × List Char) :=
  let run := (cs.takeWhile (· == quote)).length
  if run < 3 then none else some (List.replicate (min (run - 3) 2) quote, cs.drop (min run 5))

/-- A text in single quotes on several lines. A carriage return stands before a line feed only and does not
count. -/
def multilineLiteralTail? : List Char → Option (List Char × List Char)
  | [] => none
  | c :: rest =>
    match closing? '\'' (c :: rest) with
    | some ending => some ending
    | none =>
      if c = '\r' then if rest.head? = some '\n' then multilineLiteralTail? rest else none
      else if c = '\n' || isPrintable c then
        (multilineLiteralTail? rest).map fun (s, rest) => (c :: s, rest)
      else none

def multilineBasicTail? : Escape → List Char → Option (List Char × List Char)
  | _, [] => none
  | .begun, c :: rest =>
    if isSpace c then multilineBasicTail? (.folding false) rest
    else if c = '\n' then multilineBasicTail? (.folding true) rest
    else if c = '\r' then
      if rest.head? = some '\n' then multilineBasicTail? (.folding false) rest else none
    else
      match beginEscape c with
      | some (.goOn escape) => multilineBasicTail? escape rest
      | some (.done d) => (multilineBasicTail? .none rest).map fun (s, rest) => (d :: s, rest)
      | none => none
  | .numeric left number, c :: rest =>
    match numericStep left number c with
    | some (.goOn escape) => multilineBasicTail? escape rest
    | some (.done d) => (multilineBasicTail? .none rest).map fun (s, rest) => (d :: s, rest)
    | none => none
  | .folding false, c :: rest =>
    if isSpace c then multilineBasicTail? (.folding false) rest
    else if c = '\n' then multilineBasicTail? (.folding true) rest
    else if c = '\r' && rest.head? = some '\n' then multilineBasicTail? (.folding false) rest
    else none
  | escape, c :: rest =>
    if escape = .folding true && (isSpace c || c = '\n') then multilineBasicTail? (.folding true) rest
    else if c = '\r' then
      if rest.head? = some '\n' then multilineBasicTail? escape rest else none
    else
      match closing? '"' (c :: rest) with
      | some ending => some ending
      | none =>
        if c = '\\' then multilineBasicTail? .begun rest
        else if c = '\n' || isPrintable c then
          (multilineBasicTail? .none rest).map fun (s, rest) => (c :: s, rest)
        else none

def quoted? : List Char → Option (String × List Char)
  | '"' :: '"' :: '"' :: rest => named (multilineBasicTail? .none (dropLineEnd rest))
  | '"' :: rest => named (basicTail? .none rest)
  | '\'' :: '\'' :: '\'' :: rest => named (multilineLiteralTail? (dropLineEnd rest))
  | '\'' :: rest => named (literalTail? rest)
  | _ => none
where
  named (read : Option (List Char × List Char)) : Option (String × List Char) :=
    read.map fun (s, rest) => (String.ofList s, rest)

end Quorate.Toml
