import Quorate.Toml.Moment
import Quorate.Toml.Number
import Quorate.Toml.Text
import Quorate.Toml.Tree

/-!
# Reading TOML

A document is read into lines and the lines are assembled into a map. A document that is not well formed,
or that defines something twice, is none.
-/

namespace Quorate.Toml

/-- Lists and inline tables nest, and keys have parts, less deep than this. -/
def maxDepth : Nat := 80

def skipSpace (cs : List Char) : List Char :=
  cs.dropWhile isSpace

def skipComment : List Char → List Char
  | '#' :: rest => rest.dropWhile isPrintable
  | cs => cs

/-- What follows the end of a line, behind blanks and a comment. -/
def lineEnd? (cs : List Char) : Option (List Char) :=
  match skipComment (skipSpace cs) with
  | [] => some []
  | '\n' :: rest => some rest
  | '\r' :: '\n' :: rest => some rest
  | _ => none

/-- What follows blanks, comments and line ends; a comment needs its line end. -/
def skipLines? : (fuel : Nat) → List Char → Option (List Char)
  | 0, _ => none
  | fuel + 1, cs =>
    match skipSpace cs with
    | '#' :: rest =>
      match skipComment ('#' :: rest) with
      | '\n' :: rest => skipLines? fuel rest
      | '\r' :: '\n' :: rest => skipLines? fuel rest
      | _ => none
    | '\n' :: rest => skipLines? fuel rest
    | '\r' :: '\n' :: rest => skipLines? fuel rest
    | '\r' :: _ => none
    | cs => some cs

/-- Whether a key may hold the character without quotes. -/
def isBare (c : Char) : Bool :=
  Text.isDecimalDigit c || ('a' ≤ c && c ≤ 'z') || ('A' ≤ c && c ≤ 'Z') || c == '-' || c == '_'

def simpleKey? (cs : List Char) : Option (String × List Char) :=
  match cs with
  | '"' :: rest => quoted?.named (basicTail? .none rest)
  | '\'' :: rest => quoted?.named (literalTail? rest)
  | _ =>
    let bare := cs.takeWhile isBare
    if bare.isEmpty then none else some (String.ofList bare, cs.dropWhile isBare)

/-- A key: its parts before the last, and the last. Blanks may surround every part. -/
def key? : (fuel : Nat) → List Char → Option (List String × String × List Char)
  | 0, _ => none
  | fuel + 1, cs => do
    let (part, rest) ← simpleKey? (skipSpace cs)
    match skipSpace rest with
    | '.' :: rest =>
      let (parts, last, rest) ← key? fuel rest
      return (part :: parts, last, rest)
    | rest => return ([], part, rest)

/-- A key with fewer than `maxDepth` parts. -/
def dottedKey? (cs : List Char) : Option (List String × String × List Char) :=
  key? (maxDepth - 1) cs

mutual

/-- A value, from its first character. `room` counts how much deeper lists and tables may nest. -/
def value? (room : Nat) : (fuel : Nat) → List Char → Option (Value × List Char)
  | 0, _ => none
  | fuel + 1, cs =>
    match cs with
    | '"' :: _ | '\'' :: _ => (quoted? cs).map fun (s, rest) => (.text s, rest)
    | '[' :: rest => if room = 0 then none else items? (room - 1) [] fuel rest
    | '\x7b' :: rest =>
      if room = 0 then none
      else
        match skipSpace rest with
        | '\x7d' :: rest => some (.map [], rest)
        | rest => entries? (room - 1) [] fuel rest
    | 't' :: 'r' :: 'u' :: 'e' :: rest => some (.bool true, rest)
    | 'f' :: 'a' :: 'l' :: 's' :: 'e' :: rest => some (.bool false, rest)
    | _ =>
      if startsDate cs || startsTime cs then (afterMoment? cs).map (.moment, ·) else number? cs

/-- The items of a list and its end; `done` holds those read, last one first. A comma may stand behind the
last item. -/
def items? (room : Nat) (done : List Value) : (fuel : Nat) → List Char → Option (Value × List Char)
  | 0, _ => none
  | fuel + 1, cs => do
    let cs ← skipLines? (fuel + 1) cs
    match cs with
    | ']' :: rest => return (.list done.reverse, rest)
    | _ =>
      let (v, rest) ← value? room fuel cs
      let rest ← skipLines? (fuel + 1) rest
      match rest with
      | ',' :: rest => items? room (v :: done) fuel rest
      | ']' :: rest => return (.list (v :: done).reverse, rest)
      | _ => none

/-- The entries of an inline table, which is not empty, and its end. -/
def entries? (room : Nat) (done : List (List String × String × Value)) :
    (fuel : Nat) → List Char → Option (Value × List Char)
  | 0, _ => none
  | fuel + 1, cs => do
    let (path, key, rest) ← dottedKey? cs
    let rest ← behind? '=' rest
    let (v, rest) ← value? room fuel (skipSpace rest)
    let done := (path, key, v) :: done
    match skipSpace rest with
    | ',' :: rest => entries? room done fuel rest
    | '\x7d' :: rest => return (← assembleInline? done.reverse, rest)
    | _ => none

end

def line? (cs : List Char) : Option (Line Value × List Char) :=
  match cs with
  | '[' :: '[' :: rest => do
    let (path, key, rest) ← dottedKey? rest
    let rest ← behind? ']' (← behind? ']' rest)
    return (.element path key, ← lineEnd? rest)
  | '[' :: rest => do
    let (path, key, rest) ← dottedKey? rest
    return (.table path key, ← lineEnd? (← behind? ']' rest))
  | cs => do
    let (path, key, rest) ← dottedKey? cs
    let rest ← behind? '=' rest
    let (v, rest) ← value? (maxDepth - 1) (2 * rest.length + 1) (skipSpace rest)
    return (.entry path key v, ← lineEnd? rest)

/-- The lines of a document that say something. -/
def lines? : (fuel : Nat) → List Char → Option (List (Line Value))
  | 0, _ => none
  | fuel + 1, cs =>
    match skipSpace cs with
    | [] => some []
    | '\n' :: rest => lines? fuel rest
    | '\r' :: '\n' :: rest => lines? fuel rest
    | '#' :: rest => do lines? fuel (← lineEnd? ('#' :: rest))
    | cs => do
      let (line, rest) ← line? cs
      return line :: (← lines? fuel rest)

def dropByteOrderMark : List Char → List Char
  | '\uFEFF' :: rest => rest
  | cs => cs

def read? (document : String) : Option Value := do
  let cs := dropByteOrderMark document.toList
  assemble? (← lines? (cs.length + 1) cs)

end Quorate.Toml
