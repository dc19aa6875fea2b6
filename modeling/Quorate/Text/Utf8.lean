import Quorate.Bytes.Basic

/-!
# Reading UTF-8

Bytes are read as UTF-8 text. Where they are not text, the error says where the first bad sequence
starts and how many of its bytes could still have begun a character, or that the input ends inside a
character.
-/

namespace Quorate.Text

/-- Where and how bytes fail to be UTF-8. -/
inductive Utf8Error
  /-- The `length` bytes from `index` begin no character. -/
  | invalid (length index : Nat)
  /-- The input ends within the character that starts at `index`. -/
  | incomplete (index : Nat)
deriving DecidableEq, Repr

def Utf8Error.message : Utf8Error → String
  | .invalid length index => s!"invalid utf-8 sequence of {length} bytes from index {index}"
  | .incomplete index => s!"incomplete utf-8 byte sequence from index {index}"

def isContinuation (b : UInt8) : Bool :=
  0x80 ≤ b && b ≤ 0xbf

/-- Whether `second` may follow `first` in a character of three bytes: no number below U+0800 and no
surrogate. -/
def secondOfThree (first second : UInt8) : Bool :=
  if first = 0xe0 then 0xa0 ≤ second && second ≤ 0xbf
  else if first = 0xed then 0x80 ≤ second && second ≤ 0x9f
  else isContinuation second

/-- Whether `second` may follow `first` in a character of four bytes: no number below U+10000 or above
U+10FFFF. -/
def secondOfFour (first second : UInt8) : Bool :=
  if first = 0xf0 then 0x90 ≤ second && second ≤ 0xbf
  else if first = 0xf4 then 0x80 ≤ second && second ≤ 0x8f
  else isContinuation second

/-- The character whose number is made of the low bits of `lead` and the continuation bytes. -/
def assemble (lead : Nat) (continuation : Bytes) : Char :=
  Char.ofNat (continuation.foldl (fun n b => n * 64 + b.toNat % 64) lead)

/-- Read `bs`, which starts at `index` of the whole input; `done` holds the characters before it, last
one first. -/
def decodeFrom (index : Nat) (done : List Char) : Bytes → Except Utf8Error (List Char)
  | [] => .ok done.reverse
  | b₀ :: r₀ =>
    if b₀ < 0x80 then decodeFrom (index + 1) (assemble b₀.toNat [] :: done) r₀
    else if b₀ < 0xc2 || 0xf4 < b₀ then .error (.invalid 1 index)
    else match r₀ with
      | [] => .error (.incomplete index)
      | b₁ :: r₁ =>
        if b₀ < 0xe0 then
          if !isContinuation b₁ then .error (.invalid 1 index)
          else decodeFrom (index + 2) (assemble (b₀.toNat % 32) [b₁] :: done) r₁
        else if b₀ < 0xf0 then
          if !secondOfThree b₀ b₁ then .error (.invalid 1 index)
          else match r₁ with
            | [] => .error (.incomplete index)
            | b₂ :: r₂ =>
              if !isContinuation b₂ then .error (.invalid 2 index)
              else decodeFrom (index + 3) (assemble (b₀.toNat % 16) [b₁, b₂] :: done) r₂
        else if !secondOfFour b₀ b₁ then .error (.invalid 1 index)
        else match r₁ with
          | [] => .error (.incomplete index)
          | b₂ :: r₂ =>
            if !isContinuation b₂ then .error (.invalid 2 index)
            else match r₂ with
              | [] => .error (.incomplete index)
              | b₃ :: r₃ =>
                if !isContinuation b₃ then .error (.invalid 3 index)
                else decodeFrom (index + 4) (assemble (b₀.toNat % 8) [b₁, b₂, b₃] :: done) r₃

def decodeUtf8 (bs : Bytes) : Except Utf8Error (List Char) :=
  decodeFrom 0 [] bs

end Quorate.Text
