import Quorate.Bytes.Basic
import Quorate.Text.Quoted

/-!
# Hexadecimal text

Bytes are written as two lowercase base-16 digits each. Reading takes digits in either case and says
what is wrong with a text that is no such form: an odd number of bytes before anything else, then the
first byte that is no digit.
-/

namespace Quorate.Hex

/-- The lowercase digit for a number below 16. -/
def digit (n : Nat) : Char :=
  Char.ofNat (if n < 10 then 48 + n else 87 + n)

def digits (b : UInt8) : List Char :=
  [digit (b.toNat / 16), digit (b.toNat % 16)]

/-- Two lowercase digits per byte. -/
def encode (bs : Bytes) : String :=
  String.ofList (bs.flatMap digits)

inductive Error
  | oddLength
  /-- The byte at `index` of the text's UTF-8 form is no digit. -/
  | badDigit (byte : UInt8) (index : Nat)
deriving DecidableEq, Repr

/-- The byte is shown as the character of that number. -/
def Error.message : Error → String
  | .oddLength => "Odd number of digits"
  | .badDigit byte index =>
    s!"Invalid character {Text.quotedChar (Char.ofNat byte.toNat)} at position {index}"

/-- The value of an ASCII digit of either case. -/
def value? (b : UInt8) : Option Nat :=
  let n := b.toNat
  if 48 ≤ n ∧ n ≤ 57 then some (n - 48)
  else if 97 ≤ n ∧ n ≤ 102 then some (n - 87)
  else if 65 ≤ n ∧ n ≤ 70 then some (n - 55)
  else none

/-- Read digits two by two; the first stands at `index`. -/
def decodePairs (index : Nat) : Bytes → Except Error Bytes
  | high :: low :: rest =>
    match value? high, value? low with
    | none, _ => .error (.badDigit high index)
    | some _, none => .error (.badDigit low (index + 1))
    | some h, some l => (decodePairs (index + 2) rest).map (UInt8.ofNat (16 * h + l) :: ·)
  | _ => .ok []

def decode (cs : List Char) : Except Error Bytes :=
  let text := cs.flatMap String.utf8EncodeChar
  if text.length % 2 = 1 then .error .oddLength else decodePairs 0 text

/-- The text without one leading `0x`. -/
def dropMark : List Char → List Char
  | '0' :: 'x' :: rest => rest
  | cs => cs

theorem value?_of_digit : ∀ n < 16, 
    ∃ b, String.utf8EncodeChar (digit n) = [b] ∧ value? b = some n := by
  have h : ∀ n < 16, (String.utf8EncodeChar (digit n)).map value? = [some n] := by decide
  exact fun n hn => List.map_eq_singleton_iff.1 (h n hn)

theorem decodePairs_digits (index : Nat) (bs : Bytes) :
    decodePairs index ((bs.flatMap digits).flatMap String.utf8EncodeChar) = .ok bs := by
  induction bs generalizing index with
  | nil => rfl
  | cons b bs ih =>
    have hb := b.toNat_lt
    obtain ⟨high, hh, hv⟩ := value?_of_digit (b.toNat / 16) (by omega)
    obtain ⟨low, hl, hw⟩ := value?_of_digit (b.toNat % 16) (by omega)
    have hsum : 16 * (b.toNat / 16) + b.toNat % 16 = b.toNat := Nat.div_add_mod ..
    simp only [List.flatMap_cons, digits, hh, hl, List.cons_append, List.nil_append, decodePairs, hv, hw, ih,
      hsum, UInt8.ofNat_toNat]
    rfl

theorem length_digits (bs : Bytes) :
    ((bs.flatMap digits).flatMap String.utf8EncodeChar).length = 2 * bs.length := by
  induction bs with
  | nil => rfl
  | cons b bs ih =>
    have hb := b.toNat_lt
    obtain ⟨high, hh, hv⟩ := value?_of_digit (b.toNat / 16) (by omega)
    obtain ⟨low, hl, hw⟩ := value?_of_digit (b.toNat % 16) (by omega)
    simp only [List.flatMap_cons, List.flatMap_append, digits, hh, hl, List.length_append, ih,
      List.flatMap_nil, List.length_cons, List.length_nil]
    omega

theorem decode_encode (bs : Bytes) : decode (encode bs).toList = .ok bs := by
  have heven : ¬ ((bs.flatMap digits).flatMap String.utf8EncodeChar).length % 2 = 1 := by
    rw [length_digits]
    omega
  rw [decode, encode, String.toList_ofList, if_neg heven, decodePairs_digits]

end Quorate.Hex
