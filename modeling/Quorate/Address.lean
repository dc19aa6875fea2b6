import Quorate.Bytes.Hex
import Quorate.Order.Ascending

/-!
# Addresses

A validator is known by an address of 20 bytes. Its text is `0x` and 40 lowercase digits; reading takes
digits in either case, with or without `0x`. A set of addresses is an ascending list without repeats.
-/

namespace Quorate

structure Address where
  bytes : Bytes
  length_eq : bytes.length = 20
deriving DecidableEq

inductive AddressError
  | wrongLength (actual : Nat)
  | notHex
deriving DecidableEq, Repr

def AddressError.message : AddressError → String
  | wrongLength actual => s!"Invalid address length: expected 20, got {actual}"
  | notHex => "Invalid address hex"

namespace Address

def size : Nat := 20

def zero : Address := ⟨Bytes.zeros 20, rfl⟩

instance : Inhabited Address := ⟨zero⟩

def ofBytes (bs : Bytes) : Except AddressError Address :=
  if h : bs.length = 20 then .ok ⟨bs, h⟩ else .error (.wrongLength bs.length)

/-- Read an address. A text of the wrong length is measured in pairs of bytes of its UTF-8 form. -/
def ofHex (s : String) : Except AddressError Address :=
  let digits := Hex.dropMark s.toList
  let length := (digits.flatMap String.utf8EncodeChar).length
  if length ≠ 40 then .error (.wrongLength (length / 2))
  else
    match Hex.decode digits with
    | .ok bs => ofBytes bs
    | .error _ => .error .notHex

def toHex (a : Address) : String :=
  "0x" ++ Hex.encode a.bytes

def summary (a : Address) : String :=
  let hex := Hex.encode a.bytes
  s!"Address(0x{hex.take 6}..{hex.drop 34})"

instance : LT Address := ⟨fun a b => a.bytes < b.bytes⟩

instance (a b : Address) : Decidable (a < b) :=
  inferInstanceAs (Decidable (a.bytes < b.bytes))

theorem lt_trans {a b c : Address} (h : a < b) (h' : b < c) : a < c :=
  have hab : a.bytes < b.bytes := h
  have hbc : b.bytes < c.bytes := h'
  show a.bytes < c.bytes from List.lt_trans hab hbc

theorem lt_irrefl (a : Address) : ¬ a < a :=
  List.lt_irrefl a.bytes

theorem ext_bytes {a b : Address} (h : a.bytes = b.bytes) : a = b := by
  cases a; cases b; simp_all

theorem lt_of_not_lt {a b : Address} (h : ¬ a < b) (hne : a ≠ b) : b < a :=
  show b.bytes < a.bytes from
    Std.lt_of_le_of_ne (List.not_lt.1 h) fun e => hne (ext_bytes e.symm)

end Address

/-- A finite set of addresses, as the ascending list of its members. -/
structure AddressSet where
  toList : List Address
  ascending : toList.Pairwise (· < ·)
deriving DecidableEq

namespace AddressSet

theorem mem_insertUnique {a b : Address} {as : List Address} :
    b ∈ insertUnique a as ↔ b = a ∨ b ∈ as := by
  induction as with
  | nil => simp [insertUnique]
  | cons c rest ih =>
    unfold insertUnique
    split
    · rename_i h
      subst h
      simp
    · split
      · simp
      · simp only [List.mem_cons, ih]
        constructor <;> rintro (h | h | h) <;> simp [h]

theorem pairwise_insertUnique {a : Address} {as : List Address} (h : as.Pairwise (· < ·)) :
    (insertUnique a as).Pairwise (· < ·) := by
  induction as with
  | nil => simp [insertUnique]
  | cons c rest ih =>
    rw [List.pairwise_cons] at h
    unfold insertUnique
    split
    · exact List.pairwise_cons.2 h
    · rename_i hne
      split
      · rename_i hlt
        refine List.pairwise_cons.2 ⟨fun b hb => ?_, List.pairwise_cons.2 h⟩
        rcases List.mem_cons.1 hb with rfl | hb
        · exact hlt
        · exact Address.lt_trans hlt (h.1 b hb)
      · rename_i hlt
        refine List.pairwise_cons.2 ⟨fun b hb => ?_, ih h.2⟩
        rcases mem_insertUnique.1 hb with rfl | hb
        · exact Address.lt_of_not_lt hlt hne
        · exact h.1 b hb

def empty : AddressSet := ⟨[], .nil⟩

instance : Inhabited AddressSet := ⟨empty⟩

def insert (a : Address) (s : AddressSet) : AddressSet :=
  ⟨insertUnique a s.toList, pairwise_insertUnique s.ascending⟩

def ofList (as : List Address) : AddressSet :=
  as.foldl (fun s a => s.insert a) empty

def size (s : AddressSet) : Nat :=
  s.toList.length

instance : Membership Address AddressSet := ⟨fun s a => a ∈ s.toList⟩

instance (a : Address) (s : AddressSet) : Decidable (a ∈ s) :=
  inferInstanceAs (Decidable (a ∈ s.toList))

theorem mem_insert {a b : Address} {s : AddressSet} : b ∈ s.insert a ↔ b = a ∨ b ∈ s :=
  mem_insertUnique

end AddressSet

end Quorate
