/-!
# Residues

Arithmetic modulo a number `m`, and powers by repeated squaring over any multiplication. Inverses are
powers: for a prime modulus `x ^ (m - 2)` is the inverse of every `x ≠ 0`, and it sends zero to zero.
-/

namespace Quorate

/-- The binary digits of `n`, most significant first. -/
def binaryDigits (n : Nat) : List Bool :=
  (List.range (n.log2 + 1)).reverse.map n.testBit

/-- `x` to the power `n`, by squaring along the binary digits of `n`. -/
def power {M : Type} [Mul M] [One M] (x : M) (n : Nat) : M :=
  (binaryDigits n).foldl (fun acc digit => if digit then acc * acc * x else acc * acc) 1

/-- A number that may be a modulus: there are residues modulo it. -/
class Modulus (m : Nat) : Prop where
  pos : 0 < m

/-- A residue modulo `m`, kept as the representative below `m`. -/
structure Residue (m : Nat) where
  val : Nat
  val_lt : val < m
deriving DecidableEq

namespace Residue

variable {m : Nat}

def ofNat [Modulus m] (n : Nat) : Residue m :=
  ⟨n % m, Nat.mod_lt n Modulus.pos⟩

instance [Modulus m] : Zero (Residue m) := ⟨ofNat 0⟩

instance [Modulus m] : One (Residue m) := ⟨ofNat 1⟩

instance [Modulus m] : Inhabited (Residue m) := ⟨0⟩

/-- The sum; the representatives add up to less than twice the modulus. -/
def add (x y : Residue m) : Residue m :=
  if h : x.val + y.val < m then ⟨x.val + y.val, h⟩
  else ⟨x.val + y.val - m, by have := x.val_lt; have := y.val_lt; omega⟩

def mul (x y : Residue m) : Residue m :=
  ⟨(x.val * y.val) % m, Nat.mod_lt _ (Nat.zero_lt_of_lt x.val_lt)⟩

def neg (x : Residue m) : Residue m :=
  if h : x.val = 0 then ⟨0, Nat.zero_lt_of_lt x.val_lt⟩
  else ⟨m - x.val, by have := x.val_lt; omega⟩

def sub (x y : Residue m) : Residue m :=
  if h : y.val ≤ x.val then ⟨x.val - y.val, by have := x.val_lt; omega⟩
  else ⟨x.val + m - y.val, by have := x.val_lt; have := y.val_lt; omega⟩

instance : Add (Residue m) := ⟨add⟩

instance : Mul (Residue m) := ⟨mul⟩

instance : Neg (Residue m) := ⟨neg⟩

instance : Sub (Residue m) := ⟨sub⟩

/-- The inverse for a prime modulus, and zero for zero. -/
instance [Modulus m] : Inv (Residue m) := ⟨fun x => power x (m - 2)⟩

@[ext] theorem ext {x y : Residue m} (h : x.val = y.val) : x = y := by
  cases x; cases y; simp_all

end Residue

end Quorate
