/-!
# Block heights

A height is a word of 64 bits, so there is a last one.
-/

namespace Quorate

structure BlockHeight where
  val : UInt64
deriving DecidableEq, Repr, Inhabited

namespace BlockHeight

def genesis : BlockHeight := ⟨0⟩

def next? (h : BlockHeight) : Option BlockHeight :=
  if h.val.toNat + 1 < UInt64.size then some ⟨h.val + 1⟩ else none

def prev? (h : BlockHeight) : Option BlockHeight :=
  if h.val = 0 then none else some ⟨h.val - 1⟩

def text (h : BlockHeight) : String :=
  s!"Block({h.val.toNat})"

end BlockHeight

end Quorate
