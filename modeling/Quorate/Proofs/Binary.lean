import Mathlib
import Quorate.Binary
import Quorate.Proofs.Traversal

/-!
# Canonical encodings

An encoding is canonical if bytes are accepted only as what is written of the thing they are read as. Everything has then
at most one spelling. Words and blocks of the binary form are canonical up to what follows them, and so is whatever is
canonical and stands in a block.
-/

namespace Quorate

variable {A E : Type}

/-- Bytes that are read are what is written of the result, different bytes are read as different things, and what was
read is read back. -/
structure CanonicalBytes (read : Bytes → Except E A) (write : A → Bytes) : Prop where
  write_eq : ∀ {bs a}, read bs = .ok a → write a = bs
  injective : ∀ {bs cs a}, read bs = .ok a → read cs = .ok a → bs = cs
  read_write : ∀ {bs a}, read bs = .ok a → read (write a) = .ok a

/-- Bytes that are read begin with what is written of the result, and from what is written the result is read, before
any other bytes. -/
structure CanonicalPrefix (read : Bytes → Except BinaryError (A × Bytes)) (write : A → Bytes) : Prop where
  eq_append : ∀ {bs a rest}, read bs = .ok (a, rest) → bs = write a ++ rest
  read_append : ∀ {bs a rest}, read bs = .ok (a, rest) → ∀ more, read (write a ++ more) = .ok (a, more)

/-- That the result is written as the bytes it was read from says all there is to say. -/
theorem CanonicalBytes.of_write_eq {read : Bytes → Except E A} {write : A → Bytes}
    (h : ∀ bs a, read bs = .ok a → write a = bs) : CanonicalBytes read write where
  write_eq := h _ _
  injective hbs hcs := (h _ _ hbs).symm.trans (h _ _ hcs)
  read_write hread := by rwa [h _ _ hread]

namespace Bytes

theorem toNatLE_lt (bs : Bytes) : toNatLE bs < 1 <<< (8 * bs.length) := by
  have hdigits := toNatLE_ofNatLE bs.length (toNatLE bs)
  rw [ofNatLE_toNatLE] at hdigits
  rw [hdigits]
  exact Nat.mod_lt _ (by rw [Nat.one_shiftLeft]; positivity)

end Bytes

namespace Binary

variable {bs block rest : Bytes} {n : UInt64}

theorem eq_of_readWord (h : readWord bs = .ok (n, rest)) : bs = writeWord n ++ rest := by
  unfold readWord at h
  split at h
  · cases h
  · rename_i hroom
    obtain ⟨rfl, rfl⟩ := Prod.mk.inj (Except.ok.inj h)
    have hlength : (bs.take 8).length = 8 := List.length_take_of_le (Nat.not_lt.1 hroom)
    have hlt := Bytes.toNatLE_lt (bs.take 8)
    have hdigits := Bytes.ofNatLE_toNatLE (bs.take 8)
    rw [hlength] at hlt hdigits
    rw [writeWord, UInt64.toNat_ofNat_of_lt' hlt, hdigits, List.take_append_drop]

theorem eq_of_readBlock (h : readBlock bs = .ok (block, rest)) :
    block.length < UInt64.size ∧ bs = writeBlock block ++ rest := by
  obtain ⟨⟨n, tail⟩, hword, h⟩ := bind_eq_ok h
  simp only at h
  split at h
  · cases h
  · rename_i hroom
    obtain ⟨rfl, rfl⟩ := Prod.mk.inj (Except.ok.inj h)
    have hlength : (tail.take n.toNat).length = n.toNat := List.length_take_of_le (Nat.not_lt.1 hroom)
    have hbytes := eq_of_readWord hword
    refine ⟨hlength.trans_lt n.toNat_lt, ?_⟩
    rw [writeBlock, hlength, List.append_assoc, List.take_append_drop]
    exact hbytes

theorem readBlock_writeBlock_append (h : bs.length < UInt64.size) (rest : Bytes) :
    readBlock (writeBlock bs ++ rest) = .ok (bs, rest) := by
  have hlength : (UInt64.ofNat bs.length).toNat = bs.length :=
    UInt64.toNat_ofNat_of_lt' h
  have hblock : writeBlock bs ++ rest = writeWord (UInt64.ofNat bs.length) ++ (bs ++ rest) := by
    rw [writeBlock, writeWord, hlength, List.append_assoc]
  have hroom : ¬ (bs ++ rest).length < bs.length := by
    rw [List.length_append]
    omega
  rw [readBlock, hblock, readWord_writeWord_append]
  simp only [bind, Except.bind, hlength, if_neg hroom, List.take_left', List.drop_left']
  rfl

/-- What the bytes of a block are read as, and what follows the block. -/
def readIn (read : Bytes → Except E A) (cause : E → BinaryError) (bs : Bytes) : Except BinaryError (A × Bytes) := do
  let (block, rest) ← readBlock bs
  return (← (read block).mapError cause, rest)

variable {read : Bytes → Except E A} {write : A → Bytes} {cause : E → BinaryError} {a : A}

theorem readIn_eq_ok_iff : readIn read cause bs = .ok (a, rest) ↔
    ∃ block, readBlock bs = .ok (block, rest) ∧ read block = .ok a := by
  constructor
  · intro h
    obtain ⟨⟨block, rest'⟩, hblock, h⟩ := bind_eq_ok h
    obtain ⟨a', hread, h⟩ := bind_eq_ok h
    obtain ⟨rfl, rfl⟩ := Prod.mk.inj (Except.ok.inj h)
    exact ⟨block, hblock, mapError_eq_ok hread⟩
  · rintro ⟨block, hblock, hread⟩
    rw [readIn, hblock]
    change ((read block).mapError cause >>= fun a => pure (a, rest)) = _
    rw [hread]
    rfl

/-- What is canonical by itself is canonical in a block, up to what follows the block. -/
theorem canonicalPrefix_readIn (h : CanonicalBytes read write) (cause : E → BinaryError) :
    CanonicalPrefix (readIn read cause) fun a => writeBlock (write a) where
  eq_append hread := by
    obtain ⟨block, hblock, hread⟩ := readIn_eq_ok_iff.1 hread
    rw [h.write_eq hread]
    exact (eq_of_readBlock hblock).2
  read_append hread more := by
    obtain ⟨block, hblock, hread⟩ := readIn_eq_ok_iff.1 hread
    have hlength := (eq_of_readBlock hblock).1
    refine readIn_eq_ok_iff.2 ⟨block, ?_, hread⟩
    rw [h.write_eq hread, readBlock_writeBlock_append hlength]

end Binary

end Quorate
