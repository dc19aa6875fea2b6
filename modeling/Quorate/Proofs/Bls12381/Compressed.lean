import Mathlib
import Quorate.Bls12381.Compressed
import Quorate.Proofs.Bls12381.Fields
import Quorate.Proofs.Bytes.BigEndian
import Quorate.Proofs.Curve.Multiple

/-!
# Compressed points tell points apart

The flags use three bits that the first coordinate leaves free, so flags and coordinate can both be read
off the bytes. Two points of the curve with one first coordinate are equal or opposite, and of two opposite
points exactly one has the larger second coordinate, unless they are equal.
-/

namespace Quorate.Bls12381

open Weierstrass

section Flags

/-- The three top bits of the first byte are free. -/
def RoomForFlags (bs : Bytes) : Prop :=
  ∃ b rest, bs = b :: rest ∧ b.toNat < 32

variable {f g : PointFlags} {b : UInt8} {bs cs : Bytes}

theorem PointFlags.toNat_le (f : PointFlags) : f.toNat ≤ 224 ∧ f.toNat % 32 = 0 := by
  rcases f with ⟨_ | _, _ | _, _ | _⟩ <;> decide

theorem PointFlags.toNat_injective (h : f.toNat = g.toNat) : f = g := by
  rcases f with ⟨_ | _, _ | _, _ | _⟩ <;> rcases g with ⟨_ | _, _ | _, _ | _⟩ <;> first | rfl | cases h

theorem toNat_flagged (hb : b.toNat < 32) :
    (UInt8.ofNat (b.toNat + f.toNat)).toNat = b.toNat + f.toNat := by
  have hf := f.toNat_le
  rw [UInt8.toNat_ofNat']
  omega

@[simp] theorem length_withFlags (f : PointFlags) (bs : Bytes) : (withFlags f bs).length = bs.length := by
  cases bs <;> simp [withFlags]

/-- Flags and bytes can both be read off flagged bytes. -/
theorem withFlags_injective (hbs : RoomForFlags bs) (hcs : RoomForFlags cs)
    (h : withFlags f bs = withFlags g cs) : f = g ∧ bs = cs := by
  obtain ⟨b, rest, rfl, hb⟩ := hbs
  obtain ⟨c, rest', rfl, hc⟩ := hcs
  simp only [withFlags, List.cons.injEq] at h
  have hsum : b.toNat + f.toNat = c.toNat + g.toNat := by
    rw [← toNat_flagged hb, h.1, toNat_flagged hc]
  have hf := f.toNat_le
  have hg := g.toNat_le
  have hbyte : b = c := by
    apply UInt8.toNat_inj.1
    omega
  have hflags : f.toNat = g.toNat := by
    rw [hbyte] at hsum
    omega
  exact ⟨PointFlags.toNat_injective hflags, by rw [hbyte, h.2]⟩

end Flags

variable {F : Type} [Field F] {c : Coordinate F} {p q : Point F}

/-- What compressed points need of the coordinate to be told apart. -/
structure Coordinate.Lawful (c : Coordinate F) : Prop where
  length_encode : ∀ x, (c.encode x).length = c.width
  room : ∀ x, RoomForFlags (c.encode x)
  encode_injective : Function.Injective c.encode
  isLarger_neg : ∀ y, y ≠ 0 → c.isLarger (-y) = !c.isLarger y

namespace Coordinate.Lawful

theorem room_zeros (hc : c.Lawful) : RoomForFlags (Bytes.zeros c.width) := by
  obtain ⟨b, rest, hencode, -⟩ := hc.room 0
  have hwidth : c.width = rest.length + 1 := by
    rw [← hc.length_encode 0, hencode, List.length_cons]
  exact ⟨0, Bytes.zeros rest.length, by rw [hwidth]; rfl, by decide⟩

theorem length_compress (hc : c.Lawful) (p : Point F) : (compress c p).length = c.width := by
  cases p with
  | identity => simp [compress]
  | affine x y => simp [compress, hc.length_encode]

variable [DecidableEq F]

/-- A point of the curve is determined by its first coordinate and by which of the two it is. -/
theorem eq_of_isLarger_eq (hc : c.Lawful) {x y z : F}
    (hy : (Point.affine x y).isOn c.constantTerm = true) (hz : (Point.affine x z).isOn c.constantTerm = true)
    (h : c.isLarger y = c.isLarger z) : y = z := by
  have hsquares : y * y = z * z := (affine_isOn_iff.1 hy).trans (affine_isOn_iff.1 hz).symm
  rcases mul_self_eq_mul_self_iff.1 hsquares with heq | hneg
  · exact heq
  · by_cases hzero : z = 0
    · rw [hneg, hzero, neg_zero]
    · rw [hneg, hc.isLarger_neg z hzero] at h
      exact absurd h (by simp)

theorem compress_injective (hc : c.Lawful) (hp : p.isOn c.constantTerm = true)
    (hq : q.isOn c.constantTerm = true) (h : compress c p = compress c q) : p = q := by
  cases p with
  | identity =>
    cases q with
    | identity => rfl
    | affine x y =>
      have hflags := (withFlags_injective hc.room_zeros (hc.room x) h).1
      cases hflags
  | affine x y =>
    cases q with
    | identity =>
      have hflags := (withFlags_injective (hc.room x) hc.room_zeros h).1
      cases hflags
    | affine x' y' =>
      obtain ⟨hflags, hencode⟩ := withFlags_injective (hc.room x) (hc.room x') h
      obtain rfl := hc.encode_injective hencode
      have hlarger : c.isLarger y = c.isLarger y' := by
        simpa using hflags
      rw [hc.eq_of_isLarger_eq hp hq hlarger]

end Coordinate.Lawful

theorem fieldModulus_lt : fieldModulus < 32 * 256 ^ 47 := by
  norm_num [fieldModulus]

theorem Fp.isLarger_neg {y : Fp} (hy : y ≠ 0) : Fp.isLarger (-y) = !Fp.isLarger y := by
  have hval : y.val ≠ 0 := fun h => hy (Residue.ext h)
  have hneg : (-y).val = fieldModulus - y.val := by
    change (Residue.neg y).val = _
    simp [Residue.neg, hval]
  have hodd : fieldModulus % 2 = 1 := by decide
  have hlt := y.val_lt
  rw [Bool.eq_not_iff]
  simp only [Fp.isLarger, hneg, ne_eq, decide_eq_decide]
  omega

theorem lawful_g1Coordinate : g1Coordinate.Lawful where
  length_encode x := Bytes.length_ofNatBE 48 x.val
  room x := Bytes.exists_first_digit (x.val_lt.trans fieldModulus_lt) (by norm_num)
  encode_injective x y h := by
    have hwidth : fieldModulus ≤ 256 ^ 48 := fieldModulus_lt.le.trans (by norm_num)
    exact Residue.ext (Bytes.ofNatBE_injective_of_lt (x.val_lt.trans_le hwidth) (y.val_lt.trans_le hwidth) h)
  isLarger_neg _ hy := Fp.isLarger_neg hy

end Quorate.Bls12381
