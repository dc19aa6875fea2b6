import Quorate.Proofs.Bls12381.Decompression

/-!
# Compressed points have one spelling

Flags and coordinate make up the bytes from which they were read, and a coordinate is read only from the digits that
it is written in. So bytes from which a point is read are the compressed form of this point.
-/

namespace Quorate.Bls12381

open Weierstrass

section Flags

theorem toNat_decide_eq_one {n : ℕ} (h : n < 2) : (decide (n = 1)).toNat = n := by
  interval_cases n <;> rfl

theorem toNat_ofByte (b : UInt8) : b.toNat % 32 + (PointFlags.ofByte b).toNat = b.toNat := by
  have hb := b.toNat_lt
  have htop : decide (128 ≤ b.toNat) = decide (b.toNat / 128 = 1) := by
    rw [decide_eq_decide]
    omega
  rw [PointFlags.ofByte, PointFlags.toNat, htop, toNat_decide_eq_one (by omega), toNat_decide_eq_one (by omega),
    toNat_decide_eq_one (by omega)]
  omega

/-- Bytes are what is left of them without their flags, and the flags. -/
theorem withFlags_withoutFlags (bs : Bytes) :
    withFlags (PointFlags.ofByte (bs.headD 0)) (withoutFlags bs) = bs := by
  cases bs with
  | nil => rfl
  | cons b bs =>
    have hlow : (UInt8.ofNat (b.toNat % 32)).toNat = b.toNat % 32 := by
      rw [UInt8.toNat_ofNat']
      omega
    rw [withoutFlags, withFlags, List.headD_cons, hlow, toNat_ofByte, UInt8.ofNat_toNat]

@[simp] theorem length_withoutFlags (bs : Bytes) : (withoutFlags bs).length = bs.length := by
  cases bs <;> rfl

end Flags

variable {F : Type} [Field F] [DecidableEq F] {c : Coordinate F} {p : Point F} {x : F} {larger : Bool} {bs : Bytes}

/-- What a single spelling needs of the coordinate: it is read only from what it is written as. -/
structure Coordinate.Canonical (c : Coordinate F) : Prop extends c.Readable where
  encode_of_decode? : ∀ bs x, bs.length = c.width → c.decode? bs = some x → c.encode x = bs

/-- The point that is found has the given coordinate, and is the one of two that is asked for. -/
theorem exists_of_pointWithX (h : pointWithX c x larger = .ok p) : ∃ y, p = .affine x y ∧ c.isLarger y = larger := by
  unfold pointWithX at h
  split at h
  · cases h
  · rename_i root hroot
    generalize (if c.isLarger root = larger then root else -root) = y at h
    simp only at h
    split at h
    · cases h
    · rename_i hlarger
      split at h
      · cases h
        exact ⟨y, rfl, not_not.1 hlarger⟩
      · cases h

/-- Bytes from which a point is read are the compressed form of the point. -/
theorem Coordinate.Canonical.compress_of_decompress (hc : c.Canonical) (hlength : bs.length = c.width)
    (h : decompress c bs = .ok p) : compress c p = bs := by
  have hbytes := withFlags_withoutFlags bs
  unfold decompress at h
  generalize PointFlags.ofByte (bs.headD 0) = flags at h hbytes
  obtain ⟨compressed, identity, larger⟩ := flags
  simp only at h
  split at h
  · cases h
  · rename_i hcompressed
    split at h
    · split at h <;> cases h
    · rename_i hidentity
      split at h
      · cases h
      · rename_i x hx
        obtain ⟨y, rfl, rfl⟩ := exists_of_pointWithX h
        have hencode := hc.encode_of_decode? _ x ((length_withoutFlags bs).trans hlength) hx
        rw [Bool.not_eq_true, Bool.not_eq_false'] at hcompressed
        rw [Bool.not_eq_true] at hidentity
        rw [compress, hencode, ← hcompressed, ← hidentity]
        exact hbytes

theorem ofNatBE_of_fpOfBytes? {x : Fp} (hlength : bs.length = 48) (h : fpOfBytes? bs = some x) :
    Bytes.ofNatBE 48 x.val = bs := by
  obtain ⟨hlt, hx⟩ := Option.dite_none_right_eq_some.1 h
  rw [← Option.some.inj hx, ← hlength]
  exact Bytes.ofNatBE_toNatBE bs

theorem canonical_g1Coordinate : g1Coordinate.Canonical where
  toReadable := readable_g1Coordinate
  encode_of_decode? _ _ := ofNatBE_of_fpOfBytes?

theorem canonical_g2Coordinate : g2Coordinate.Canonical where
  toReadable := readable_g2Coordinate
  encode_of_decode? bs x hlength h := by
    have hwidth : bs.length = 96 := hlength
    obtain ⟨im, him, h⟩ := Option.bind_eq_some_iff.1 h
    obtain ⟨re, hre, h⟩ := Option.bind_eq_some_iff.1 h
    obtain rfl := Option.some.inj h
    have hhigh := ofNatBE_of_fpOfBytes? (by simp [hwidth]) him
    have hlow := ofNatBE_of_fpOfBytes? (by simp [hwidth]) hre
    change Bytes.ofNatBE 48 im.val ++ Bytes.ofNatBE 48 re.val = bs
    rw [hhigh, hlow, List.take_append_drop]

end Quorate.Bls12381
