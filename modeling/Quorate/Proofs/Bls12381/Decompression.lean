import Quorate.Proofs.Bls12381.Compressed
import Quorate.Proofs.Bls12381.SquareRoots
import Quorate.Proofs.Bls12381.Subgroups

/-!
# Reading compressed points

Whatever is read is a point of the group other than the identity, and the compressed form of every such point is
read as that point. The identity has a compressed form too, which is refused.
-/

namespace Quorate.Bls12381

open Weierstrass

section Flags

variable {f : PointFlags} {bs : Bytes}

theorem ofByte_flagged : ∀ (f : PointFlags) (b : UInt8), b.toNat < 32 →
    PointFlags.ofByte (UInt8.ofNat (b.toNat + f.toNat)) = f := by
  rintro ⟨_ | _, _ | _, _ | _⟩ b hb <;> rw [PointFlags.ofByte, toNat_flagged hb] <;>
    simp [PointFlags.toNat] <;> omega

theorem ofByte_withFlags (hbs : RoomForFlags bs) : PointFlags.ofByte ((withFlags f bs).headD 0) = f := by
  obtain ⟨b, rest, rfl, hb⟩ := hbs
  exact ofByte_flagged f b hb

theorem withoutFlags_withFlags (hbs : RoomForFlags bs) : withoutFlags (withFlags f bs) = bs := by
  obtain ⟨b, rest, rfl, hb⟩ := hbs
  have hf := f.toNat_le
  rw [withFlags, withoutFlags, toNat_flagged hb, List.cons.injEq]
  refine ⟨UInt8.toNat_inj.1 ?_, rfl⟩
  rw [UInt8.toNat_ofNat']
  omega

end Flags

variable {F : Type} [Field F] [DecidableEq F] {c : Coordinate F} {p : Point F} {x y : F} {larger : Bool} {bs : Bytes}

/-- What reading needs of the coordinate: it is read back, and roots are found where there are any. -/
structure Coordinate.Readable (c : Coordinate F) : Prop extends c.Lawful where
  decode?_encode : ∀ x, c.decode? (c.encode x) = some x
  mul_self_of_sqrt? : ∀ a root, c.sqrt? a = some root → root * root = a
  exists_sqrt? : ∀ y, ∃ root, c.sqrt? (y * y) = some root

namespace Coordinate.Readable

theorem inGroup_of_pointWithX (hc : c.Readable) (h : pointWithX c x larger = .ok p) :
    InGroup c.constantTerm p ∧ p ≠ .identity := by
  unfold pointWithX at h
  split at h
  · cases h
  · rename_i root hroot
    have hsquare : (if c.isLarger root = larger then root else -root) *
        (if c.isLarger root = larger then root else -root) = x * x * x + c.constantTerm := by
      split
      · exact hc.mul_self_of_sqrt? _ _ hroot
      · rw [neg_mul_neg, hc.mul_self_of_sqrt? _ _ hroot]
    generalize (if c.isLarger root = larger then root else -root) = y at h hsquare
    simp only at h
    split at h
    · cases h
    · split at h
      · rename_i hsub
        cases h
        exact ⟨⟨beq_iff_eq.2 hsquare, hsub⟩, nofun⟩
      · cases h

theorem inGroup_of_decompress (hc : c.Readable) (h : decompress c bs = .ok p) :
    InGroup c.constantTerm p ∧ p ≠ .identity := by
  unfold decompress at h
  simp only at h
  split at h
  · cases h
  · split at h
    · split at h <;> cases h
    · split at h
      · cases h
      · exact hc.inGroup_of_pointWithX h

/-- Of the two points with one first coordinate the right one is found. -/
theorem pointWithX_eq_ok (hc : c.Readable) (hp : InGroup c.constantTerm (.affine x y)) :
    pointWithX c x (c.isLarger y) = .ok (.affine x y) := by
  have hsquare := affine_isOn_iff.1 hp.1
  obtain ⟨root, hroot⟩ := hc.exists_sqrt? y
  have hy : (if c.isLarger root = c.isLarger y then root else -root) = y := by
    rcases mul_self_eq_mul_self_iff.1 (hc.mul_self_of_sqrt? _ _ hroot) with rfl | rfl
    · exact if_pos rfl
    · by_cases hzero : y = 0
      · rw [hzero, neg_zero, neg_zero, ite_self]
      · rw [if_neg, neg_neg]
        rw [hc.isLarger_neg y hzero]
        exact Bool.not_ne_self _
  rw [hsquare] at hroot
  unfold pointWithX
  simp only [hroot, hy, ne_eq, not_true_eq_false, if_false, hp.2, if_true]

/-- The compressed form of a point of the group is read as that point, unless it is the identity. -/
theorem decompress_compress (hc : c.Readable) (hp : InGroup c.constantTerm p) (hne : p ≠ .identity) :
    decompress c (compress c p) = .ok p := by
  cases p with
  | identity => exact absurd rfl hne
  | affine x y =>
    rw [compress, decompress, ofByte_withFlags (hc.room x), withoutFlags_withFlags (hc.room x), hc.decode?_encode]
    exact hc.pointWithX_eq_ok hp

theorem decompress_compress_identity (hc : c.Readable) :
    decompress c (compress c .identity) = .error .identity := by
  have hzeros : (Bytes.zeros c.width).all (· == 0) = true :=
    List.all_eq_true.2 fun b hb => beq_iff_eq.2 (List.eq_of_mem_replicate hb)
  rw [compress, decompress, ofByte_withFlags hc.room_zeros, withoutFlags_withFlags hc.room_zeros, hzeros]
  rfl

end Coordinate.Readable

theorem fpOfBytes?_ofNatBE (x : Fp) : fpOfBytes? (Bytes.ofNatBE 48 x.val) = some x := by
  have hval : Bytes.toNatBE (Bytes.ofNatBE 48 x.val) = x.val :=
    Bytes.toNatBE_ofNatBE_of_lt (x.val_lt.trans (fieldModulus_lt.trans (by norm_num)))
  simp only [fpOfBytes?, hval, x.val_lt, dite_true]

theorem g1Coordinate_sqrt? : g1Coordinate.sqrt? = Fp.sqrt? := by
  simp only [g1Coordinate]

theorem readable_g1Coordinate : g1Coordinate.Readable where
  toLawful := lawful_g1Coordinate
  decode?_encode := fpOfBytes?_ofNatBE
  mul_self_of_sqrt? a root h := by
    rw [g1Coordinate_sqrt?] at h
    exact Fp.mul_self_of_sqrt? h
  exists_sqrt? := by
    rw [g1Coordinate_sqrt?]
    exact Fp.exists_sqrt?

theorem Fp2.isLarger_neg {y : Fp2} (hy : y ≠ 0) : Fp2.isLarger (-y) = !Fp2.isLarger y := by
  have hre : (-y).re = -y.re := rfl
  have him : (-y).im = -y.im := rfl
  unfold Fp2.isLarger
  simp only [hre, him, neg_eq_zero]
  split
  · rename_i hzero
    exact Fp.isLarger_neg fun h => hy (ext_parts h hzero)
  · rename_i hne
    exact Fp.isLarger_neg hne

theorem g2Coordinate_decode?_encode (x : Fp2) : g2Coordinate.decode? (g2Coordinate.encode x) = some x := by
  have hlength : (Bytes.ofNatBE 48 x.im.val).length = 48 := Bytes.length_ofNatBE 48 _
  simp only [g2Coordinate]
  rw [List.take_left' hlength, List.drop_left' hlength, fpOfBytes?_ofNatBE, fpOfBytes?_ofNatBE]
  rfl

theorem lawful_g2Coordinate : g2Coordinate.Lawful where
  length_encode x := by simp [g2Coordinate]
  room x := by
    obtain ⟨b, rest, hfirst, hb⟩ := Bytes.exists_first_digit (x.im.val_lt.trans fieldModulus_lt) (by norm_num)
    exact ⟨b, rest ++ Bytes.ofNatBE 48 x.re.val, by simp [g2Coordinate, hfirst], hb⟩
  encode_injective x y h := by
    have hdecode := congrArg g2Coordinate.decode? h
    rw [g2Coordinate_decode?_encode, g2Coordinate_decode?_encode] at hdecode
    exact Option.some.inj hdecode
  isLarger_neg _ := Fp2.isLarger_neg

theorem g2Coordinate_sqrt? : g2Coordinate.sqrt? = Fp2.sqrt? := by
  simp only [g2Coordinate]

theorem readable_g2Coordinate : g2Coordinate.Readable where
  toLawful := lawful_g2Coordinate
  decode?_encode := g2Coordinate_decode?_encode
  mul_self_of_sqrt? a root h := by
    rw [g2Coordinate_sqrt?] at h
    exact Fp2.mul_self_of_sqrt? h
  exists_sqrt? := by
    rw [g2Coordinate_sqrt?]
    exact Fp2.exists_sqrt?

end Quorate.Bls12381
