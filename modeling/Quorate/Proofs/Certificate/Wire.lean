import Quorate.Proofs.Binary
import Quorate.Proofs.Certificate.Build
import Quorate.Proofs.Record.Scalar
import Quorate.Record.Certificate

/-!
# Certificates on the wire

A bitmap is read back from what is written of it, and so is a signature that is a point of the group other than the
identity. Signatures that are read or made with a secret are points of the group, and so is their sum. But the sum can
be the identity, which is written like any other point and is refused when it is read.

The binary form is read from bytes. A text form is read from the tree of values that stands for it, the JSON form among
them: how a JSON text is spelled and split into that tree is not part of these statements.
-/

namespace Quorate

namespace SignerBitmap

theorem ofValue_toValue (format : TextFormat) (m : SignerBitmap) : ofValue format m.toValue = .ok m := by
  have hbyte : ∀ b ∈ m.bytes, ((Value.int b.toNat).toNatBelow 256).map UInt8.ofNat = .ok b := by
    intro b _
    have hrange : 0 ≤ (b.toNat : Int) ∧ (b.toNat : Int) < (256 : Nat) := by
      have := b.toNat_lt
      omega
    rw [Value.toNatBelow, if_pos hrange, Int.toNat_natCast, Except.map, UInt8.ofNat_toNat]
  have hbits := mapM_map_eq_ok (f := fun b : UInt8 => Value.int b.toNat)
    (g := fun v => (v.toNatBelow 256).map UInt8.ofNat) hbyte
  simp only [ofValue, toValue, Value.ofBytes, Value.fieldsOf, bind, Except.bind, FieldList.read, List.lookup_cons_self,
    Option.map_some, hbits]
  rfl

theorem ofBinary_toBinary_append {m : SignerBitmap} (h : m.bytes.length < UInt64.size) (rest : Bytes) :
    ofBinary (m.toBinary ++ rest) = .ok (m, rest) := by
  rw [ofBinary, toBinary, Binary.readBlock_writeBlock_append h]
  rfl

end SignerBitmap

namespace Signature

theorem ofBinary_toBinary_append (s : Signature) (rest : Bytes) :
    ofBinary (s.toBinary ++ rest) = ((ofBytes s.toBytes).mapError .key).map (·, rest) := by
  have hlength : s.toBytes.length < UInt64.size := by
    rw [length_toBytes]
    decide
  rw [ofBinary, toBinary, Binary.readBlock_writeBlock_append hlength]
  simp only [bind, Except.bind]
  cases (ofBytes s.toBytes).mapError BinaryError.key <;> rfl

end Signature

namespace Certificate

variable {c : Certificate}

/-- Reading a certificate back comes to reading its signature back. -/
theorem ofValue_toValue (format : TextFormat) (c : Certificate) :
    ofValue format c.toValue = ((Signature.ofBytes c.signature.toBytes).mapError .key).map (⟨·, c.bitmap⟩) := by
  have hsignature := c.signature.ofValue_toValue
  have hbitmap := c.bitmap.ofValue_toValue format
  simp only [ofValue, toValue, Value.fieldsOf, bind, Except.bind, FieldList.read, List.lookup, String.reduceBEq,
    Option.map_some, hsignature, hbitmap]
  cases (Signature.ofBytes c.signature.toBytes).mapError DecodeError.key <;> rfl

theorem ofBinary_toBinary_append (h : c.bitmap.bytes.length < UInt64.size) (rest : Bytes) :
    ofBinary (c.toBinary ++ rest) =
      ((Signature.ofBytes c.signature.toBytes).mapError .key).map fun s => (⟨s, c.bitmap⟩, rest) := by
  rw [ofBinary, toBinary, List.append_assoc, Signature.ofBinary_toBinary_append]
  cases (Signature.ofBytes c.signature.toBytes).mapError BinaryError.key with
  | error cause => rfl
  | ok s =>
    simp only [bind, Except.bind, Except.map, SignerBitmap.ofBinary_toBinary_append h]
    rfl

end Certificate

namespace Certificate

variable {set : ValidatorSet} {votes : List Vote} {c : Certificate}

def signatureSum (votes : List Vote) : Bls12381.G2 :=
  Weierstrass.Point.sum ((votes.map Vote.signature).map Signature.point)

theorem inGroup_summed (set : ValidatorSet) (hmade : ∀ v ∈ votes, v.signature.Made) :
    (summed set votes).signature.InGroup := by
  have hpoints : ∀ p ∈ (votes.map Vote.signature).map Signature.point, Bls12381.InGroup Bls12381.G2.constantTerm p := by
    rw [List.map_map]
    intro p hp
    obtain ⟨v, hv, rfl⟩ := List.mem_map.1 hp
    exact (hmade v hv).inGroup
  exact Bls12381.inGroup_sum Bls12381.G2.discriminant_ne_zero hpoints

theorem length_bitmap_lt (votes : List Vote) (hsize : set.size < UInt64.size) :
    (summed set votes).bitmap.bytes.length < UInt64.size := by
  have hlength : (summed set votes).bitmap.bytes.length = (set.size + 7) / 8 := length_marked
  omega

/-- A certificate that was made of votes is read back unless the votes' signatures sum to the identity. If they do,
what is written of the certificate is refused. In the binary form the number of bytes of the bitmap takes one word. -/
theorem ofVotes_read_back (hmade : ∀ v ∈ votes, v.signature.Made) (hc : ofVotes set votes = .ok c) :
    (signatureSum votes ≠ .identity →
      (∀ format, ofValue format c.toValue = .ok c) ∧
      (set.size < UInt64.size → ∀ rest, ofBinary (c.toBinary ++ rest) = .ok (c, rest))) ∧
    (signatureSum votes = .identity →
      (∀ format, ofValue format c.toValue = .error (.key (.notAPoint .identity))) ∧
      (set.size < UInt64.size → ∀ rest, ofBinary (c.toBinary ++ rest) = .error (.key (.notAPoint .identity)))) := by
  obtain ⟨-, -, rfl⟩ := ofVotes_eq_ok_iff.1 hc
  constructor
  · intro hne
    have hread := Signature.ofBytes_toBytes (inGroup_summed set hmade) hne
    refine ⟨fun format => ?_, fun hsize rest => ?_⟩
    · rw [ofValue_toValue, hread]
      rfl
    · rw [ofBinary_toBinary_append (length_bitmap_lt votes hsize), hread]
      rfl
  · intro hidentity
    have hrefused := Signature.ofBytes_toBytes_identity (s := (summed set votes).signature) hidentity
    refine ⟨fun format => ?_, fun hsize rest => ?_⟩
    · rw [ofValue_toValue, hrefused]
      rfl
    · rw [ofBinary_toBinary_append (length_bitmap_lt votes hsize), hrefused]
      rfl

/-- The two signatures sum to three times the generator. -/
theorem ofVotes_read_back_twoVotes : ∃ c, ofVotes .fourStandard twoVotes = .ok c ∧
    signatureSum twoVotes ≠ .identity ∧ ofValue .json c.toValue = .ok c ∧ ofBinary (c.toBinary ++ []) = .ok (c, []) := by
  have hfine : EachOnce .fourStandard twoVotes := ⟨by decide, by decide⟩
  have hc := hfine.ofVotes_eq (List.cons_ne_nil _ _)
  have hne : signatureSum twoVotes ≠ .identity := by decide +kernel
  obtain ⟨hvalue, hbinary⟩ := (ofVotes_read_back made_twoVotes hc).1 hne
  exact ⟨_, hc, hne, hvalue .json, hbinary (by decide) []⟩

def generatorVote : Vote :=
  ⟨(Account.numbered 3 25).address, .generator⟩

/-- A vote of the first of the four with the opposite of the generator. -/
def oppositeVote : Vote :=
  ⟨(Account.numbered 1 25).address, ⟨-Signature.generator.point⟩⟩

theorem made_generatorVote : generatorVote.signature.Made :=
  Signature.made_of_inGroup Bls12381.inGroup_generator nofun

theorem made_oppositeVote : oppositeVote.signature.Made :=
  Signature.made_of_inGroup (Bls12381.inGroup_generator.neg Bls12381.G2.discriminant_ne_zero) nofun

/-- Two votes with opposite signatures make a certificate that is not read back. -/
theorem not_read_back_of_opposite_votes : ∃ c, ofVotes .fourStandard [generatorVote, oppositeVote] = .ok c ∧
    (∀ v ∈ [generatorVote, oppositeVote], v.signature.Made) ∧ ofValue .json c.toValue ≠ .ok c ∧
    ofBinary c.toBinary ≠ .ok (c, []) := by
  have hfine : EachOnce .fourStandard [generatorVote, oppositeVote] := ⟨by decide, by decide⟩
  have hc := hfine.ofVotes_eq (List.cons_ne_nil _ _)
  have hidentity : (summed .fourStandard [generatorVote, oppositeVote]).signature.point = .identity := by
    decide
  have hrefused := Signature.ofBytes_toBytes_identity hidentity
  refine ⟨_, hc, ?_, ?_, ?_⟩
  · exact List.forall_mem_cons.2 ⟨made_generatorVote, List.forall_mem_singleton.2 made_oppositeVote⟩
  · rw [ofValue_toValue, hrefused]
    nofun
  · have hsize : ValidatorSet.fourStandard.size < UInt64.size := by decide
    have hbinary := ofBinary_toBinary_append (length_bitmap_lt [generatorVote, oppositeVote] hsize) []
    rw [List.append_nil, hrefused] at hbinary
    rw [hbinary]
    nofun

end Certificate

end Quorate
