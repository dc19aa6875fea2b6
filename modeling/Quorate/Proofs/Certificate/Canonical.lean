import Quorate.Proofs.Certificate.Wire
import Quorate.Proofs.Key.Canonical

/-!
# Certificates have one spelling

In the binary form a bitmap stands in a block as it is, keys and signatures stand in blocks, and a certificate is its
signature before its bitmap. All of them are canonical up to what follows, and what was read from the binary form is
read back from its value.

A value is the tree that stands for a text form, JSON or the configuration format. The statements about text forms are
about this tree and leave out its spelling in characters.
-/

namespace Quorate

/-- Any bytes are a bitmap. -/
theorem SignerBitmap.canonical : CanonicalBytes (fun bs => (.ok ⟨bs⟩ : Except KeyError SignerBitmap)) bytes :=
  .of_write_eq fun _ _ h => congrArg bytes (Except.ok.inj h).symm

theorem SignerBitmap.canonicalPrefix : CanonicalPrefix ofBinary toBinary :=
  Binary.canonicalPrefix_readIn canonical .key

theorem PublicKey.canonicalPrefix : CanonicalPrefix ofBinary toBinary :=
  Binary.canonicalPrefix_readIn canonical .key

theorem Signature.canonicalPrefix : CanonicalPrefix ofBinary toBinary :=
  Binary.canonicalPrefix_readIn canonical .key

namespace Certificate

variable {bs rest : Bytes} {c : Certificate}

theorem ofBinary_eq_ok_iff : ofBinary bs = .ok (c, rest) ↔
    ∃ tail, Signature.ofBinary bs = .ok (c.signature, tail) ∧ SignerBitmap.ofBinary tail = .ok (c.bitmap, rest) := by
  constructor
  · intro h
    obtain ⟨⟨signature, tail⟩, hsignature, h⟩ := bind_eq_ok h
    obtain ⟨⟨bitmap, rest'⟩, hbitmap, h⟩ := bind_eq_ok h
    obtain ⟨rfl, rfl⟩ := Prod.mk.inj (Except.ok.inj h)
    exact ⟨tail, hsignature, hbitmap⟩
  · rintro ⟨tail, hsignature, hbitmap⟩
    simp only [ofBinary, hsignature, hbitmap, bind, Except.bind]
    rfl

theorem canonicalPrefix : CanonicalPrefix ofBinary toBinary where
  eq_append h := by
    obtain ⟨tail, hsignature, hbitmap⟩ := ofBinary_eq_ok_iff.1 h
    rw [Signature.canonicalPrefix.eq_append hsignature, SignerBitmap.canonicalPrefix.eq_append hbitmap, toBinary,
      List.append_assoc]
  read_append h more := by
    obtain ⟨tail, hsignature, hbitmap⟩ := ofBinary_eq_ok_iff.1 h
    refine ofBinary_eq_ok_iff.2 ⟨_, ?_, SignerBitmap.canonicalPrefix.read_append hbitmap more⟩
    rw [toBinary, List.append_assoc]
    exact Signature.canonicalPrefix.read_append hsignature _

end Certificate

theorem PublicKey.read_of_ofBinary {bs rest : Bytes} {k : PublicKey} (h : ofBinary bs = .ok (k, rest)) : k.Read := by
  obtain ⟨block, -, hread⟩ := Binary.readIn_eq_ok_iff.1 h
  exact .inl ⟨block, hread⟩

theorem Signature.read_of_ofBinary {bs rest : Bytes} {s : Signature} (h : ofBinary bs = .ok (s, rest)) : s.Read := by
  obtain ⟨block, -, hread⟩ := Binary.readIn_eq_ok_iff.1 h
  exact .inl ⟨block, hread⟩

theorem Certificate.ofValue_of_ofBinary {bs rest : Bytes} {c : Certificate} (h : ofBinary bs = .ok (c, rest))
    (format : TextFormat) : ofValue format c.toValue = .ok c := by
  obtain ⟨tail, hsignature, -⟩ := ofBinary_eq_ok_iff.1 h
  obtain ⟨hgroup, hne⟩ := (Signature.read_of_ofBinary hsignature).inGroup
  rw [ofValue_toValue, Signature.ofBytes_toBytes hgroup hne]
  rfl

/-- Keys and signatures are accepted only in the bytes that they are written as. In the binary form, keys, signatures,
bitmaps and certificates are accepted only where the bytes that they are written as come first, whatever follows. What
was read from the binary form is read back from its value in either text format. -/
theorem encodings_are_canonical :
    CanonicalBytes PublicKey.ofBytes PublicKey.toBytes ∧ CanonicalBytes Signature.ofBytes Signature.toBytes ∧
    CanonicalBytes SecretKey.ofBytes SecretKey.toBytes ∧ CanonicalBytes AccountKey.ofBytes AccountKey.toBytes ∧
    CanonicalPrefix PublicKey.ofBinary PublicKey.toBinary ∧ CanonicalPrefix Signature.ofBinary Signature.toBinary ∧
    CanonicalPrefix SignerBitmap.ofBinary SignerBitmap.toBinary ∧
    CanonicalPrefix Certificate.ofBinary Certificate.toBinary ∧
    (∀ bs k rest, PublicKey.ofBinary bs = .ok (k, rest) → PublicKey.ofValue k.toValue = .ok k) ∧
    (∀ bs s rest, Signature.ofBinary bs = .ok (s, rest) → Signature.ofValue s.toValue = .ok s) ∧
    (∀ bs m rest, SignerBitmap.ofBinary bs = .ok (m, rest) →
      ∀ format, SignerBitmap.ofValue format m.toValue = .ok m) ∧
    ∀ bs c rest, Certificate.ofBinary bs = .ok (c, rest) → ∀ format, Certificate.ofValue format c.toValue = .ok c := by
  refine ⟨PublicKey.canonical, Signature.canonical, SecretKey.canonical, AccountKey.canonical,
    PublicKey.canonicalPrefix, Signature.canonicalPrefix, SignerBitmap.canonicalPrefix, Certificate.canonicalPrefix,
    ?_, ?_, ?_, ?_⟩
  · exact fun _ _ _ h => (PublicKey.read_of_ofBinary h).ofValue_toValue
  · exact fun _ _ _ h => (Signature.read_of_ofBinary h).ofValue_toValue
  · exact fun _ m _ _ format => m.ofValue_toValue format
  · exact fun _ _ _ h format => Certificate.ofValue_of_ofBinary h format

end Quorate
