import Quorate.Proofs.Key.Encodings
import Quorate.Proofs.Record.Defaults
import Quorate.Proofs.Text.Decimal
import Quorate.Proofs.Traversal

/-!
# Scalars are read back

Addresses, powers and chains are read back from the values that stand for them. Keys and signatures are, if they were
read before: what is read is a point of the group, and not the identity.
-/

namespace Quorate

theorem ChainId.ofValue_toValue (c : ChainId) : ofValue c.toValue = .ok c := by
  rw [ofValue, toValue, Value.toWord_ofWord]
  rfl

namespace Address

theorem ofValue_text (s : String) : ofValue (.text s) = (ofHex s).mapError .address :=
  rfl

theorem ofValue_toValue (a : Address) : ofValue a.toValue = .ok a := by
  rw [toValue, ofValue_text, ofHex_toHex]
  rfl

end Address

theorem VotingPower.ofValue_toValue (format : TextFormat) (p : VotingPower) : ofValue format p.toValue = .ok p := by
  rw [toValue, ofValue, ofText_text]
  rfl

namespace PublicKey

variable {k : PublicKey}

theorem ofValue_text (s : String) : ofValue (.text s) = (ofHex s).mapError .key :=
  rfl

theorem ofValue_toValue (k : PublicKey) : ofValue k.toValue = (ofBytes k.toBytes).mapError .key := by
  rw [toValue, ofValue_text, ofHex_toHex]

def Read (k : PublicKey) : Prop :=
  (∃ bs, ofBytes bs = .ok k) ∨ ∃ s, ofHex s = .ok k

theorem Read.inGroup (h : k.Read) : k.InGroup ∧ k.point ≠ .identity := by
  rcases h with ⟨_, h⟩ | ⟨_, h⟩
  · exact inGroup_of_ofBytes h
  · obtain ⟨_, -, h⟩ := bind_eq_ok h
    exact inGroup_of_ofBytes h

theorem Read.ofValue_toValue (h : k.Read) : ofValue k.toValue = .ok k := by
  rw [PublicKey.ofValue_toValue, ofBytes_toBytes h.inGroup.1 h.inGroup.2]
  rfl

end PublicKey

namespace Signature

variable {s : Signature}

theorem ofValue_text (text : String) : ofValue (.text text) = (ofHex text).mapError .key :=
  rfl

theorem ofValue_toValue (s : Signature) : ofValue s.toValue = (ofBytes s.toBytes).mapError .key := by
  rw [toValue, ofValue_text, ofHex_toHex]

def Read (s : Signature) : Prop :=
  (∃ bs, ofBytes bs = .ok s) ∨ ∃ text, ofHex text = .ok s

theorem Read.inGroup (h : s.Read) : s.InGroup ∧ s.point ≠ .identity := by
  rcases h with ⟨_, h⟩ | ⟨_, h⟩
  · exact inGroup_of_ofBytes h
  · obtain ⟨_, -, h⟩ := bind_eq_ok h
    exact inGroup_of_ofBytes h

theorem Read.ofValue_toValue (h : s.Read) : ofValue s.toValue = .ok s := by
  rw [Signature.ofValue_toValue, ofBytes_toBytes h.inGroup.1 h.inGroup.2]
  rfl

end Signature

end Quorate
