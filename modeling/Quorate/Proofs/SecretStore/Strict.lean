import Quorate.Proofs.SecretStore.Stored

/-!
# What loads accept

A load reads one entry. Where the entry is well formed it gives what the key's own reading of the bytes gives;
where it is not, it fails under the secret's name. Only a missing entry counts as no secret.
-/

namespace Quorate.SecretStore

variable {A B E : Type} {name : String} {ofBytes : Bytes → Except E A} {fault : E → SecretFault} {give : A → B}
  {absent : Except SecretError B} {load : SecretStore → Except SecretError B}
  {entries : KeyedList String Bytes} {stored : Bytes} {a : A}

def inMemory (entries : KeyedList String Bytes) : SecretStore :=
  ⟨entries, none, none⟩

/-- The stored value is hexadecimal text for bytes that are read as the key. -/
def ReadsAs (ofBytes : Bytes → Except E A) (stored : Bytes) (a : A) : Prop :=
  ∃ raw, HexText stored raw ∧ ofBytes raw = .ok a

/-- A load of the secret with that name reads its entry alone, gives `absent` without one, accepts just a well-formed
value, and fails under the name on any other. -/
structure LoadsStrictly (name : String) (ofBytes : Bytes → Except E A) (give : A → B)
    (absent : Except SecretError B) (load : SecretStore → Except SecretError B) : Prop where
  congr : ∀ entries others : KeyedList String Bytes, entries.get? name = others.get? name →
    load (inMemory entries) = load (inMemory others)
  eq_absent : ∀ entries : KeyedList String Bytes, entries.get? name = none → load (inMemory entries) = absent
  eq_ok_iff : ∀ (entries : KeyedList String Bytes) (stored : Bytes) (b : B), entries.get? name = some stored →
    (load (inMemory entries) = .ok b ↔ ∃ a, ReadsAs ofBytes stored a ∧ b = give a)
  refused : ∀ (entries : KeyedList String Bytes) (stored : Bytes), entries.get? name = some stored →
    (∀ a, ¬ ReadsAs ofBytes stored a) → ∃ fault, load (inMemory entries) = .error (.invalid name fault)

/-- The part that all loads share: from the stored value to the key. -/
def readStored (name : String) (ofBytes : Bytes → Except E A) (fault : E → SecretFault) (stored : Bytes) :
    Except SecretError A := do
  let raw ← decodeStored name stored
  (ofBytes raw).mapError fun e => .invalid name (fault e)

theorem readStored_eq_ok_iff : readStored name ofBytes fault stored = .ok a ↔ ReadsAs ofBytes stored a := by
  constructor
  · intro h
    obtain ⟨raw, hraw, ha⟩ := bind_eq_ok h
    exact ⟨raw, decodeStored_eq_ok_iff.1 hraw, mapError_eq_ok ha⟩
  · rintro ⟨raw, hraw, ha⟩
    have hdecode : decodeStored name stored = .ok raw := decodeStored_eq_ok_iff.2 hraw
    rw [readStored, hdecode]
    exact congrArg (Except.mapError _) ha

theorem decodeStored_cases (name : String) (stored : Bytes) :
    (∃ raw, decodeStored name stored = .ok raw) ∨ ∃ f, decodeStored name stored = .error (.invalid name f) := by
  unfold decodeStored
  split
  · exact Or.inr ⟨_, rfl⟩
  · split
    · exact Or.inr ⟨_, rfl⟩
    · exact Or.inl ⟨_, rfl⟩

theorem readStored_cases (name : String) (ofBytes : Bytes → Except E A) (fault : E → SecretFault) (stored : Bytes) :
    (∃ a, readStored name ofBytes fault stored = .ok a) ∨
      ∃ f, readStored name ofBytes fault stored = .error (.invalid name f) := by
  rcases decodeStored_cases name stored with ⟨raw, hraw⟩ | ⟨f, hf⟩
  · rw [readStored, hraw]
    cases ha : ofBytes raw with
    | ok a => exact Or.inl ⟨a, congrArg (Except.mapError _) ha⟩
    | error e => exact Or.inr ⟨fault e, congrArg (Except.mapError _) ha⟩
  · rw [readStored, hf]
    exact Or.inr ⟨f, rfl⟩

/-- A load that does the shared part to its entry, if there is one, is strict. -/
theorem LoadsStrictly.of_readStored (fault : E → SecretFault)
    (habsent : ∀ entries : KeyedList String Bytes, entries.get? name = none → load (inMemory entries) = absent)
    (hstored : ∀ (entries : KeyedList String Bytes) (stored : Bytes), entries.get? name = some stored →
      load (inMemory entries) = (readStored name ofBytes fault stored).map give) :
    LoadsStrictly name ofBytes give absent load where
  congr entries others h := by
    cases hentry : entries.get? name with
    | none => rw [habsent entries hentry, habsent others (h ▸ hentry)]
    | some stored => rw [hstored entries stored hentry, hstored others stored (h ▸ hentry)]
  eq_absent := habsent
  eq_ok_iff entries stored b hentry := by
    rw [hstored entries stored hentry]
    constructor
    · intro h
      cases hread : readStored name ofBytes fault stored with
      | error e =>
        rw [hread] at h
        cases h
      | ok a =>
        rw [hread] at h
        exact ⟨a, readStored_eq_ok_iff.1 hread, (Except.ok.inj h).symm⟩
    · rintro ⟨a, ha, rfl⟩
      rw [readStored_eq_ok_iff.2 ha]
      rfl
  refused entries stored hentry hnone := by
    rw [hstored entries stored hentry]
    rcases readStored_cases name ofBytes fault stored with ⟨a, ha⟩ | ⟨f, hf⟩
    · exact (hnone a (readStored_eq_ok_iff.1 ha)).elim
    · rw [hf]
      exact ⟨f, rfl⟩

section Load

variable {C : Type} {decode : Bytes → Except SecretFault C} {give : A → C}

theorem load_inMemory (hdecode : ∀ raw, decode raw = ((ofBytes raw).map give).mapError fault)
    (hentry : entries.get? name = some stored) :
    (inMemory entries).load name decode = (readStored name ofBytes fault stored).map fun a => some (give a) := by
  have hcontains : (inMemory entries).contains name = true := by
    simp [contains, lookup?, inMemory, hentry]
  have hread : (inMemory entries).read name = .ok stored := read_eq_ok_iff.2 ⟨rfl, hentry⟩
  rw [SecretStore.load, if_pos hcontains, hread, readStored]
  simp only [bind, Except.bind, hdecode]
  cases decodeStored name stored with
  | error e => rfl
  | ok raw =>
    dsimp only
    cases ofBytes raw <;> rfl

theorem LoadsStrictly.of_load (fault : E → SecretFault)
    (hdecode : ∀ raw, decode raw = ((ofBytes raw).map give).mapError fault) :
    LoadsStrictly name ofBytes (fun a => some (give a)) (.ok none) fun s => s.load name decode := by
  refine .of_readStored fault ?_ fun _ _ => load_inMemory hdecode
  intro entries hnone
  exact load_of_absent (show (inMemory entries).lookup? name = none from hnone)

end Load

section Loads

theorem loadBlsSecretKey_inMemory (hentry : entries.get? blsKeyName = some stored) :
    (inMemory entries).loadBlsSecretKey = readStored blsKeyName SecretKey.ofBytes .badKey stored := by
  have hload : (inMemory entries).load blsKeyName (fun raw => (SecretKey.ofBytes raw).mapError .badKey) =
      (readStored blsKeyName SecretKey.ofBytes .badKey stored).map some :=
    load_inMemory (fun raw => by cases SecretKey.ofBytes raw <;> rfl) hentry
  rw [loadBlsSecretKey, hload]
  cases readStored blsKeyName SecretKey.ofBytes .badKey stored <;> rfl

theorem loadBlsSecretKey_strict :
    LoadsStrictly blsKeyName SecretKey.ofBytes id (.error (.notFound blsKeyName)) loadBlsSecretKey := by
  refine .of_readStored .badKey ?_ ?_
  · intro entries hnone
    have habsent : (inMemory entries).lookup? blsKeyName = none := hnone
    rw [loadBlsSecretKey, load_of_absent habsent]
    rfl
  · intro entries stored hentry
    rw [loadBlsSecretKey_inMemory hentry, Except.map_id, id]

theorem loadBlsPublicKey_strict :
    LoadsStrictly blsKeyName SecretKey.ofBytes (fun key => some key.publicKey) (.ok none) loadBlsPublicKey := by
  refine .of_readStored .badKey ?_ ?_
  · intro entries hnone
    have habsent : (inMemory entries).contains blsKeyName = false := contains_eq_false_iff.2 hnone
    rw [loadBlsPublicKey, habsent]
    rfl
  · intro entries stored hentry
    have hcontains : (inMemory entries).contains blsKeyName = true := by
      simp [contains, lookup?, inMemory, hentry]
    rw [loadBlsPublicKey, if_pos hcontains, loadBlsSecretKey_inMemory hentry]

theorem loadAddress_strict :
    LoadsStrictly accountKeyName AccountKey.ofBytes (fun key => some key.address) (.ok none) loadAddress :=
  .of_load .badAccountKey fun _ => rfl

theorem loadPossession_strict :
    LoadsStrictly possessionName Signature.ofBytes some (.ok none) loadPossession :=
  .of_load .badKey fun raw => by cases Signature.ofBytes raw <;> rfl

theorem loadNodeKey_strict : LoadsStrictly nodeKeyName NodeKey.ofBytes some (.ok none) loadNodeKey :=
  .of_load .badKey fun raw => by cases NodeKey.ofBytes raw <;> rfl

end Loads

/-- Loads accept exactly well-formed material and never make up a secret. Digits write bytes, and then only one byte
string, just if they are hexadecimal digits and their number is even. Each load gives the key that the bytes of its
own entry are read as; a missing entry is no secret, or an error that says so for the one key that has to be there;
and any other entry is an error under the secret's name. -/
theorem loads_exactly_well_formed :
    (∀ digits : List Char, (∃! raw, Hex.Writes digits raw) ↔ digits.length % 2 = 0 ∧ ∀ c ∈ digits, Hex.IsDigit c) ∧
    LoadsStrictly blsKeyName SecretKey.ofBytes id (.error (.notFound blsKeyName)) loadBlsSecretKey ∧
    LoadsStrictly blsKeyName SecretKey.ofBytes (fun key => some key.publicKey) (.ok none) loadBlsPublicKey ∧
    LoadsStrictly accountKeyName AccountKey.ofBytes (fun key => some key.address) (.ok none) loadAddress ∧
    LoadsStrictly possessionName Signature.ofBytes some (.ok none) loadPossession ∧
    LoadsStrictly nodeKeyName NodeKey.ofBytes some (.ok none) loadNodeKey :=
  ⟨fun _ => Hex.existsUnique_writes_iff, loadBlsSecretKey_strict, loadBlsPublicKey_strict, loadAddress_strict,
    loadPossession_strict, loadNodeKey_strict⟩

end Quorate.SecretStore
