import Quorate.Proofs.SecretStore.Strict

/-!
# Node keys that are given

A node key can be given in the form in which a store would give it back. Creation accepts and refuses just what a load
of that form does. It stores the key in one spelling, whatever the spelling that was given.
-/

namespace Quorate.SecretStore

variable {entries holding : KeyedList String Bytes} {given seed : Bytes} {s : SecretStore} {key : NodeKey}

theorem create_of_make_error {A : Type} {name : String} {make : SecretStore → Except SecretError (A × Bytes)}
    {e : SecretError} (habsent : s.lookup? name = none) (hmake : make s = .error e) :
    create name make s = (.error e, s) := by
  have hfree : ¬ s.contains name = true := by
    simp [contains_eq_false_iff.2 habsent]
  rw [create, if_neg hfree, hmake]

/-- A form that is given is read as a stored one is. -/
theorem make_given (hgiven : given ≠ []) (s : SecretStore) (seed : Bytes) :
    (SecretCreation.nodeKey (some given) seed).make s =
      (readStored nodeKeyName NodeKey.ofBytes .badKey given).map fun key => (key, key.toBytes) := by
  have hfilter : (some given).filter (fun stored => !stored.isEmpty) = some given := by
    simpa using hgiven
  simp only [SecretCreation.make, hfilter, readStored, bind, Except.bind]
  cases decodeStored nodeKeyName given with
  | error e => rfl
  | ok raw =>
    dsimp only
    cases NodeKey.ofBytes raw <;> rfl

/-- Creation of a given form, where the name is free, depends only on how the form is read. -/
theorem createNodeKey_given_cases (hfree : entries.get? nodeKeyName = none) (hgiven : given ≠ []) (seed : Bytes) :
    (∃ key, readStored nodeKeyName NodeKey.ofBytes .badKey given = .ok key ∧
      (inMemory entries).createNodeKey (some given) seed =
        (.ok key, (inMemory entries).added nodeKeyName key.seed)) ∨
    ∃ fault, readStored nodeKeyName NodeKey.ofBytes .badKey given = .error (.invalid nodeKeyName fault) ∧
      (inMemory entries).createNodeKey (some given) seed =
        (.error (.invalid nodeKeyName fault), inMemory entries) := by
  have hcreate : (inMemory entries).createNodeKey (some given) seed =
      create nodeKeyName (SecretCreation.nodeKey (some given) seed).make (inMemory entries) := rfl
  have hmake := make_given hgiven (inMemory entries) seed
  rw [hcreate]
  rcases readStored_cases nodeKeyName NodeKey.ofBytes .badKey given with ⟨key, hkey⟩ | ⟨fault, hfault⟩
  · rw [hkey] at hmake
    exact Or.inl ⟨key, hkey, create_eq_ok_iff.2 ⟨hfree, rfl, key.seed, hmake, rfl⟩⟩
  · rw [hfault] at hmake
    exact Or.inr ⟨fault, hfault, create_of_make_error hfree hmake⟩

theorem loadNodeKey_inMemory (hentry : holding.get? nodeKeyName = some given) :
    (inMemory holding).loadNodeKey = (readStored nodeKeyName NodeKey.ofBytes .badKey given).map some :=
  load_inMemory (fun raw => by cases NodeKey.ofBytes raw <;> rfl) hentry

theorem loadNodeKey_added (hfree : entries.get? nodeKeyName = none) (key : NodeKey) :
    ((inMemory entries).added nodeKeyName key.seed).loadNodeKey = .ok (some key) := by
  have habsent : (inMemory entries).lookup? nodeKeyName = none := hfree
  have hread : NodeKey.ofBytes key.seed = .ok key := key.ofBytes_toBytes
  apply load_of_stored rfl (lookup?_added_self)
  rw [hread]
  rfl

theorem readsAs_nodeKey_iff : ReadsAs NodeKey.ofBytes given key ↔ HexText given key.seed := by
  constructor
  · rintro ⟨raw, htext, hkey⟩
    rwa [NodeKey.toBytes_of_ofBytes hkey] at htext
  · intro htext
    exact ⟨key.seed, htext, key.ofBytes_toBytes⟩

/-- A node key is created of a given form just as it is loaded of a store that holds that form: as the same key, or with
the same error, which is one under the secret's name and leaves the store as it was. The forms that give a key are the
digits of its seed in either case, between blanks and after at most one mark; what is stored for it is its 64 lowercase
digits alone, which are loaded as that key. An empty form is none. -/
theorem given_nodeKey_as_stored (hfree : entries.get? nodeKeyName = none) (given seed : Bytes) :
    let outcome := (inMemory entries).createNodeKey (some given) seed
    (given = [] → outcome = (inMemory entries).createNodeKey none seed) ∧
    (given ≠ [] →
      (∀ holding : KeyedList String Bytes, holding.get? nodeKeyName = some given →
        (inMemory holding).loadNodeKey = outcome.1.map some) ∧
      (∀ key : NodeKey, outcome.1 = .ok key ↔ HexText given key.seed) ∧
      (∀ e, outcome.1 = .error e → (∃ fault, e = .invalid nodeKeyName fault) ∧ outcome.2 = inMemory entries) ∧
      ∀ key : NodeKey, outcome.1 = .ok key →
        outcome.2 = (inMemory entries).added nodeKeyName key.seed ∧
        outcome.2.lookup? nodeKeyName = some (Bytes.ofText (Hex.encode key.seed)) ∧
        (Hex.encode key.seed).toList.length = 64 ∧ (∀ c ∈ (Hex.encode key.seed).toList, Hex.IsLowerDigit c) ∧
        outcome.2.loadNodeKey = .ok (some key)) := by
  intro outcome
  refine ⟨?_, fun hgiven => ?_⟩
  · rintro rfl
    rfl
  have hread : ∀ key, readStored nodeKeyName NodeKey.ofBytes .badKey given = .ok key ↔ HexText given key.seed :=
    fun key => readStored_eq_ok_iff.trans readsAs_nodeKey_iff
  rcases createNodeKey_given_cases hfree hgiven seed with ⟨key, hkey, houtcome⟩ | ⟨fault, hfault, houtcome⟩
  · have hmade : outcome.1 = .ok key := congrArg Prod.fst houtcome
    have hafter : outcome.2 = (inMemory entries).added nodeKeyName key.seed := congrArg Prod.snd houtcome
    rw [hmade, hafter]
    refine ⟨?_, ?_, nofun, ?_⟩
    · intro holding hentry
      rw [loadNodeKey_inMemory hentry, hkey]
    · intro key'
      rw [← hread, hkey]
    · rintro _ ⟨⟩
      refine ⟨rfl, lookup?_added_self, ?_, fun c => Hex.isLowerDigit_of_mem_encode, loadNodeKey_added hfree key⟩
      rw [(Hex.writes_encode key.seed).length_eq, key.length_eq]
  · have hmade : outcome.1 = .error (.invalid nodeKeyName fault) := congrArg Prod.fst houtcome
    have hafter : outcome.2 = inMemory entries := congrArg Prod.snd houtcome
    rw [hmade, hafter]
    refine ⟨?_, ?_, ?_, nofun⟩
    · intro holding hentry
      rw [loadNodeKey_inMemory hentry, hfault]
    · intro key
      rw [← hread, hfault]
    · rintro _ ⟨⟩
      exact ⟨⟨fault, rfl⟩, rfl⟩

/-- The digits `Ab` for each byte of a seed, marked and between blanks. -/
def paddedSeedText : List Char :=
  [' ', '\t'] ++ (['0', 'x'] ++ (List.replicate 32 ['A', 'b']).flatten) ++ ['\n']

theorem given_nodeKey_as_stored_padded :
    let s := inMemory ⟨[(accountKeyName, [0x30])], by decide⟩
    let given := paddedSeedText.flatMap String.utf8EncodeChar
    let key : NodeKey := ⟨List.replicate 32 0xab, rfl⟩
    s.lookup? nodeKeyName = none ∧ given ≠ [] ∧ (s.createNodeKey (some given) []).1 = .ok key ∧
      (s.createNodeKey (some given) []).2.lookup? nodeKeyName = some (Bytes.ofText (Hex.encode key.seed)) ∧
      (s.createNodeKey (some given) []).2.loadNodeKey = .ok (some key) := by
  intro s given key
  have hfree : s.lookup? nodeKeyName = none := by decide
  have hgiven : given ≠ [] := by
    simp [given, paddedSeedText]
  have hblank : ∀ c ∈ [' ', '\t'] ++ ['\n'], Text.isBlank c = true := by simp [Text.isBlank]
  have hwrites : Hex.Writes (List.replicate 32 ['A', 'b']).flatten (List.replicate 32 0xab) := by
    unfold Hex.Writes
    decide
  have htext : HexText given key.seed := ⟨[' ', '\t'], ['0', 'x'], _, ['\n'], rfl, hblank, Or.inr rfl, hwrites⟩
  obtain ⟨-, hiff, -, hdone⟩ := (given_nodeKey_as_stored hfree given []).2 hgiven
  have hmade := (hiff key).2 htext
  obtain ⟨-, hstored, -, -, hloaded⟩ := hdone key hmade
  exact ⟨hfree, hgiven, hmade, hstored, hloaded⟩

end Quorate.SecretStore
