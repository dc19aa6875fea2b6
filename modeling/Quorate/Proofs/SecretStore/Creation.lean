import Mathlib
import Quorate.Proofs.Traversal
import Quorate.SecretStore.Create

/-!
# What one creation does

A creation of a secret whose name is there is refused, whatever its arguments. Any other creation either fails
and leaves the store alone, or adds one entry: the secret's own name, with the hexadecimal text of what was
exported.
-/

namespace Quorate

theorem NodeKey.toBytes_of_ofBytes {raw : Bytes} {key : NodeKey} (h : NodeKey.ofBytes raw = .ok key) :
    raw = key.toBytes := by
  unfold NodeKey.ofBytes at h
  split at h
  · cases h
    rfl
  · cases h

theorem NodeKey.ofBytes_toBytes (key : NodeKey) : NodeKey.ofBytes key.toBytes = .ok key :=
  dif_pos key.length_eq

inductive SecretCreation
  | blsKey (seed : Bytes)
  | accountKey (draws : List Bytes)
  | nodeKey (given : Option Bytes) (seed : Bytes)
  | possession (address : Address) (chain : ChainId) (tag : Bytes)

namespace SecretCreation

def Result : SecretCreation → Type
  | blsKey _ => PublicKey
  | accountKey _ => Address
  | nodeKey _ _ => NodeKey
  | possession _ _ _ => Signature

def name : SecretCreation → String
  | blsKey _ => SecretStore.blsKeyName
  | accountKey _ => SecretStore.accountKeyName
  | nodeKey _ _ => SecretStore.nodeKeyName
  | possession _ _ _ => SecretStore.possessionName

open SecretStore in
/-- The name tells the secrets apart. -/
theorem of_name (c : SecretCreation) :
    (c.name = blsKeyName → ∃ seed, c = .blsKey seed) ∧
    (c.name = accountKeyName → ∃ draws, c = .accountKey draws) ∧
    (c.name = nodeKeyName → ∃ given seed, c = .nodeKey given seed) ∧
    (c.name = possessionName → ∃ address chain tag, c = .possession address chain tag) := by
  cases c <;> simp [name, blsKeyName, accountKeyName, nodeKeyName, possessionName]

/-- What the creation returns and exports, where it is not refused. -/
def make : (c : SecretCreation) → SecretStore → Except SecretError (c.Result × Bytes)
  | blsKey seed => fun _ => do
    let key ← (SecretKey.ofSeed seed).mapError .key
    return (key.publicKey, key.toBytes)
  | accountKey draws => fun _ => do
    let key ← (AccountKey.ofDraws draws).mapError .key
    return (key.address, key.toBytes)
  | nodeKey given seed => fun _ => do
    let raw ←
      match given.filter fun stored => !stored.isEmpty with
      | some stored => SecretStore.decodeStored SecretStore.nodeKeyName stored
      | none => pure seed
    let key ← (NodeKey.ofBytes raw).mapError fun e => .invalid SecretStore.nodeKeyName (.badKey e)
    return (key, key.toBytes)
  | possession address chain tag => fun s => do
    let key ← s.loadBlsSecretKey
    let proof := key.provePossession address chain tag
    return (proof, proof.toBytes)

end SecretCreation

namespace SecretStore

def createSecret (s : SecretStore) : (c : SecretCreation) → Except SecretError c.Result × SecretStore
  | .blsKey seed => s.createBlsKey seed
  | .accountKey draws => s.createAccountKey draws
  | .nodeKey given seed => s.createNodeKey given seed
  | .possession address chain tag => s.createPossession address chain tag

/-- What a creation exports for the store, given what it returns. -/
inductive Exports (s : SecretStore) : (c : SecretCreation) → c.Result → Bytes → Prop
  | blsKey {seed : Bytes} {key : SecretKey} (h : SecretKey.ofSeed seed = .ok key) :
    Exports s (.blsKey seed) key.publicKey key.toBytes
  | accountKey {draws : List Bytes} {key : AccountKey} (h : AccountKey.ofDraws draws = .ok key) :
    Exports s (.accountKey draws) key.address key.toBytes
  | givenNodeKey {given : Option Bytes} {stored seed : Bytes} {key : NodeKey}
    (hgiven : given.filter (fun stored => !stored.isEmpty) = some stored)
    (h : decodeStored nodeKeyName stored = .ok key.toBytes) :
    Exports s (.nodeKey given seed) key key.toBytes
  | drawnNodeKey {given : Option Bytes} {seed : Bytes} {key : NodeKey}
    (hgiven : given.filter (fun stored => !stored.isEmpty) = none) (h : seed = key.toBytes) :
    Exports s (.nodeKey given seed) key key.toBytes
  | possession {address : Address} {chain : ChainId} {tag : Bytes} {key : SecretKey} {proof : Signature}
    (h : s.loadBlsSecretKey = .ok key) (hproof : proof = key.provePossession address chain tag) :
    Exports s (.possession address chain tag) proof proof.toBytes

/-- The store with one more entry, the hexadecimal text of some bytes. -/
def added (s : SecretStore) (name : String) (raw : Bytes) : SecretStore :=
  { s with entries := s.entries.put name (Bytes.ofText (Hex.encode raw)) }

variable {s t : SecretStore} {name n : String} {raw : Bytes}

theorem contains_eq_false_iff : s.contains name = false ↔ s.lookup? name = none := by
  simp [contains]

theorem lookup?_added (s : SecretStore) (name : String) (raw : Bytes) (n : String) :
    (s.added name raw).lookup? n =
      if n = name then some (Bytes.ofText (Hex.encode raw)) else s.lookup? n :=
  KeyedList.get?_put s.entries name _ n

theorem lookup?_added_self : (s.added name raw).lookup? name = some (Bytes.ofText (Hex.encode raw)) := by
  rw [lookup?_added, if_pos rfl]

theorem entries_added (h : s.lookup? name = none) :
    (s.added name raw).entries.entries = s.entries.entries ++ [(name, Bytes.ofText (Hex.encode raw))] :=
  KeyedList.entries_put_of_get?_eq_none h

theorem write_of_writable (hwrite : s.writeRefusal = none) :
    s.write name (Bytes.ofText (Hex.encode raw)) = .ok (s.added name raw) :=
  write_eq_ok_iff.2 ⟨hwrite, rfl⟩

section Create

variable {A : Type} {make : SecretStore → Except SecretError (A × Bytes)}

theorem create_of_contains (h : s.contains name = true) :
    create name make s = (.error (.alreadyPresent name), s) := if_pos h

theorem create_cases (name : String) (make : SecretStore → Except SecretError (A × Bytes)) (s : SecretStore) :
    (s.contains name = true ∧ create name make s = (.error (.alreadyPresent name), s)) ∨
    (∃ e, create name make s = (.error e, s)) ∨
    ∃ value raw, s.lookup? name = none ∧ s.writeRefusal = none ∧ make s = .ok (value, raw) ∧
      create name make s = (.ok value, s.added name raw) := by
  by_cases hpresent : s.contains name = true
  · exact Or.inl ⟨hpresent, create_of_contains hpresent⟩
  · right
    have habsent : s.lookup? name = none := by
      rwa [Bool.not_eq_true, contains_eq_false_iff] at hpresent
    unfold create
    rw [if_neg hpresent]
    cases hmake : make s with
    | error e => exact Or.inl ⟨e, rfl⟩
    | ok made =>
      obtain ⟨value, raw⟩ := made
      cases hwrite : s.writeRefusal with
      | some reason =>
        left
        exact ⟨.backend reason, by simp [write, hwrite]⟩
      | none =>
        right
        exact ⟨value, raw, habsent, rfl, rfl, by simp only [write_of_writable hwrite]⟩

/-- A creation succeeds where the name is free, the store can be written and there is something to store. -/
theorem create_eq_ok_iff {value : A} :
    create name make s = (.ok value, t) ↔ s.lookup? name = none ∧ s.writeRefusal = none ∧
      ∃ raw, make s = .ok (value, raw) ∧ t = s.added name raw := by
  constructor
  · intro h
    rcases create_cases name make s with ⟨-, hrefused⟩ | ⟨_, hfail⟩ | ⟨value', raw, habsent, hwrite, hmake, hdone⟩
    · cases hrefused.symm.trans h
    · cases hfail.symm.trans h
    · cases hdone.symm.trans h
      exact ⟨habsent, hwrite, raw, hmake, rfl⟩
  · rintro ⟨habsent, hwrite, raw, hmake, rfl⟩
    have hfree : ¬ s.contains name = true := by
      simp [contains_eq_false_iff.2 habsent]
    rw [create, if_neg hfree, hmake]
    simp only [write_of_writable hwrite]

end Create

theorem createSecret_eq (s : SecretStore) (c : SecretCreation) : s.createSecret c = create c.name c.make s := by
  cases c <;> rfl

theorem createSecret_of_contains {c : SecretCreation} (h : s.contains c.name = true) :
    s.createSecret c = (.error (.alreadyPresent c.name), s) := by
  rw [createSecret_eq]
  exact create_of_contains h

theorem exports_of_make {c : SecretCreation} {value : c.Result} (h : c.make s = .ok (value, raw)) :
    s.Exports c value raw := by
  cases c with
  | blsKey seed =>
    obtain ⟨key, hkey, hmade⟩ := bind_eq_ok h
    obtain ⟨rfl, rfl⟩ := Prod.mk.inj (Except.ok.inj hmade)
    exact .blsKey (mapError_eq_ok hkey)
  | accountKey draws =>
    obtain ⟨key, hkey, hmade⟩ := bind_eq_ok h
    obtain ⟨rfl, rfl⟩ := Prod.mk.inj (Except.ok.inj hmade)
    exact .accountKey (mapError_eq_ok hkey)
  | nodeKey given seed =>
    simp only [SecretCreation.make] at h
    split at h
    · rename_i stored hgiven
      obtain ⟨bytes, hstored, hbytes⟩ := bind_eq_ok h
      obtain ⟨key, hkey, hmade⟩ := bind_eq_ok hbytes
      obtain ⟨rfl, rfl⟩ := Prod.mk.inj (Except.ok.inj hmade)
      rw [NodeKey.toBytes_of_ofBytes (mapError_eq_ok hkey)] at hstored
      exact .givenNodeKey hgiven hstored
    · rename_i hgiven
      obtain ⟨bytes, hdrawn, hbytes⟩ := bind_eq_ok h
      obtain ⟨key, hkey, hmade⟩ := bind_eq_ok hbytes
      obtain ⟨rfl, rfl⟩ := Prod.mk.inj (Except.ok.inj hmade)
      have hseed : seed = bytes := Except.ok.inj hdrawn
      exact .drawnNodeKey hgiven (hseed.trans (NodeKey.toBytes_of_ofBytes (mapError_eq_ok hkey)))
  | possession address chain tag =>
    obtain ⟨key, hkey, hmade⟩ := bind_eq_ok h
    obtain ⟨rfl, rfl⟩ := Prod.mk.inj (Except.ok.inj hmade)
    exact .possession hkey rfl

theorem make_of_exports {c : SecretCreation} {value : c.Result} (h : s.Exports c value raw) :
    c.make s = .ok (value, raw) := by
  cases h with
  | blsKey h =>
    simp only [SecretCreation.make, h]
    rfl
  | accountKey h =>
    simp only [SecretCreation.make, h]
    rfl
  | givenNodeKey hgiven h =>
    simp only [SecretCreation.make, hgiven, h, bind, Except.bind, NodeKey.ofBytes_toBytes]
    rfl
  | drawnNodeKey hgiven h =>
    simp only [SecretCreation.make, hgiven, h, bind, Except.bind, pure, Except.pure, NodeKey.ofBytes_toBytes]
    rfl
  | possession h hproof =>
    simp only [SecretCreation.make, h, hproof]
    rfl

theorem exports_iff_make {c : SecretCreation} {value : c.Result} :
    s.Exports c value raw ↔ c.make s = .ok (value, raw) :=
  ⟨make_of_exports, exports_of_make⟩

theorem createSecret_cases (s : SecretStore) (c : SecretCreation) :
    (∃ e, s.createSecret c = (.error e, s)) ∨
    ∃ value raw, s.lookup? c.name = none ∧ s.Exports c value raw ∧
      s.createSecret c = (.ok value, s.added c.name raw) := by
  rw [createSecret_eq]
  rcases create_cases c.name c.make s with ⟨-, h⟩ | h | ⟨value, raw, habsent, -, hmake, h⟩
  · exact Or.inl ⟨_, h⟩
  · exact Or.inl h
  · exact Or.inr ⟨value, raw, habsent, exports_of_make hmake, h⟩

theorem createSecret_eq_ok_iff {c : SecretCreation} {value : c.Result} :
    s.createSecret c = (.ok value, t) ↔ s.lookup? c.name = none ∧ s.writeRefusal = none ∧
      ∃ raw, s.Exports c value raw ∧ t = s.added c.name raw := by
  rw [createSecret_eq, create_eq_ok_iff]
  simp only [exports_iff_make]

end SecretStore

end Quorate
