import Quorate.Proofs.SecretStore.Run
import Quorate.Proofs.SecretStore.Stored
import Quorate.Proofs.SigningMessage

/-!
# What is loaded after a run

From the empty store on, a load gives what the creation returned, or nothing where there was none. A proof of
possession is always one by the stored key, since that key was there when the proof was made and no key ever
changes. So an identity loads just when its three parts were created and the proof was made for its address.
-/

namespace Quorate.SecretStore

section Loads

variable {s : SecretStore} {name : String} {key : SecretKey} {chain : ChainId} {tag : Bytes}

theorem required_eq_ok_iff {A : Type} {loaded : Except SecretError (Option A)} {value : A} :
    required name loaded = .ok value ↔ loaded = .ok (some value) := by
  unfold required
  split <;> simp

theorem load_run {A : Type} {decode : Bytes → Except SecretFault A} {value : A}
    (h : s.load name decode = .ok (some value)) (ops : List SecretOperation) :
    (s.run ops).load name decode = .ok (some value) := by
  obtain ⟨hread, stored, raw, hlookup, hraw, hvalue⟩ := load_eq_some_iff.1 h
  have hreadable : (s.run ops).readRefusal = none := (s.refusals_run ops).1.trans hread
  exact load_eq_some_iff.2 ⟨hreadable, stored, raw, lookup?_run_of_eq_some hlookup ops, hraw, hvalue⟩

theorem loadBlsSecretKey_run (h : s.loadBlsSecretKey = .ok key) (ops : List SecretOperation) :
    (s.run ops).loadBlsSecretKey = .ok key :=
  required_eq_ok_iff.2 (load_run (required_eq_ok_iff.1 h) ops)

theorem loadBlsSecretKey_of_stored (hread : s.readRefusal = none)
    (hstored : s.lookup? blsKeyName = some (Bytes.ofText (Hex.encode key.toBytes))) :
    s.loadBlsSecretKey = .ok key := by
  apply required_eq_ok_iff.2
  apply load_of_stored hread hstored
  rw [SecretKey.ofBytes_toBytes]
  rfl

theorem loadBlsPublicKey_of_secretKey (h : s.loadBlsSecretKey = .ok key) :
    s.loadBlsPublicKey = .ok (some key.publicKey) := by
  have hcontains : s.contains blsKeyName = true := by
    obtain ⟨-, stored, -, hlookup, -, -⟩ := load_eq_some_iff.1 (required_eq_ok_iff.1 h)
    simp [contains, hlookup]
  rw [loadBlsPublicKey, if_pos hcontains, h]
  rfl

/-- An identity consists of three loads and a check. -/
theorem loadIdentity_eq_ok_iff {identity : ValidatorIdentity} :
    s.loadIdentity chain tag = .ok identity ↔
      s.loadAddress = .ok (some identity.address) ∧ s.loadBlsPublicKey = .ok (some identity.publicKey) ∧
        s.loadPossession = .ok (some identity.possession) ∧
        identity.publicKey.verifyPossession identity.address chain tag identity.possession = true := by
  constructor
  · intro h
    obtain ⟨address, haddress, hrest⟩ := bind_eq_ok h
    obtain ⟨publicKey, hkey, hrest⟩ := bind_eq_ok hrest
    obtain ⟨possession, hproof, hchecked⟩ := bind_eq_ok hrest
    split at hchecked
    · rename_i hverified
      cases hchecked
      exact ⟨required_eq_ok_iff.1 haddress, required_eq_ok_iff.1 hkey, required_eq_ok_iff.1 hproof, hverified⟩
    · cases hchecked
  · rintro ⟨haddress, hkey, hproof, hverified⟩
    simp only [loadIdentity, haddress, hkey, hproof, required, bind, Except.bind, hverified]
    rfl

theorem loadIdentity_of_no_address (haddress : s.loadAddress = .ok none) :
    s.loadIdentity chain tag = .error (.notFound accountKeyName) := by
  rw [loadIdentity, haddress]
  rfl

theorem loadIdentity_of_no_key {address : Address} (haddress : s.loadAddress = .ok (some address))
    (hkey : s.loadBlsPublicKey = .ok none) : s.loadIdentity chain tag = .error (.notFound blsKeyName) := by
  rw [loadIdentity, haddress, hkey]
  rfl

theorem loadIdentity_of_no_possession {address : Address} {publicKey : PublicKey}
    (haddress : s.loadAddress = .ok (some address)) (hkey : s.loadBlsPublicKey = .ok (some publicKey))
    (hproof : s.loadPossession = .ok none) :
    s.loadIdentity chain tag = .error (.notFound possessionName) := by
  rw [loadIdentity, haddress, hkey, hproof]
  rfl

theorem loadIdentity_of_wrong_possession {address : Address} {publicKey : PublicKey} {proof : Signature}
    (haddress : s.loadAddress = .ok (some address)) (hkey : s.loadBlsPublicKey = .ok (some publicKey))
    (hproof : s.loadPossession = .ok (some proof))
    (hwrong : ¬ publicKey.verifyPossession address chain tag proof = true) :
    s.loadIdentity chain tag = .error (.invalid possessionName (.wrongPossession address chain)) := by
  rw [loadIdentity, haddress, hkey, hproof]
  exact if_neg hwrong

end Loads

/-- A load's outcome is what was returned: nothing where nothing was, and else the one value. -/
def Gives {A : Type} (loaded : Except SecretError (Option A)) (returned : A → Prop) : Prop :=
  ∃ found, loaded = .ok found ∧ ∀ a, returned a ↔ found = some a

theorem gives_of_loads {A : Type} {loaded : Except SecretError (Option A)} {returned : A → Prop}
    (hsome : ∀ a, returned a → loaded = .ok (some a)) (hnone : (∀ a, ¬ returned a) → loaded = .ok none) :
    Gives loaded returned := by
  by_cases h : ∃ a, returned a
  · obtain ⟨a, ha⟩ := h
    refine ⟨some a, hsome a ha, fun b => ⟨fun hb => ?_, ?_⟩⟩
    · have hsame := (hsome a ha).symm.trans (hsome b hb)
      exact Except.ok.inj hsame
    · rintro ⟨⟩
      exact ha
  · have hnot : ∀ a, ¬ returned a := not_exists.1 h
    refine ⟨none, hnone hnot, fun b => ⟨fun hb => absurd hb (hnot b), nofun⟩⟩

theorem Gives.returned_of_loaded {A : Type} {loaded : Except SecretError (Option A)} {returned : A → Prop} {a : A}
    (h : Gives loaded returned) (hloaded : loaded = .ok (some a)) : returned a := by
  obtain ⟨found, hfound, hreturned⟩ := h
  rw [hloaded] at hfound
  exact (hreturned a).2 (Except.ok.inj hfound).symm

theorem Gives.unique {A : Type} {loaded : Except SecretError (Option A)} {returned : A → Prop} {a b : A}
    (h : Gives loaded returned) (ha : returned a) (hb : returned b) : a = b := by
  obtain ⟨found, -, hreturned⟩ := h
  exact Option.some.inj (((hreturned a).1 ha).symm.trans ((hreturned b).1 hb))

section Returned

def ReturnedKey (created : List CreatedSecret) (key : PublicKey) : Prop :=
  ∃ seed, ⟨.blsKey seed, key⟩ ∈ created

def ReturnedAddress (created : List CreatedSecret) (address : Address) : Prop :=
  ∃ draws, ⟨.accountKey draws, address⟩ ∈ created

def ReturnedNodeKey (created : List CreatedSecret) (key : NodeKey) : Prop :=
  ∃ given seed, ⟨.nodeKey given seed, key⟩ ∈ created

/-- The proof of possession is among the secrets, and was made for that address, chain and tag. -/
def ReturnedProofFor (created : List CreatedSecret) (address : Address) (chain : ChainId) (tag : Bytes)
    (proof : Signature) : Prop :=
  ⟨.possession address chain tag, proof⟩ ∈ created

def ReturnedProof (created : List CreatedSecret) (proof : Signature) : Prop :=
  ∃ address chain tag, ReturnedProofFor created address chain tag proof

end Returned

variable {ops : List SecretOperation}

theorem readRefusal_run_empty (ops : List SecretOperation) : (empty.run ops).readRefusal = none :=
  (refusals_run empty ops).1

theorem absent_of_not_created {n : String} (h : ∀ x ∈ empty.created ops, x.creation.name ≠ n) :
    (empty.run ops).lookup? n = none := by
  apply not_mem_names.1
  rw [names_run]
  intro hmem
  obtain ⟨x, hx, hname⟩ := List.mem_map.1 hmem
  exact h x hx hname

section Returns

variable {publicKey : PublicKey} {address : Address} {node : NodeKey} {proof : Signature}

theorem loadBlsPublicKey_of_returned (h : ReturnedKey (empty.created ops) publicKey) :
    (empty.run ops).loadBlsPublicKey = .ok (some publicKey) := by
  obtain ⟨seed, hmem⟩ := h
  obtain ⟨_, _, raw, -, -, hexports, hstored⟩ := exports_of_mem_created hmem
  cases hexports with
  | blsKey => exact loadBlsPublicKey_of_secretKey (loadBlsSecretKey_of_stored (readRefusal_run_empty ops) hstored)

theorem loadBlsPublicKey_of_none (h : ∀ key, ¬ ReturnedKey (empty.created ops) key) :
    (empty.run ops).loadBlsPublicKey = .ok none := by
  have habsent : (empty.run ops).lookup? blsKeyName = none := by
    apply absent_of_not_created
    rintro ⟨c, value⟩ hx hname
    obtain ⟨seed, rfl⟩ := c.of_name.1 hname
    exact h value ⟨seed, hx⟩
  rw [loadBlsPublicKey, contains_eq_false_iff.2 habsent]
  rfl

theorem loadAddress_of_returned (h : ReturnedAddress (empty.created ops) address) :
    (empty.run ops).loadAddress = .ok (some address) := by
  obtain ⟨draws, hmem⟩ := h
  obtain ⟨_, _, raw, -, -, hexports, hstored⟩ := exports_of_mem_created hmem
  cases hexports with
  | @accountKey _ key _ =>
    apply load_of_stored (readRefusal_run_empty ops) hstored
    rw [AccountKey.ofBytes_toBytes]
    rfl

theorem loadAddress_of_none (h : ∀ address, ¬ ReturnedAddress (empty.created ops) address) :
    (empty.run ops).loadAddress = .ok none := by
  apply load_of_absent
  apply absent_of_not_created
  rintro ⟨c, value⟩ hx hname
  obtain ⟨draws, rfl⟩ := c.of_name.2.1 hname
  exact h value ⟨draws, hx⟩

theorem loadNodeKey_of_returned (h : ReturnedNodeKey (empty.created ops) node) :
    (empty.run ops).loadNodeKey = .ok (some node) := by
  obtain ⟨given, seed, hmem⟩ := h
  obtain ⟨_, _, raw, -, -, hexports, hstored⟩ := exports_of_mem_created hmem
  have hraw : raw = node.toBytes := by
    cases hexports <;> rfl
  rw [hraw] at hstored
  apply load_of_stored (readRefusal_run_empty ops) hstored
  rw [NodeKey.ofBytes_toBytes]
  rfl

theorem loadNodeKey_of_none (h : ∀ node, ¬ ReturnedNodeKey (empty.created ops) node) :
    (empty.run ops).loadNodeKey = .ok none := by
  apply load_of_absent
  apply absent_of_not_created
  rintro ⟨c, value⟩ hx hname
  obtain ⟨given, seed, rfl⟩ := c.of_name.2.2.1 hname
  exact h value ⟨given, seed, hx⟩

/-- A proof of possession that was created is one by the key that the store holds in the end. -/
theorem possession_of_returned {chain : ChainId} {tag : Bytes}
    (h : ReturnedProofFor (empty.created ops) address chain tag proof) :
    ∃ key, (empty.run ops).loadBlsSecretKey = .ok key ∧ proof = key.provePossession address chain tag ∧
      (empty.run ops).lookup? possessionName = some (Bytes.ofText (Hex.encode proof.toBytes)) := by
  obtain ⟨earlier, later, raw, hops, -, hexports, hstored⟩ := exports_of_mem_created h
  cases hexports with
  | @possession _ _ _ key _ hkey hproof =>
    refine ⟨key, ?_, hproof, hstored⟩
    -- the key that signed was loaded from an earlier store, whose entries the run keeps
    rw [hops, run_append]
    exact loadBlsSecretKey_run hkey _

theorem loadPossession_of_returned (h : ReturnedProof (empty.created ops) proof)
    (hdecode : Signature.ofBytes proof.toBytes = .ok proof) :
    (empty.run ops).loadPossession = .ok (some proof) := by
  obtain ⟨address, chain, tag, hmem⟩ := h
  obtain ⟨key, -, -, hstored⟩ := possession_of_returned hmem
  apply load_of_stored (readRefusal_run_empty ops) hstored
  rw [hdecode]
  rfl

theorem loadPossession_of_none (h : ∀ proof, ¬ ReturnedProof (empty.created ops) proof) :
    (empty.run ops).loadPossession = .ok none := by
  apply load_of_absent
  apply absent_of_not_created
  rintro ⟨c, value⟩ hx hname
  obtain ⟨address, chain, tag, rfl⟩ := c.of_name.2.2.2 hname
  exact h value ⟨address, chain, tag, hx⟩

/-- The stored key's signatures over what the proofs of possession were made for are read back. -/
def ProofsDecode (ops : List SecretOperation) : Prop :=
  ∀ key address chain tag proof, (empty.run ops).loadBlsSecretKey = .ok key →
    ReturnedProofFor (empty.created ops) address chain tag proof →
    key.SignsReadably (SigningMessage.possession address chain) tag

/-- A proof of possession is such a signature. -/
theorem ProofsDecode.ofBytes_toBytes (h : ProofsDecode ops) (hproof : ReturnedProof (empty.created ops) proof) :
    Signature.ofBytes proof.toBytes = .ok proof := by
  obtain ⟨address, chain, tag, hmade⟩ := hproof
  obtain ⟨key, hkey, rfl, -⟩ := possession_of_returned hmade
  exact h key address chain tag _ hkey hmade

theorem gives_publicKey (ops : List SecretOperation) :
    Gives (empty.run ops).loadBlsPublicKey (ReturnedKey (empty.created ops)) :=
  gives_of_loads (fun _ => loadBlsPublicKey_of_returned) loadBlsPublicKey_of_none

theorem gives_address (ops : List SecretOperation) :
    Gives (empty.run ops).loadAddress (ReturnedAddress (empty.created ops)) :=
  gives_of_loads (fun _ => loadAddress_of_returned) loadAddress_of_none

theorem gives_nodeKey (ops : List SecretOperation) :
    Gives (empty.run ops).loadNodeKey (ReturnedNodeKey (empty.created ops)) :=
  gives_of_loads (fun _ => loadNodeKey_of_returned) loadNodeKey_of_none

theorem gives_possession (hdecode : ProofsDecode ops) :
    Gives (empty.run ops).loadPossession (ReturnedProof (empty.created ops)) :=
  gives_of_loads (fun _ h => loadPossession_of_returned h (hdecode.ofBytes_toBytes h)) loadPossession_of_none

end Returns

section Identity

/-- The signature in a stored proof of possession passes for one of the stored addresses, the chain and the tag
just if it was made for them. -/
def ProofsExact (ops : List SecretOperation) (chain : ChainId) (tag : Bytes) : Prop :=
  ∀ key address made madeChain madeTag proof, (empty.run ops).loadBlsSecretKey = .ok key →
    ReturnedAddress (empty.created ops) address →
    ReturnedProofFor (empty.created ops) made madeChain madeTag proof →
    key.SignsExactly (SigningMessage.possession made madeChain) madeTag
      (SigningMessage.possession address chain) tag

variable {publicKey : PublicKey} {address : Address} {chain : ChainId} {tag : Bytes} {proof : Signature}

theorem verifyPossession_returned_iff (hexact : ProofsExact ops chain tag)
    (haddress : ReturnedAddress (empty.created ops) address)
    (hkey : (empty.run ops).loadBlsPublicKey = .ok (some publicKey))
    (hproof : ReturnedProof (empty.created ops) proof) :
    publicKey.verifyPossession address chain tag proof = true ↔
      ReturnedProofFor (empty.created ops) address chain tag proof := by
  -- whatever the proof was made for, it was signed with the stored key, so the curve decides
  have hverified : ∀ made madeChain madeTag,
      ReturnedProofFor (empty.created ops) made madeChain madeTag proof →
      (publicKey.verifyPossession address chain tag proof = true ↔
        address = made ∧ chain = madeChain ∧ tag = madeTag) := by
    intro made madeChain madeTag hmade
    obtain ⟨secret, hsecret, hsigned, -⟩ := possession_of_returned hmade
    have hpublic : secret.publicKey = publicKey := by
      have hloaded := loadBlsPublicKey_of_secretKey hsecret
      rw [hkey] at hloaded
      exact (Option.some.inj (Except.ok.inj hloaded)).symm
    rw [hsigned, ← hpublic]
    exact SecretKey.verifyPossession_iff (hexact _ _ _ _ _ _ hsecret haddress hmade)
  constructor
  · intro h
    obtain ⟨made, madeChain, madeTag, hmade⟩ := hproof
    obtain ⟨rfl, rfl, rfl⟩ := (hverified made madeChain madeTag hmade).1 h
    exact hmade
  · intro h
    exact (hverified address chain tag h).2 ⟨rfl, rfl, rfl⟩

/-- An identity loads just when its parts are the ones that were created, with a proof made for it. -/
theorem loadIdentity_returned_iff (hdecode : ProofsDecode ops)
    (hexact : ProofsExact ops chain tag) {identity : ValidatorIdentity} :
    (empty.run ops).loadIdentity chain tag = .ok identity ↔
      ReturnedAddress (empty.created ops) identity.address ∧
        ReturnedKey (empty.created ops) identity.publicKey ∧
        ReturnedProofFor (empty.created ops) identity.address chain tag identity.possession := by
  rw [loadIdentity_eq_ok_iff]
  constructor
  · rintro ⟨haddress, hkey, hproof, hverified⟩
    have hisAddress := (gives_address ops).returned_of_loaded haddress
    have hisProof := (gives_possession hdecode).returned_of_loaded hproof
    exact ⟨hisAddress, (gives_publicKey ops).returned_of_loaded hkey,
      (verifyPossession_returned_iff hexact hisAddress hkey hisProof).1 hverified⟩
  · rintro ⟨haddress, hkey, hproof⟩
    have hloaded := loadBlsPublicKey_of_returned hkey
    have hisProof : ReturnedProof (empty.created ops) identity.possession := ⟨_, _, _, hproof⟩
    exact ⟨loadAddress_of_returned haddress, hloaded,
      loadPossession_of_returned hisProof (hdecode.ofBytes_toBytes hisProof),
      (verifyPossession_returned_iff hexact haddress hloaded hisProof).2 hproof⟩

/-- What was created is what is loaded, after any run from the empty store. A load of one secret gives what its
creation returned. An identity misses the first of its parts that was not created; with all three, it loads just
for the address, chain and tag that the proof of possession was made for. Proofs of possession rest on what the
curve is trusted with; the other loads do not. -/
theorem loads_what_was_created (ops : List SecretOperation) :
    let s := empty.run ops
    let created := empty.created ops
    Gives s.loadBlsPublicKey (ReturnedKey created) ∧ Gives s.loadAddress (ReturnedAddress created) ∧
    Gives s.loadNodeKey (ReturnedNodeKey created) ∧
    (ProofsDecode ops → Gives s.loadPossession (ReturnedProof created)) ∧
    ∀ chain tag,
      ((∀ address, ¬ ReturnedAddress created address) →
        s.loadIdentity chain tag = .error (.notFound accountKeyName)) ∧
      (∀ address, ReturnedAddress created address → (∀ key, ¬ ReturnedKey created key) →
        s.loadIdentity chain tag = .error (.notFound blsKeyName)) ∧
      (∀ address key, ReturnedAddress created address → ReturnedKey created key →
        (∀ proof, ¬ ReturnedProof created proof) →
        s.loadIdentity chain tag = .error (.notFound possessionName)) ∧
      (ProofsDecode ops → ProofsExact ops chain tag →
        (∀ identity, s.loadIdentity chain tag = .ok identity ↔
          ReturnedAddress created identity.address ∧ ReturnedKey created identity.publicKey ∧
            ReturnedProofFor created identity.address chain tag identity.possession) ∧
        ∀ address key proof, ReturnedAddress created address → ReturnedKey created key →
          ReturnedProof created proof → ¬ ReturnedProofFor created address chain tag proof →
          s.loadIdentity chain tag = .error (.invalid possessionName (.wrongPossession address chain))) := by
  intro s created
  refine ⟨gives_publicKey ops, gives_address ops, gives_nodeKey ops, gives_possession,
    fun chain tag => ⟨?_, ?_, ?_, ?_⟩⟩
  · intro hnone
    exact loadIdentity_of_no_address (loadAddress_of_none hnone)
  · intro address haddress hnone
    exact loadIdentity_of_no_key (loadAddress_of_returned haddress) (loadBlsPublicKey_of_none hnone)
  · intro address key haddress hkey hnone
    exact loadIdentity_of_no_possession (loadAddress_of_returned haddress) (loadBlsPublicKey_of_returned hkey)
      (loadPossession_of_none hnone)
  · intro hdecode hexact
    refine ⟨fun identity => loadIdentity_returned_iff hdecode hexact, ?_⟩
    intro address key proof haddress hkey hproof hother
    have hloaded := loadBlsPublicKey_of_returned hkey
    apply loadIdentity_of_wrong_possession (loadAddress_of_returned haddress) hloaded
      (loadPossession_of_returned hproof (hdecode.ofBytes_toBytes hproof))
    intro hverified
    exact hother ((verifyPossession_returned_iff hexact haddress hloaded hproof).1 hverified)

/-- A validator makes its three secrets, the proof for its own address on the first chain. -/
def firstOperations : List SecretOperation :=
  [.create (.blsKey (Bytes.zeros 32)), .create (.accountKey [Bytes.ofNatBE 32 1]),
    .create (.possession .first ⟨1⟩ shortTag)]

def firstProof : Signature :=
  SecretKey.zeroSeeded.provePossession .first ⟨1⟩ shortTag

/-- The account of the first address. -/
def firstAccount : AccountKey where
  scalar := 1
  pos := Nat.one_pos
  lt_order := by decide

theorem address_firstAccount : firstAccount.address = .first := by
  decide +kernel

theorem run_firstOperations : (empty.run firstOperations).loadBlsSecretKey = .ok .zeroSeeded ∧
    empty.created firstOperations =
      [⟨.blsKey (Bytes.zeros 32), SecretKey.zeroSeeded.publicKey⟩, ⟨.accountKey [Bytes.ofNatBE 32 1], Address.first⟩,
        ⟨.possession .first ⟨1⟩ shortTag, firstProof⟩] := by
  have hseed : SecretKey.ofSeed (Bytes.zeros 32) = .ok .zeroSeeded := by decide +kernel
  have hdraw : AccountKey.ofDraws [Bytes.ofNatBE 32 1] = .ok firstAccount := by decide
  set keyed := empty.added blsKeyName SecretKey.zeroSeeded.toBytes
  set addressed := keyed.added accountKeyName firstAccount.toBytes
  have hkey : addressed.loadBlsSecretKey = .ok .zeroSeeded :=
    loadBlsSecretKey_of_stored rfl (by simp [addressed, keyed, lookup?_added, blsKeyName, accountKeyName])
  obtain ⟨hrun₁, hcreated₁⟩ := run_create (s := empty) rfl rfl (.blsKey hseed) firstOperations.tail
  have haccount : keyed.Exports (.accountKey [Bytes.ofNatBE 32 1]) Address.first firstAccount.toBytes := by
    rw [← address_firstAccount]
    exact .accountKey hdraw
  obtain ⟨hrun₂, hcreated₂⟩ := run_create rfl rfl haccount firstOperations.tail.tail
  have hproof : addressed.Exports (.possession .first ⟨1⟩ shortTag) firstProof firstProof.toBytes :=
    .possession hkey rfl
  obtain ⟨-, hcreated₃⟩ := run_create rfl rfl hproof []
  constructor
  · have hrun : empty.run firstOperations = addressed.run firstOperations.tail.tail := hrun₁.trans hrun₂
    rw [hrun]
    exact loadBlsSecretKey_run hkey _
  · exact hcreated₁.trans (congrArg _ (hcreated₂.trans (congrArg _ hcreated₃)))

theorem returned_firstOperations : ReturnedAddress (empty.created firstOperations) .first ∧
    ReturnedKey (empty.created firstOperations) SecretKey.zeroSeeded.publicKey ∧
    ReturnedProofFor (empty.created firstOperations) .first ⟨1⟩ shortTag firstProof := by
  rw [run_firstOperations.2]
  exact ⟨⟨_, .tail _ (.head _)⟩, ⟨_, .head _⟩, .tail _ (.tail _ (.head _))⟩

theorem eq_of_returnedProofFor_first {address : Address} {chain : ChainId} {tag : Bytes} {proof : Signature}
    (h : ReturnedProofFor (empty.created firstOperations) address chain tag proof) :
    address = .first ∧ chain = ⟨1⟩ ∧ tag = shortTag := by
  rw [ReturnedProofFor, run_firstOperations.2] at h
  rcases h with _ | ⟨_, _ | ⟨_, _ | ⟨_, h⟩⟩⟩
  · exact ⟨rfl, rfl, rfl⟩
  · cases h

theorem proofsDecode_first : ProofsDecode firstOperations := by
  intro key address chain tag proof hkey hproof
  obtain ⟨rfl, rfl, rfl⟩ := eq_of_returnedProofFor_first hproof
  obtain rfl := Except.ok.inj (run_firstOperations.1.symm.trans hkey)
  exact zeroSeeded_signsReadably

theorem proofsExact_first {chain : ChainId} (hchain : chain ∈ [(⟨1⟩ : ChainId), ⟨2⟩]) :
    ProofsExact firstOperations chain shortTag := by
  intro key address made madeChain madeTag proof hkey haddress hproof
  obtain ⟨rfl, rfl, rfl⟩ := eq_of_returnedProofFor_first hproof
  obtain rfl := Except.ok.inj (run_firstOperations.1.symm.trans hkey)
  obtain rfl := (gives_address firstOperations).unique haddress returned_firstOperations.1
  exact zeroSeeded_signsExactly hchain

/-- The validator's identity loads on the first chain, and on the second one its proof is refused. -/
theorem loads_what_was_created_first :
    ProofsDecode firstOperations ∧
    (ProofsExact firstOperations ⟨1⟩ shortTag ∧ ProofsExact firstOperations ⟨2⟩ shortTag) ∧
    Gives (empty.run firstOperations).loadPossession (ReturnedProof (empty.created firstOperations)) ∧
    (empty.run firstOperations).loadIdentity ⟨1⟩ shortTag =
      .ok ⟨.first, SecretKey.zeroSeeded.publicKey, firstProof⟩ ∧
    (empty.run firstOperations).loadIdentity ⟨2⟩ shortTag =
      .error (.invalid possessionName (.wrongPossession .first ⟨2⟩)) := by
  have hfirst : ProofsExact firstOperations ⟨1⟩ shortTag := proofsExact_first (.head _)
  have hsecond : ProofsExact firstOperations ⟨2⟩ shortTag := proofsExact_first (.tail _ (.head _))
  obtain ⟨haddress, hkey, hproof⟩ := returned_firstOperations
  obtain ⟨-, -, -, hpossession, hidentity⟩ := loads_what_was_created firstOperations
  refine ⟨proofsDecode_first, ⟨hfirst, hsecond⟩, hpossession proofsDecode_first, ?_, ?_⟩
  · exact (((hidentity ⟨1⟩ shortTag).2.2.2 proofsDecode_first hfirst).1 _).2 ⟨haddress, hkey, hproof⟩
  · apply ((hidentity ⟨2⟩ shortTag).2.2.2 proofsDecode_first hsecond).2 _ _ _ haddress hkey ⟨_, _, _, hproof⟩
    intro hother
    obtain ⟨-, hchain, -⟩ := eq_of_returnedProofFor_first hother
    cases hchain

end Identity

end Quorate.SecretStore
