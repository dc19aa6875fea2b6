import Quorate.Configuration.Document
import Quorate.Configuration.Genesis
import Quorate.Proofs.Configuration.Usable
import Quorate.Proofs.Traversal
import Quorate.Proofs.ValidatorSet.Construction

/-!
# Who is in the first validator set

The genesis validators are gone through in order, and the first with a fault is the error: a missing proof of
possession, one that does not verify, or a power that does not fit, in this order. Only after all of them come
the policy and the repeated addresses. So the set that is built has the validators as they are configured, each
with a proof that verifies for its own address and key and the configured chain.
-/

namespace Quorate

namespace GenesisValidator

variable {g : GenesisValidator} {chain : ChainId} {tag : Bytes} {e : ConfigurationError}

/-- The validator has a proof of possession that verifies for its own address and key on the chain. -/
def Proven (g : GenesisValidator) (chain : ChainId) (tag : Bytes) : Prop :=
  ∃ proof, g.possession = some proof ∧ g.publicKey.verifyPossession g.address chain tag proof = true

/-- What is wrong with a validator. A later cause is one only if the earlier ones are not. -/
inductive Fault (g : GenesisValidator) (chain : ChainId) (tag : Bytes) : ConfigurationError → Prop
  | unproven (h : g.possession = none) : Fault g chain tag (.missingPossession g.address)
  | misproven {proof : Signature} (h : g.possession = some proof)
      (hverify : g.publicKey.verifyPossession g.address chain tag proof = false) :
      Fault g chain tag (.wrongPossession g.address)
  | tooWide (h : g.Proven chain tag) (hwide : 256 < g.power.bits) :
      Fault g chain tag (.account (.powerTooWide g.address g.power.bits))

theorem toAccount_of_proven (h : g.Proven chain tag) :
    g.toAccount chain tag = (Account.make g.address g.publicKey g.power).mapError .account := by
  obtain ⟨proof, hproof, hverify⟩ := h
  simp [toAccount, hproof, hverify]

theorem toAccount_of_fault (h : g.Fault chain tag e) : g.toAccount chain tag = .error e := by
  cases h with
  | unproven h => simp [toAccount, h]
  | misproven h hverify => simp [toAccount, h, hverify]
  | tooWide h hwide =>
    have hmake : Account.make g.address g.publicKey g.power =
        .error (.powerTooWide g.address g.power.bits) := dif_neg (by omega)
    rw [toAccount_of_proven h, hmake]
    rfl

/-- The validator is proven, and its power fits an account. -/
structure Admitted (g : GenesisValidator) (chain : ChainId) (tag : Bytes) : Prop where
  proven : g.Proven chain tag
  fits : g.power.bits ≤ 256

theorem fault_or_admitted (g : GenesisValidator) (chain : ChainId) (tag : Bytes) :
    (∃ e, g.Fault chain tag e) ∨ g.Admitted chain tag := by
  cases hproof : g.possession with
  | none => exact Or.inl ⟨_, .unproven hproof⟩
  | some proof =>
    cases hverify : g.publicKey.verifyPossession g.address chain tag proof with
    | false => exact Or.inl ⟨_, .misproven hproof hverify⟩
    | true =>
      have hproven : g.Proven chain tag := ⟨proof, hproof, hverify⟩
      by_cases hfits : g.power.bits ≤ 256
      · exact Or.inr ⟨hproven, hfits⟩
      · exact Or.inl ⟨_, .tooWide hproven (by omega)⟩

theorem toAccount_of_admitted (h : g.Admitted chain tag) :
    g.toAccount chain tag = .ok ⟨g.address, g.publicKey, g.power, h.fits⟩ := by
  rw [toAccount_of_proven h.proven, Account.make, dif_pos h.fits]
  rfl

theorem toAccount_eq_error_iff : g.toAccount chain tag = .error e ↔ g.Fault chain tag e := by
  refine ⟨fun h => ?_, toAccount_of_fault⟩
  rcases g.fault_or_admitted chain tag with ⟨e', hfault⟩ | hadmitted
  · cases (toAccount_of_fault hfault).symm.trans h
    exact hfault
  · cases (toAccount_of_admitted hadmitted).symm.trans h

theorem toAccount_eq_ok_iff {a : Account} :
    g.toAccount chain tag = .ok a ↔
      g.Admitted chain tag ∧ a.address = g.address ∧ a.publicKey = g.publicKey ∧ a.power = g.power := by
  constructor
  · intro h
    rcases g.fault_or_admitted chain tag with ⟨e', hfault⟩ | hadmitted
    · cases (toAccount_of_fault hfault).symm.trans h
    · cases (toAccount_of_admitted hadmitted).symm.trans h
      exact ⟨hadmitted, rfl, rfl, rfl⟩
  · rintro ⟨hadmitted, haddress, hkey, hpower⟩
    have hmake := Account.make_eq_ok_iff.2 ⟨haddress, hkey, hpower⟩
    rw [toAccount_of_proven hadmitted.proven, hmake]
    rfl

theorem exists_toAccount_iff : (∃ a, g.toAccount chain tag = .ok a) ↔ g.Admitted chain tag := by
  constructor
  · rintro ⟨a, h⟩
    exact (toAccount_eq_ok_iff.1 h).1
  · intro h
    exact ⟨_, toAccount_of_admitted h⟩

end GenesisValidator

namespace Configuration

variable {c : Configuration} {s : ValidatorSet} {accounts : List Account} {e : ConfigurationError}

/-- Whether a genesis validator is taken into the set. -/
def Admits (c : Configuration) (g : GenesisValidator) : Prop :=
  g.Admitted c.chain c.domains.koskTag

/-- The error is that of the first genesis validator with a fault. -/
def FirstFault (c : Configuration) (e : ConfigurationError) : Prop :=
  ∃ earlier g later, c.genesis = earlier ++ g :: later ∧ (∀ x ∈ earlier, c.Admits x) ∧
    g.Fault c.chain c.domains.koskTag e

def Lists (c : Configuration) (accounts : List Account) : Prop :=
  List.Forall₂ (fun g a => a.address = g.address ∧ a.publicKey = g.publicKey ∧ a.power = g.power)
    c.genesis accounts

theorem genesisAccounts_eq_error_iff : c.genesisAccounts = .error e ↔ c.FirstFault e := by
  unfold genesisAccounts FirstFault
  rw [mapM_eq_error_iff]
  simp only [GenesisValidator.exists_toAccount_iff, GenesisValidator.toAccount_eq_error_iff]
  rfl

theorem genesisAccounts_eq_ok_iff :
    c.genesisAccounts = .ok accounts ↔ (∀ g ∈ c.genesis, c.Admits g) ∧ c.Lists accounts := by
  unfold genesisAccounts Lists
  rw [mapM_eq_ok_iff]
  simp only [GenesisValidator.toAccount_eq_ok_iff]
  exact List.forall₂_and_left _ _

theorem exists_lists_of_admits (h : ∀ g ∈ c.genesis, c.Admits g) : ∃ accounts, c.Lists accounts := by
  cases haccounts : c.genesisAccounts with
  | ok accounts => exact ⟨accounts, (genesisAccounts_eq_ok_iff.1 haccounts).2⟩
  | error e =>
    obtain ⟨earlier, g, later, hgenesis, -, hfault⟩ := genesisAccounts_eq_error_iff.1 haccounts
    have hg : c.Admits g := h g (by simp [hgenesis])
    cases (GenesisValidator.toAccount_of_admitted hg).symm.trans (GenesisValidator.toAccount_of_fault hfault)

theorem Lists.addresses_eq (h : c.Lists accounts) :
    accounts.map Account.address = c.genesis.map GenesisValidator.address := by
  have hsame : List.Forall₂ (fun a g => a.address = g.address) accounts c.genesis :=
    (h.imp fun _ _ hfields => hfields.1).flip
  rw [← List.forall₂_eq_eq_eq, List.forall₂_map_left_iff, List.forall₂_map_right_iff]
  exact hsame

theorem firstFault_or_admits (c : Configuration) : (∃ e, c.FirstFault e) ∨ ∀ g ∈ c.genesis, c.Admits g := by
  cases haccounts : c.genesisAccounts with
  | error e => exact Or.inl ⟨e, genesisAccounts_eq_error_iff.1 haccounts⟩
  | ok accounts => exact Or.inr (genesisAccounts_eq_ok_iff.1 haccounts).1

theorem genesisSet_of_firstFault (h : c.FirstFault e) : c.genesisSet = .error e := by
  rw [genesisSet, genesisAccounts_eq_error_iff.2 h]
  rfl

theorem genesisSet_of_lists (hadmits : ∀ g ∈ c.genesis, c.Admits g) (hlists : c.Lists accounts) :
    c.genesisSet = (ValidatorSet.ofAccounts accounts c.quorum).mapError .validatorSet := by
  rw [genesisSet, genesisAccounts_eq_ok_iff.2 ⟨hadmits, hlists⟩]
  rfl

/-- What becomes of a configuration's genesis validators: the fault of the first that has one; if none has,
the policy's; if it has none, the address that is first repeated; and else the set of them all. -/
inductive GenesisOutcome (c : Configuration) : Except ConfigurationError ValidatorSet → Prop
  | faulty {e : ConfigurationError} (h : c.FirstFault e) : GenesisOutcome c (.error e)
  | unusablePolicy {cause : PolicyError} (hadmits : ∀ g ∈ c.genesis, c.Admits g)
      (h : c.quorum.validate = .error cause) : GenesisOutcome c (.error (.validatorSet (.invalidPolicy cause)))
  | repeated {address : Address} (hadmits : ∀ g ∈ c.genesis, c.Admits g) (hpolicy : c.quorum.validate = .ok ())
      (h : FirstRepeat (c.genesis.map GenesisValidator.address) address) :
      GenesisOutcome c (.error (.validatorSet (.duplicateValidator address)))
  | built {s : ValidatorSet} (hadmits : ∀ g ∈ c.genesis, c.Admits g) (hlists : c.Lists s.accounts)
      (hpolicy : s.policy = c.quorum) : GenesisOutcome c (.ok s)

theorem GenesisOutcome.eq {outcome : Except ConfigurationError ValidatorSet} (h : c.GenesisOutcome outcome) :
    c.genesisSet = outcome := by
  cases h with
  | faulty h => exact genesisSet_of_firstFault h
  | unusablePolicy hadmits h =>
    obtain ⟨accounts, hlists⟩ := exists_lists_of_admits hadmits
    rw [genesisSet_of_lists hadmits hlists, ValidatorSet.ofAccounts_of_validate_eq_error h]
    rfl
  | repeated hadmits hpolicy h =>
    obtain ⟨accounts, hlists⟩ := exists_lists_of_admits hadmits
    rw [← hlists.addresses_eq] at h
    rw [genesisSet_of_lists hadmits hlists, ValidatorSet.ofAccounts_of_firstRepeat hpolicy h]
    rfl
  | built hadmits hlists hpolicy =>
    rw [genesisSet_of_lists hadmits hlists, ValidatorSet.ofAccounts_eq_ok_iff.2 ⟨rfl, hpolicy⟩]
    rfl

theorem exists_genesisOutcome (c : Configuration) : ∃ outcome, c.GenesisOutcome outcome := by
  rcases c.firstFault_or_admits with ⟨e, hfault⟩ | hadmits
  · exact ⟨_, .faulty hfault⟩
  · obtain ⟨accounts, hlists⟩ := exists_lists_of_admits hadmits
    rcases ValidatorSet.ofAccounts_cases accounts c.quorum with ⟨cause, hpolicy, -⟩ |
      ⟨hpolicy, address, hrepeat, -⟩ | ⟨-, -, s, hset⟩
    · exact ⟨_, .unusablePolicy hadmits hpolicy⟩
    · rw [hlists.addresses_eq] at hrepeat
      exact ⟨_, .repeated hadmits hpolicy hrepeat⟩
    · obtain ⟨rfl, hpolicy⟩ := ValidatorSet.ofAccounts_eq_ok_iff.1 hset
      exact ⟨_, .built hadmits hlists hpolicy⟩

theorem genesisSet_eq_iff {outcome : Except ConfigurationError ValidatorSet} :
    c.genesisSet = outcome ↔ c.GenesisOutcome outcome := by
  constructor
  · rintro rfl
    obtain ⟨outcome, h⟩ := c.exists_genesisOutcome
    rwa [h.eq]
  · exact GenesisOutcome.eq

/-- The account at each position of the set has the proof of the genesis validator there, a signature by its own key
over its own address and the configured chain. -/
theorem proven_of_genesisSet (h : c.genesisSet = .ok s) :
    List.Forall₂ (fun g a => ∃ proof, g.possession = some proof ∧
      a.publicKey.verifyPossession a.address c.chain c.domains.koskTag proof = true ∧
      a.publicKey.verify (SigningMessage.possession a.address c.chain) c.domains.koskTag proof = true)
      c.genesis s.accounts := by
  cases genesisSet_eq_iff.1 h with
  | built hadmits hlists hpolicy =>
    have hboth := (List.forall₂_and_left (p := fun g => c.Admits g) _ _).2 ⟨hadmits, hlists⟩
    apply hboth.imp
    rintro g a ⟨hadmitted, haddress, hkey, -⟩
    obtain ⟨proof, hproof, hverify⟩ := hadmitted.proven
    rw [haddress, hkey]
    exact ⟨proof, hproof, hverify, hverify⟩

theorem validate_quorum_of_validate (h : c.validate = .ok ()) : c.quorum.validate = .ok () :=
  QuorumPolicy.validate_eq_ok_iff.2 (validate_eq_ok_iff.1 h).2.1

theorem validate_of_ofToml {document : String} (h : ofToml document = .ok c) : c.validate = .ok () := by
  obtain ⟨parsed, -, hparsed⟩ := bind_eq_ok h
  obtain ⟨_, hvalidate, hsame⟩ := bind_eq_ok hparsed
  cases hsame
  exact hvalidate

/-- The outcome of building the first set is decided by the genesis validators in their order, then by the
policy, then by the addresses. Every account of the set has a proof of possession that verifies for its own
address and key on the configured chain under the configured tag: a signature by that key over the message of that
address and chain. And a configuration that was read from a document never fails for its policy. -/
theorem genesisSet_exact (c : Configuration) :
    (∀ outcome, c.genesisSet = outcome ↔ c.GenesisOutcome outcome) ∧
    (∀ s, c.genesisSet = .ok s → List.Forall₂ (fun g a => ∃ proof, g.possession = some proof ∧
      a.publicKey.verifyPossession a.address c.chain c.domains.koskTag proof = true ∧
      a.publicKey.verify (SigningMessage.possession a.address c.chain) c.domains.koskTag proof = true)
      c.genesis s.accounts) ∧
    ∀ document, ofToml document = .ok c → ∀ cause, c.genesisSet ≠ .error (.validatorSet (.invalidPolicy cause)) := by
  refine ⟨fun _ => genesisSet_eq_iff, fun _ => proven_of_genesisSet, ?_⟩
  intro document hdocument cause hgenesis
  have hpolicy := validate_quorum_of_validate (validate_of_ofToml hdocument)
  cases genesisSet_eq_iff.1 hgenesis with
  | faulty h =>
    obtain ⟨_, g, _, _, _, hfault⟩ := h
    cases hfault
  | unusablePolicy hadmits h => cases hpolicy.symm.trans h

end Configuration

end Quorate
