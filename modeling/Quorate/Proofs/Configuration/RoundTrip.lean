import Quorate.Proofs.Bls12381.GroupOrder
import Quorate.Proofs.Configuration.Document
import Quorate.Proofs.Key.BuiltKeys
import Quorate.Proofs.Record.Scalar

/-!
# Configurations are read back

A configuration whose keys and proofs of possession were read is read back from its value tree, and from its document
where that can be written. A section or a field that is left out of the tree has its standard value.
-/

namespace Quorate

namespace GenesisValidator

variable {g : GenesisValidator}

structure Read (g : GenesisValidator) : Prop where
  publicKey : g.publicKey.Read
  possession : ∀ proof ∈ g.possession, proof.Read

theorem Read.ofValue_toValue (h : g.Read) (format : TextFormat) : ofValue format g.toValue = .ok g := by
  have haddress := g.address.ofValue_toValue
  have hkey := h.publicKey.ofValue_toValue
  have hpower := g.power.ofValue_toValue format
  obtain ⟨address, publicKey, power, possession⟩ := g
  cases possession with
  | none =>
    simp only [ofValue, toValue, Option.map_none, Option.toList_none, List.append_nil, Value.fieldsOf, bind, Except.bind,
      FieldList.read, List.lookup, String.reduceBEq, Option.map_some, haddress, hkey, hpower]
    rfl
  | some proof =>
    have hproof : Signature.ofValue (.text proof.toHex) = .ok proof := (h.possession proof rfl).ofValue_toValue
    have htext : proof.toValue = .text proof.toHex := rfl
    simp only [ofValue, toValue, Option.map_some, Option.toList_some, List.cons_append, List.nil_append, Value.fieldsOf,
      bind, Except.bind, FieldList.read, List.lookup, String.reduceBEq, haddress, hkey, hpower, htext, hproof]
    rfl

end GenesisValidator

namespace Configuration

variable {format : TextFormat} {fields : List (String × Value)} {c : Configuration}

/-- What counts of the fields of a configuration is what stands under their names. -/
theorem ofValue_map {given : FieldList} (hgiven : given = ⟨fields, false, false⟩)
    (hchain : fields.lookup "chain_id" = some c.chain.toValue)
    (hdomains : (given.read "domains" (SigningDomains.ofValue format)).getD .standard = .ok c.domains)
    (hquorum : (given.read "quorum" (QuorumPolicy.ofValue format)).getD .standard = .ok c.quorum)
    (hgenesis : (fields.lookup "genesis_validators" = none ∧ c.genesis = []) ∨
      ∃ items, fields.lookup "genesis_validators" = some (.list items) ∧
        items.mapM (GenesisValidator.ofValue format) = .ok c.genesis) :
    ofValue format (.map fields) = .ok c := by
  have hchain' : given.required (given.read "chain_id" ChainId.ofValue) = .ok c.chain := by
    rw [FieldList.required_eq_ok_iff, FieldList.read, hgiven, hchain, Option.map_some, c.chain.ofValue_toValue]
  simp only [ofValue, Value.fieldsOf, bind, Except.bind, ← hgiven]
  generalize hread : given.read "genesis_validators" _ = genesis
  have hgenesis' : genesis.getD [] = .ok c.genesis := by
    rw [← hread, FieldList.read, hgiven]
    rcases hgenesis with ⟨hlookup, hnone⟩ | ⟨items, hlookup, hitems⟩
    · rw [hlookup, hnone]
      rfl
    · rw [hlookup]
      exact hitems
  have hsettled := FieldList.settle_eq_ok (l := given) (by rw [hgiven]) (List.forall_mem_cons.2
    ⟨FieldList.failure_eq_none_of_required hchain', List.forall_mem_cons.2 ⟨Field.failure_eq_none_of_getD hdomains,
      List.forall_mem_cons.2 ⟨Field.failure_eq_none_of_getD hquorum,
        List.forall_mem_singleton.2 (Field.failure_eq_none_of_getD hgenesis')⟩⟩⟩)
  simp only [hsettled, hchain', hdomains, hquorum, hgenesis']
  rfl

theorem mapM_ofValue (hread : ∀ g ∈ c.genesis, g.Read) (format : TextFormat) :
    (c.genesis.map GenesisValidator.toValue).mapM (GenesisValidator.ofValue format) = .ok c.genesis :=
  mapM_map_eq_ok fun g hg => (hread g hg).ofValue_toValue format

/-- The fields that the document writes are read back, in its order. -/
theorem ofValue_documentFields (hread : ∀ g ∈ c.genesis, g.Read) (format : TextFormat) :
    ofValue format (.map c.documentFields) = .ok c := by
  have hitems := mapM_ofValue hread format
  have hdomains := c.domains.ofValue_toValue format
  have hquorum := c.quorum.ofValue_toValue format
  cases hgenesis : c.genesis with
  | nil =>
    have hfields : c.documentFields = [("chain_id", c.chain.toValue), ("genesis_validators", .list []),
        ("domains", c.domains.toValue), ("quorum", c.quorum.toValue)] := by
      rw [documentFields, rootFields, hgenesis]
      rfl
    rw [hgenesis] at hitems
    rw [hfields]
    refine ofValue_map rfl ?_ (getD_read_of_lookup ?_ hdomains) (getD_read_of_lookup ?_ hquorum)
      (.inr ⟨[], ?_, hgenesis ▸ hitems⟩)
    all_goals simp [List.lookup]
  | cons g rest =>
    have hfields : c.documentFields = [("chain_id", c.chain.toValue), ("domains", c.domains.toValue),
        ("quorum", c.quorum.toValue), ("genesis_validators", .list (c.genesis.map GenesisValidator.toValue))] := by
      rw [documentFields, rootFields, hgenesis]
      rfl
    rw [hfields]
    refine ofValue_map rfl ?_ (getD_read_of_lookup ?_ hdomains) (getD_read_of_lookup ?_ hquorum) (.inr ⟨_, ?_, hitems⟩)
    all_goals simp [List.lookup]

/-- The document is read back, if it can be written. -/
theorem ofToml_of_toToml {document : String} (hvalid : c.validate = .ok ()) (hread : ∀ g ∈ c.genesis, g.Read)
    (h : c.toToml = .ok document) : ofToml document = .ok c := by
  have hwritten : Toml.write c.tomlLines = .ok document := mapError_eq_ok h
  have hparse : parseToml document = .ok c := by
    rw [parseToml, Toml.read?_write c.simple_tomlLines hwritten, assemble?_tomlLines]
    exact congrArg (Except.mapError _) (ofValue_documentFields hread .toml)
  simp only [ofToml, hparse, bind, Except.bind, hvalid]
  rfl

/-- The value tree without some of its sections, and without some fields of the domains and of the policy. -/
def toValueWithout (sections domainNames policyNames : String → Bool) (c : Configuration) : Value :=
  ((c.toValue.alterField "domains" (·.without domainNames)).alterField "quorum" (·.without policyNames)).without sections

/-- The configuration with standard values in the place of what is left out. -/
def standardWhere (sections domainNames policyNames : String → Bool) (c : Configuration) : Configuration where
  chain := c.chain
  domains := if sections "domains" then .standard else c.domains.standardWhere domainNames
  quorum := if sections "quorum" then .standard else c.quorum.standardWhere policyNames
  genesis := if sections "genesis_validators" then [] else c.genesis

theorem toValueWithout_eq (sections domainNames policyNames : String → Bool) (c : Configuration) :
    c.toValueWithout sections domainNames policyNames = .map ([("chain_id", c.chain.toValue),
      ("domains", c.domains.toValue.without domainNames), ("quorum", c.quorum.toValue.without policyNames),
      ("genesis_validators", .list (c.genesis.map GenesisValidator.toValue))].filter fun field =>
        !sections field.1) := by
  simp [toValueWithout, toValue, Value.alterField, Value.without]

/-- What is left out of the value tree is read as its standard value, and everything else as it was. -/
theorem ofValue_toValueWithout (hread : ∀ g ∈ c.genesis, g.Read) (format : TextFormat)
    (sections domainNames policyNames : String → Bool) (hchain : sections "chain_id" = false) :
    ofValue format (c.toValueWithout sections domainNames policyNames) =
      .ok (c.standardWhere sections domainNames policyNames) := by
  have hitems := mapM_ofValue hread format
  have hdomains := c.domains.ofValue_without format domainNames
  have hquorum := c.quorum.ofValue_without format policyNames
  rw [toValueWithout_eq]
  refine ofValue_map rfl ?_ (getD_read_filter (by simp [List.lookup]) hdomains sections)
    (getD_read_filter (by simp [List.lookup]) hquorum sections) ?_
  · rw [lookup_filter _ fun name => !sections name, hchain]
    simp [List.lookup, standardWhere]
  · rw [lookup_filter _ fun name => !sections name]
    cases hgenesis : sections "genesis_validators" with
    | true => exact .inl ⟨rfl, if_pos hgenesis⟩
    | false =>
      have hkept : (c.standardWhere sections domainNames policyNames).genesis = c.genesis := by
        simp [standardWhere, hgenesis]
      exact .inr ⟨c.genesis.map GenesisValidator.toValue, by simp [List.lookup], by rw [hkept, hitems]⟩

theorem ofValue_toValue (hread : ∀ g ∈ c.genesis, g.Read) (format : TextFormat) :
    ofValue format c.toValue = .ok c := by
  have h := ofValue_toValueWithout hread format (fun _ => false) (fun _ => false) (fun _ => false) rfl
  rw [toValueWithout_eq] at h
  exact h

/-- A usable configuration is written as a document exactly if its numbers fit and its domains can be quoted, and what is
written is read back. Its value tree is always read back; a part that is left out of it has its standard value. -/
theorem round_trip (hvalid : c.validate = .ok ()) (hread : ∀ g ∈ c.genesis, g.Read) :
    ((∃ document, c.toToml = .ok document) ↔ c.NumbersFit ∧ c.domains.Quotable) ∧
    (∀ document, c.toToml = .ok document → ofToml document = .ok c) ∧
    ∀ format, ofValue format c.toValue = .ok c ∧
      ∀ sections domainNames policyNames : String → Bool, sections "chain_id" = false →
        ofValue format (c.toValueWithout sections domainNames policyNames) =
          .ok (c.standardWhere sections domainNames policyNames) := by
  refine ⟨c.exists_toToml_iff, fun _ => ofToml_of_toToml hvalid hread, fun format => ?_⟩
  exact ⟨ofValue_toValue hread format, ofValue_toValueWithout hread format⟩

theorem length_standard_tags : ∀ tag ∈ "" :: SigningDomains.standard.tags, tag.length < 256 := by
  simp only [SigningDomains.tags, SigningDomains.standard, List.forall_mem_cons, ← String.length_toList,
    String.reduceToList]
  decide

theorem quotable_of_length_lt {s : String} (h : s.length < 256) : Toml.Quotable s := by
  intro quote _ hrow
  have hle := hrow.length_le
  rw [List.length_replicate, String.length_toList] at hle
  omega

theorem numbersFit_of_standard (hchain : c.chain = ⟨5⟩) (hquorum : c.quorum = .standard) : c.NumbersFit := by
  simp [NumbersFit, hchain, hquorum, QuorumPolicy.standard]

/-- A chain with one genesis validator; its key and its proof of possession are the generators. -/
def oneGenesis : Configuration where
  chain := ⟨5⟩
  domains := .standard
  quorum := .standard
  genesis := [⟨⟨List.replicate 20 1, List.length_replicate⟩, ⟨Bls12381.G1.generator⟩, ⟨25⟩, some .generator⟩]

theorem read_oneGenesis : ∀ g ∈ oneGenesis.genesis, g.Read := by
  have hkey : (⟨Bls12381.G1.generator⟩ : PublicKey).Read :=
    .inl ⟨_, PublicKey.ofBytes_toBytes Bls12381.G1.inGroup_generator nofun⟩
  have hproof : Signature.generator.Read := .inl ⟨_, Signature.ofBytes_toBytes Bls12381.inGroup_generator nofun⟩
  refine List.forall_mem_singleton.2 ⟨hkey, ?_⟩
  intro proof hsome
  cases hsome
  exact hproof

theorem round_trip_oneGenesis :
    (∃ document, oneGenesis.toToml = .ok document ∧ ofToml document = .ok oneGenesis) ∧
    ofValue .json oneGenesis.toValue = .ok oneGenesis ∧
    ofValue .json (oneGenesis.toValueWithout (· = "genesis_validators") (fun _ => false) (· = "numerator")) =
      .ok (ofChain ⟨5⟩) := by
  obtain ⟨hwritten, hdocument, hvalue⟩ := round_trip (c := oneGenesis) rfl read_oneGenesis
  have hquotes : oneGenesis.domains.Quotable :=
    fun tag htag => quotable_of_length_lt (length_standard_tags tag (List.mem_cons_of_mem "" htag))
  obtain ⟨document, h⟩ := hwritten.2 ⟨numbersFit_of_standard rfl rfl, hquotes⟩
  obtain ⟨hself, homitted⟩ := hvalue .json
  exact ⟨⟨document, h, hdocument document h⟩, hself, homitted _ _ _ (by decide)⟩

/-- A long tag is none of the standard ones. -/
theorem usable_of_length {kosk : String} (h : kosk.length = 256) :
    SigningDomains.Usable { SigningDomains.standard with kosk := kosk } := by
  have hnew : kosk ∉ "" :: SigningDomains.standard.tags := fun hmem => absurd h (length_standard_tags kosk hmem).ne
  have hstandard : SigningDomains.standard.Usable := by
    unfold SigningDomains.Usable
    decide
  obtain ⟨hempty, hdistinct⟩ := hstandard
  simp only [SigningDomains.tags, List.mem_cons, not_or] at hnew hempty
  refine ⟨?_, List.nodup_cons.2 ⟨?_, (List.nodup_cons.1 hdistinct).2⟩⟩
  · simp only [SigningDomains.tags, List.mem_cons, not_or]
    exact ⟨Ne.symm hnew.1, hempty.2⟩
  · simp only [List.mem_cons, not_or]
    exact hnew.2.2

/-- A usable configuration with 256 double quotes in a row. -/
def manyQuotes : Configuration :=
  { ofChain ⟨5⟩ with domains := { SigningDomains.standard with kosk := String.ofList (List.replicate 256 '"') } }

/-- No document can be written, though every number fits and there is no validator. -/
theorem manyQuotes_not_written : manyQuotes.validate = .ok () ∧ manyQuotes.NumbersFit ∧ manyQuotes.genesis = [] ∧
    ¬ ∃ document, manyQuotes.toToml = .ok document := by
  have hkosk : manyQuotes.domains.kosk.toList = List.replicate 256 '"' := String.toList_ofList
  have hlength : manyQuotes.domains.kosk.length = 256 := by
    rw [← String.length_toList, hkosk, List.length_replicate]
  refine ⟨validate_eq_ok_iff.2 ⟨by decide, by decide, usable_of_length hlength⟩, numbersFit_of_standard rfl rfl, rfl, ?_⟩
  rw [exists_toToml_iff]
  rintro ⟨-, hquotes⟩
  apply hquotes _ List.mem_cons_self '"' List.mem_cons_self
  rw [hkosk]

end Configuration

end Quorate
