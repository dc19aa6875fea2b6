import Quorate.Configuration.Document
import Quorate.Proofs.Bytes.Hex
import Quorate.Proofs.Configuration.Usable
import Quorate.Proofs.Toml.Assembly
import Quorate.Proofs.Toml.Document

/-!
# Configurations as documents

The lines of a configuration's document assemble to its fields. They are written if every number fits into 64 bits with
sign and no domain has too many equal quotes in a row; nothing else in a configuration can fail to be written.
-/

namespace Quorate

open Toml (BareKey Line Plain Quotable Draft isBare entryLines quotable_of_isBare valueEntries)

def GenesisValidator.fields (g : GenesisValidator) : List (String × Value) :=
  [("address", g.address.toValue), ("bls_public_key", g.publicKey.toValue), ("voting_power", g.power.toValue)] ++
    (g.possession.map fun s => ("kosk_signature", s.toValue)).toList

def SigningDomains.fields (d : SigningDomains) : List (String × Value) :=
  [("kosk", .text d.kosk), ("checkpoint", .text d.checkpoint), ("common", .text d.common)]

def QuorumPolicy.fields (p : QuorumPolicy) : List (String × Value) := [
  ("min_signers_for_supermajority", .ofWord p.minSigners), ("numerator", .ofWord p.numerator),
  ("denominator", .ofWord p.denominator), ("min_total_voting_power", .ofWord p.minTotal)]

theorem GenesisValidator.keys_fields (g : GenesisValidator) : (g.fields.map Prod.fst).Nodup := by
  have hnames : fieldNames.Nodup := by decide
  refine List.Nodup.sublist ?_ hnames
  obtain ⟨address, publicKey, power, _ | proof⟩ := g
  · exact List.dropLast_sublist fieldNames
  · exact List.Sublist.refl fieldNames

theorem SigningDomains.keys_fields (d : SigningDomains) : (d.fields.map Prod.fst).Nodup := by
  have hnames : fieldNames.Nodup := by decide
  exact hnames

theorem QuorumPolicy.keys_fields (p : QuorumPolicy) : (p.fields.map Prod.fst).Nodup := by
  have hnames : fieldNames.Nodup := by decide
  exact hnames

namespace Configuration

variable {c : Configuration}

def rootFields (c : Configuration) : List (String × Value) :=
  ("chain_id", c.chain.toValue) :: if c.genesis.isEmpty then [("genesis_validators", .list [])] else []

def documentFields (c : Configuration) : List (String × Value) :=
  c.rootFields ++ [("domains", c.domains.toValue), ("quorum", c.quorum.toValue)] ++
    if c.genesis.isEmpty then [] else [("genesis_validators", .list (c.genesis.map GenesisValidator.toValue))]

theorem map_toValue_genesisLines (g : GenesisValidator) :
    (genesisLines g).map Line.toValue = .element [] "genesis_validators" :: entryLines g.fields := by
  obtain ⟨address, publicKey, power, _ | proof⟩ := g <;> rfl

theorem map_toValue_tomlLines (c : Configuration) : c.tomlLines.map Line.toValue =
    entryLines c.rootFields ++ (.table [] "domains" :: entryLines c.domains.fields) ++
      (.table [] "quorum" :: entryLines c.quorum.fields) ++
      c.genesis.flatMap fun g => .element [] "genesis_validators" :: entryLines g.fields := by
  have hroot : (wordLine "chain_id" c.chain.val ::
      if c.genesis.isEmpty then [Line.entry [] "genesis_validators" Plain.noItems] else []).map Line.toValue =
      entryLines c.rootFields := by
    unfold rootFields
    cases c.genesis <;> rfl
  have hgenesis : (c.genesis.flatMap genesisLines).map Line.toValue =
      c.genesis.flatMap fun g => .element [] "genesis_validators" :: entryLines g.fields := by
    rw [List.map_flatMap]
    exact congrArg (c.genesis.flatMap ·) (funext map_toValue_genesisLines)
  rw [tomlLines, List.map_append, List.map_append, hroot, hgenesis]
  simp only [List.append_assoc]
  rfl

theorem keys_rootFields (c : Configuration) : (c.rootFields.map Prod.fst).Nodup ∧
    c.rootFields.map Prod.fst ⊆ ["chain_id", "genesis_validators"] := by
  have hnames : (["chain_id", "genesis_validators"] : List String).Nodup := by decide
  unfold rootFields
  cases c.genesis with
  | nil => exact ⟨hnames, List.Subset.refl _⟩
  | cons g rest => exact ⟨List.nodup_singleton _, List.cons_subset_cons _ (List.nil_subset _)⟩

def settings (c : Configuration) : Toml.Entries :=
  valueEntries c.rootFields ++ [("domains", .table .written (valueEntries c.domains.fields))] ++
    [("quorum", .table .written (valueEntries c.quorum.fields))]

theorem foldlM_settings (c : Configuration) :
    (entryLines c.rootFields ++ (.table [] "domains" :: entryLines c.domains.fields) ++
      (.table [] "quorum" :: entryLines c.quorum.fields)).foldlM Draft.add .empty = some ⟨["quorum"], c.settings⟩ := by
  have hroot := c.keys_rootFields
  have hdomains : "domains" ∉ (valueEntries c.rootFields).map Prod.fst := by
    rw [Toml.keys_valueEntries]
    exact fun h => absurd (hroot.2 h) (by decide)
  have hquorum : "quorum" ∉ (valueEntries c.rootFields ++
      [("domains", Toml.Node.table .written (valueEntries c.domains.fields))]).map Prod.fst := by
    have hlast : "quorum" ∉ ["domains"] := by decide
    rw [List.map_append, Toml.keys_valueEntries, List.mem_append, not_or]
    exact ⟨fun h => absurd (hroot.2 h) (by decide), hlast⟩
  have hfields : (entryLines c.rootFields).foldlM Draft.add .empty = some (.atRoot (valueEntries c.rootFields)) :=
    Draft.foldlM_entryLines Draft.atRoot_add [] hroot.1
  rw [List.foldlM_append, List.foldlM_append, hfields, Option.bind_eq_bind, Option.bind_some, Draft.atRoot,
    Draft.foldlM_table hdomains c.domains.keys_fields, Option.bind_some, Draft.atTable,
    Draft.foldlM_table hquorum c.quorum.keys_fields]
  rfl

theorem assemble?_tomlLines (c : Configuration) :
    Toml.assemble? (c.tomlLines.map Line.toValue) = some (.map c.documentFields) := by
  have hsettings : Toml.finish c.settings =
      c.rootFields ++ [("domains", c.domains.toValue), ("quorum", c.quorum.toValue)] := by
    rw [settings, Toml.finish_append, Toml.finish_append, Toml.finish_valueEntries, Toml.finish, Toml.finish, Toml.finish,
      Toml.Node.toValue, Toml.Node.toValue, Toml.finish_valueEntries, Toml.finish_valueEntries, List.append_assoc]
    rfl
  rw [Toml.assemble?, map_toValue_tomlLines, List.foldlM_append, foldlM_settings, Option.bind_eq_bind, Option.bind_some]
  cases hgenesis : c.genesis with
  | nil =>
    rw [List.flatMap_nil, List.foldlM_nil]
    change some (Value.map (Toml.finish c.settings)) = _
    rw [hsettings, documentFields, hgenesis]
    exact congrArg (some <| Value.map ·) (List.append_nil _).symm
  | cons g rest =>
    have hname : "genesis_validators" ∉ c.settings.map Prod.fst := by
      have hnames : c.settings.map Prod.fst = ["chain_id", "domains", "quorum"] := by
        rw [settings, rootFields, hgenesis]
        rfl
      rw [hnames]
      decide
    have hkeys : ∀ fields ∈ (g :: rest).map GenesisValidator.fields, (fields.map Prod.fst).Nodup := by
      intro fields hfields
      obtain ⟨g', -, rfl⟩ := List.mem_map.1 hfields
      exact g'.keys_fields
    have helements := Draft.foldlM_elements hname g.fields (rest.map GenesisValidator.fields) hkeys
      ["quorum"]
    rw [← List.map_cons, List.flatMap_map] at helements
    rw [helements]
    have hlist : Toml.finishAll (((g :: rest).map GenesisValidator.fields).map valueEntries) =
        (g :: rest).map GenesisValidator.toValue := by
      rw [Toml.finishAll_map_valueEntries, List.map_map]
      rfl
    change some (Value.map (Toml.finish (c.settings ++
      [("genesis_validators", .elements (((g :: rest).map GenesisValidator.fields).map valueEntries))]))) = _
    rw [Toml.finish_append, hsettings, documentFields, hgenesis, Toml.finish, Toml.finish, Toml.Node.toValue, hlist]
    rfl

/-- The names of all fields, of the configuration and of what is in it. -/
def keys : List String :=
  fieldNames ++ SigningDomains.fieldNames ++ QuorumPolicy.fieldNames ++ GenesisValidator.fieldNames

theorem bareKey_of_mem_keys : ∀ key ∈ keys, BareKey key := by
  have hchars : ((keys.map String.toList).all fun cs => !cs.isEmpty && cs.all isBare) = true := by
    simp only [keys, fieldNames, SigningDomains.fieldNames, QuorumPolicy.fieldNames, GenesisValidator.fieldNames,
      List.cons_append, List.nil_append, List.map_cons, List.map_nil, String.reduceToList]
    rfl
  intro key hkey
  have hkey := List.all_eq_true.1 hchars key.toList (List.mem_map_of_mem hkey)
  simpa [BareKey] using hkey

theorem simple_genesisLines (g : GenesisValidator) : ∀ line ∈ genesisLines g, line.Simple := by
  have hkeys := bareKey_of_mem_keys
  simp only [keys, List.forall_mem_append, fieldNames, GenesisValidator.fieldNames, List.forall_mem_cons] at hkeys
  obtain ⟨⟨⟨⟨-, -, -, hgenesis, -⟩, -⟩, -⟩, haddress, hpublicKey, hpower, hpossession, -⟩ := hkeys
  have hproof : ∀ line ∈ (g.possession.map fun s => textLine "kosk_signature" s.toHex).toList, line.Simple := by
    cases g.possession with
    | none => exact List.forall_mem_nil _
    | some proof => exact List.forall_mem_singleton.2 ⟨rfl, hpossession⟩
  simp only [genesisLines, List.forall_mem_append, List.forall_mem_cons]
  exact ⟨⟨⟨rfl, hgenesis⟩, ⟨rfl, haddress⟩, ⟨rfl, hpublicKey⟩, ⟨rfl, hpower⟩, List.forall_mem_nil _⟩, hproof⟩

theorem simple_tomlLines (c : Configuration) : ∀ line ∈ c.tomlLines, line.Simple := by
  have hkeys := bareKey_of_mem_keys
  simp only [keys, List.forall_mem_append, fieldNames, SigningDomains.fieldNames, QuorumPolicy.fieldNames,
    List.forall_mem_cons] at hkeys
  obtain ⟨⟨⟨⟨hchain, hdomains, hquorum, hgenesis, -⟩, hkosk, hcheckpoint, hcommon, -⟩, hminSigners, hnumerator,
    hdenominator, hminTotal, -⟩, -⟩ := hkeys
  have hempty : ∀ line ∈ if c.genesis.isEmpty then [Line.entry [] "genesis_validators" Plain.noItems] else [],
      line.Simple := by
    split
    · exact List.forall_mem_singleton.2 ⟨rfl, hgenesis⟩
    · exact List.forall_mem_nil _
  have hgenesis : ∀ line ∈ c.genesis.flatMap genesisLines, line.Simple :=
    List.forall_mem_flatMap.2 fun g _ => simple_genesisLines g
  simp only [tomlLines, List.forall_mem_append, List.forall_mem_cons]
  exact ⟨⟨⟨⟨rfl, hchain⟩, hempty⟩, ⟨rfl, hdomains⟩, ⟨rfl, hkosk⟩, ⟨rfl, hcheckpoint⟩, ⟨rfl, hcommon⟩, ⟨rfl, hquorum⟩,
    ⟨rfl, hminSigners⟩, ⟨rfl, hnumerator⟩, ⟨rfl, hdenominator⟩, ⟨rfl, hminTotal⟩, List.forall_mem_nil _⟩, hgenesis⟩

end Configuration

theorem Hex.isBare_of_mem_encode {bs : Bytes} {c : Char} (h : c ∈ (encode bs).toList) : isBare c = true := by
  have hdigits : ∀ n < 16, isBare (digit n) = true := by decide
  obtain ⟨n, hn, rfl⟩ := exists_digit_of_mem_encode h
  exact hdigits n hn

theorem Hex.quotable_encode (bs : Bytes) : Quotable (encode bs) :=
  quotable_of_isBare fun _ hc => isBare_of_mem_encode hc

theorem Address.quotable_toHex (a : Address) : Quotable a.toHex := by
  apply quotable_of_isBare
  intro c hc
  rw [toHex, String.toList_append, List.mem_append] at hc
  have hmark : "0x".toList = ['0', 'x'] := by simp
  rcases hc with hc | hc
  · rw [hmark, List.mem_pair] at hc
    rcases hc with rfl | rfl <;> rfl
  · exact Hex.isBare_of_mem_encode hc

theorem VotingPower.quotable_text (p : VotingPower) : Quotable p.text := by
  apply quotable_of_isBare
  intro c hc
  rw [text, Nat.repr_eq_ofList_toDigits, String.toList_ofList] at hc
  simp [isBare, Text.isDecimalDigit_of_mem_toDigits hc]

def SigningDomains.Quotable (d : SigningDomains) : Prop :=
  ∀ tag ∈ d.tags, Toml.Quotable tag

namespace Configuration

/-- Whether every number of the configuration fits into 64 bits with sign. -/
def NumbersFit (c : Configuration) : Prop :=
  ∀ n ∈ [c.chain.val, c.quorum.minSigners, c.quorum.numerator, c.quorum.denominator, c.quorum.minTotal],
    n.toNat < 2 ^ 63

theorem writable_genesisLines (g : GenesisValidator) : ∀ p ∈ (genesisLines g).filterMap Line.value?, p.Writable := by
  have hrequired : ∀ p ∈ [Plain.text g.address.toHex, .text g.publicKey.toHex, .text g.power.text], p.Writable := by
    simp only [List.forall_mem_cons, Plain.writable_text_iff]
    exact ⟨g.address.quotable_toHex, Hex.quotable_encode _, g.power.quotable_text, List.forall_mem_nil _⟩
  obtain ⟨address, publicKey, power, _ | proof⟩ := g
  · exact hrequired
  · refine List.forall_mem_append.2 ⟨hrequired, List.forall_mem_singleton.2 ?_⟩
    exact Plain.writable_text_iff.2 (Hex.quotable_encode proof.toBytes)

theorem writable_tomlLines_iff (c : Configuration) :
    (∀ p ∈ c.tomlLines.filterMap Line.value?, p.Writable) ↔ c.NumbersFit ∧ c.domains.Quotable := by
  have hempty : ∀ p ∈ (if c.genesis.isEmpty then [Line.entry [] "genesis_validators" Plain.noItems] else []).filterMap
      Line.value?, p.Writable := by
    split
    · exact List.forall_mem_singleton.2 Plain.writable_noItems
    · exact List.forall_mem_nil _
  have hgenesis : ∀ p ∈ (c.genesis.flatMap genesisLines).filterMap Line.value?, p.Writable := by
    rw [List.filterMap_flatMap]
    exact List.forall_mem_flatMap.2 fun g _ => writable_genesisLines g
  have hbound : Value.signedBound = 2 ^ 63 := rfl
  rw [tomlLines, List.filterMap_append, List.filterMap_append, List.forall_mem_append, List.forall_mem_append,
    List.filterMap_cons]
  simp only [and_iff_left hgenesis]
  simp only [wordLine, textLine, Line.value?, List.filterMap_cons, List.filterMap_nil, List.forall_mem_cons,
    List.not_mem_nil, IsEmpty.forall_iff, implies_true, and_true, and_iff_left hempty, Plain.writable_number_iff,
    Plain.writable_text_iff, hbound, NumbersFit, SigningDomains.Quotable, SigningDomains.tags]
  constructor
  · rintro ⟨hchain, hkosk, hcheckpoint, hcommon, hquorum⟩
    exact ⟨⟨hchain, hquorum⟩, hkosk, hcheckpoint, hcommon⟩
  · rintro ⟨⟨hchain, hquorum⟩, hkosk, hcheckpoint, hcommon⟩
    exact ⟨hchain, hkosk, hcheckpoint, hcommon, hquorum⟩

theorem exists_toToml_iff (c : Configuration) : (∃ document, c.toToml = .ok document) ↔
    c.NumbersFit ∧ c.domains.Quotable := by
  rw [← writable_tomlLines_iff]
  constructor
  · rintro ⟨document, h⟩
    exact (Toml.write_eq_ok_iff.1 (mapError_eq_ok h)).1
  · intro h
    exact ⟨_, congrArg (Except.mapError ConfigurationError.unwritable) (Toml.write_eq_ok_iff.2 ⟨h, rfl⟩)⟩

end Configuration

end Quorate
