import Quorate.Configuration.Record
import Quorate.Text.Utf8
import Quorate.Toml.Reader

/-!
# Configuration documents

Configurations as TOML documents and files. Reading a document checks that the configuration can be used.
Plain entries are written before tables, and the genesis validators as a list of tables, unless there are
none.
-/

namespace Quorate.Configuration

open Toml (Line Plain)

/-- The configuration that a document writes, which is not yet checked. -/
def parseToml (document : String) : Except ConfigurationError Configuration :=
  match Toml.read? document with
  | none => .error (.document .malformed)
  | some v => (ofValue .toml v).mapError fun cause => .document (.decode cause)

def ofToml (document : String) : Except ConfigurationError Configuration := do
  let c ← parseToml document
  c.validate
  return c

def ofTomlEvents : Except ConfigurationError Configuration → List Event
  | .error (.document _) => []
  | _ => [⟨.debug, "Consensus configuration parsed, validating", []⟩]

def fileText (found : Except FileError Bytes) : Except FileError String := do
  match Text.decodeUtf8 (← found) with
  | .ok document => return String.ofList document
  | .error _ => throw .notText

/-- The usable configuration in the file at a path, given what is found there. -/
def load (path : String) (found : Except FileError Bytes) : Except ConfigurationError Configuration := do
  let document ← (fileText found).mapError (.file path)
  ofToml document

def loadEvents (path : String) (outcome : Except ConfigurationError Configuration) : List Event :=
  let begun : Event := ⟨.info, "Loading consensus configuration", [("path", .text path)]⟩
  match outcome with
  | .error (.file ..) => [begun]
  | .error _ => begun :: ofTomlEvents outcome
  | .ok c => begun :: ofTomlEvents outcome ++ [⟨.info, "Consensus configuration loaded", [
      ("chain_id", .number c.chain.val.toNat), ("genesis_validators", .number c.genesis.length)]⟩]

def wordLine (key : String) (n : UInt64) : Line Plain :=
  .entry [] key (.number n.toNat)

def textLine (key s : String) : Line Plain :=
  .entry [] key (.text s)

def genesisLines (g : GenesisValidator) : List (Line Plain) :=
  [.element [] "genesis_validators", textLine "address" g.address.toHex,
    textLine "bls_public_key" g.publicKey.toHex, textLine "voting_power" g.power.text] ++
    (g.possession.map fun s => textLine "kosk_signature" s.toHex).toList

def tomlLines (c : Configuration) : List (Line Plain) :=
  wordLine "chain_id" c.chain.val ::
    (if c.genesis.isEmpty then [.entry [] "genesis_validators" .noItems] else []) ++
    [.table [] "domains", textLine "kosk" c.domains.kosk, textLine "checkpoint" c.domains.checkpoint,
      textLine "common" c.domains.common,
      .table [] "quorum", wordLine "min_signers_for_supermajority" c.quorum.minSigners,
      wordLine "numerator" c.quorum.numerator, wordLine "denominator" c.quorum.denominator,
      wordLine "min_total_voting_power" c.quorum.minTotal] ++
    c.genesis.flatMap genesisLines

def toToml (c : Configuration) : Except ConfigurationError String :=
  (Toml.write c.tomlLines).mapError .unwritable

end Quorate.Configuration
