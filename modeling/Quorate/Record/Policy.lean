import Quorate.QuorumPolicy
import Quorate.Record.Scalar
import Quorate.SigningDomains

/-!
# Policies and domains in value trees

Every field of a policy and of the signing domains may be absent; it then has the standard value.
-/

namespace Quorate

namespace QuorumPolicy

def fieldNames : List String :=
  ["min_signers_for_supermajority", "numerator", "denominator", "min_total_voting_power"]

def ofValue (format : TextFormat) (v : Value) : Except DecodeError QuorumPolicy := do
  let given ← v.fieldsOf format fieldNames
  let minSigners := given.read "min_signers_for_supermajority" Value.toWord
  let numerator := given.read "numerator" Value.toWord
  let denominator := given.read "denominator" Value.toWord
  let minTotal := given.read "min_total_voting_power" Value.toWord
  given.settle [minSigners.failure, numerator.failure, denominator.failure, minTotal.failure]
  return {
    minSigners := ← minSigners.getD standard.minSigners
    numerator := ← numerator.getD standard.numerator
    denominator := ← denominator.getD standard.denominator
    minTotal := ← minTotal.getD standard.minTotal }

def toValue (p : QuorumPolicy) : Value :=
  .map [
    ("min_signers_for_supermajority", .ofWord p.minSigners), ("numerator", .ofWord p.numerator),
    ("denominator", .ofWord p.denominator), ("min_total_voting_power", .ofWord p.minTotal)]

end QuorumPolicy

namespace SigningDomains

def fieldNames : List String :=
  ["kosk", "checkpoint", "common"]

def ofValue (format : TextFormat) (v : Value) : Except DecodeError SigningDomains := do
  let given ← v.fieldsOf format fieldNames
  let kosk := given.read "kosk" Value.toText
  let checkpoint := given.read "checkpoint" Value.toText
  let common := given.read "common" Value.toText
  given.settle [kosk.failure, checkpoint.failure, common.failure]
  return {
    kosk := ← kosk.getD standard.kosk
    checkpoint := ← checkpoint.getD standard.checkpoint
    common := ← common.getD standard.common }

def toValue (d : SigningDomains) : Value :=
  .map [("kosk", .text d.kosk), ("checkpoint", .text d.checkpoint), ("common", .text d.common)]

end SigningDomains

end Quorate
