import Quorate.Configuration.Basic
import Mathlib

/-!
# Usable configurations

A configuration passes validation exactly if it names a chain, its policy is valid, and its signing domains have tags
that tell them apart.
-/

namespace Quorate

namespace SigningDomains

def tags (d : SigningDomains) : List String :=
  [d.kosk, d.checkpoint, d.common]

/-- Whether every domain has a tag, and no two have the same. -/
def Usable (d : SigningDomains) : Prop :=
  "" ∉ d.tags ∧ d.tags.Nodup

end SigningDomains

namespace Configuration

theorem emptyDomain?_eq_none_iff {d : SigningDomains} : emptyDomain? d = none ↔ "" ∉ d.tags := by
  simp only [emptyDomain?, SigningDomains.tags, Option.map_eq_none_iff, List.find?_eq_none, decide_eq_true_eq,
    List.mem_cons, not_or, eq_comm (a := "")]
  simp

theorem validate_eq_ok_iff {c : Configuration} :
    c.validate = .ok () ↔ c.chain.val ≠ 0 ∧ c.quorum.Valid ∧ c.domains.Usable := by
  rw [SigningDomains.Usable, ← emptyDomain?_eq_none_iff, ← QuorumPolicy.validate_eq_ok_iff]
  unfold validate
  by_cases hchain : c.chain.val = 0
  · simp [hchain, throw, throwThe, MonadExceptOf.throw, bind, Except.bind]
  cases c.quorum.validate with
  | error cause => simp [hchain, Except.mapError, bind, Except.bind]
  | ok _ =>
    cases emptyDomain? c.domains with
    | some name =>
      simp [hchain, Except.mapError, bind, Except.bind, throw, throwThe, MonadExceptOf.throw]
    | none =>
      simp [hchain, Except.mapError, bind, Except.bind, throw, throwThe, MonadExceptOf.throw, pure, Except.pure,
        SigningDomains.tags]
      tauto

end Configuration

end Quorate
