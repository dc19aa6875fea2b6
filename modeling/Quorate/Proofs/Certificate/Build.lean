import Quorate.Proofs.Certificate.Check
import Quorate.Proofs.Certificate.Voters
import Quorate.Proofs.Key.MadeSignatures
import Quorate.Proofs.ValidatorSet.QuorumReach

/-!
# What votes make

Building goes from the voters to their positions and marks these, and a check goes back from the marks to the
voters. On the way nobody is lost and nobody is added, so a check of a certificate that was made of votes can
only fail for want of quorum or because of the signature.
-/

namespace Quorate

namespace Certificate

variable {set : ValidatorSet} {votes others : List Vote} {i : Nat}

theorem lt_size_of_mem_positionsOf (h : i ∈ positionsOf set votes) : i < set.size := by
  obtain ⟨v, -, hv⟩ := mem_positionsOf.1 h
  exact ValidatorSet.indexOf?_lt hv

theorem length_marked : (marked set votes).bytes.length = (set.size + 7) / 8 :=
  SignerBitmap.length_insertAll_ofSize fun _ => lt_size_of_mem_positionsOf

/-- The third and the first of the four vote, the one with the generator and the other with its double. -/
def twoVotes : List Vote :=
  [⟨(Account.numbered 3 25).address, .generator⟩,
    ⟨(Account.numbered 1 25).address, ⟨Signature.generator.point.multiple 2⟩⟩]

theorem made_twoVotes : ∀ v ∈ twoVotes, v.signature.Made := by
  have hdouble := Bls12381.inGroup_generator.multiple Bls12381.G2.discriminant_ne_zero 2
  have hne : Signature.generator.point.multiple 2 ≠ .identity :=
    Bls12381.inGroup_generator.multiple_ne_identity Bls12381.G2.discriminant_ne_zero nofun (by decide) (by decide)
  exact List.forall_mem_cons.2 ⟨Signature.made_of_inGroup Bls12381.inGroup_generator nofun,
    List.forall_mem_singleton.2 (Signature.made_of_inGroup hdouble hne)⟩

end Certificate

end Quorate
