import Quorate.Key.Possession
import Quorate.Proofs.Bls12381.InStages
import Quorate.Proofs.Key.MadeSignatures
import Quorate.Proofs.ThirtyTwoBytes

/-!
# What signatures are bound to

The messages that are signed have their fields at fixed places, so each of them determines its fields, and the two kinds
differ in length. What is known of signatures by their messages then carries over to proofs of possession.
-/

namespace Quorate

theorem Digest.ext_bytes {d d' : Digest} (h : d.bytes = d'.bytes) : d = d' := by
  cases d
  cases d'
  rw [Digest.mk.injEq]
  exact h

namespace SigningMessage

variable {address address' : Address} {chain chain' : ChainId} {epoch epoch' : UInt64} {height height' : BlockHeight}
  {block block' validators validators' : Digest}

theorem length_possession (address : Address) (chain : ChainId) :
    (possession address chain).length = possessionSize := by
  simp [possession, possessionSize, address.length_eq]

theorem length_checkpoint (chain : ChainId) (epoch : UInt64) (height : BlockHeight) (block validators : Digest) :
    (checkpoint chain epoch height block validators).length = 112 := by
  simp [checkpoint, block.length_eq, validators.length_eq]

theorem possession_eq_iff :
    possession address chain = possession address' chain' ↔ address = address' ∧ chain = chain' := by
  constructor
  · intro h
    obtain ⟨hpadded, hchain⟩ := List.append_inj' h (by simp)
    have hbytes := List.append_cancel_left hpadded
    exact ⟨Address.ext_bytes hbytes, ChainId.toBytes32_injective hchain⟩
  · rintro ⟨rfl, rfl⟩
    rfl

/-- Every field of a checkpoint stands in a width that holds all its values. -/
theorem checkpoint_eq_iff :
    checkpoint chain epoch height block validators = checkpoint chain' epoch' height' block' validators' ↔
      chain = chain' ∧ epoch = epoch' ∧ height = height' ∧ block = block' ∧ validators = validators' := by
  constructor
  · intro h
    obtain ⟨h, hvalidators⟩ := List.append_inj' h (by rw [validators.length_eq, validators'.length_eq])
    obtain ⟨h, hblock⟩ := List.append_inj' h (by rw [block.length_eq, block'.length_eq])
    obtain ⟨h, hheight⟩ := List.append_inj' h (by simp)
    obtain ⟨hchain, hepoch⟩ := List.append_inj' h (by simp)
    refine ⟨ChainId.toBytes32_injective hchain, Bytes.eq_of_ofNatBE_word (by decide) hepoch, ?_,
      Digest.ext_bytes hblock, Digest.ext_bytes hvalidators⟩
    exact congrArg BlockHeight.mk (Bytes.eq_of_ofNatBE_word (by decide) hheight)
  · rintro ⟨rfl, rfl, rfl, rfl, rfl⟩
    rfl

theorem possession_ne_checkpoint :
    possession address chain ≠ checkpoint chain' epoch height block validators := by
  intro h
  have hlength := congrArg List.length h
  rw [length_possession, length_checkpoint] at hlength
  cases hlength

end SigningMessage

namespace SecretKey

/-- The key's signature over `signed` under `signedTag` passes for `message` under `tag` just if they are the
same. This is what the curve is trusted with, for one pair of messages. -/
def SignsExactly (k : SecretKey) (signed signedTag message tag : Bytes) : Prop :=
  k.publicKey.verify message tag (k.sign signed signedTag) = true ↔ message = signed ∧ tag = signedTag

/-- A proof of possession passes for the address, the chain and the tag that it was made for. -/
theorem verifyPossession_iff {k : SecretKey} {address address' : Address} {chain chain' : ChainId}
    {tag tag' : Bytes}
    (h : k.SignsExactly (SigningMessage.possession address chain) tag
      (SigningMessage.possession address' chain') tag') :
    k.publicKey.verifyPossession address' chain' tag' (k.provePossession address chain tag) = true ↔
      address' = address ∧ chain' = chain ∧ tag' = tag := by
  unfold SignsExactly at h
  rw [PublicKey.verifyPossession, provePossession, h, SigningMessage.possession_eq_iff, and_assoc]

end SecretKey

/-- The two kinds of messages determine their fields and are never confused. So a proof of possession, under a key that
signs exactly, passes for no address, chain or tag other than those that it was made for. -/
theorem SigningMessage.binds_fields :
    (∀ address chain address' chain',
      possession address chain = possession address' chain' ↔ address = address' ∧ chain = chain') ∧
    (∀ chain epoch height block validators chain' epoch' height' block' validators',
      checkpoint chain epoch height block validators = checkpoint chain' epoch' height' block' validators' ↔
        chain = chain' ∧ epoch = epoch' ∧ height = height' ∧ block = block' ∧ validators = validators') ∧
    (∀ address chain chain' epoch height block validators,
      possession address chain ≠ checkpoint chain' epoch height block validators) ∧
    ∀ (k : SecretKey) address chain tag address' chain' tag',
      k.SignsExactly (possession address chain) tag (possession address' chain') tag' →
      (k.publicKey.verifyPossession address' chain' tag' (k.provePossession address chain tag) = true ↔
        address' = address ∧ chain' = chain ∧ tag' = tag) :=
  ⟨fun _ _ _ _ => possession_eq_iff, fun _ _ _ _ _ _ _ _ _ _ => checkpoint_eq_iff,
    fun _ _ _ _ _ _ _ => possession_ne_checkpoint, fun _ _ _ _ _ _ _ h => SecretKey.verifyPossession_iff h⟩

/-- The key that is derived from 32 zero bytes. -/
def SecretKey.zeroSeeded : SecretKey where
  scalar := 0x4d129a19df86a0f5345bad4cc6f249ec2a819ccc3386895beb4f7d98b3db6235
  pos := by decide
  lt_order := by decide

/-- The address of the account whose key is one. -/
def Address.first : Address where
  bytes := Bytes.ofNatBE 20 0x7e5f4552091a69125d5dfcb7b8c2659029395bdf
  length_eq := Bytes.length_ofNatBE 20 _

def shortTag : Bytes :=
  Bytes.ofText "POP"

section FirstProof

open Bls12381 SigningMessage

/-- The points that take part when the key proves its possession on the first chain: its public point, the hashes of
the messages for that chain and for the second one, and the signature. -/
def zeroSeededPoint : G1 := .affine
  (.ofNat 0x0695ad325dfc7e1191fbc9f186f58eff42a634029731b18380ff89bf42c464a42cb8ca55b200f051f57f1e1893c68759)
  (.ofNat 0x10ea7912ef7a227c01298a7c7a96b1851b23021741c71938f39638b1d368aaa621452426b5d8199773a2cb5b2743a5da)

def firstChainHash : G2 := .affine
  (.ofNats 0x019d24500a00c0e07a94a8270d8944e30288d02d366742029de97f2508809f6afd846ebaf6a854080076fa705fa08319
    0x192b74ba885df07f580f8f66dfcab38df32dea7121cf5df9eb98d77aaaa93708a415290a6ef9c54296ab89ada25a3b9b)
  (.ofNats 0x0ca3ac0a7f10fdb113badab952144c0e91de087ba4c7c30667544c13430a606ccfb8089f16aec30048f13412f4096193
    0x0e4d1aec3b07db153911c74805992e491fa9a03a7c5dd835571b51e0581d8643ee37ae2bc8186603cdc8a219f9e70351)

def secondChainHash : G2 := .affine
  (.ofNats 0x16115cc79d62fd33c5eb5cf89172b9f4a1b8951ef0a23d7ec5cdbfee130e746f9feadba3d75fe2d82d691668d8882dc3
    0x165bad41bd883a9f48b0dae8db4e03a95ee5b112d06ecdd7a1bb7abae6c9aed3f759d09a10e92af2fcfca71b81564935)
  (.ofNats 0x11f48fbc9bef4f95ef3ab307c41618600c1dcdd545d000d30dcf4d53cff9e544fb4ec3e74786368a5f85c91bb29f17a9
    0x1394d55cc762363ad824f88f726937ed7b509c222c4ac70d0ca32145fdddbfff140c97899481e7d7c74b6832e782fd9b)

def firstProofPoint : G2 := .affine
  (.ofNats 0x1786bd1a9a01f3df8aa6290a8eb10628e8efe6e208788c5783d6ac734e55ffc792fd52b49e91dc0378fcf69acddb7edb
    0x0dbc6ae5efc1d2a2389ed1b2f1f47fe0b441b3f74659507e2615941aea0e048d3ea499867738ac666abbc77eef97be74)
  (.ofNats 0x052c9a6d8f966bed8718ff65c1dce52c2dca7d8d1afb2374e1a872b19c146bae15e01578cec57d8cf2cde505a9485b3c
    0x1305a8d1829ec9396f700023e199ee4da9fa574df8f002f7d59c61e762c5181f96c99c8e5ce30e7bfe8ed7cb1fed8b3e)

-- every evaluation has a declaration of its own, since the kernel keeps all that it computed until that one is checked
theorem point_zeroSeeded : SecretKey.zeroSeeded.publicKey.point = zeroSeededPoint := by
  have h : (G1.multipleInStages SecretKey.zeroSeeded.scalar G1.generator fun p =>
      decide (p = zeroSeededPoint)) = true := by
    decide +kernel
  rw [G1.multipleInStages_eq, decide_eq_true_eq] at h
  rw [SecretKey.point_publicKey, h]

theorem hashToGroup_firstChain : hashToGroup (possession .first ⟨1⟩) shortTag = firstChainHash := by
  have h : (hashInStages (possession .first ⟨1⟩) shortTag fun p => decide (p = firstChainHash)) = true := by
    decide +kernel
  rwa [hashInStages_eq, decide_eq_true_eq] at h

theorem hashToGroup_secondChain : hashToGroup (possession .first ⟨2⟩) shortTag = secondChainHash := by
  have h : (hashInStages (possession .first ⟨2⟩) shortTag fun p => decide (p = secondChainHash)) = true := by
    decide +kernel
  rwa [hashInStages_eq, decide_eq_true_eq] at h

theorem multiple_firstChainHash : firstChainHash.multiple SecretKey.zeroSeeded.scalar = firstProofPoint := by
  have h : (G2.multipleInStages SecretKey.zeroSeeded.scalar firstChainHash fun p =>
      decide (p = firstProofPoint)) = true := by
    decide +kernel
  rwa [G2.multipleInStages_eq, decide_eq_true_eq] at h

theorem pairings_firstChain :
    pairingsInStages zeroSeededPoint (-G1.generator) firstChainHash firstProofPoint = true := by
  decide +kernel

theorem pairings_secondChain :
    pairingsInStages zeroSeededPoint (-G1.generator) secondChainHash firstProofPoint = false := by
  decide +kernel

theorem zeroSeeded_signsReadably : SecretKey.zeroSeeded.SignsReadably (possession .first ⟨1⟩) shortTag := by
  rw [SecretKey.signsReadably_iff, hashToGroup_firstChain]
  exact nofun

theorem verify_firstProof (chain : ChainId) :
    SecretKey.zeroSeeded.publicKey.verify (possession .first chain) shortTag
        (SecretKey.zeroSeeded.sign (possession .first ⟨1⟩) shortTag) =
      pairingsInStages zeroSeededPoint (-G1.generator) (hashToGroup (possession .first chain) shortTag)
        firstProofPoint := by
  rw [SecretKey.verify_sign (SecretKey.signsReadably_iff.1 zeroSeeded_signsReadably), point_zeroSeeded,
    SecretKey.point_sign, hashToGroup_firstChain, multiple_firstChainHash, pairingsInStages_eq]

/-- The key signs exactly for its own chain and for another one. -/
theorem zeroSeeded_signsExactly {chain : ChainId} (h : chain ∈ [(⟨1⟩ : ChainId), ⟨2⟩]) :
    SecretKey.zeroSeeded.SignsExactly (possession .first ⟨1⟩) shortTag (possession .first chain) shortTag := by
  rw [SecretKey.SignsExactly, verify_firstProof, possession_eq_iff]
  rcases h with _ | ⟨_, _ | ⟨_, ⟨⟩⟩⟩
  · rw [hashToGroup_firstChain]
    exact iff_of_true pairings_firstChain ⟨⟨rfl, rfl⟩, rfl⟩
  · rw [hashToGroup_secondChain]
    refine iff_of_false (Bool.eq_false_iff.1 pairings_secondChain) ?_
    rintro ⟨⟨-, hchain⟩, -⟩
    cases hchain

end FirstProof

/-- The proof passes on its own chain and not on the other one. -/
theorem SigningMessage.binds_fields_twoChains :
    let proof := SecretKey.zeroSeeded.provePossession .first ⟨1⟩ shortTag
    (∀ chain ∈ [(⟨1⟩ : ChainId), ⟨2⟩], SecretKey.zeroSeeded.SignsExactly (possession .first ⟨1⟩) shortTag
      (possession .first chain) shortTag) ∧
    SecretKey.zeroSeeded.publicKey.verifyPossession .first ⟨1⟩ shortTag proof = true ∧
    ¬ SecretKey.zeroSeeded.publicKey.verifyPossession .first ⟨2⟩ shortTag proof = true := by
  have hexact := @zeroSeeded_signsExactly
  refine ⟨fun _ => hexact, ?_, fun hpasses => ?_⟩
  · exact (binds_fields.2.2.2 _ _ _ _ _ _ _ (hexact (.head _))).2 ⟨rfl, rfl, rfl⟩
  · obtain ⟨-, hchain, -⟩ := (binds_fields.2.2.2 _ _ _ _ _ _ _ (hexact (.tail _ (.head _)))).1 hpasses
    cases hchain

end Quorate
