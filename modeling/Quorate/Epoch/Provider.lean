import Quorate.Account
import Quorate.BlockHeight
import Quorate.Digest

/-!
# State providers

The execution layer owns the validators' accounts. A state provider gives them as they are at a height,
and takes the record of every finished epoch. This module says what a provider is, and defines one that
is given its snapshots explicitly and one that can be told to refuse.
-/

namespace Quorate

structure EpochCommit where
  /-- The epoch that begins. -/
  epoch : UInt64
  /-- The height at which its validators were read. -/
  endHeight : BlockHeight
  /-- The commitment of its validator set. -/
  validatorsHash : Digest
deriving DecidableEq

inductive ProviderError
  | unknownHeight (height : BlockHeight)
  | duplicateCommit (epoch : UInt64)
  | backend (reason : String)
deriving DecidableEq

def ProviderError.message : ProviderError → String
  | unknownHeight height => s!"no validator snapshot at or below height {height.text}"
  | duplicateCommit epoch => s!"epoch {epoch.toNat} already committed"
  | backend reason => s!"state provider backend error: {reason}"

class StateProvider (S : Type) where
  /-- The accounts at a height, in canonical order. -/
  accountsAt : S → BlockHeight → Except ProviderError (List Account)
  commit : S → EpochCommit → Except ProviderError Unit × S

/-- A provider with explicit snapshots, in ascending order of their heights. -/
structure SnapshotProvider where
  snapshots : List (BlockHeight × List Account)
  ascending : snapshots.Pairwise fun q r => q.1.val < r.1.val
  commits : List EpochCommit
deriving DecidableEq

namespace SnapshotProvider

def empty : SnapshotProvider := ⟨[], .nil, []⟩

instance : Inhabited SnapshotProvider := ⟨empty⟩

/-- Put a snapshot in its place, instead of an earlier one for the same height. -/
def putSnapshot (height : BlockHeight) (accounts : List Account) :
    List (BlockHeight × List Account) → List (BlockHeight × List Account)
  | [] => [(height, accounts)]
  | (h, as) :: rest =>
    if height.val < h.val then (height, accounts) :: (h, as) :: rest
    else if height = h then (height, accounts) :: rest
    else (h, as) :: putSnapshot height accounts rest

section Order

variable {height : BlockHeight} {accounts : List Account} {q : BlockHeight × List Account}
  {snapshots : List (BlockHeight × List Account)}

theorem mem_putSnapshot (hq : q ∈ putSnapshot height accounts snapshots) :
    q = (height, accounts) ∨ q ∈ snapshots := by
  induction snapshots with
  | nil => exact .inl (List.mem_singleton.1 hq)
  | cons head rest ih =>
    obtain ⟨h, as⟩ := head
    unfold putSnapshot at hq
    split at hq
    · exact List.mem_cons.1 hq
    · split at hq
      · exact (List.mem_cons.1 hq).imp_right (List.mem_cons_of_mem _)
      · rcases List.mem_cons.1 hq with rfl | hq
        · exact .inr List.mem_cons_self
        · exact (ih hq).imp_right (List.mem_cons_of_mem _)

theorem pairwise_putSnapshot (hs : snapshots.Pairwise fun q r => q.1.val < r.1.val) :
    (putSnapshot height accounts snapshots).Pairwise fun q r => q.1.val < r.1.val := by
  induction snapshots with
  | nil => exact List.pairwise_singleton _ _
  | cons head rest ih =>
    obtain ⟨h, as⟩ := head
    obtain ⟨hhead, hrest⟩ := List.pairwise_cons.1 hs
    unfold putSnapshot
    split
    · rename_i hlt
      refine List.pairwise_cons.2 ⟨fun q hq => ?_, hs⟩
      rcases List.mem_cons.1 hq with rfl | hq
      · exact hlt
      · exact UInt64.lt_trans hlt (hhead q hq)
    · rename_i hge
      split
      · rename_i heq
        subst heq
        exact List.pairwise_cons.2 ⟨hhead, hrest⟩
      · rename_i hne
        have hlt : h.val < height.val := by
          refine UInt64.lt_of_le_of_ne (UInt64.not_lt.1 hge) fun e => hne ?_
          cases h
          cases height
          simp_all
        refine List.pairwise_cons.2 ⟨fun q hq => ?_, ih hrest⟩
        rcases mem_putSnapshot hq with rfl | hq
        · exact hlt
        · exact hhead q hq

end Order

/-- Record the accounts that are in force from a height on. -/
def setAccounts (p : SnapshotProvider) (height : BlockHeight) (accounts : List Account) :
    SnapshotProvider :=
  { p with
    snapshots := putSnapshot height accounts p.snapshots
    ascending := pairwise_putSnapshot p.ascending }

def ofGenesis (accounts : List Account) : SnapshotProvider :=
  empty.setAccounts .genesis accounts

/-- The last snapshot at or below a height. -/
def snapshotAt? (p : SnapshotProvider) (height : BlockHeight) : Option (List Account) :=
  ((p.snapshots.takeWhile fun (h, _) => h.val ≤ height.val).getLast?).map Prod.snd

/-- An epoch is committed at most once. -/
instance : StateProvider SnapshotProvider where
  accountsAt p height :=
    match p.snapshotAt? height with
    | some accounts => .ok accounts
    | none => .error (.unknownHeight height)
  commit p record :=
    if p.commits.any fun c => c.epoch = record.epoch then (.error (.duplicateCommit record.epoch), p)
    else (.ok (), { p with commits := p.commits ++ [record] })

end SnapshotProvider

/-- A provider that refuses, for the given reasons, to give accounts or to take commits. -/
structure RefusingProvider (S : Type) where
  provider : S
  accountsRefusal : Option String
  commitRefusal : Option String

instance {S : Type} [StateProvider S] : StateProvider (RefusingProvider S) where
  accountsAt p height :=
    match p.accountsRefusal with
    | some reason => .error (.backend reason)
    | none => StateProvider.accountsAt p.provider height
  commit p record :=
    match p.commitRefusal with
    | some reason => (.error (.backend reason), p)
    | none =>
      let (outcome, provider) := StateProvider.commit p.provider record
      (outcome, { p with provider })

end Quorate
