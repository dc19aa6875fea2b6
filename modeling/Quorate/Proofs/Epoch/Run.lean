import Quorate.Proofs.Epoch.Advance

/-!
# Runs of epoch operations

The active epoch and the commits of the provider are stored apart. Whatever is done to them, in any order
and with failures in between, the commits ascend, none is beyond the active epoch, and each of them was
added by the step that made its epoch active.
-/

namespace Quorate

inductive EpochOperation
  | publish (epoch : UInt64) (validators : ValidatorSet)
  | advance (epoch : UInt64) (height : BlockHeight)
  | reconcile (height : BlockHeight)
  | setAccounts (height : BlockHeight) (accounts : List Account)

inductive EpochOutcome
  | published (result : Except StaleEpoch ActiveEpoch)
  | advanced (result : Except EpochError ActiveEpoch)
  | reconciled (result : Except EpochError ValidatorSetDelta)
  | recorded

/-- Whether the operation has made an epoch active. -/
def EpochOutcome.activates : EpochOutcome → Bool
  | published (.ok _) => true
  | advanced (.ok _) => true
  | _ => false

namespace EpochState

def perform (s : EpochState SnapshotProvider) : EpochOperation → EpochOutcome × EpochState SnapshotProvider
  | .publish epoch validators => ((s.publish epoch validators).map .published id)
  | .advance epoch height => ((s.advance epoch height).map .advanced id)
  | .reconcile height => (.reconciled (s.reconcile height), s)
  | .setAccounts height accounts => (.recorded, { s with provider := s.provider.setAccounts height accounts })

def run (s : EpochState SnapshotProvider) (ops : List EpochOperation) : EpochState SnapshotProvider :=
  ops.foldl (fun s op => (s.perform op).2) s

variable {s start : EpochState SnapshotProvider} {op : EpochOperation} {ops : List EpochOperation}

theorem run_append (s : EpochState SnapshotProvider) (ops more : List EpochOperation) :
    s.run (ops ++ more) = (s.run ops).run more :=
  List.foldl_append

theorem run_append_singleton (s : EpochState SnapshotProvider) (ops : List EpochOperation)
    (op : EpochOperation) : s.run (ops ++ [op]) = ((s.run ops).perform op).2 :=
  run_append s ops [op]

/-- A step leaves the active epoch and the commits as they are, publishes a later epoch, or advances to a
later epoch. -/
theorem perform_cases (s : EpochState SnapshotProvider) (op : EpochOperation) :
    ((s.perform op).1.activates = false ∧ (s.perform op).2.active = s.active ∧
      (s.perform op).2.provider.commits = s.provider.commits) ∨
    (∃ epoch validators, op = .publish epoch validators ∧ s.active.epoch < epoch ∧
      s.perform op = (.published (.ok ⟨epoch, validators⟩), { s with active := ⟨epoch, validators⟩ })) ∨
    ∃ epoch height next, op = .advance epoch height ∧ s.active.epoch < epoch ∧
      StateProvider.accountsAt s.provider height = .ok next.accounts ∧
      s.perform op = (.advanced (.ok ⟨epoch, next⟩), s.advanced epoch height next) := by
  cases op with
  | publish epoch validators =>
    by_cases hstale : epoch ≤ s.active.epoch
    · left
      simp [perform, publish, ActiveEpoch.publish, hstale, EpochOutcome.activates]
    · right
      left
      refine ⟨epoch, validators, rfl, UInt64.not_le.1 hstale, ?_⟩
      simp [perform, publish, ActiveEpoch.publish, hstale]
  | advance epoch height =>
    rcases s.advance_cases epoch height with ⟨cause, h⟩ | ⟨next, h, hlater, haccounts⟩
    · left
      simp [perform, h, EpochOutcome.activates]
    · right
      right
      refine ⟨epoch, height, next, rfl, hlater, haccounts, ?_⟩
      simp [perform, h]
  | reconcile height => exact Or.inl ⟨rfl, rfl, rfl⟩
  | setAccounts height accounts => exact Or.inl ⟨rfl, rfl, rfl⟩

/-- The active epoch grows exactly when a step makes an epoch active. -/
theorem epoch_perform (s : EpochState SnapshotProvider) (op : EpochOperation) :
    s.active.epoch ≤ (s.perform op).2.active.epoch ∧
      (s.active.epoch < (s.perform op).2.active.epoch ↔ (s.perform op).1.activates = true) := by
  rcases s.perform_cases op with ⟨hquiet, hactive, -⟩ | ⟨epoch, validators, -, hlater, h⟩ |
    ⟨epoch, height, next, -, hlater, -, h⟩
  · rw [hactive, hquiet]
    exact ⟨UInt64.le_refl _, iff_of_false (UInt64.lt_irrefl _) Bool.false_ne_true⟩
  · rw [h]
    exact ⟨UInt64.le_of_lt hlater, iff_of_true hlater rfl⟩
  · rw [h]
    exact ⟨UInt64.le_of_lt hlater, iff_of_true hlater rfl⟩

/-- Commits are never taken back. -/
theorem commits_prefix_perform (s : EpochState SnapshotProvider) (op : EpochOperation) :
    s.provider.commits <+: (s.perform op).2.provider.commits := by
  rcases s.perform_cases op with ⟨-, -, hcommits⟩ | ⟨epoch, validators, -, -, h⟩ |
    ⟨epoch, height, next, -, -, -, h⟩
  · rw [hcommits]
  · rw [h]
  · rw [h]
    exact List.prefix_append _ _

theorem commits_prefix_run (s : EpochState SnapshotProvider) (ops : List EpochOperation) :
    s.provider.commits <+: (s.run ops).provider.commits := by
  induction ops generalizing s with
  | nil => exact List.prefix_rfl
  | cons op rest ih => exact (s.commits_prefix_perform op).trans (ih (s.perform op).2)

/-- The commits ascend between the first epoch and the active one. -/
structure CommitsInOrder (first : UInt64) (s : EpochState SnapshotProvider) : Prop where
  ascending : s.provider.commits.Pairwise fun c d => c.epoch < d.epoch
  later : ∀ c ∈ s.provider.commits, first < c.epoch
  reached : ∀ c ∈ s.provider.commits, c.epoch ≤ s.active.epoch
  grown : first ≤ s.active.epoch

theorem commitsInOrder_of_no_commits (h : s.provider.commits = []) : CommitsInOrder s.active.epoch s := by
  constructor
  · rw [h]
    exact List.Pairwise.nil
  · simp [h]
  · simp [h]
  · exact UInt64.le_refl _

theorem CommitsInOrder.advanced {first epoch : UInt64} (h : CommitsInOrder first s)
    (hlater : s.active.epoch < epoch) (height : BlockHeight) (next : ValidatorSet) :
    CommitsInOrder first (s.advanced epoch height next) := by
  have hbelow : ∀ c ∈ s.provider.commits, c.epoch < epoch := fun c hc =>
    UInt64.lt_of_le_of_lt (h.reached c hc) hlater
  have hfirst : first < epoch := UInt64.lt_of_le_of_lt h.grown hlater
  constructor
  · refine List.pairwise_append.2 ⟨h.ascending, List.pairwise_singleton _ _, ?_⟩
    intro c hc d hd
    rw [List.mem_singleton.1 hd]
    exact hbelow c hc
  · intro c hc
    rcases List.mem_append.1 hc with hc | hc
    · exact h.later c hc
    · rw [List.mem_singleton.1 hc]
      exact hfirst
  · intro c hc
    rcases List.mem_append.1 hc with hc | hc
    · exact UInt64.le_of_lt (hbelow c hc)
    · rw [List.mem_singleton.1 hc]
      exact UInt64.le_refl _
  · exact UInt64.le_of_lt hfirst

theorem CommitsInOrder.perform {first : UInt64} (h : CommitsInOrder first s) (op : EpochOperation) :
    CommitsInOrder first (s.perform op).2 := by
  rcases s.perform_cases op with ⟨-, hactive, hcommits⟩ | ⟨epoch, validators, -, hlater, hop⟩ |
    ⟨epoch, height, next, -, hlater, -, hop⟩
  · constructor
    · rw [hcommits]
      exact h.ascending
    · rw [hcommits]
      exact h.later
    · rw [hcommits, hactive]
      exact h.reached
    · rw [hactive]
      exact h.grown
  · rw [hop]
    exact ⟨h.ascending, h.later, fun c hc => UInt64.le_of_lt (UInt64.lt_of_le_of_lt (h.reached c hc) hlater),
      UInt64.le_of_lt (UInt64.lt_of_le_of_lt h.grown hlater)⟩
  · rw [hop]
    exact h.advanced hlater height next

theorem CommitsInOrder.run {first : UInt64} (h : CommitsInOrder first s) (ops : List EpochOperation) :
    CommitsInOrder first (s.run ops) := by
  induction ops generalizing s with
  | nil => exact h
  | cons op rest ih => exact ih (h.perform op)

/-- With the commits in order, an epoch change is never refused for an earlier commit. -/
theorem CommitsInOrder.not_duplicateCommit {first : UInt64} (h : CommitsInOrder first s) (epoch : UInt64)
    (height : BlockHeight) (d : UInt64) :
    (s.advance epoch height).1 ≠ .error (.provider (.duplicateCommit d)) := by
  intro hduplicate
  obtain ⟨c, hc, hlt⟩ := exists_commit_of_duplicateCommit hduplicate
  exact UInt64.not_le.2 hlt (h.reached c hc)

/-- Among the operations is the epoch change that added the commit. The same step made active the epoch of
the commit and the set that its digest stands for, with the accounts that the provider answered. -/
def AddedByAdvance (start : EpochState SnapshotProvider) (ops : List EpochOperation) (c : EpochCommit) :
    Prop :=
  ∃ earlier later, ops = earlier ++ .advance c.epoch c.endHeight :: later ∧
    ∃ next : ValidatorSet,
      (start.run earlier).perform (.advance c.epoch c.endHeight) =
        (.advanced (.ok ⟨c.epoch, next⟩),
          { active := ⟨c.epoch, next⟩
            provider := { (start.run earlier).provider with
              commits := (start.run earlier).provider.commits ++ [c] } }) ∧
      next.commitment = c.validatorsHash ∧
      StateProvider.accountsAt (start.run earlier).provider c.endHeight = .ok next.accounts

theorem AddedByAdvance.append {c : EpochCommit} (h : AddedByAdvance start ops c)
    (more : List EpochOperation) : AddedByAdvance start (ops ++ more) c := by
  obtain ⟨earlier, later, rfl, hstep⟩ := h
  exact ⟨earlier, later ++ more, by rw [List.append_assoc, List.cons_append], hstep⟩

theorem addedByAdvance_of_mem_commits (hstart : start.provider.commits = []) {c : EpochCommit}
    (hc : c ∈ (start.run ops).provider.commits) : AddedByAdvance start ops c := by
  -- From the end: the operations before the one that added the commit are a prefix of the run.
  induction ops using List.reverseRecOn with
  | nil =>
    change c ∈ start.provider.commits at hc
    rw [hstart] at hc
    cases hc
  | append_singleton ops op ih =>
    rw [run_append_singleton] at hc
    rcases (start.run ops).perform_cases op with ⟨-, -, hcommits⟩ | ⟨epoch, validators, -, -, hop⟩ |
      ⟨epoch, height, next, rfl, -, haccounts, hop⟩
    · rw [hcommits] at hc
      exact (ih hc).append [op]
    · rw [hop] at hc
      exact (ih hc).append [op]
    · rw [hop] at hc
      rcases List.mem_append.1 hc with hc | hc
      · exact (ih hc).append _
      · rw [List.mem_singleton.1 hc]
        exact ⟨ops, [], rfl, next, hop, rfl, haccounts⟩

/-- The commit of an epoch change that took place is still there after whatever follows. -/
theorem exists_commit_of_activates {earlier later : List EpochOperation} {epoch : UInt64}
    {height : BlockHeight}
    (h : ((start.run earlier).perform (.advance epoch height)).1.activates = true) :
    ∃ c ∈ (start.run (earlier ++ .advance epoch height :: later)).provider.commits,
      c.epoch = epoch ∧ c.endHeight = height := by
  rcases (start.run earlier).perform_cases (.advance epoch height) with
    ⟨hquiet, -⟩ | ⟨_, _, hpublish, -⟩ | ⟨_, _, next, heq, -, -, hop⟩
  · cases hquiet.symm.trans h
  · cases hpublish
  · cases heq
    have hprefix := ((start.run earlier).perform (.advance epoch height)).2.commits_prefix_run later
    have hrun : start.run (earlier ++ .advance epoch height :: later) =
        ((start.run earlier).perform (.advance epoch height)).2.run later := run_append ..
    rw [← hrun, hop] at hprefix
    exact ⟨_, hprefix.subset (List.mem_append_right _ (List.mem_singleton_self _)), rfl, rfl⟩

/-- After any operations from a provider without commits: the active epoch has not fallen, and the next
step raises it exactly if it makes an epoch active; the commits ascend strictly between the first epoch and
the active one; each was added by the step that made its epoch active, and each such step has its commit;
and no epoch change is refused for an earlier commit. -/
theorem commits_are_published (first : ActiveEpoch) (provider : SnapshotProvider) (ops : List EpochOperation) :
    let start : EpochState SnapshotProvider := ⟨first, { provider with commits := [] }⟩
    let s := start.run ops
    (first.epoch ≤ s.active.epoch ∧ ∀ op, s.active.epoch ≤ (s.perform op).2.active.epoch ∧
      (s.active.epoch < (s.perform op).2.active.epoch ↔ (s.perform op).1.activates = true)) ∧
    (s.provider.commits.Pairwise (fun c d => c.epoch < d.epoch) ∧
      ∀ c ∈ s.provider.commits, first.epoch < c.epoch ∧ c.epoch ≤ s.active.epoch) ∧
    (∀ c ∈ s.provider.commits, AddedByAdvance start ops c) ∧
    (∀ earlier epoch height later, ops = earlier ++ .advance epoch height :: later →
      ((start.run earlier).perform (.advance epoch height)).1.activates = true →
      ∃ c ∈ s.provider.commits, c.epoch = epoch ∧ c.endHeight = height) ∧
    ∀ epoch height d, (s.advance epoch height).1 ≠ .error (.provider (.duplicateCommit d)) := by
  intro start s
  have hstart : CommitsInOrder start.active.epoch start := commitsInOrder_of_no_commits rfl
  have horder : CommitsInOrder first.epoch s := hstart.run ops
  refine ⟨⟨horder.grown, s.epoch_perform⟩, ⟨horder.ascending, ?_⟩, ?_, ?_, horder.not_duplicateCommit⟩
  · intro c hc
    exact ⟨horder.later c hc, horder.reached c hc⟩
  · intro c hc
    exact addedByAdvance_of_mem_commits rfl hc
  · rintro earlier epoch height later rfl hactivates
    exact exists_commit_of_activates hactivates

end EpochState

end Quorate
