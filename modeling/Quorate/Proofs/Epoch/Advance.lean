import Quorate.Epoch.Transition
import Quorate.Proofs.ValidatorSet.Lookup

/-!
# What advancing does

An epoch change over a snapshot provider, as one decision: the snapshot must make a set, the epoch must be
later than the active one, and no commit may stand for it. The last step, which makes the new set active,
never refuses, since it asks what was already asked.
-/

namespace Quorate.EpochState

section Providers

variable {S : Type} [StateProvider S] {s : EpochState S} {height : BlockHeight}

/-- A set read from the provider holds exactly the accounts that the provider answers. -/
theorem snapshotSet_eq_ok_iff {next : ValidatorSet} :
    s.snapshotSet height = .ok next ↔
      StateProvider.accountsAt s.provider height = .ok next.accounts ∧
        next.policy = s.active.validators.policy := by
  unfold snapshotSet
  cases haccounts : StateProvider.accountsAt s.provider height with
  | error e => simp [Except.mapError, bind, Except.bind]
  | ok accounts =>
    have hbuild : ValidatorSet.ofAccounts accounts s.active.validators.policy = .ok next ↔
        next.accounts = accounts ∧ next.policy = s.active.validators.policy :=
      ValidatorSet.ofAccounts_eq_ok_iff
    simp only [Except.mapError, bind, Except.bind]
    cases hset : ValidatorSet.ofAccounts accounts s.active.validators.policy with
    | error e =>
      rw [hset] at hbuild
      simp only [reduceCtorEq, false_iff, not_and, Except.ok.injEq] at hbuild ⊢
      exact fun h => hbuild h.symm
    | ok built =>
      rw [hset] at hbuild
      simp only [Except.ok.injEq] at hbuild ⊢
      rw [hbuild, eq_comm]

end Providers

variable {s : EpochState SnapshotProvider} {epoch : UInt64} {height : BlockHeight}

theorem snapshotSet_ne_duplicateCommit (d : UInt64) :
    s.snapshotSet height ≠ .error (.provider (.duplicateCommit d)) := by
  unfold snapshotSet
  cases haccounts : StateProvider.accountsAt s.provider height with
  | error e =>
    have hunknown : e = .unknownHeight height := by
      simp only [StateProvider.accountsAt] at haccounts
      split at haccounts
      · cases haccounts
      · cases haccounts
        rfl
    simp [hunknown, Except.mapError, bind, Except.bind]
  | ok accounts =>
    simp only [Except.mapError, bind, Except.bind]
    cases ValidatorSet.ofAccounts accounts s.active.validators.policy <;> simp

def advanced (s : EpochState SnapshotProvider) (epoch : UInt64) (height : BlockHeight) (next : ValidatorSet) :
    EpochState SnapshotProvider where
  active := ⟨epoch, next⟩
  provider := { s.provider with commits := s.provider.commits ++ [⟨epoch, height, next.commitment⟩] }

theorem advance_eq (s : EpochState SnapshotProvider) (epoch : UInt64) (height : BlockHeight) :
    s.advance epoch height =
      match s.snapshotSet height with
      | .error cause => (.error cause, s)
      | .ok next =>
        if epoch ≤ s.active.epoch then (.error (.stale (.staleEpoch s.active.epoch epoch)), s)
        else if ∃ c ∈ s.provider.commits, c.epoch = epoch then
          (.error (.provider (.duplicateCommit epoch)), s)
        else (.ok ⟨epoch, next⟩, s.advanced epoch height next) := by
  unfold advance
  cases s.snapshotSet height with
  | error cause => rfl
  | ok next =>
    -- What publishing asks at the end is `hstale` again, so its refusal after the commit is never taken.
    by_cases hstale : epoch ≤ s.active.epoch
    · simp only [if_pos hstale]
    · simp only [if_neg hstale, StateProvider.commit, ActiveEpoch.publish]
      by_cases hdup : ∃ c ∈ s.provider.commits, c.epoch = epoch
      · have hany : (s.provider.commits.any fun c => c.epoch = epoch) = true := by simpa using hdup
        rw [if_pos hany, if_pos hdup]
      · have hany : ¬ (s.provider.commits.any fun c => c.epoch = epoch) = true := by simpa using hdup
        rw [if_neg hany, if_neg hdup]
        rfl

/-- Either nothing changes, or the epoch change took place: to a later epoch that had no commit, with the
accounts that the provider answers. -/
theorem advance_cases (s : EpochState SnapshotProvider) (epoch : UInt64) (height : BlockHeight) :
    (∃ cause, s.advance epoch height = (.error cause, s)) ∨
    ∃ next, s.advance epoch height = (.ok ⟨epoch, next⟩, s.advanced epoch height next) ∧
      s.active.epoch < epoch ∧ StateProvider.accountsAt s.provider height = .ok next.accounts := by
  rw [advance_eq]
  cases hset : s.snapshotSet height with
  | error cause => exact Or.inl ⟨cause, rfl⟩
  | ok next =>
    by_cases hstale : epoch ≤ s.active.epoch
    · exact Or.inl ⟨_, if_pos hstale⟩
    · by_cases hdup : ∃ c ∈ s.provider.commits, c.epoch = epoch
      · exact Or.inl ⟨_, (if_neg hstale).trans (if_pos hdup)⟩
      · exact Or.inr ⟨next, (if_neg hstale).trans (if_neg hdup), UInt64.not_le.1 hstale,
          (snapshotSet_eq_ok_iff.1 hset).1⟩

/-- A refusal for an earlier commit means that there is one, and that it is later than the active epoch. -/
theorem exists_commit_of_duplicateCommit {d : UInt64}
    (h : (s.advance epoch height).1 = .error (.provider (.duplicateCommit d))) :
    ∃ c ∈ s.provider.commits, s.active.epoch < c.epoch := by
  rw [advance_eq] at h
  cases hset : s.snapshotSet height with
  | error cause =>
    rw [hset] at h
    simp only [Except.error.injEq] at h
    exact absurd (h ▸ hset) (snapshotSet_ne_duplicateCommit d)
  | ok next =>
    rw [hset] at h
    by_cases hstale : epoch ≤ s.active.epoch
    · simp [hstale] at h
    · by_cases hdup : ∃ c ∈ s.provider.commits, c.epoch = epoch
      · obtain ⟨c, hc, rfl⟩ := hdup
        exact ⟨c, hc, UInt64.not_le.1 hstale⟩
      · simp [hstale, hdup] at h

end Quorate.EpochState
