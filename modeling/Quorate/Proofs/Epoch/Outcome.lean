import Quorate.Proofs.Epoch.Advance
import Quorate.Proofs.Epoch.Snapshot
import Quorate.Proofs.ValidatorSet.Construction
import Quorate.Proofs.ValidatorSet.QuorumReach

/-!
# How an epoch change comes out

An epoch change goes through three parts that can refuse it, and two states change one after the other. With
any provider, the active epoch changes only after the provider has taken the commit, and then always. With a
snapshot provider there are five outcomes; which one it is depends on the snapshot in force, the active epoch
and the earlier commits, and all but one leave everything as it was.
-/

namespace Quorate

theorem ValidatorSetDelta.between_self (set : ValidatorSet) : between set set = ⟨[], [], []⟩ := by
  have hmember (a : Account) (ha : a ∈ set.accounts) : set.contains a.address = true :=
    ValidatorSet.contains_iff.2 ⟨a, ha, rfl⟩
  have hfound (a : Account) (ha : a ∈ set.accounts) : set.find? a.address = some a :=
    ValidatorSet.find?_eq_some_iff.2 ⟨ha, rfl⟩
  rw [between, mk.injEq]
  refine ⟨List.filter_eq_nil_iff.2 ?_, List.filter_eq_nil_iff.2 ?_, List.filter_eq_nil_iff.2 ?_⟩
  · intro a ha
    simp [hmember a ha]
  · intro a ha
    simp [hfound a ha]
  · intro x hx
    obtain ⟨a, ha, rfl⟩ := List.mem_map.1 hx
    simp [hmember a ha]

namespace EpochState

section AnyProvider

variable {S : Type} [StateProvider S] {s : EpochState S} {height : BlockHeight} {accounts : List Account}

theorem snapshotSet_of_accountsAt_eq_error {cause : ProviderError}
    (h : StateProvider.accountsAt s.provider height = .error cause) :
    s.snapshotSet height = .error (.provider cause) := by
  rw [snapshotSet, h]
  rfl

theorem snapshotSet_of_firstRepeat {address : Address}
    (h : StateProvider.accountsAt s.provider height = .ok accounts)
    (hrepeat : FirstRepeat (accounts.map Account.address) address) :
    s.snapshotSet height = .error (.validatorSet (.duplicateValidator address)) := by
  have hpolicy := QuorumPolicy.validate_eq_ok_iff.2 s.active.validators.valid
  have hbuild := ValidatorSet.ofAccounts_of_firstRepeat hpolicy hrepeat
  simp only [snapshotSet, h, hbuild, Except.mapError, bind, Except.bind]

theorem exists_snapshotSet_of_nodup (h : StateProvider.accountsAt s.provider height = .ok accounts)
    (hdistinct : (accounts.map Account.address).Nodup) :
    ∃ next, s.snapshotSet height = .ok next ∧ next.accounts = accounts ∧
      next.policy = s.active.validators.policy :=
  ⟨.ofDistinct accounts _ hdistinct s.active.validators.valid, snapshotSet_eq_ok_iff.2 ⟨h, rfl⟩, rfl, rfl⟩

/-- With any provider an epoch change ends in one of four ways. Making the set active at the end is not
refused: the epoch was found to be later before the commit. -/
theorem advance_inversion (s : EpochState S) (epoch : UInt64) (height : BlockHeight) :
    (∃ cause, s.snapshotSet height = .error cause ∧ s.advance epoch height = (.error cause, s)) ∨
    (∃ next, s.snapshotSet height = .ok next ∧ epoch ≤ s.active.epoch ∧
      s.advance epoch height = (.error (.stale (.staleEpoch s.active.epoch epoch)), s)) ∨
    (∃ next cause provider, s.snapshotSet height = .ok next ∧ s.active.epoch < epoch ∧
      StateProvider.commit s.provider ⟨epoch, height, next.commitment⟩ = (.error cause, provider) ∧
      s.advance epoch height = (.error (.provider cause), { s with provider })) ∨
    ∃ next provider, s.snapshotSet height = .ok next ∧ s.active.epoch < epoch ∧
      StateProvider.commit s.provider ⟨epoch, height, next.commitment⟩ = (.ok (), provider) ∧
      s.advance epoch height = (.ok ⟨epoch, next⟩, ⟨⟨epoch, next⟩, provider⟩) := by
  unfold advance
  cases hset : s.snapshotSet height with
  | error cause => exact .inl ⟨cause, rfl, rfl⟩
  | ok next =>
    right
    by_cases hstale : epoch ≤ s.active.epoch
    · exact .inl ⟨next, rfl, hstale, if_pos hstale⟩
    · right
      have hlater := UInt64.not_le.1 hstale
      simp only [if_neg hstale, ActiveEpoch.publish]
      rcases hcommit : StateProvider.commit s.provider ⟨epoch, height, next.commitment⟩ with ⟨outcome, provider⟩
      cases outcome with
      | error cause => exact .inl ⟨next, cause, provider, rfl, hlater, hcommit, rfl⟩
      | ok _ => exact .inr ⟨next, provider, rfl, hlater, hcommit, by simp⟩

/-- With any provider a failed epoch change leaves the active epoch as it was. -/
theorem active_advance_of_error {epoch : UInt64} {cause : EpochError}
    (h : (s.advance epoch height).1 = .error cause) : (s.advance epoch height).2.active = s.active := by
  rcases s.advance_inversion epoch height with ⟨_, -, hout⟩ | ⟨_, -, -, hout⟩ | ⟨_, _, _, -, -, -, hout⟩ |
    ⟨_, _, -, -, -, hout⟩
  · rw [hout]
  · rw [hout]
  · rw [hout]
  · rw [hout] at h
    cases h

/-- A commit that the provider refuses is the outcome, and the active epoch is left as it was. -/
theorem advance_of_commit_refused {epoch : UInt64} {next : ValidatorSet} {cause : ProviderError} {provider : S}
    (hset : s.snapshotSet height = .ok next) (hlater : s.active.epoch < epoch)
    (hcommit : StateProvider.commit s.provider ⟨epoch, height, next.commitment⟩ = (.error cause, provider)) :
    s.advance epoch height = (.error (.provider cause), { s with provider }) := by
  have hstale : ¬ epoch ≤ s.active.epoch := UInt64.not_le.2 hlater
  simp only [advance, hset, if_neg hstale, hcommit]

/-- With any provider an epoch change succeeds only with a commit that the provider has taken. -/
theorem exists_commit_of_advance_eq_ok {epoch : UInt64} {active : ActiveEpoch}
    (h : (s.advance epoch height).1 = .ok active) :
    ∃ next provider, s.snapshotSet height = .ok next ∧ active = ⟨epoch, next⟩ ∧
      StateProvider.commit s.provider ⟨epoch, height, next.commitment⟩ = (.ok (), provider) ∧
      (s.advance epoch height).2 = ⟨active, provider⟩ := by
  rcases s.advance_inversion epoch height with ⟨_, -, hout⟩ | ⟨_, -, -, hout⟩ | ⟨_, _, _, -, -, -, hout⟩ |
    ⟨next, provider, hset, -, hcommit, hout⟩
  · rw [hout] at h
    cases h
  · rw [hout] at h
    cases h
  · rw [hout] at h
    cases h
  · rw [hout] at h ⊢
    cases h
    exact ⟨next, provider, hset, rfl, hcommit, rfl⟩

/-- Where the provider answers the active accounts, comparing finds nothing. -/
theorem reconcile_of_accountsAt (h : StateProvider.accountsAt s.provider height = .ok s.active.validators.accounts) :
    s.reconcile height = .ok ⟨[], [], []⟩ := by
  have hset : s.snapshotSet height = .ok s.active.validators := snapshotSet_eq_ok_iff.2 ⟨h, rfl⟩
  rw [reconcile, hset, ← ValidatorSetDelta.between_self s.active.validators]
  rfl

end AnyProvider

variable {s : EpochState SnapshotProvider} {epoch : UInt64} {height : BlockHeight}

/-- The outcome of an epoch change, by what first stands against it. -/
inductive AdvanceOutcome (s : EpochState SnapshotProvider) (epoch : UInt64) (height : BlockHeight) :
    Except EpochError ActiveEpoch × EpochState SnapshotProvider → Prop
  | unknownHeight (above : ∀ q ∈ s.provider.snapshots, height.val < q.1.val) :
    AdvanceOutcome s epoch height (.error (.provider (.unknownHeight height)), s)
  | duplicateValidator {accounts : List Account} {address : Address}
      (inForce : s.provider.InForce height accounts)
      (repeats : FirstRepeat (accounts.map Account.address) address) :
    AdvanceOutcome s epoch height (.error (.validatorSet (.duplicateValidator address)), s)
  | stale {accounts : List Account} (inForce : s.provider.InForce height accounts)
      (distinct : (accounts.map Account.address).Nodup) (notLater : epoch ≤ s.active.epoch) :
    AdvanceOutcome s epoch height (.error (.stale (.staleEpoch s.active.epoch epoch)), s)
  | duplicateCommit {accounts : List Account} (inForce : s.provider.InForce height accounts)
      (distinct : (accounts.map Account.address).Nodup) (later : s.active.epoch < epoch)
      (committed : ∃ c ∈ s.provider.commits, c.epoch = epoch) :
    AdvanceOutcome s epoch height (.error (.provider (.duplicateCommit epoch)), s)
  | advanced {next : ValidatorSet} (inForce : s.provider.InForce height next.accounts)
      (policy : next.policy = s.active.validators.policy) (later : s.active.epoch < epoch)
      (fresh : ∀ c ∈ s.provider.commits, c.epoch ≠ epoch) :
    AdvanceOutcome s epoch height (.ok ⟨epoch, next⟩,
      { active := ⟨epoch, next⟩
        provider := { s.provider with commits := s.provider.commits ++ [⟨epoch, height, next.commitment⟩] } })

theorem AdvanceOutcome.eq {result} (h : AdvanceOutcome s epoch height result) :
    s.advance epoch height = result := by
  rw [advance_eq]
  cases h with
  | unknownHeight above =>
    rw [snapshotSet_of_accountsAt_eq_error (SnapshotProvider.accountsAt_eq_unknownHeight above)]
  | duplicateValidator inForce repeats =>
    rw [snapshotSet_of_firstRepeat (SnapshotProvider.accountsAt_eq_ok_iff.2 inForce) repeats]
  | stale inForce distinct notLater =>
    obtain ⟨next, hset, -⟩ := exists_snapshotSet_of_nodup (SnapshotProvider.accountsAt_eq_ok_iff.2 inForce) distinct
    simp only [hset, if_pos notLater]
  | duplicateCommit inForce distinct later committed =>
    obtain ⟨next, hset, -⟩ := exists_snapshotSet_of_nodup (SnapshotProvider.accountsAt_eq_ok_iff.2 inForce) distinct
    simp only [hset, if_neg (UInt64.not_le.2 later), if_pos committed]
  | @advanced next inForce policy later fresh =>
    have hset : s.snapshotSet height = .ok next :=
      snapshotSet_eq_ok_iff.2 ⟨SnapshotProvider.accountsAt_eq_ok_iff.2 inForce, policy⟩
    have hfresh : ¬ ∃ c ∈ s.provider.commits, c.epoch = epoch := fun ⟨c, hc, heq⟩ => fresh c hc heq
    simp only [hset, if_neg (UInt64.not_le.2 later), if_neg hfresh]
    rfl

theorem exists_advanceOutcome (s : EpochState SnapshotProvider) (epoch : UInt64) (height : BlockHeight) :
    ∃ result, AdvanceOutcome s epoch height result := by
  have hpolicy := QuorumPolicy.validate_eq_ok_iff.2 s.active.validators.valid
  rcases s.provider.inForce_or_above height with ⟨accounts, hin⟩ | habove
  · rcases ValidatorSet.ofAccounts_cases accounts s.active.validators.policy with ⟨_, hinvalid, -⟩ |
      ⟨-, _, hrepeat, -⟩ | ⟨-, hdistinct, -⟩
    · cases hpolicy.symm.trans hinvalid
    · exact ⟨_, .duplicateValidator hin hrepeat⟩
    · by_cases hstale : epoch ≤ s.active.epoch
      · exact ⟨_, .stale hin hdistinct hstale⟩
      · have hlater := UInt64.not_le.1 hstale
        by_cases hdup : ∃ c ∈ s.provider.commits, c.epoch = epoch
        · exact ⟨_, .duplicateCommit hin hdistinct hlater hdup⟩
        · let next : ValidatorSet := .ofDistinct accounts _ hdistinct s.active.validators.valid
          have hin' : s.provider.InForce height next.accounts := hin
          exact ⟨_, .advanced hin' rfl hlater fun c hc heq => hdup ⟨c, hc, heq⟩⟩
  · exact ⟨_, .unknownHeight habove⟩

theorem advance_eq_iff {result : Except EpochError ActiveEpoch × EpochState SnapshotProvider} :
    s.advance epoch height = result ↔ AdvanceOutcome s epoch height result := by
  refine ⟨fun h => ?_, fun h => h.eq⟩
  obtain ⟨found, hfound⟩ := s.exists_advanceOutcome epoch height
  rw [← h, hfound.eq]
  exact hfound

/-- The outcome of an epoch change with a snapshot provider is the first that applies: no snapshot at or below
the height, an address that repeats in the snapshot in force, an epoch that is not later than the active one,
an earlier commit for the epoch, and else success. A failure changes nothing. After a success the provider's
accounts at the height do not differ from the active ones. With any provider the active epoch survives a
failure; a refused commit is the outcome, and success means that the provider has taken the commit. -/
theorem advance_exact (s : EpochState SnapshotProvider) (epoch : UInt64) (height : BlockHeight) :
    (∀ result, s.advance epoch height = result ↔ AdvanceOutcome s epoch height result) ∧
    (∀ cause, (s.advance epoch height).1 = .error cause → (s.advance epoch height).2 = s) ∧
    (∀ active, (s.advance epoch height).1 = .ok active →
      ∃ delta, (s.advance epoch height).2.reconcile height = .ok delta ∧ delta.isEmpty = true) ∧
    ∀ (S : Type) [StateProvider S] (t : EpochState S),
      (∀ cause, (t.advance epoch height).1 = .error cause → (t.advance epoch height).2.active = t.active) ∧
      (∀ next cause provider, t.snapshotSet height = .ok next → t.active.epoch < epoch →
        StateProvider.commit t.provider ⟨epoch, height, next.commitment⟩ = (.error cause, provider) →
        t.advance epoch height = (.error (.provider cause), { t with provider })) ∧
      ∀ active, (t.advance epoch height).1 = .ok active →
        ∃ next provider, t.snapshotSet height = .ok next ∧ active = ⟨epoch, next⟩ ∧
          StateProvider.commit t.provider ⟨epoch, height, next.commitment⟩ = (.ok (), provider) ∧
          (t.advance epoch height).2 = ⟨active, provider⟩ := by
  obtain ⟨result, hresult⟩ := s.exists_advanceOutcome epoch height
  have hadvance := hresult.eq
  refine ⟨fun _ => advance_eq_iff, ?_, ?_, fun S _ t => ⟨fun _ => active_advance_of_error,
    fun _ _ _ => advance_of_commit_refused, fun _ => exists_commit_of_advance_eq_ok⟩⟩
  · intro cause hcause
    rw [hadvance] at hcause ⊢
    cases hresult with
    | advanced => cases hcause
    | _ => rfl
  · intro active hactive
    rw [hadvance] at hactive ⊢
    cases hresult with
    | advanced inForce _ _ _ =>
      exact ⟨⟨[], [], []⟩, reconcile_of_accountsAt (SnapshotProvider.accountsAt_eq_ok_iff.2 inForce), rfl⟩
    | _ => cases hactive

/-- The four, and a fifth of the same power. -/
def fiveStandard : ValidatorSet :=
  .ofDistinct (ValidatorSet.fourStandard.accounts ++ [.numbered 5 25]) .standard (by decide)
    QuorumPolicy.valid_standard

/-- The four are active, and a fifth is there from height 100 on. -/
def growing : EpochState SnapshotProvider where
  active := ⟨0, ValidatorSet.fourStandard⟩
  provider :=
    (SnapshotProvider.ofGenesis ValidatorSet.fourStandard.accounts).setAccounts ⟨100⟩ fiveStandard.accounts

theorem advance_exact_growing :
    growing.advance 1 ⟨120⟩ = (.ok ⟨1, fiveStandard⟩,
      { active := ⟨1, fiveStandard⟩
        provider := { growing.provider with commits := [⟨1, ⟨120⟩, fiveStandard.commitment⟩] } }) ∧
    growing.advance 0 ⟨120⟩ = (.error (.stale (.staleEpoch 0 0)), growing) := by
  have hin : growing.provider.InForce ⟨120⟩ fiveStandard.accounts := by
    refine ⟨⟨100⟩, by decide, by decide, by decide⟩
  exact ⟨((advance_exact growing 1 ⟨120⟩).1 _).2 (.advanced hin rfl (by decide) (by decide)),
    ((advance_exact growing 0 ⟨120⟩).1 _).2 (.stale hin fiveStandard.distinct (by decide))⟩

end EpochState

end Quorate
