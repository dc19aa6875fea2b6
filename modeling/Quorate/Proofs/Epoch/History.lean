import Quorate.Proofs.Epoch.Snapshot

/-!
# What a history of recordings answers

A snapshot provider that was told accounts for heights, in any order and with repeats, answers with what was told
last for the greatest of these heights that is not above the one asked for. So one more recording is answered from
its height up to the next recorded one, and nowhere else, and commits do not matter.
-/

namespace Quorate

inductive ProviderOperation
  | setAccounts (height : BlockHeight) (accounts : List Account)
  | commit (record : EpochCommit)

def ProviderOperation.recording? : ProviderOperation → Option (BlockHeight × List Account)
  | setAccounts height accounts => some (height, accounts)
  | commit _ => none

/-- The recordings among the operations, in their order. -/
def recordings (ops : List ProviderOperation) : List (BlockHeight × List Account) :=
  ops.filterMap ProviderOperation.recording?

section Recordings

variable {rs : List (BlockHeight × List Account)} {height k : BlockHeight} {accounts others : List Account}

/-- The accounts were recorded for the height, and no others after them. -/
def LastRecorded (rs : List (BlockHeight × List Account)) (k : BlockHeight) (accounts : List Account) : Prop :=
  ∃ earlier later, rs = earlier ++ (k, accounts) :: later ∧ ∀ q ∈ later, q.1 ≠ k

/-- The greatest height for which there is a recording and which is not above the given one. -/
def GreatestRecorded (rs : List (BlockHeight × List Account)) (height k : BlockHeight) : Prop :=
  (∃ q ∈ rs, q.1 = k) ∧ k.val ≤ height.val ∧ ∀ q ∈ rs, q.1.val ≤ height.val → q.1.val ≤ k.val

theorem lastRecorded_append_singleton {q : BlockHeight × List Account} :
    LastRecorded (rs ++ [q]) k accounts ↔ q = (k, accounts) ∨ q.1 ≠ k ∧ LastRecorded rs k accounts := by
  constructor
  · rintro ⟨earlier, later, hsplit, hlater⟩
    rcases List.eq_nil_or_concat' later with rfl | ⟨between, last, rfl⟩
    · exact .inl (List.append_singleton_inj.1 hsplit).2
    · right
      have hsplit' : rs ++ [q] = (earlier ++ (k, accounts) :: between) ++ [last] := by
        rw [hsplit, List.append_assoc, List.cons_append]
      obtain ⟨hrs, rfl⟩ := List.append_singleton_inj.1 hsplit'
      exact ⟨hlater q (by simp), earlier, between, hrs, fun r hr => hlater r (by simp [hr])⟩
  · rintro (rfl | ⟨hne, earlier, later, rfl, hlater⟩)
    · exact ⟨rs, [], rfl, by simp⟩
    · refine ⟨earlier, later ++ [q], by simp, ?_⟩
      intro r hr
      rcases List.mem_append.1 hr with hr | hr
      · exact hlater r hr
      · rwa [List.mem_singleton.1 hr]

theorem LastRecorded.mem (h : LastRecorded rs k accounts) : (k, accounts) ∈ rs := by
  obtain ⟨earlier, later, rfl, -⟩ := h
  simp

theorem exists_lastRecorded (h : ∃ q ∈ rs, q.1 = k) : ∃ accounts, LastRecorded rs k accounts := by
  induction rs using List.reverseRecOn with
  | nil => simp at h
  | append_singleton rs q ih =>
    by_cases hq : q.1 = k
    · exact ⟨q.2, lastRecorded_append_singleton.2 (.inl (by rw [← hq]))⟩
    · obtain ⟨r, hr, hrk⟩ := h
      rcases List.mem_append.1 hr with hr | hr
      · obtain ⟨accounts, hlast⟩ := ih ⟨r, hr, hrk⟩
        exact ⟨accounts, lastRecorded_append_singleton.2 (.inr ⟨hq, hlast⟩)⟩
      · rw [List.mem_singleton.1 hr] at hrk
        exact absurd hrk hq

end Recordings

namespace SnapshotProvider

def perform (p : SnapshotProvider) : ProviderOperation → SnapshotProvider
  | .setAccounts height accounts => p.setAccounts height accounts
  | .commit record => (StateProvider.commit p record).2

def run (p : SnapshotProvider) (ops : List ProviderOperation) : SnapshotProvider :=
  ops.foldl perform p

variable {p : SnapshotProvider} {rs : List (BlockHeight × List Account)} {height k : BlockHeight}
  {accounts : List Account} {ops : List ProviderOperation}

theorem snapshots_commit (p : SnapshotProvider) (record : EpochCommit) :
    (StateProvider.commit p record).2.snapshots = p.snapshots := by
  have hcommit : StateProvider.commit p record =
      if p.commits.any fun c => c.epoch = record.epoch then (.error (.duplicateCommit record.epoch), p)
      else (.ok (), { p with commits := p.commits ++ [record] }) := rfl
  rw [hcommit]
  split <;> rfl

/-- In ascending order a recording takes the place of the one for its height, and no other. -/
theorem mem_setAccounts_iff {q : BlockHeight × List Account} :
    q ∈ (p.setAccounts k accounts).snapshots ↔ q = (k, accounts) ∨ q ∈ p.snapshots ∧ q.1 ≠ k := by
  obtain ⟨snapshots, hp, -⟩ := p
  simp only [SnapshotProvider.setAccounts]
  induction snapshots with
  | nil => simp [putSnapshot]
  | cons head rest ih =>
    obtain ⟨h, as⟩ := head
    obtain ⟨hhead, hrest⟩ := List.pairwise_cons.1 hp
    have hne : ∀ l : BlockHeight, k.val < l.val → l ≠ k := by
      rintro l hlt rfl
      exact UInt64.lt_irrefl _ hlt
    unfold putSnapshot
    split
    · rename_i hlt
      have hothers : ∀ r ∈ (h, as) :: rest, r.1 ≠ k := by
        intro r hr
        rcases List.mem_cons.1 hr with rfl | hr
        · exact hne _ hlt
        · exact hne _ (UInt64.lt_trans hlt (hhead r hr))
      rw [List.mem_cons]
      exact or_congr_right ⟨fun hq => ⟨hq, hothers q hq⟩, And.left⟩
    · split
      · rename_i heq
        subst heq
        have hothers : ∀ r ∈ rest, r.1 ≠ k := fun r hr => hne _ (hhead r hr)
        rw [List.mem_cons, List.mem_cons]
        constructor
        · rintro (rfl | hq)
          · exact .inl rfl
          · exact .inr ⟨.inr hq, hothers q hq⟩
        · rintro (rfl | ⟨rfl | hq, hqk⟩)
          · exact .inl rfl
          · exact absurd rfl hqk
          · exact .inr hq
      · rename_i hkh
        rw [List.mem_cons, List.mem_cons, ih hrest]
        constructor
        · rintro (rfl | rfl | ⟨hq, hqk⟩)
          · exact .inr ⟨.inl rfl, Ne.symm hkh⟩
          · exact .inl rfl
          · exact .inr ⟨.inr hq, hqk⟩
        · rintro (rfl | ⟨rfl | hq, hqk⟩)
          · exact .inr (.inl rfl)
          · exact .inl rfl
          · exact .inr (.inr ⟨hq, hqk⟩)

/-- The provider holds the last recording for each height. -/
def Holds (p : SnapshotProvider) (rs : List (BlockHeight × List Account)) : Prop :=
  ∀ k accounts, (k, accounts) ∈ p.snapshots ↔ LastRecorded rs k accounts

theorem holds_empty : empty.Holds [] :=
  fun _ _ => iff_of_false List.not_mem_nil fun h => List.not_mem_nil h.mem

theorem Holds.perform (h : p.Holds rs) (op : ProviderOperation) :
    (p.perform op).Holds (rs ++ op.recording?.toList) := by
  intro k as
  cases op with
  | setAccounts height accounts =>
    have hswap : (k, as) = (height, accounts) ∨ (k, as) ∈ p.snapshots ∧ k ≠ height ↔
        (height, accounts) = (k, as) ∨ height ≠ k ∧ (k, as) ∈ p.snapshots := by
      rw [eq_comm, and_comm, ne_comm]
    rw [ProviderOperation.recording?, Option.toList_some, lastRecorded_append_singleton, ← h]
    exact mem_setAccounts_iff.trans hswap
  | commit record =>
    have hsame := snapshots_commit p record
    rw [ProviderOperation.recording?, Option.toList_none, List.append_nil, SnapshotProvider.perform, hsame]
    exact h k as

theorem Holds.run (h : p.Holds rs) (ops : List ProviderOperation) : (p.run ops).Holds (rs ++ recordings ops) := by
  induction ops generalizing p rs with
  | nil => simpa [SnapshotProvider.run, recordings] using h
  | cons op rest ih =>
    have hrest := ih (h.perform op)
    rw [List.append_assoc] at hrest
    have hops : op.recording?.toList ++ recordings rest = recordings (op :: rest) := by
      cases op <;> rfl
    rwa [hops] at hrest

theorem holds_run_empty (ops : List ProviderOperation) : (empty.run ops).Holds (recordings ops) :=
  holds_empty.run ops

theorem Holds.exists_height_iff (h : p.Holds rs) : (∃ q ∈ p.snapshots, q.1 = k) ↔ ∃ q ∈ rs, q.1 = k := by
  constructor
  · rintro ⟨⟨_, as⟩, hq, rfl⟩
    exact ⟨_, ((h _ as).1 hq).mem, rfl⟩
  · intro hrs
    obtain ⟨as, hlast⟩ := exists_lastRecorded hrs
    exact ⟨(k, as), (h k as).2 hlast, rfl⟩

/-- What is true of every height of a snapshot is true of every height that was recorded. -/
theorem Holds.forall_height_iff (h : p.Holds rs) {motive : BlockHeight → Prop} :
    (∀ q ∈ p.snapshots, motive q.1) ↔ ∀ q ∈ rs, motive q.1 := by
  constructor
  · intro hall q hq
    obtain ⟨r, hr, hsame⟩ := h.exists_height_iff.2 ⟨q, hq, rfl⟩
    exact hsame ▸ hall r hr
  · intro hall q hq
    obtain ⟨r, hr, hsame⟩ := h.exists_height_iff.1 ⟨q, hq, rfl⟩
    exact hsame ▸ hall r hr

theorem Holds.inForce_iff (h : p.Holds rs) :
    p.InForce height accounts ↔ ∃ k, GreatestRecorded rs height k ∧ LastRecorded rs k accounts := by
  have hbelow : ∀ k : BlockHeight, (∀ q ∈ p.snapshots, q.1.val ≤ height.val → q.1.val ≤ k.val) ↔
      ∀ q ∈ rs, q.1.val ≤ height.val → q.1.val ≤ k.val := fun k =>
    h.forall_height_iff (motive := fun l => l.val ≤ height.val → l.val ≤ k.val)
  constructor
  · rintro ⟨k, hk, hle, hgreatest⟩
    have hlast := (h k accounts).1 hk
    exact ⟨k, ⟨⟨_, hlast.mem, rfl⟩, hle, (hbelow k).1 hgreatest⟩, hlast⟩
  · rintro ⟨k, ⟨-, hle, hgreatest⟩, hlast⟩
    exact ⟨k, (h k accounts).2 hlast, hle, (hbelow k).2 hgreatest⟩

theorem accountsAt_eq_error_iff {cause : ProviderError} :
    StateProvider.accountsAt p height = .error cause ↔
      cause = .unknownHeight height ∧ ∀ q ∈ p.snapshots, height.val < q.1.val := by
  rw [← snapshotAt?_eq_none_iff]
  simp only [StateProvider.accountsAt]
  cases p.snapshotAt? height <;> simp [eq_comm]

theorem accountsAt_congr {p' : SnapshotProvider}
    (h : ∀ accounts, p.InForce height accounts ↔ p'.InForce height accounts) :
    StateProvider.accountsAt p height = StateProvider.accountsAt p' height := by
  have hanswer : p.snapshotAt? height = p'.snapshotAt? height := by
    apply Option.ext
    intro accounts
    rw [snapshotAt?_eq_some_iff, snapshotAt?_eq_some_iff, h]
  simp only [StateProvider.accountsAt, hanswer]

section OneMore

/-- A recording above the height that is asked for, or passed by a later one below it, is not in force there. -/
theorem accountsAt_setAccounts_of_passed (accounts : List Account)
    (h : height.val < k.val ∨ ∃ q ∈ p.snapshots, k.val < q.1.val ∧ q.1.val ≤ height.val) :
    StateProvider.accountsAt (p.setAccounts k accounts) height = StateProvider.accountsAt p height := by
  refine accountsAt_congr fun as => ?_
  have hpassed : ∀ l : BlockHeight, (∀ q ∈ p.snapshots, q.1 ≠ k → q.1.val ≤ height.val → q.1.val ≤ l.val) →
      k.val ≤ height.val → k.val < l.val := by
    intro l hgreatest hk
    rcases h with habove | ⟨q, hq, hkq, hqh⟩
    · exact absurd hk (UInt64.not_le.2 habove)
    · have hne : q.1 ≠ k := by
        rintro rfl
        exact UInt64.lt_irrefl _ hkq
      exact UInt64.lt_of_lt_of_le hkq (hgreatest q hq hne hqh)
  constructor
  · rintro ⟨l, hl, hle, hgreatest⟩
    have hothers : ∀ q ∈ p.snapshots, q.1 ≠ k → q.1.val ≤ height.val → q.1.val ≤ l.val := fun q hq hqk =>
      hgreatest q (mem_setAccounts_iff.2 (.inr ⟨hq, hqk⟩))
    rcases mem_setAccounts_iff.1 hl with hsame | ⟨hl, -⟩
    · cases hsame
      exact absurd (hpassed _ hothers hle) (UInt64.lt_irrefl _)
    · refine ⟨l, hl, hle, fun q hq hqh => ?_⟩
      by_cases hqk : q.1 = k
      · rw [hqk] at hqh ⊢
        exact UInt64.le_of_lt (hpassed l hothers hqh)
      · exact hothers q hq hqk hqh
  · rintro ⟨l, hl, hle, hgreatest⟩
    have hlt := hpassed l fun q hq _ => hgreatest q hq
    have hlk : l ≠ k := by
      rintro rfl
      exact UInt64.lt_irrefl _ (hlt hle)
    refine ⟨l, mem_setAccounts_iff.2 (.inr ⟨hl, hlk⟩), hle, fun q hq hqh => ?_⟩
    rcases mem_setAccounts_iff.1 hq with rfl | ⟨hq, -⟩
    · exact UInt64.le_of_lt (hlt hqh)
    · exact hgreatest q hq hqh

theorem accountsAt_setAccounts_of_next (accounts : List Account)
    (hk : k.val ≤ height.val) (hnext : ∀ q ∈ p.snapshots, k.val < q.1.val → height.val < q.1.val) :
    StateProvider.accountsAt (p.setAccounts k accounts) height = .ok accounts := by
  refine accountsAt_eq_ok_iff.2 ⟨k, mem_setAccounts_iff.2 (.inl rfl), hk, ?_⟩
  intro q hq hqh
  rcases mem_setAccounts_iff.1 hq with rfl | ⟨hq, -⟩
  · exact UInt64.le_refl _
  · by_contra hkq
    exact UInt64.not_le.2 (hnext q hq (UInt64.not_le.1 hkq)) hqh

end OneMore

/-- After any recordings and commits a provider answers with the last recording for the greatest recorded height
that is not above the one asked for, and refuses just if all recorded heights are above it. One more recording
changes no answer below its height, and none from the next recorded height on; in between, all answers are the new
accounts. A commit changes no answer. And a provider with a genesis snapshot is one that recorded it first. -/
theorem answers_last_recording (ops : List ProviderOperation) :
    let p := empty.run ops
    (∀ height accounts, StateProvider.accountsAt p height = .ok accounts ↔
      ∃ k, GreatestRecorded (recordings ops) height k ∧ LastRecorded (recordings ops) k accounts) ∧
    (∀ height cause, StateProvider.accountsAt p height = .error cause ↔
      cause = .unknownHeight height ∧ ∀ q ∈ recordings ops, height.val < q.1.val) ∧
    (∀ k accounts height,
      (height.val < k.val →
        StateProvider.accountsAt (p.setAccounts k accounts) height = StateProvider.accountsAt p height) ∧
      (∀ q ∈ recordings ops, k.val < q.1.val → q.1.val ≤ height.val →
        StateProvider.accountsAt (p.setAccounts k accounts) height = StateProvider.accountsAt p height) ∧
      (k.val ≤ height.val → (∀ q ∈ recordings ops, k.val < q.1.val → height.val < q.1.val) →
        StateProvider.accountsAt (p.setAccounts k accounts) height = .ok accounts)) ∧
    (∀ earlier record later, ops = earlier ++ .commit record :: later → ∀ height,
      StateProvider.accountsAt p height = StateProvider.accountsAt (empty.run (earlier ++ later)) height) ∧
    ∀ genesis, (ofGenesis genesis).run ops = empty.run (.setAccounts .genesis genesis :: ops) := by
  intro p
  have hp : p.Holds (recordings ops) := holds_run_empty ops
  refine ⟨fun height accounts => ?_, fun height cause => ?_, fun k accounts height => ⟨fun h => ?_, ?_, ?_⟩, ?_,
    fun _ => rfl⟩
  · rw [accountsAt_eq_ok_iff, hp.inForce_iff]
  · rw [accountsAt_eq_error_iff, hp.forall_height_iff (motive := fun l => height.val < l.val)]
  · exact accountsAt_setAccounts_of_passed accounts (.inl h)
  · intro q hq hkq hqh
    obtain ⟨r, hr, hsame⟩ := hp.exists_height_iff.2 ⟨q, hq, rfl⟩
    rw [← hsame] at hkq hqh
    exact accountsAt_setAccounts_of_passed accounts (.inr ⟨r, hr, hkq, hqh⟩)
  · intro hk hnext
    exact accountsAt_setAccounts_of_next accounts hk
      ((hp.forall_height_iff (motive := fun l => k.val < l.val → height.val < l.val)).2 hnext)
  · rintro earlier record later rfl height
    have hwithout := holds_run_empty (earlier ++ later)
    have hsame : recordings (earlier ++ .commit record :: later) = recordings (earlier ++ later) := by
      rw [recordings, recordings, List.filterMap_append, List.filterMap_append, List.filterMap_cons]
      rfl
    refine accountsAt_congr fun accounts => ?_
    rw [hp.inForce_iff, hwithout.inForce_iff, hsame]

end SnapshotProvider

end Quorate
