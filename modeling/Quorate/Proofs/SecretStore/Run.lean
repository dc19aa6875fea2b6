import Quorate.Proofs.Bytes.Hex
import Quorate.Proofs.SecretStore.Creation

/-!
# Runs of creations and loads

A store only grows, at its end, and by one entry for each creation that succeeds. So nothing that is stored is
ever changed or removed, and no secret is created twice.
-/

namespace Quorate

inductive SecretLoading
  | blsSecretKey
  | blsPublicKey
  | address
  | possession
  | nodeKey
  | identity (chain : ChainId) (tag : Bytes)
  | encoded (name : String)

def SecretLoading.Result : SecretLoading → Type
  | blsSecretKey => SecretKey
  | blsPublicKey => Option PublicKey
  | address => Option Address
  | possession => Option Signature
  | nodeKey => Option NodeKey
  | identity _ _ => ValidatorIdentity
  | encoded _ => Bytes

inductive SecretOperation
  | create (c : SecretCreation)
  | load (l : SecretLoading)

def SecretOperation.Result : SecretOperation → Type
  | create c => c.Result
  | load l => l.Result

structure CreatedSecret where
  creation : SecretCreation
  value : creation.Result

namespace SecretStore

def loadSecret (s : SecretStore) : (l : SecretLoading) → Except SecretError l.Result
  | .blsSecretKey => s.loadBlsSecretKey
  | .blsPublicKey => s.loadBlsPublicKey
  | .address => s.loadAddress
  | .possession => s.loadPossession
  | .nodeKey => s.loadNodeKey
  | .identity chain tag => s.loadIdentity chain tag
  | .encoded name => s.loadEncoded name

def perform (s : SecretStore) : (op : SecretOperation) → Except SecretError op.Result × SecretStore
  | .create c => s.createSecret c
  | .load l => (s.loadSecret l, s)

def run (s : SecretStore) (ops : List SecretOperation) : SecretStore :=
  ops.foldl (fun s op => (s.perform op).2) s

/-- The secret that an operation creates, unless it fails or is a load. -/
def createdBy? (s : SecretStore) : SecretOperation → Option CreatedSecret
  | .create c => (s.createSecret c).1.toOption.map fun value => ⟨c, value⟩
  | .load _ => none

def created (s : SecretStore) : List SecretOperation → List CreatedSecret
  | [] => []
  | op :: rest => (s.createdBy? op).toList ++ (s.perform op).2.created rest

variable {s : SecretStore} {ops : List SecretOperation} {n : String} {v : Bytes}

theorem run_cons (s : SecretStore) (op : SecretOperation) (rest : List SecretOperation) :
    s.run (op :: rest) = (s.perform op).2.run rest := rfl

theorem run_append (s : SecretStore) (earlier later : List SecretOperation) :
    s.run (earlier ++ later) = (s.run earlier).run later :=
  List.foldl_append

/-- A creation that is not refused comes first among what the run creates, and the rest runs on its entry. -/
theorem run_create {c : SecretCreation} {value : c.Result} {raw : Bytes} (habsent : s.lookup? c.name = none)
    (hwrite : s.writeRefusal = none) (hexports : s.Exports c value raw) (rest : List SecretOperation) :
    s.run (.create c :: rest) = (s.added c.name raw).run rest ∧
      s.created (.create c :: rest) = ⟨c, value⟩ :: (s.added c.name raw).created rest := by
  have hcreate := createSecret_eq_ok_iff.2 ⟨habsent, hwrite, raw, hexports, rfl⟩
  constructor
  · rw [run_cons, perform, hcreate]
  · rw [created, createdBy?, perform, hcreate]
    rfl

/-- A step leaves the store as it is or creates a secret that was not there. -/
theorem perform_cases (s : SecretStore) (op : SecretOperation) :
    (s.createdBy? op = none ∧ (s.perform op).2 = s) ∨
    ∃ c value raw, op = .create c ∧ s.lookup? c.name = none ∧ s.Exports c value raw ∧
      s.createdBy? op = some ⟨c, value⟩ ∧ (s.perform op).2 = s.added c.name raw := by
  cases op with
  | create c =>
    rcases s.createSecret_cases c with ⟨e, h⟩ | ⟨value, raw, habsent, hexports, h⟩
    · left
      constructor
      · rw [createdBy?, h]
        rfl
      · rw [perform, h]
    · right
      refine ⟨c, value, raw, rfl, habsent, hexports, ?_, ?_⟩
      · rw [createdBy?, h]
        rfl
      · rw [perform, h]
  | load l => exact Or.inl ⟨rfl, rfl⟩

theorem entries_prefix_perform (s : SecretStore) (op : SecretOperation) :
    s.entries.entries <+: (s.perform op).2.entries.entries := by
  rcases s.perform_cases op with ⟨-, h⟩ | ⟨c, value, raw, -, habsent, -, -, h⟩
  · rw [h]
  · rw [h, entries_added habsent]
    exact List.prefix_append _ _

theorem entries_prefix_run (s : SecretStore) (ops : List SecretOperation) :
    s.entries.entries <+: (s.run ops).entries.entries := by
  induction ops generalizing s with
  | nil => exact List.prefix_rfl
  | cons op rest ih =>
    rw [run_cons]
    exact (s.entries_prefix_perform op).trans (ih (s.perform op).2)

/-- What is stored stays. -/
theorem lookup?_run_of_eq_some (h : s.lookup? n = some v) (ops : List SecretOperation) :
    (s.run ops).lookup? n = some v := by
  have hentry := (s.entries_prefix_run ops).subset (KeyedList.get?_eq_some_iff.1 h)
  exact KeyedList.get?_eq_some_iff.2 hentry

theorem refusals_perform (s : SecretStore) (op : SecretOperation) :
    (s.perform op).2.readRefusal = s.readRefusal ∧ (s.perform op).2.writeRefusal = s.writeRefusal := by
  rcases s.perform_cases op with ⟨-, h⟩ | ⟨c, value, raw, -, -, -, -, h⟩
  · rw [h]
    exact ⟨rfl, rfl⟩
  · rw [h]
    exact ⟨rfl, rfl⟩

theorem refusals_run (s : SecretStore) (ops : List SecretOperation) :
    (s.run ops).readRefusal = s.readRefusal ∧ (s.run ops).writeRefusal = s.writeRefusal := by
  induction ops generalizing s with
  | nil => exact ⟨rfl, rfl⟩
  | cons op rest ih =>
    obtain ⟨hread, hwrite⟩ := ih (s.perform op).2
    obtain ⟨hread', hwrite'⟩ := s.refusals_perform op
    exact ⟨hread.trans hread', hwrite.trans hwrite'⟩

def names (s : SecretStore) : List String :=
  s.entries.keys

theorem not_mem_names : n ∉ s.names ↔ s.lookup? n = none :=
  KeyedList.get?_eq_none_iff.symm

theorem names_perform (s : SecretStore) (op : SecretOperation) :
    (s.perform op).2.names = s.names ++ (s.createdBy? op).toList.map fun x => x.creation.name := by
  rcases s.perform_cases op with ⟨hnone, h⟩ | ⟨c, value, raw, -, habsent, -, hsome, h⟩
  · simp [h, hnone]
  · simp [h, hsome, names, KeyedList.keys, entries_added habsent]

/-- The names grow by those of the secrets that were created. -/
theorem names_run (s : SecretStore) (ops : List SecretOperation) :
    (s.run ops).names = s.names ++ (s.created ops).map fun x => x.creation.name := by
  induction ops generalizing s with
  | nil => simp [run, created]
  | cons op rest ih =>
    have hrest := ih (s.perform op).2
    rw [names_perform, List.append_assoc, ← List.map_append] at hrest
    exact hrest

variable {x : CreatedSecret}

/-- Where a secret comes from: a creation in the run, whose export is what the store holds in the end. -/
theorem exports_of_mem_created (h : x ∈ s.created ops) :
    ∃ earlier later raw, ops = earlier ++ .create x.creation :: later ∧
      (s.run earlier).lookup? x.creation.name = none ∧ (s.run earlier).Exports x.creation x.value raw ∧
      (s.run ops).lookup? x.creation.name = some (Bytes.ofText (Hex.encode raw)) := by
  induction ops generalizing s with
  | nil => cases h
  | cons op rest ih =>
    rcases List.mem_append.1 h with hnow | hlater
    · rcases s.perform_cases op with ⟨hnone, -⟩ | ⟨c, value, raw, rfl, habsent, hexports, hsome, hadded⟩
      · rw [hnone] at hnow
        cases hnow
      · obtain rfl : x = ⟨c, value⟩ := by simpa [hsome] using hnow
        refine ⟨[], rest, raw, rfl, habsent, hexports, ?_⟩
        -- the entry stands after this step, and the rest of the run leaves it alone
        rw [run_cons, hadded]
        exact lookup?_run_of_eq_some lookup?_added_self rest
    · obtain ⟨earlier, later, raw, rfl, habsent, hexports, hlookup⟩ := ih hlater
      exact ⟨op :: earlier, later, raw, rfl, habsent, hexports, hlookup⟩

theorem absent_of_mem_created (h : x ∈ s.created ops) : s.lookup? x.creation.name = none := by
  obtain ⟨earlier, -, -, -, habsent, -, -⟩ := exports_of_mem_created h
  cases hstored : s.lookup? x.creation.name with
  | none => rfl
  | some v =>
    have hstays := lookup?_run_of_eq_some hstored earlier
    rw [habsent] at hstays
    cases hstays

/-- No name is used twice. -/
theorem nodup_created_names (s : SecretStore) (ops : List SecretOperation) :
    ((s.created ops).map fun x => x.creation.name).Nodup := by
  induction ops generalizing s with
  | nil => exact List.nodup_nil
  | cons op rest ih =>
    have hrest := ih (s.perform op).2
    rw [created, List.map_append]
    rcases s.perform_cases op with ⟨hnone, -⟩ | ⟨c, value, raw, -, habsent, -, hsome, hadded⟩
    · rw [hnone]
      exact hrest
    · rw [hsome]
      apply List.nodup_cons.2 ⟨?_, hrest⟩
      intro hmem
      -- a second creation would need the name to be absent, but the first has stored it
      obtain ⟨x, hx, hname⟩ := List.mem_map.1 hmem
      have hagain := absent_of_mem_created hx
      rw [hadded, hname, lookup?_added_self] at hagain
      cases hagain

/-- Creation never overwrites and leaves no trace where it fails, whatever the store holds. A name that is there
is refused; a failure leaves the store as it was; a success needs a free name, a store that can be written and
something to export, and adds the name with the text of the export, which is lowercase digits that write its bytes,
and changes no other. So in a run nothing stored is changed or removed, and no name is created twice. -/
theorem creations_only_add (s : SecretStore) :
    (∀ c : SecretCreation,
      (s.contains c.name = true → s.createSecret c = (.error (.alreadyPresent c.name), s)) ∧
      (∀ e t, s.createSecret c = (.error e, t) → t = s) ∧
      (∀ value t, s.createSecret c = (.ok value, t) ↔ s.contains c.name = false ∧ s.writeRefusal = none ∧
        ∃ raw, s.Exports c value raw ∧ t = s.added c.name raw) ∧
      (s.contains c.name = false → ∀ raw n, (s.added c.name raw).lookup? n =
        if n = c.name then some (Bytes.ofText (Hex.encode raw)) else s.lookup? n) ∧
      (∀ value t, s.createSecret c = (.ok value, t) → ∃ raw digits, s.Exports c value raw ∧
        t.lookup? c.name = some (digits.flatMap String.utf8EncodeChar) ∧
        Hex.Writes digits raw ∧ ∀ d ∈ digits, Hex.IsLowerDigit d)) ∧
    ∀ ops : List SecretOperation,
      (∀ n v, s.lookup? n = some v → (s.run ops).lookup? n = some v) ∧
      (s.run ops).names = s.names ++ (s.created ops).map (fun x => x.creation.name) ∧
      ((s.created ops).map fun x => x.creation.name).Nodup ∧
      ∀ x ∈ s.created ops, s.contains x.creation.name = false := by
  refine ⟨fun c => ⟨createSecret_of_contains, ?_, ?_, ?_, ?_⟩, fun ops => ⟨?_, ?_, ?_, ?_⟩⟩
  · intro e t h
    rcases s.createSecret_cases c with ⟨_, hfail⟩ | ⟨value, raw, -, -, hdone⟩
    · rw [hfail] at h
      exact (Prod.mk.inj h).2.symm
    · rw [hdone] at h
      cases (Prod.mk.inj h).1
  · intro value t
    rw [contains_eq_false_iff]
    exact createSecret_eq_ok_iff
  · exact fun _ => s.lookup?_added c.name
  · intro value t h
    obtain ⟨-, -, raw, hexports, rfl⟩ := createSecret_eq_ok_iff.1 h
    exact ⟨raw, (Hex.encode raw).toList, hexports, lookup?_added_self, Hex.writes_encode raw,
      fun d => Hex.isLowerDigit_of_mem_encode⟩
  · exact fun n v h => lookup?_run_of_eq_some h ops
  · exact s.names_run ops
  · exact s.nodup_created_names ops
  · exact fun x hx => contains_eq_false_iff.2 (absent_of_mem_created hx)

end SecretStore

end Quorate
