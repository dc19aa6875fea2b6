import Quorate.Account
import Quorate.Digest
import Quorate.KeyedList
import Quorate.Order.Distinct
import Quorate.QuorumPolicy

/-!
# Validator sets

The validators of an epoch in their canonical order, no address twice, under a policy that can be used.
A set is built once and never changed; positions in it are what certificates refer to. The accounts, the
power under each address and the total are stored side by side: one pass over the accounts builds the other
two, and stops at the first address that repeats an earlier one.
-/

namespace Quorate

inductive ValidatorSetError
  | duplicateValidator (address : Address)
  | invalidPolicy (cause : PolicyError)
deriving DecidableEq

def ValidatorSetError.message : ValidatorSetError → String
  | duplicateValidator address => s!"duplicate validator {address.toHex}"
  | invalidPolicy cause => s!"invalid quorum policy: {cause.message}"

/-- What a pass over accounts has built so far. -/
structure PowerRoll where
  index : KeyedList Address VotingPower
  total : VotingPower

namespace PowerRoll

def empty : PowerRoll := ⟨.empty, 0⟩

/-- Take in one more account, unless its address is there. -/
def enroll (r : PowerRoll) (a : Account) : Except ValidatorSetError PowerRoll :=
  match r.index.insert a.address a.power with
  | (some _, _) => .error (.duplicateValidator a.address)
  | (none, index) => .ok ⟨index, r.total + a.power⟩

def enrollAll (r : PowerRoll) (accounts : List Account) : Except ValidatorSetError PowerRoll :=
  accounts.foldlM enroll r

/-- The roll is that of the accounts: their powers stand under their addresses, in their order, and make up
the total. -/
structure Lists (r : PowerRoll) (accounts : List Account) : Prop where
  index_eq : r.index.entries = accounts.map fun a => (a.address, a.power)
  total_eq : r.total = VotingPower.sum (accounts.map Account.power)

variable {r : PowerRoll} {earlier : List Account}

theorem lists_empty : empty.Lists [] := ⟨rfl, rfl⟩

theorem Lists.keys_eq (h : r.Lists earlier) : r.index.keys = earlier.map Account.address := by
  rw [KeyedList.keys, h.index_eq, List.map_map]
  rfl

theorem Lists.nodup (h : r.Lists earlier) : (earlier.map Account.address).Nodup :=
  h.keys_eq ▸ r.index.distinct

/-- One step: an address that is there is refused, and any other account joins at the end. -/
theorem Lists.enroll (h : r.Lists earlier) (a : Account) :
    (a.address ∈ earlier.map Account.address ∧ r.enroll a = .error (.duplicateValidator a.address)) ∨
    ∃ next, r.enroll a = .ok next ∧ next.Lists (earlier ++ [a]) := by
  have hinsert : r.index.insert a.address a.power = (r.index.get? a.address, r.index.put a.address a.power) := rfl
  cases hfound : r.index.get? a.address with
  | some previous =>
    left
    constructor
    · rw [← h.keys_eq]
      refine Decidable.not_not.1 fun hnew => ?_
      rw [KeyedList.get?_eq_none_iff.2 hnew] at hfound
      cases hfound
    · rw [PowerRoll.enroll, hinsert, hfound]
  | none =>
    right
    refine ⟨⟨r.index.put a.address a.power, r.total + a.power⟩, by rw [PowerRoll.enroll, hinsert, hfound], ?_, ?_⟩
    · simp only [KeyedList.entries_put_of_get?_eq_none hfound, h.index_eq, List.map_append, List.map_cons, List.map_nil]
    · simp only [h.total_eq, VotingPower.sum, List.map_append, List.map_cons, List.map_nil, List.foldl_append,
        List.foldl_cons, List.foldl_nil]

/-- The whole pass: the first repeated address is refused, and where none repeats all accounts join. -/
theorem Lists.enrollAll (h : r.Lists earlier) (accounts : List Account) :
    (∃ address, FirstRepeat ((earlier ++ accounts).map Account.address) address ∧
      r.enrollAll accounts = .error (.duplicateValidator address)) ∨
    ∃ last, r.enrollAll accounts = .ok last ∧ last.Lists (earlier ++ accounts) := by
  induction accounts generalizing r earlier with
  | nil => exact .inr ⟨r, rfl, by rwa [List.append_nil]⟩
  | cons a rest ih =>
    have hstep : r.enrollAll (a :: rest) = (r.enroll a).bind fun next => next.enrollAll rest := rfl
    rw [hstep]
    rcases h.enroll a with ⟨hrepeat, hrefused⟩ | ⟨next, hnext, hlists⟩
    · left
      refine ⟨a.address, ⟨earlier.map Account.address, rest.map Account.address, ?_, hrepeat, h.nodup⟩, ?_⟩
      · rw [List.map_append, List.map_cons]
      · rw [hrefused]
        rfl
    · have hrest := ih hlists
      rw [List.append_assoc, List.singleton_append] at hrest
      rw [hnext]
      exact hrest

theorem lists_of_enrollAll {accounts : List Account} (h : empty.enrollAll accounts = .ok r) : r.Lists accounts := by
  rcases lists_empty.enrollAll accounts with ⟨address, -, hrefused⟩ | ⟨last, hlast, hlists⟩
  · cases hrefused.symm.trans h
  · cases hlast.symm.trans h
    exact hlists

end PowerRoll

structure ValidatorSet where
  accounts : List Account
  /-- The power under each address. -/
  index : KeyedList Address VotingPower
  /-- The sum of every power in `index`. -/
  total : VotingPower
  policy : QuorumPolicy
  lists : PowerRoll.Lists ⟨index, total⟩ accounts
  valid : policy.Valid

/-- A position behind the last account. -/
structure PositionError where
  position : Nat
  size : Nat
deriving DecidableEq

namespace ValidatorSet

/-- Build a set. The policy is checked first; then the first address that repeats an earlier one is
refused. -/
def ofAccounts (accounts : List Account) (policy : QuorumPolicy) :
    Except ValidatorSetError ValidatorSet :=
  match hp : policy.validate with
  | .error cause => .error (.invalidPolicy cause)
  | .ok () =>
    match hr : PowerRoll.empty.enrollAll accounts with
    | .error cause => .error cause
    | .ok r =>
      .ok ⟨accounts, r.index, r.total, policy, PowerRoll.lists_of_enrollAll hr, QuorumPolicy.validate_eq_ok_iff.1 hp⟩

def ofAccountsStandard (accounts : List Account) : Except ValidatorSetError ValidatorSet :=
  ofAccounts accounts .standard

def empty : ValidatorSet :=
  ⟨[], .empty, 0, .standard, PowerRoll.lists_empty, by decide⟩

instance : Inhabited ValidatorSet := ⟨empty⟩

/-- A set is its accounts and its policy. -/
theorem ext {s t : ValidatorSet} (haccounts : s.accounts = t.accounts) (hpolicy : s.policy = t.policy) : s = t := by
  obtain ⟨accounts, index, total, policy, ⟨hindex, htotal⟩, valid⟩ := s
  obtain ⟨accounts', index', total', policy', ⟨hindex', htotal'⟩, valid'⟩ := t
  dsimp only at haccounts hpolicy hindex htotal hindex' htotal'
  subst haccounts hpolicy htotal htotal'
  have hsame : index = index' := KeyedList.ext_entries (hindex.trans hindex'.symm)
  subst hsame
  rfl

instance : DecidableEq ValidatorSet := fun s t =>
  decidable_of_iff (s.accounts = t.accounts ∧ s.policy = t.policy)
    ⟨fun h => ext h.1 h.2, fun h => h ▸ ⟨rfl, rfl⟩⟩

def size (s : ValidatorSet) : Nat :=
  s.accounts.length

def isEmpty (s : ValidatorSet) : Bool :=
  s.accounts.isEmpty

def indexOf? (s : ValidatorSet) (address : Address) : Option Nat :=
  s.index.indexOf? address

def at? (s : ValidatorSet) (index : Nat) : Option Account :=
  s.accounts[index]?

def contains (s : ValidatorSet) (address : Address) : Bool :=
  s.index.contains address

def power? (s : ValidatorSet) (address : Address) : Option VotingPower :=
  s.index.get? address

/-- Every address with its power, in the set's order. -/
def powers (s : ValidatorSet) : List (Address × VotingPower) :=
  s.index.entries

/-- Follow an address to its position and from there to the account. A position that has none is a fault. -/
def get (s : ValidatorSet) (address : Address) : Except PositionError (Option Account) :=
  match s.indexOf? address with
  | none => .ok none
  | some position =>
    match s.at? position with
    | some a => .ok (some a)
    | none => .error ⟨position, s.size⟩

theorem powers_eq (s : ValidatorSet) : s.powers = s.accounts.map fun a => (a.address, a.power) :=
  s.lists.index_eq

theorem total_eq (s : ValidatorSet) : s.total = VotingPower.sum (s.accounts.map Account.power) :=
  s.lists.total_eq

theorem distinct (s : ValidatorSet) : (s.accounts.map Account.address).Nodup :=
  s.lists.nodup

/-- The index has for an address the position at which its account stands. -/
theorem indexOf?_eq_some_iff {s : ValidatorSet} {address : Address} {i : Nat} :
    s.indexOf? address = some i ↔ ∃ a, s.at? i = some a ∧ a.address = address := by
  rw [indexOf?, KeyedList.indexOf?_eq_some_iff, s.lists.keys_eq, List.getElem?_map, Option.map_eq_some_iff]
  rfl

theorem get_ne_error (s : ValidatorSet) (address : Address) (fault : PositionError) :
    s.get address ≠ .error fault := by
  unfold get
  cases hposition : s.indexOf? address with
  | none => nofun
  | some i =>
    obtain ⟨a, ha, -⟩ := indexOf?_eq_some_iff.1 hposition
    simp [ha]

/-- What `get` gives, as it never meets a fault. -/
def find? (s : ValidatorSet) (address : Address) : Option Account :=
  match h : s.get address with
  | .ok found => found
  | .error fault => absurd h (s.get_ne_error address fault)

/-- The keys of those addresses that are validators', in the order of the addresses. -/
def publicKeysOf (s : ValidatorSet) (signers : AddressSet) : List PublicKey :=
  (signers.toList.filterMap s.find?).map Account.publicKey

def encodingVersion : UInt8 := 1

def encoding (s : ValidatorSet) : Bytes :=
  encodingVersion :: s.accounts.flatMap Account.canonicalBytes

/-- The digest that stands for the set in checkpoints. -/
def commitment (s : ValidatorSet) : Digest :=
  Digest.ofBytes s.encoding

end ValidatorSet

end Quorate
