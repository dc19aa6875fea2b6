import Quorate.Proofs.Key.BuiltKeys
import Quorate.Proofs.ThirtyTwoBytes
import Quorate.Proofs.ValidatorSet.Lookup

/-!
# The encoding determines the accounts

Every account is written in the same number of bytes, and its fields stand in it at fixed places, so the
encoding of a set is cut up in one way only. Two sets with one encoding have the same accounts in the same
order, and if the digest does not collide on their encodings, so have two sets with one commitment.
-/

namespace Quorate

/-- Blocks of one length are told apart when they stand one after the other. -/
theorem eq_of_flatMap_eq {A : Type} {f : A → Bytes} {size : ℕ} (hpos : 0 < size)
    (hsize : ∀ a, (f a).length = size) {as bs : List A} (hinj : ∀ a ∈ as, ∀ b ∈ bs, f a = f b → a = b)
    (h : as.flatMap f = bs.flatMap f) : as = bs := by
  induction as generalizing bs with
  | nil =>
    cases bs with
    | nil => rfl
    | cons b bs =>
      have hlength := congrArg List.length h
      simp only [List.flatMap_nil, List.flatMap_cons, List.length_nil, List.length_append, hsize] at hlength
      omega
  | cons a as ih =>
    cases bs with
    | nil =>
      have hlength := congrArg List.length h
      simp only [List.flatMap_nil, List.flatMap_cons, List.length_nil, List.length_append, hsize] at hlength
      omega
    | cons b bs =>
      simp only [List.flatMap_cons] at h
      obtain ⟨hhead, htail⟩ := List.append_inj h (by rw [hsize, hsize])
      have hrest : as = bs := by
        apply ih _ htail
        intro a' ha' b' hb'
        exact hinj a' (List.mem_cons_of_mem a ha') b' (List.mem_cons_of_mem b hb')
      rw [hinj a List.mem_cons_self b List.mem_cons_self hhead, hrest]

namespace Account

variable {a b : Account}

theorem power_lt (a : Account) : a.power.val < 256 ^ 32 :=
  VotingPower.lt_of_bits_le a.fits

theorem toBytes32?_power (a : Account) : a.power.toBytes32? = some (Bytes.ofNatBE 32 a.power.val) :=
  VotingPower.toBytes32?_of_bits_le a.fits

theorem canonicalBytes_eq (a : Account) :
    a.canonicalBytes = a.address.bytes ++ a.publicKey.toBytes ++ Bytes.ofNatBE 32 a.power.val := by
  rw [canonicalBytes, toBytes32?_power, Option.getD_some]

@[simp] theorem length_canonicalBytes (a : Account) : a.canonicalBytes.length = encodedSize := by
  simp [canonicalBytes_eq, a.address.length_eq, encodedSize]

/-- The fields of an account can be read off its bytes. -/
theorem eq_of_canonicalBytes_eq (ha : a.publicKey.Built) (hb : b.publicKey.Built)
    (h : a.canonicalBytes = b.canonicalBytes) : a = b := by
  rw [canonicalBytes_eq, canonicalBytes_eq] at h
  obtain ⟨hfront, hpower⟩ := List.append_inj' h (by simp)
  obtain ⟨haddress, hkey⟩ := List.append_inj' hfront (by simp)
  have haddress' : a.address = b.address := Address.ext_bytes haddress
  have hkey' : a.publicKey = b.publicKey := ha.eq_of_toBytes_eq hb hkey
  have hpower' := Bytes.ofNatBE_injective_of_lt a.power_lt b.power_lt hpower
  cases a with
  | mk address key power fits =>
    cases b with
    | mk address' key' power' fits' =>
      cases power
      cases power'
      simp_all

end Account

namespace ValidatorSet

variable {s t : ValidatorSet}

theorem accounts_eq_of_encoding_eq (hs : ∀ a ∈ s.accounts, a.publicKey.Built)
    (ht : ∀ a ∈ t.accounts, a.publicKey.Built) (h : s.encoding = t.encoding) : s.accounts = t.accounts := by
  have hrecords : s.accounts.flatMap Account.canonicalBytes = t.accounts.flatMap Account.canonicalBytes :=
    (List.cons.inj h).2
  have hpos : 0 < Account.encodedSize := by decide
  apply eq_of_flatMap_eq hpos Account.length_canonicalBytes _ hrecords
  intro a ha b hb hab
  exact Account.eq_of_canonicalBytes_eq (hs a ha) (ht b hb) hab

theorem encoding_eq_of_accounts_eq (h : s.accounts = t.accounts) : s.encoding = t.encoding := by
  rw [encoding, encoding, h]

theorem commitment_eq_iff : s.commitment = t.commitment ↔ blake3 s.encoding = blake3 t.encoding := by
  rw [commitment, commitment, Digest.ofBytes, Digest.ofBytes, Digest.mk.injEq]

/-- For sets of accounts with keys that can be had: the bytes that the commitment digests are the same exactly
if the accounts are, each with its address, key and power at its position. So the commitments are the same
exactly if the accounts are, if the digest does not collide on these bytes. And the 32 bytes of an account's
power are never missing, and read as the power. -/
theorem encoding_determines_accounts (s t : ValidatorSet) (hs : ∀ a ∈ s.accounts, a.publicKey.Built)
    (ht : ∀ a ∈ t.accounts, a.publicKey.Built) :
    (s.encoding = t.encoding ↔ s.accounts = t.accounts) ∧
    ((blake3 s.encoding = blake3 t.encoding → s.encoding = t.encoding) →
      (s.commitment = t.commitment ↔ s.accounts = t.accounts)) ∧
    ∀ address key power a, Account.make address key power = .ok a →
      ∃ encoded, power.toBytes32? = some encoded ∧ Bytes.toNatBE encoded = power.val ∧
        a.canonicalBytes = address.bytes ++ key.toBytes ++ encoded := by
  have hencoding : s.encoding = t.encoding ↔ s.accounts = t.accounts :=
    ⟨accounts_eq_of_encoding_eq hs ht, encoding_eq_of_accounts_eq⟩
  refine ⟨hencoding, ?_, ?_⟩
  · intro hcollision
    rw [commitment_eq_iff, ← hencoding]
    exact ⟨hcollision, congrArg blake3⟩
  · intro address key power a hmake
    obtain ⟨rfl, rfl, rfl⟩ := Account.make_eq_ok_iff.1 hmake
    exact ⟨_, a.toBytes32?_power, Bytes.toNatBE_ofNatBE_of_lt a.power_lt, a.canonicalBytes_eq⟩

/-- A validator with the key of a small secret and the widest power. -/
def widestAccount : Account :=
  ⟨.zero, SecretKey.publicKey ⟨1, by decide, by decide⟩, ⟨2 ^ 256 - 1⟩, by decide⟩

/-- A pending validator with the key of another small secret. -/
def pendingAccount : Account :=
  ⟨⟨List.replicate 20 255, rfl⟩, SecretKey.publicKey ⟨2, by decide, by decide⟩, ⟨0⟩, by decide⟩

/-- The two of them in a given order. -/
def pairOf (accounts : List Account) (distinct : (accounts.map Account.address).Nodup) : ValidatorSet :=
  .ofDistinct accounts .standard distinct empty.valid

theorem encoding_determines_accounts_reordered :
    let s := pairOf [widestAccount, pendingAccount] (by decide)
    let t := pairOf [pendingAccount, widestAccount] (by decide)
    (∀ a ∈ s.accounts, a.publicKey.Built) ∧ (∀ a ∈ t.accounts, a.publicKey.Built) ∧
      s.encoding ≠ t.encoding := by
  intro s t
  have hs : ∀ a ∈ s.accounts, a.publicKey.Built := by
    intro a ha
    rcases List.mem_pair.1 ha with rfl | rfl <;> exact .ofSecret _
  have ht : ∀ a ∈ t.accounts, a.publicKey.Built := by
    intro a ha
    rcases List.mem_pair.1 ha with rfl | rfl <;> exact .ofSecret _
  refine ⟨hs, ht, fun h => ?_⟩
  have haccounts := (encoding_determines_accounts s t hs ht).1.1 h
  have haddress := congrArg (List.map Account.address) haccounts
  exact absurd haddress (by decide)

end ValidatorSet

end Quorate
