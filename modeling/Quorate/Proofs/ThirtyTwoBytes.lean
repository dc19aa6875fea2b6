import Quorate.Account
import Quorate.ChainId
import Quorate.Proofs.Bytes.BigEndian

/-!
# Numbers in 32 bytes

A power below 2 ^ 256 has 32 bytes, which read as the power and stand in the order of the powers; no other power has
any. A chain identifier has the bytes of the power with its number.
-/

namespace Quorate

namespace ChainId

theorem toBytes32_eq (c : ChainId) : c.toBytes32 = Bytes.ofNatBE 32 c.val.toNat :=
  Bytes.zeros_append_ofNatBE 24 c.val.toNat_lt

@[simp] theorem length_toBytes32 (c : ChainId) : c.toBytes32.length = 32 := by
  rw [toBytes32_eq, Bytes.length_ofNatBE]

theorem toBytes32_injective {c c' : ChainId} (h : c.toBytes32 = c'.toBytes32) : c = c' := by
  rw [toBytes32_eq, toBytes32_eq] at h
  cases c
  cases c'
  rw [mk.injEq]
  exact Bytes.eq_of_ofNatBE_word (by decide) h

end ChainId

namespace VotingPower

variable {p q : VotingPower} {bs cs : Bytes}

theorem lt_of_bits_le (h : p.bits ≤ 256) : p.val < 256 ^ 32 := by
  have hlt := bits_le_iff.1 h
  rw [Nat.one_shiftLeft] at hlt
  exact hlt.trans_eq (by norm_num)

theorem toBytes32?_of_bits_le (h : p.bits ≤ 256) : p.toBytes32? = some (Bytes.ofNatBE 32 p.val) := by
  rw [toBytes32?, if_pos h]
  exact congrArg some (Bytes.zeros_append_shortestBE (by decide) (lt_of_bits_le h))

theorem isSome_toBytes32?_iff : p.toBytes32?.isSome ↔ p.bits ≤ 256 := by
  by_cases h : p.bits ≤ 256
  · rw [toBytes32?_of_bits_le h]
    exact iff_of_true rfl h
  · rw [toBytes32?, if_neg h]
    exact iff_of_false Bool.false_ne_true h

/-- The bytes of a power are the 32 bytes that read as it. -/
theorem toBytes32?_eq_some_iff : p.toBytes32? = some bs ↔ bs.length = 32 ∧ Bytes.toNatBE bs = p.val := by
  constructor
  · intro h
    have hfits := isSome_toBytes32?_iff.1 (Option.isSome_of_eq_some h)
    rw [toBytes32?_of_bits_le hfits] at h
    obtain rfl := Option.some.inj h
    exact ⟨Bytes.length_ofNatBE 32 p.val, Bytes.toNatBE_ofNatBE_of_lt (lt_of_bits_le hfits)⟩
  · rintro ⟨hlength, hvalue⟩
    have hlt := Bytes.toNatBE_lt bs
    have hdigits := Bytes.ofNatBE_toNatBE bs
    rw [hlength, hvalue] at hlt hdigits
    have hfits : p.bits ≤ 256 := by
      rw [bits_le_iff, Nat.one_shiftLeft]
      exact hlt.trans_eq (by norm_num)
    rw [toBytes32?_of_bits_le hfits, hdigits]

theorem lt_iff_of_toBytes32? (hp : p.toBytes32? = some bs) (hq : q.toBytes32? = some cs) : bs < cs ↔ p < q := by
  obtain ⟨hbs, hpvalue⟩ := toBytes32?_eq_some_iff.1 hp
  obtain ⟨hcs, hqvalue⟩ := toBytes32?_eq_some_iff.1 hq
  rw [Bytes.lt_iff_toNatBE_lt (hbs.trans hcs.symm), hpvalue, hqvalue]
  rfl

theorem eq_iff_of_toBytes32? (hp : p.toBytes32? = some bs) (hq : q.toBytes32? = some cs) : bs = cs ↔ p = q := by
  constructor
  · rintro rfl
    have hvalue := (toBytes32?_eq_some_iff.1 hp).2.symm.trans (toBytes32?_eq_some_iff.1 hq).2
    cases p
    cases q
    exact congrArg mk hvalue
  · rintro rfl
    exact Option.some.inj (hp.symm.trans hq)

theorem toBytes32?_ofWord (n : UInt64) : (ofWord n).toBytes32? = some (ChainId.mk n).toBytes32 := by
  rw [toBytes32?_eq_some_iff, ChainId.toBytes32_eq]
  have hwide : n.toNat < 256 ^ 32 := n.toNat_lt.trans (by norm_num)
  exact ⟨Bytes.length_ofNatBE 32 n.toNat, Bytes.toNatBE_ofNatBE_of_lt hwide⟩

end VotingPower

theorem Account.exists_make_iff {address : Address} {key : PublicKey} {power : VotingPower} :
    (∃ a, make address key power = .ok a) ↔ power.bits ≤ 256 := by
  constructor
  · rintro ⟨a, h⟩
    obtain ⟨-, -, rfl⟩ := make_eq_ok_iff.1 h
    exact a.fits
  · intro h
    exact ⟨_, dif_pos h⟩

/-- A power has bytes exactly below 2 ^ 256, and exactly then an account may have it. The bytes are the 32 that read as
the power, and two powers compare as their bytes do. A word has one spelling, as a power and as a chain. -/
theorem VotingPower.spelled_in_order (v w : VotingPower) :
    (v.toBytes32?.isSome ↔ v.val < 2 ^ 256) ∧
    (∀ bs, v.toBytes32? = some bs ↔ bs.length = 32 ∧ Bytes.toNatBE bs = v.val) ∧
    (∀ bs cs, v.toBytes32? = some bs → w.toBytes32? = some cs → (bs < cs ↔ v < w) ∧ (bs = cs ↔ v = w)) ∧
    (∀ address key, (∃ a, Account.make address key v = .ok a) ↔ v.toBytes32?.isSome) ∧
    ∀ n : UInt64, (ofWord n).toBytes32? = some (ChainId.mk n).toBytes32 := by
  refine ⟨?_, ?_, ?_, ?_, toBytes32?_ofWord⟩
  · rw [isSome_toBytes32?_iff, bits_le_iff, Nat.one_shiftLeft]
  · intro bs
    exact toBytes32?_eq_some_iff
  · intro bs cs hv hw
    exact ⟨lt_iff_of_toBytes32? hv hw, eq_iff_of_toBytes32? hv hw⟩
  · intro address key
    rw [Account.exists_make_iff, isSome_toBytes32?_iff]

end Quorate
