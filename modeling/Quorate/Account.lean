import Quorate.Address
import Quorate.Key.PublicKey
import Quorate.VotingPower

/-!
# Accounts

A validator's address, key and voting power. The power fits the 32 bytes that the account's canonical
record has for it.
-/

namespace Quorate

structure Account where
  address : Address
  publicKey : PublicKey
  power : VotingPower
  fits : power.bits ≤ 256
deriving DecidableEq

inductive AccountError
  | powerTooWide (address : Address) (bits : Nat)
deriving DecidableEq

def AccountError.message : AccountError → String
  | powerTooWide address bits =>
    s!"voting power of {address.toHex} is {bits} bits wide, maximum is 256"

namespace Account

/-- The number of bytes of `canonicalBytes`. -/
def encodedSize : Nat := 100

def make (address : Address) (publicKey : PublicKey) (power : VotingPower) :
    Except AccountError Account :=
  if h : power.bits ≤ 256 then .ok ⟨address, publicKey, power, h⟩
  else .error (.powerTooWide address power.bits)

def withPower (a : Account) (power : VotingPower) : Except AccountError Account :=
  make a.address a.publicKey power

def isActive (a : Account) : Bool :=
  !a.power.isZero

/-- Address, compressed key and power, one after the other. The place of a power that does not fit is left
zero. -/
def canonicalBytes (a : Account) : Bytes :=
  a.address.bytes ++ a.publicKey.toBytes ++ a.power.toBytes32?.getD (Bytes.zeros 32)

theorem make_eq_ok_iff {a : Account} {address : Address} {key : PublicKey} {power : VotingPower} :
    make address key power = .ok a ↔ a.address = address ∧ a.publicKey = key ∧ a.power = power := by
  constructor
  · intro h
    unfold make at h
    split at h
    · cases h
      exact ⟨rfl, rfl, rfl⟩
    · cases h
  · rintro ⟨rfl, rfl, rfl⟩
    exact dif_pos a.fits

end Account

end Quorate
