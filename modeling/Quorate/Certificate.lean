import Quorate.SignerBitmap
import Quorate.ValidatorSet.Quorum

/-!
# Certificates

One signature summed from the votes of many validators over the same message, and the positions of those
validators in their set. A certificate is valid when the validators it marks have quorum and the
signature is theirs.
-/

namespace Quorate

/-- An aggregated signature and who made it. -/
structure Certificate where
  signature : Signature
  bitmap : SignerBitmap
deriving DecidableEq

inductive CertificateError
  | bitmapOutOfRange (index validators : Nat)
  | noSigners
  | unknownSigner (address : Address)
  | duplicateSigner (address : Address)
  | invalidSignature
  | quorumNotReached
  | key (cause : KeyError)
deriving DecidableEq

def CertificateError.message : CertificateError → String
  | bitmapOutOfRange index validators =>
    s!"signer bitmap index {index} out of range for {validators} validators"
  | noSigners => "certificate has no signers"
  | unknownSigner address => s!"signer {address.toHex} is not in the validator set"
  | duplicateSigner address => s!"signer {address.toHex} voted more than once"
  | invalidSignature => "aggregated signature is invalid"
  | quorumNotReached => "signers do not reach quorum"
  | key cause => cause.message

/-- A validator's signature over the message of a certificate. -/
structure Vote where
  address : Address
  signature : Signature
deriving DecidableEq

namespace Certificate

/-- Mark the voters' positions one after the other; every voter is a validator and votes once. -/
def markVoters (set : ValidatorSet) : List Address → SignerBitmap → Except CertificateError SignerBitmap
  | [], bitmap => .ok bitmap
  | address :: rest, bitmap =>
    match set.indexOf? address with
    | none => .error (.unknownSigner address)
    | some index =>
      if bitmap.contains index then .error (.duplicateSigner address)
      else markVoters set rest (bitmap.insert index)

/-- Sum votes into a certificate. The signatures themselves are not checked here. -/
def ofVotes (set : ValidatorSet) (votes : List Vote) : Except CertificateError Certificate :=
  if votes.isEmpty then .error .noSigners
  else do
    let bitmap ← markVoters set (votes.map Vote.address) (.ofSize set.size)
    let signature ← (Signature.aggregate (votes.map Vote.signature)).mapError .key
    return ⟨signature, bitmap⟩

/-- The addresses of the marked validators; positions past the end of the set mark nobody. -/
def signers (c : Certificate) (set : ValidatorSet) : AddressSet :=
  .ofList ((c.bitmap.toList.filterMap set.at?).map Account.address)

/-- The greatest marked position, if it is past the end of the set. -/
def outOfRange? (c : Certificate) (set : ValidatorSet) : Option Nat :=
  c.bitmap.max?.filter fun index => set.size ≤ index

def verify (c : Certificate) (set : ValidatorSet) (height : BlockHeight) (message tag : Bytes) :
    Except CertificateError Unit :=
  match c.outOfRange? set with
  | some index => .error (.bitmapOutOfRange index set.size)
  | none =>
    let signers := c.signers set
    if signers.toList.isEmpty then .error .noSigners
    else if !set.hasQuorum height signers then .error .quorumNotReached
    else if !c.signature.verifyAggregate (set.publicKeysOf signers) message tag then
      .error .invalidSignature
    else .ok ()

def verifyEvents (c : Certificate) (set : ValidatorSet) (height : BlockHeight)
    (outcome : Except CertificateError Unit) : List Event :=
  let signers := c.signers set
  let quorum := (set.evaluateQuorum height signers).event
  let conclude (level : Level) (message : String) : List Event :=
    [quorum, ⟨level, message,
      [("height", .number height.val.toNat), ("signers", .number signers.size)]⟩]
  match outcome with
  | .ok () => conclude .debug "Verified aggregated signature"
  | .error .quorumNotReached => conclude .warn "Certificate does not reach quorum"
  | .error .invalidSignature => conclude .warn "Certificate signature verification failed"
  | .error _ => []

end Certificate

end Quorate
