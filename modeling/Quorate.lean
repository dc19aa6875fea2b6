import Quorate.Account
import Quorate.Address
import Quorate.Binary
import Quorate.BlockHeight
import Quorate.Bls12381.Compressed
import Quorate.Bls12381.Field
import Quorate.Bls12381.Group
import Quorate.Bls12381.HashToGroup
import Quorate.Bls12381.Pairing
import Quorate.Bls12381.Tower
import Quorate.Bytes.Basic
import Quorate.Bytes.Hex
import Quorate.Certificate
import Quorate.ChainId
import Quorate.Committee
import Quorate.Configuration.Basic
import Quorate.Configuration.Document
import Quorate.Configuration.Genesis
import Quorate.Configuration.Record
import Quorate.Curve.Ed25519
import Quorate.Curve.Residue
import Quorate.Curve.Secp256k1
import Quorate.Curve.Weierstrass
import Quorate.Decimal.Double
import Quorate.Decimal.Shortest
import Quorate.Digest
import Quorate.Digest.Blake3
import Quorate.Digest.Hmac
import Quorate.Digest.Keccak256
import Quorate.Digest.Sha2
import Quorate.Epoch.Active
import Quorate.Epoch.Provider
import Quorate.Epoch.Transition
import Quorate.Event
import Quorate.FileTree
import Quorate.Json.Number
import Quorate.Json.Reader
import Quorate.Key.AccountKey
import Quorate.Key.Error
import Quorate.Key.NodeKey
import Quorate.Key.Possession
import Quorate.Key.PublicKey
import Quorate.Key.SecretKey
import Quorate.Key.Signature
import Quorate.KeyedList
import Quorate.Order.Ascending
import Quorate.Order.Distinct
import Quorate.Proofs.AddedPositions
import Quorate.Proofs.Binary
import Quorate.Proofs.Bls12381.Canonical
import Quorate.Proofs.Bls12381.Compressed
import Quorate.Proofs.Bls12381.FieldModulus
import Quorate.Proofs.Bls12381.Fields
import Quorate.Proofs.Bls12381.GroupOrder
import Quorate.Proofs.Bls12381.HashToGroup
import Quorate.Proofs.Bls12381.InStages
import Quorate.Proofs.Bls12381.RawMultiple
import Quorate.Proofs.Bls12381.RawTower
import Quorate.Proofs.Bytes.BigEndian
import Quorate.Proofs.Certificate.Build
import Quorate.Proofs.Certificate.Canonical
import Quorate.Proofs.Certificate.Check
import Quorate.Proofs.Certificate.Voters
import Quorate.Proofs.Certificate.Wire
import Quorate.Proofs.Configuration.Document
import Quorate.Proofs.Configuration.Genesis
import Quorate.Proofs.Configuration.RoundTrip
import Quorate.Proofs.Curve.GroupLaw
import Quorate.Proofs.Curve.Multiple
import Quorate.Proofs.Curve.Residue
import Quorate.Proofs.Epoch.Advance
import Quorate.Proofs.Epoch.History
import Quorate.Proofs.Epoch.Outcome
import Quorate.Proofs.Epoch.Reconciliation
import Quorate.Proofs.Epoch.Run
import Quorate.Proofs.Epoch.Snapshot
import Quorate.Proofs.Json.Integer
import Quorate.Proofs.Key.Aggregate
import Quorate.Proofs.Key.BuiltKeys
import Quorate.Proofs.Key.Canonical
import Quorate.Proofs.Key.Encodings
import Quorate.Proofs.Key.HexForms
import Quorate.Proofs.Key.MadeSignatures
import Quorate.Proofs.Key.SummedKeys
import Quorate.Proofs.MarkedPositions
import Quorate.Proofs.QuorumIntersection
import Quorate.Proofs.Record.Power
import Quorate.Proofs.SecretStore.Creation
import Quorate.Proofs.SecretStore.GivenNodeKey
import Quorate.Proofs.SecretStore.Identity
import Quorate.Proofs.SecretStore.Run
import Quorate.Proofs.SecretStore.Stored
import Quorate.Proofs.SecretStore.Strict
import Quorate.Proofs.SigningMessage
import Quorate.Proofs.Text.Blank
import Quorate.Proofs.Text.Numeral
import Quorate.Proofs.Text.Utf8
import Quorate.Proofs.ThirtyTwoBytes
import Quorate.Proofs.Toml.Document
import Quorate.Proofs.Toml.Integer
import Quorate.Proofs.Toml.OneLineText
import Quorate.Proofs.Toml.Text
import Quorate.Proofs.Traversal
import Quorate.Proofs.ValidatorSet.Construction
import Quorate.Proofs.ValidatorSet.Encoding
import Quorate.Proofs.ValidatorSet.GroupPower
import Quorate.Proofs.ValidatorSet.Lookup
import Quorate.Proofs.ValidatorSet.Patch
import Quorate.Proofs.ValidatorSet.QuorumReach
import Quorate.Proofs.ValidatorSet.QuorumReference
import Quorate.Proofs.ValidatorSet.QuorumRule
import Quorate.Proofs.ValidatorSet.QuorumSupport
import Quorate.QuorumPolicy
import Quorate.Record.Account
import Quorate.Record.Basic
import Quorate.Record.Certificate
import Quorate.Record.Policy
import Quorate.Record.Scalar
import Quorate.SecretStore.Basic
import Quorate.SecretStore.Create
import Quorate.SecretStore.Load
import Quorate.SignerBitmap
import Quorate.SigningDomains
import Quorate.SigningMessage
import Quorate.Text.Blank
import Quorate.Text.Digit
import Quorate.Text.Escaped
import Quorate.Text.Quoted
import Quorate.Text.Utf8
import Quorate.Toml.Moment
import Quorate.Toml.Number
import Quorate.Toml.Reader
import Quorate.Toml.Text
import Quorate.Toml.Tree
import Quorate.Toml.Writer
import Quorate.ValidatorSet.Basic
import Quorate.ValidatorSet.Delta
import Quorate.ValidatorSet.Quorum
import Quorate.Value
import Quorate.VotingPower
