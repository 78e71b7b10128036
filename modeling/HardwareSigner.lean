import HardwareSigner.Address
import HardwareSigner.Apdu.Command
import HardwareSigner.Apdu.Fault
import HardwareSigner.Apdu.Packet
import HardwareSigner.Apdu.Response
import HardwareSigner.Bech32
import HardwareSigner.Bench.Basic
import HardwareSigner.Bench.Transcript
import HardwareSigner.Bytes
import HardwareSigner.Decimal.Binary64
import HardwareSigner.Decimal.Shortest
import HardwareSigner.Device.Account
import HardwareSigner.Device.Basic
import HardwareSigner.Device.Transport
import HardwareSigner.Error
import HardwareSigner.Hash.Hmac
import HardwareSigner.Hash.Keccak
import HardwareSigner.Hash.Sha2
import HardwareSigner.Hex
import HardwareSigner.Json.Basic
import HardwareSigner.Json.ByteList
import HardwareSigner.Json.Decode
import HardwareSigner.Json.Node
import HardwareSigner.Json.Number
import HardwareSigner.Json.Place
import HardwareSigner.Json.Reader
import HardwareSigner.Keyring.Basic
import HardwareSigner.Keyring.Session
import HardwareSigner.Keyring.Signer
import HardwareSigner.Ledger.AppVersion
import HardwareSigner.Ledger.Message
import HardwareSigner.Ledger.Wallet
import HardwareSigner.Path
import HardwareSigner.Power
import HardwareSigner.Secp256k1.Curve
import HardwareSigner.Secp256k1.Ecdsa
import HardwareSigner.Secp256k1.Key
import HardwareSigner.Settings
import HardwareSigner.Software.ExtendedKey
import HardwareSigner.Software.Mnemonic
import HardwareSigner.Software.Wallet
import HardwareSigner.Software.WordList
import HardwareSigner.Table
import HardwareSigner.Text.Blank
import HardwareSigner.Text.Compatibility
import HardwareSigner.Text.Invisible
import HardwareSigner.Text.Numeral
import HardwareSigner.Text.Quoted
import HardwareSigner.TypedData.Atom
import HardwareSigner.TypedData.Basic
import HardwareSigner.TypedData.Document
import HardwareSigner.TypedData.Fault
import HardwareSigner.TypedData.Hash
import HardwareSigner.TypedData.Schema
import HardwareSigner.Proofs.Json.Induction
import HardwareSigner.Proofs.Table
import HardwareSigner.Proofs.Bytes
import HardwareSigner.Proofs.Apdu.Packets
import HardwareSigner.Proofs.Apdu.Reassembly
import HardwareSigner.Proofs.Keyring.Calls
import HardwareSigner.Proofs.Keyring.Recording
import HardwareSigner.Proofs.Keyring.Disclosure
import HardwareSigner.Proofs.Keyring.Runs
import HardwareSigner.Proofs.Keyring.Sharing
import HardwareSigner.Proofs.Keyring.Solo
import HardwareSigner.Proofs.Keyring.Reconnect
import HardwareSigner.Proofs.Ledger.Calls
import HardwareSigner.Proofs.Ledger.Desk
import HardwareSigner.Proofs.Ledger.Lifecycle
import HardwareSigner.Proofs.Ledger.Pins
import HardwareSigner.Proofs.Ledger.SignedData
import HardwareSigner.Proofs.TypedData.Reachable
import HardwareSigner.Proofs.TypedData.TypeText
import HardwareSigner.Proofs.TypedData.Reading
import HardwareSigner.Proofs.TypedData.Undeclared
import HardwareSigner.Proofs.TypedData.Content
import HardwareSigner.Proofs.TypedData.Binding
import HardwareSigner.Proofs.Keyring.LastSeen
import HardwareSigner.Proofs.Keyring.Answers
import HardwareSigner.Proofs.Json.Quoting
import HardwareSigner.Proofs.Json.WholeNumbers
import HardwareSigner.Proofs.Json.Writing
import HardwareSigner.Proofs.Json.Decoding
import HardwareSigner.Proofs.TypedData.RoundTrip
import HardwareSigner.Proofs.Secp256k1.Powers
import HardwareSigner.Proofs.Secp256k1.Primes
import HardwareSigner.Proofs.Secp256k1.Group
import HardwareSigner.Proofs.Secp256k1.Base
import HardwareSigner.Proofs.Secp256k1.Recovery
import HardwareSigner.Proofs.Keyring.SignedDigest
import HardwareSigner.Proofs.Keyring.Refusals
import HardwareSigner.Proofs.Keyring.Connecting
import HardwareSigner.Proofs.TypedData.Listing
import HardwareSigner.Proofs.TypedData.WellFormed
import HardwareSigner.Proofs.Text.Numerals
import HardwareSigner.Proofs.TypedData.Coverage
import HardwareSigner.Proofs.TypedData.TypeNames
import HardwareSigner.Proofs.TypedData.AcceptedTypes
import HardwareSigner.Proofs.TypedData.ChainIds
import HardwareSigner.Proofs.TypedData.Integers
import HardwareSigner.Proofs.TypedData.IntegerTexts
import HardwareSigner.Proofs.TypedData.Locality
import HardwareSigner.Proofs.TypedData.ReadingErrors
import HardwareSigner.Proofs.TypedData.InferredDomain
import HardwareSigner.Proofs.TypedData.AtomValues
import HardwareSigner.Proofs.TypedData.Mismatches
import HardwareSigner.Proofs.TypedData.Nesting
import HardwareSigner.Proofs.Ledger.KeyReplies
import HardwareSigner.Proofs.Ledger.Signatures
import HardwareSigner.Proofs.Ledger.ShownVersion
import HardwareSigner.Proofs.Json.Records
import HardwareSigner.Proofs.TypedData.Parts
import HardwareSigner.Proofs.Apdu.Reception
import HardwareSigner.Proofs.Text.Blanks
import HardwareSigner.Proofs.Bits
import HardwareSigner.Proofs.PathText
import HardwareSigner.Proofs.Bech32.Checksum
import HardwareSigner.Proofs.Bech32.Groups
import HardwareSigner.Proofs.Text.LetterCase
import HardwareSigner.Proofs.Bech32.Characters
import HardwareSigner.Proofs.Bech32.Spelling
import HardwareSigner.Proofs.AddressTexts
import HardwareSigner.Proofs.Ledger.Commands
import HardwareSigner.Proofs.Software.Clones
import HardwareSigner.Proofs.Software.KeyTree
import HardwareSigner.Proofs.Software.History
import HardwareSigner.Proofs.SettingsTexts
import HardwareSigner.Proofs.Forall2
import HardwareSigner.Proofs.Hex
import HardwareSigner.Proofs.HexTexts
