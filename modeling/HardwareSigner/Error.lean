import HardwareSigner.Apdu.Fault
import HardwareSigner.Path
import HardwareSigner.Secp256k1.Ecdsa
import HardwareSigner.TypedData.Fault
/-! All failures of the signer, from the hub down to the data, and the wording of each. -/

namespace HardwareSigner

/-- The particulars of a failure: a cause this library knows, or the words of another component. -/
inductive Detail (φ : Type) where
  | known (fault : φ)
  | reported (text : String)
  deriving DecidableEq

namespace Detail

def message {φ : Type} (word : φ → String) : Detail φ → String
  | known fault => word fault
  | reported text => text

instance {φ : Type} : Coe φ (Detail φ) := ⟨known⟩

end Detail

/-- Why a public key is refused. -/
inductive PublicKeyFault where
  | rejected
  | addressLength (size : Nat)
  | foreignAccount (address : Address)
  deriving DecidableEq

namespace PublicKeyFault

def message : PublicKeyFault → String
  | rejected => "signature error"
  | addressLength size => "expected 20 address bytes, got " ++ toString size
  | foreignAccount address =>
    "account " ++ address.toChecksum ++ " does not belong to this wallet"

end PublicKeyFault

/-- Why no key can be derived in software. -/
inductive DerivationFault where
  | wordCount (found : Nat)
  | unknownWord (position : Nat)
  | badChecksum
  | tweakOutOfRange
  | zeroKey
  deriving DecidableEq

namespace DerivationFault

def message : DerivationFault → String
  | wordCount found =>
    "mnemonic has an invalid word count: " ++ toString found
      ++ ". Word count must be 12, 15, 18, 21, or 24"
  | unknownWord position =>
    "mnemonic contains an unknown word (word " ++ toString position ++ ")"
  | badChecksum => "the mnemonic has an invalid checksum"
  | tweakOutOfRange => "I_L is not below the curve order"
  | zeroKey => "derived key is zero"

end DerivationFault

/-- Why the components of a document are refused. -/
inductive Refusal where
  | typedData (fault : TypedData.Fault)
  | path (fault : Path.Fault)
  | chainId
  deriving DecidableEq

inductive Error where
  | noSession (operation : String)
  | noWallet
  | hubInit (reason : String)
  | walletOpen (cause : Error)
  | derivation (advice : String)
  | hashComputation (cause : Error)
  | signing (cause : Error)
  | encoding (detail : Detail Address.Bech32Fault)
  | connectionFailed (reason : String)
  | walletAlreadyOpen
  | walletClosed
  | deviceLocked
  | userDenied
  | appNotOpen
  | apdu (detail : Detail Apdu.Fault)
  | unexpectedStatusWord (sw1 sw2 : UInt8)
  | malformedResponse (detail : Detail Apdu.ResponseFault)
  | invalidPath (detail : Detail Path.Fault)
  | invalidPublicKey (detail : Detail PublicKeyFault)
  | invalidSignature (detail : Detail SignatureFault)
  | keyDerivation (detail : Detail DerivationFault)
  | invalidTypedData (detail : Detail TypedData.Fault)
  | undefinedType (name : String)
  | badHex (detail : Detail Hex.Fault)
  | badJson (detail : Detail (Json.Fault Refusal))
  deriving DecidableEq

namespace Error

def ofAddressFault : Address.Fault → Error
  | .hex fault => badHex fault
  | .length size => invalidPublicKey (PublicKeyFault.addressLength size)

def hexMessage (detail : Detail Hex.Fault) : String :=
  "hex decoding failed: " ++ detail.message Hex.Fault.message

def publicKeyMessage (detail : Detail PublicKeyFault) : String :=
  "invalid public key: " ++ detail.message PublicKeyFault.message

def addressMessage : Address.Fault → String
  | .hex fault => hexMessage fault
  | .length size => publicKeyMessage (PublicKeyFault.addressLength size)

def bech32Message : Address.Bech32Fault → String
  | .text fault => fault.message
  | .length size => "invalid address length " ++ toString size

def typedDataFault : TypedData.Fault → String
  | .expectedObject type => "expected object for " ++ type
  | .extraData type declared found =>
    "extra data in " ++ type ++ ": expected " ++ toString declared ++ " fields, got "
      ++ toString found
  | .missingField type name => "missing field " ++ type ++ "." ++ name
  | .expectedArray type => "expected array for " ++ type
  | .itemCount type declared found =>
    type ++ " expects " ++ toString declared ++ " items, got " ++ toString found
  | .badArrayType type => "bad array type " ++ type
  | .badArrayLength type => "bad array length in " ++ type
  | .expectedBool => "expected bool"
  | .badAddress fault => "invalid address: " ++ addressMessage fault
  | .badWidth type => "invalid type " ++ type
  | .bytesTooLong size type => toString size ++ " bytes do not fit in " ++ type
  | .tooLarge type => "integer larger than " ++ type
  | .outOfRange type => "integer out of range for " ++ type
  | .unsupported type => "unsupported type: " ++ type
  | .expectedString type => "expected string for " ++ type
  | .badHexNumeral text => "invalid hex uint: " ++ text
  | .badNumeral text => "invalid uint: " ++ text
  | .expectedNumber value => "expected uint, got " ++ value.render

def typedDataMessage (detail : Detail TypedData.Fault) : String :=
  "invalid EIP-712 typed data: " ++ detail.message typedDataFault

def pathMessage (detail : Detail Path.Fault) : String :=
  "invalid derivation path: " ++ detail.message Path.Fault.message

def responseFault : Apdu.ResponseFault → String
  | .noStatus size => "response of " ++ toString size ++ " bytes has no status word"
  | .configuration size => "app configuration of " ++ toString size ++ " bytes"
  | .publicKeyReply size => "public key reply of " ++ toString size ++ " bytes"
  | .address fault => "device address: " ++ addressMessage fault
  | .addressMismatch reported actual =>
    "device reported address " ++ reported.toChecksum ++ " for key of " ++ actual.toChecksum
  | .shortPacket size => "HID packet of " ++ toString size ++ " bytes"
  | .channel found => "unexpected channel " ++ Text.hexMarked 4 found.toNat
  | .tag found => "unexpected tag " ++ Text.hexMarked 2 found.toNat
  | .sequence expected found =>
    "expected packet " ++ toString expected.toNat ++ ", got " ++ toString found.toNat

def refusalMessage : Refusal → String
  | .typedData fault => typedDataMessage fault
  | .path fault => pathMessage fault
  | .chainId => "chainId does not fit in 64 bits"

/-- What an operator or a log gets to read. -/
def message : Error → String
  | noSession operation => "unable to " ++ operation ++ ": no wallet found"
  | noWallet => "no hardware wallets detected"
  | hubInit reason => "failed to initialize hardware wallet hub: " ++ reason
  | walletOpen cause => "failed to open hardware wallet: " ++ cause.message
  | derivation advice => advice
  | hashComputation cause => "unable to generate EIP-712 hash for object: " ++ cause.message
  | signing cause => "error generating signature, please retry: " ++ cause.message
  | encoding detail => detail.message bech32Message
  | connectionFailed reason => "failed to connect to Ledger: " ++ reason
  | walletAlreadyOpen => "wallet already open"
  | walletClosed => "wallet closed"
  | deviceLocked => "Ledger device is locked"
  | userDenied => "request denied by the user on the device"
  | appNotOpen => "Ethereum app is not open on the Ledger"
  | apdu detail => "APDU command failed: " ++ detail.message Apdu.Fault.message
  | unexpectedStatusWord sw1 sw2 =>
    "unexpected status word: SW1=" ++ Text.hexMarked 2 sw1.toNat ++ ", SW2="
      ++ Text.hexMarked 2 sw2.toNat
  | malformedResponse detail => "malformed response: " ++ detail.message responseFault
  | invalidPath detail => pathMessage detail
  | invalidPublicKey detail => publicKeyMessage detail
  | invalidSignature detail => "invalid signature: " ++ detail.message SignatureFault.message
  | keyDerivation detail => "key derivation failed: " ++ detail.message DerivationFault.message
  | invalidTypedData detail => typedDataMessage detail
  | undefinedType name => "undefined type in EIP-712 data: " ++ name
  | badHex detail => hexMessage detail
  | badJson detail => "JSON error: " ++ detail.message (Json.Fault.message refusalMessage)

/-- The failure that this one wraps. -/
def source? : Error → Option Error
  | walletOpen cause | hashComputation cause | signing cause => some cause
  | _ => none

end Error

end HardwareSigner
