import HardwareSigner.Address
import HardwareSigner.Ledger.AppVersion
/-! What can go wrong in the exchange of commands and responses with a device. -/

namespace HardwareSigner.Apdu

/-- Faults of a command: it cannot be sent, or the device refuses it. -/
inductive Fault where
  | dataTooLong (size : Nat)
  | invalidData
  | outdatedApp (version : AppVersion)
  | messageTooLong (size : Nat)
  | sequenceOverflow
  | exhausted
  deriving DecidableEq

def Fault.message : Fault → String
  | dataTooLong size => "command data too long: " ++ toString size ++ " > 255"
  | invalidData => "invalid command data"
  | outdatedApp version =>
    "Ethereum app " ++ version.display ++ " cannot sign EIP-712, "
      ++ AppVersion.minTypedData.display ++ " or newer is required"
  | messageTooLong size => "APDU of " ++ toString size ++ " bytes is too long"
  | sequenceOverflow => "packet sequence overflow"
  | exhausted => "script exhausted"

/-- Faults of what a device sends back. -/
inductive ResponseFault where
  | noStatus (size : Nat)
  | configuration (size : Nat)
  | publicKeyReply (size : Nat)
  | address (fault : Address.Fault)
  | addressMismatch (reported actual : Address)
  | shortPacket (size : Nat)
  | channel (found : UInt16)
  | tag (found : UInt8)
  | sequence (expected found : UInt16)
  deriving DecidableEq

end HardwareSigner.Apdu
