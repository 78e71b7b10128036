import HardwareSigner.Error
/-! Responses of a device: data and a status word of two bytes. -/

namespace HardwareSigner.Apdu

structure Response where
  data : Bytes
  sw1 : UInt8
  sw2 : UInt8
  deriving DecidableEq

namespace Response

/-- The status word stands in the last two bytes. -/
def ofBytes (bs : Bytes) : Except Error Response :=
  match bs.reverse with
  | sw2 :: sw1 :: data => .ok ⟨data.reverse, sw1, sw2⟩
  | _ => .error (.malformedResponse (ResponseFault.noStatus bs.length))

def statusWord (r : Response) : Nat :=
  r.sw1.toNat * 256 + r.sw2.toNat

def success : Nat := 0x9000

def isSuccess (r : Response) : Bool :=
  r.statusWord == success

/-- What a status word other than success says. -/
def toError (r : Response) : Error :=
  match r.statusWord with
  | 0x6985 => .userDenied
  | 0x6982 | 0x5515 => .deviceLocked
  | 0x6D00 | 0x6E00 | 0x6E01 | 0x6511 => .appNotOpen
  | 0x6A80 => .apdu Fault.invalidData
  | _ => .unexpectedStatusWord r.sw1 r.sw2

def checked (r : Response) : Except Error Bytes :=
  if r.isSuccess then .ok r.data else .error r.toError

end Response

end HardwareSigner.Apdu
