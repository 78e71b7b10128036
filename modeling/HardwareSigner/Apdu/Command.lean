import HardwareSigner.Apdu.Fault
/-! Commands to a device: a header of five bytes, the last of them the length of the data. -/

namespace HardwareSigner.Apdu

/-- The most data that fits in one command. -/
def maxData : Nat := 255

structure Command where
  cla : UInt8
  ins : UInt8
  p1 : UInt8
  p2 : UInt8
  data : Bytes
  short : data.length ≤ maxData
  deriving DecidableEq

namespace Command

def make (cla ins p1 p2 : UInt8) (data : Bytes) : Except Fault Command :=
  if h : data.length ≤ maxData then .ok ⟨cla, ins, p1, p2, data, h⟩
  else .error (.dataTooLong data.length)

/-- The class of every command of the Ethereum app. -/
def ethereumClass : UInt8 := 0xE0

def ethereum (ins p1 p2 : UInt8) (data : Bytes) : Except Fault Command :=
  make ethereumClass ins p1 p2 data

def bytes (c : Command) : Bytes :=
  c.cla :: c.ins :: c.p1 :: c.p2 :: UInt8.ofNat c.data.length :: c.data

end Command

end HardwareSigner.Apdu
