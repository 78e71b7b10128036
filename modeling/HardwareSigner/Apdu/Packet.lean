import HardwareSigner.Error
/-!
Messages cut into packets of 64 bytes for USB, and their reassembly.  Each packet names its channel
and its place in the sequence; the first one also names the length of the message.
-/

namespace HardwareSigner.Apdu

def packetSize : Nat := 64

/-- The mark of a packet that carries part of a message. -/
def packetTag : UInt8 := 0x05

/-- Channel, mark and place. -/
def headerSize : Nat := 5

/-- The header and the length of the message. -/
def firstHeaderSize : Nat := headerSize + 2

def channelBytes (channel : UInt16) : Bytes :=
  Bytes.ofNat 2 channel.toNat

def fillUp (bs : Bytes) : Bytes :=
  bs ++ List.replicate (packetSize - bs.length) 0

/-- The parts that packets after the first carry. -/
def laterParts : (fuel : Nat) → Bytes → List Bytes
  | 0, _ => []
  | _, [] => []
  | fuel + 1, bs =>
    bs.take (packetSize - headerSize) :: laterParts fuel (bs.drop (packetSize - headerSize))

/-- A message in parts, one for each packet; there is always a first. -/
def parts (message : Bytes) : List Bytes :=
  let room := packetSize - firstHeaderSize
  message.take room :: laterParts message.length (message.drop room)

def packet (channel : UInt16) (size : Nat) (part : Bytes) (place : Nat) : Bytes :=
  let length := if place = 0 then Bytes.ofNat 2 size else []
  fillUp (channelBytes channel ++ packetTag :: (Bytes.ofNat 2 place ++ length ++ part))

/-- The packets of a message, whose length and whose packet count must fit in 16 bits. -/
def wrap (channel : UInt16) (message : Bytes) : Except Fault (List Bytes) :=
  if 2 ^ 16 ≤ message.length then .error (.messageTooLong message.length)
  else if 2 ^ 16 < (parts message).length then .error .sequenceOverflow
  else .ok ((parts message).zipIdx.map fun p => packet channel message.length p.1 p.2)

/-- A reader of packets: what it waits for next, and what it has of the message. -/
structure Reader where
  channel : UInt16
  sequence : UInt16
  expected : Option Nat
  buffer : Bytes
  deriving DecidableEq

namespace Reader

def start (channel : UInt16) : Reader := ⟨channel, 0, none, []⟩

def word (bs : Bytes) (offset : Nat) : UInt16 :=
  UInt16.ofNat (Bytes.toNat ((bs.drop offset).take 2))

/-- The header that the next packet has. -/
def header (r : Reader) : Nat :=
  if r.expected.isNone then firstHeaderSize else headerSize

/-- Looks at a packet's header. -/
def check (r : Reader) (packet : Bytes) : Except ResponseFault Unit :=
  if packet.length < r.header then .error (.shortPacket packet.length)
  else if word packet 0 ≠ r.channel then .error (.channel (word packet 0))
  else if packet.getD 2 0 ≠ packetTag then .error (.tag (packet.getD 2 0))
  else if word packet 3 ≠ r.sequence then .error (.sequence r.sequence (word packet 3))
  else .ok ()

/-- Takes a packet.  The message comes out with the packet that completes it. -/
def push (r : Reader) (packet : Bytes) : Except ResponseFault (Option Bytes) × Reader :=
  match r.check packet with
  | .error fault => (.error fault, r)
  | .ok () =>
    let expected := r.expected.getD (word packet headerSize).toNat
    let buffer := r.buffer ++ (packet.drop r.header).take (expected - r.buffer.length)
    let next : Reader := ⟨r.channel, r.sequence + 1, some expected, buffer⟩
    if buffer.length = expected then (.ok (some buffer), { next with buffer := [] })
    else (.ok none, next)

end Reader

end HardwareSigner.Apdu
