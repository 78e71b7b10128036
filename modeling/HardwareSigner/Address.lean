import HardwareSigner.Bech32
import HardwareSigner.Hash.Keccak
import HardwareSigner.Hex
import HardwareSigner.Json.ByteList
import HardwareSigner.Json.Decode
import HardwareSigner.Secp256k1.Key
/-! Account addresses and their hexadecimal, checksummed and bech32 forms. -/

namespace HardwareSigner

structure Address where
  bytes : Bytes
  size : bytes.length = 20
  deriving DecidableEq

namespace Address

def ofBytes? (bs : Bytes) : Option Address :=
  if h : bs.length = 20 then some ⟨bs, h⟩ else none

def zero : Address :=
  ⟨List.replicate 20 0, by simp⟩

def isZero (a : Address) : Bool :=
  a == zero

/-- The address behind twelve zero bytes. -/
def toWord (a : Address) : Word :=
  ⟨List.replicate 12 0 ++ a.bytes, by simp [a.size]⟩

/-- The last twenty bytes of the hash of both coordinates. -/
def ofPublicKey (key : PublicKey) : Address :=
  ⟨(Keccak.hash (key.uncompressed.drop 1)).bytes.drop 12, by simp [Word.size]⟩

def toHex (a : Address) : String :=
  "0x" ++ Hex.encode a.bytes

/-- Raises the letters that stand where the hash has a digit of eight or more. -/
def raise (cs hash : List Char) : List Char :=
  List.zipWith (fun c h => if (Text.digit? h).any (8 ≤ ·) then c.toUpper else c) cs hash

/-- Hexadecimal digits whose letter case is a checksum of the digits. -/
def toChecksum (a : Address) : String :=
  let digits := Hex.digits Hex.lowerDigit a.bytes
  let hash := Keccak.hash (Bytes.ofString (String.ofList digits))
  String.ofList ('0' :: 'x' :: raise digits (Hex.digits Hex.lowerDigit hash.bytes))

/-- Why a text is no address in hexadecimal. -/
inductive Fault where
  | hex (fault : Hex.Fault)
  | length (size : Nat)
  deriving DecidableEq

/-- Reads digits of either case, with or without a leading `0x`. -/
def ofHex (text : String) : Except Fault Address :=
  match Hex.decodeText text with
  | .error fault => .error (.hex fault)
  | .ok bs => if h : bs.length = 20 then .ok ⟨bs, h⟩ else .error (.length bs.length)

/-- Why a text is no address in bech32, or an address cannot be so written. -/
inductive Bech32Fault where
  | text (fault : Bech32.Fault)
  | length (size : Nat)
  deriving DecidableEq

def toBech32 (part : String) (a : Address) : Except Bech32.Fault String :=
  Bech32.encode part a.bytes

/-- The readable part and the address. -/
def ofBech32 (text : String) : Except Bech32Fault (String × Address) :=
  match Bech32.decode text with
  | .error fault => .error (.text fault)
  | .ok (part, bs) =>
    if h : bs.length = 20 then .ok (part, ⟨bs, h⟩) else .error (.length bs.length)

def toJson (a : Address) : Json :=
  .string a.toHex

def ofDigits? (cs : List Char) : Option Address :=
  match Hex.decode (Bytes.ofString (String.ofList cs)) with
  | .ok bs => ofBytes? bs
  | .error _ => none

/-- A text of digits, marked by `0x`, `0X` or nothing. -/
def decoder {ρ : Type} : Json.Decoder ρ Address := fun depth node =>
  match Json.Decoder.string depth node with
  | .error fault => .error fault
  | .ok text =>
    let digits := match text.toList with
      | '0' :: 'x' :: cs | '0' :: 'X' :: cs => cs
      | cs => cs
    match ofDigits? digits with
    | some a => .ok a
    | none => .error .unreadable

/-- In a document an address is a text of digits or a list of bytes. -/
def ofDocument {ρ : Type} (bs : Bytes) : Except (Json.Fault ρ) Address :=
  match (Json.byteList? 20 bs).bind ofBytes? with
  | some a => .ok a
  | none => Json.decode decoder bs

end Address

end HardwareSigner
