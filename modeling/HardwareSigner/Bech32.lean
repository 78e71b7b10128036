import HardwareSigner.Bytes
import HardwareSigner.Text.Numeral
/-! Bech32 text: a readable part, a separator, data in groups of five bits and a checksum. -/

namespace HardwareSigner.Bech32

inductive Fault where
  | emptyPart
  | longPart (size : Nat)
  | nonAscii (char : Char)
  | badByte (byte : Nat)
  | mixedCase
  | tooLong
  | unparsable
  | badChecksum
  deriving DecidableEq

def Fault.message : Fault → String
  | emptyPart => "hrp is empty, must have at least 1 character"
  | longPart size => "hrp is too long, found " ++ toString size ++ " characters, must be <= 126"
  | nonAscii char => "found non-ASCII character: " ++ char.toString
  | badByte byte =>
    "byte value is not valid US-ASCII: '" ++ String.ofList (Text.hexPlain byte) ++ "'"
  | mixedCase => "hrp cannot mix upper and lower case"
  | tooLong => "encode error"
  | unparsable => "parsing failed"
  | badChecksum => "no valid bech32 or bech32m checksum"

/-- The longest readable part, in bytes. -/
def maxPart : Nat := 83

/-- The longest text. -/
def maxLength : Nat := 1023

def checksumLength : Nat := 6

/-- Looks at the characters of a readable part in turn, knowing which cases came before. -/
def checkChars : (upper lower : Bool) → List Char → Except Fault Unit
  | _, _, [] => .ok ()
  | upper, lower, c :: cs =>
    if 128 ≤ c.toNat then .error (.nonAscii c)
    else if c.toNat < 33 ∨ 126 < c.toNat then .error (.badByte c.toNat)
    else if (c.isLower && upper) || (c.isUpper && lower) then .error .mixedCase
    else checkChars (upper || c.isUpper) (lower || c.isLower) cs

def checkPart (part : String) : Except Fault Unit :=
  if part.utf8ByteSize = 0 then .error .emptyPart
  else if maxPart < part.utf8ByteSize then .error (.longPart part.utf8ByteSize)
  else checkChars false false part.toList

def charset : List Char :=
  "qpzry9x8gf2tvdw0s3jn54khce6mua7l".toList

def charOf (five : Nat) : Char :=
  charset.getD five 'q'

/-- Either case of a data character. -/
def fiveOf? (c : Char) : Option Nat :=
  charset.idxOf? c.toLower

def generators : List Nat :=
  [0x3b6a57b2, 0x26508e6d, 0x1ea119fa, 0x3d4233dd, 0x2a1462b3]

/-- What the five bits pushed out of the residue add back to it. -/
def feedback (top : Nat) : List Nat → Nat
  | [] => 0
  | g :: gs => (if top % 2 = 1 then g else 0) ^^^ feedback (top / 2) gs

def step (residue five : Nat) : Nat :=
  (((residue % 2 ^ 25) <<< 5) ^^^ five) ^^^ feedback (residue >>> 25) generators

def residue (fives : List Nat) : Nat :=
  fives.foldl step 1

/-- The readable part as the checksum sees it: high bits, a zero, low bits. -/
def expand (part : List Char) : List Nat :=
  part.map (·.toLower.toNat / 32) ++ 0 :: part.map (·.toLower.toNat % 32)

/-- The residue of a sound text. -/
def target : Nat := 1

/-- The residue of a sound text of the later variant, which readers take too. -/
def targetM : Nat := 0x2bc830a3

def checksum (part : List Char) (fives : List Nat) : List Nat :=
  let r := residue (expand part ++ fives ++ List.replicate checksumLength 0) ^^^ target
  (List.range checksumLength).map fun i => (r >>> (5 * (5 - i))) % 32

/-- Groups of five bits, the last one filled up with zeros. -/
def toFives (bs : Bytes) : List Nat :=
  let bits := bs.flatMap fun b => bitsOf 8 b.toNat
  (blocks 5 (bits ++ List.replicate ((5 - bits.length % 5) % 5) false)).map ofBits

/-- How many groups there are. -/
def groupCount (bs : Bytes) : Nat :=
  (8 * bs.length + 4) / 5

/-- Whole bytes only; bits left over are not looked at. -/
def ofFives (fives : List Nat) : Bytes :=
  (blocks 8 (fives.flatMap (bitsOf 5))).map fun bits => UInt8.ofNat (ofBits bits)

/-- Nothing encodes to the empty text. -/
def encode (part : String) (bs : Bytes) : Except Fault String :=
  if bs.isEmpty then .ok ""
  else
    match checkPart part with
    | .error fault => .error fault
    | .ok () =>
      let lower := part.toList.map Char.toLower
      if maxLength < lower.length + 1 + groupCount bs + checksumLength then .error .tooLong
      else
        let fives := toFives bs
        .ok (String.ofList (lower ++ '1' :: (fives ++ checksum lower fives).map charOf))

/-- What stands before and after the last separator. -/
def splitLast? (cs : List Char) : Option (List Char × List Char) :=
  let data := cs.reverse.takeWhile (· ≠ '1')
  match cs.reverse.drop data.length with
  | _ :: part => some (part.reverse, data.reverse)
  | [] => none

def mixesCase (cs : List Char) : Bool :=
  cs.any Char.isUpper && cs.any Char.isLower

/-- The values of data characters, none of which may be foreign. -/
def fivesOf? : List Char → Option (List Nat)
  | [] => some []
  | c :: cs =>
    match fiveOf? c, fivesOf? cs with
    | some five, some fives => some (five :: fives)
    | _, _ => none

/-- The readable part as it was written, and the bytes. -/
def decode (text : String) : Except Fault (String × Bytes) :=
  let cs := text.toList
  match splitLast? cs with
  | none => .error .unparsable
  | some (part, data) =>
    match fivesOf? data with
    | none => .error .unparsable
    | some fives =>
      if mixesCase cs then .error .unparsable
      else
        match checkPart (String.ofList part) with
        | .error _ => .error .unparsable
        | .ok () =>
          let r := residue (expand part ++ fives)
          if data.length < checksumLength ∨ maxLength < cs.length then .error .badChecksum
          else if r ≠ target ∧ r ≠ targetM then .error .badChecksum
          else
            .ok (String.ofList part, ofFives (fives.take (fives.length - checksumLength)))

end HardwareSigner.Bech32
