import HardwareSigner.Bytes
import HardwareSigner.Text.Quoted
/-! Hexadecimal text of byte strings, and where a text fails to be one. -/

namespace HardwareSigner.Hex

/-- The first thing wrong with a text: its length in bytes, or one of its bytes. -/
inductive Fault where
  | oddLength
  | badByte (byte : UInt8) (position : Nat)
  deriving DecidableEq

namespace Fault

def message : Fault → String
  | oddLength => "Odd number of digits"
  | badByte byte position =>
    "Invalid character " ++ Text.quotedChar (Char.ofNat byte.toNat) ++ " at position "
      ++ toString position

end Fault

def lowerDigit (n : Nat) : Char :=
  Char.ofNat (if n < 10 then 48 + n else 87 + n)

def upperDigit (n : Nat) : Char :=
  Char.ofNat (if n < 10 then 48 + n else 55 + n)

/-- Two digits for every byte. -/
def digits (digit : Nat → Char) (bs : Bytes) : List Char :=
  bs.flatMap fun b => [digit (b.toNat / 16), digit (b.toNat % 16)]

def encode (bs : Bytes) : String :=
  String.ofList (digits lowerDigit bs)

/-- The form in which hashes are shown to an operator. -/
def encodeUpper (bs : Bytes) : String :=
  String.ofList (digits upperDigit bs)

/-- The value of an ASCII digit of either case. -/
def digit? (b : UInt8) : Option Nat :=
  Text.digit? (Char.ofNat b.toNat)

/-- Reads pairs of digits, the first of which stands at `position`. -/
def decodeFrom (position : Nat) : Bytes → Except Fault Bytes
  | [] => .ok []
  | [_] => .error .oddLength
  | a :: b :: rest =>
    match digit? a, digit? b with
    | none, _ => .error (.badByte a position)
    | some _, none => .error (.badByte b (position + 1))
    | some high, some low =>
      match decodeFrom (position + 2) rest with
      | .ok bs => .ok (UInt8.ofNat (16 * high + low) :: bs)
      | .error fault => .error fault

/-- An odd length is found before any bad byte. -/
def decode (text : Bytes) : Except Fault Bytes :=
  if text.length % 2 = 1 then .error .oddLength else decodeFrom 0 text

/-- A text without one leading `0x`. -/
def stripMark : List Char → List Char
  | '0' :: 'x' :: rest => rest
  | cs => cs

/-- The bytes of a text that may start with `0x`. -/
def decodeText (text : String) : Except Fault Bytes :=
  decode (Bytes.ofString (String.ofList (stripMark text.toList)))

end HardwareSigner.Hex
