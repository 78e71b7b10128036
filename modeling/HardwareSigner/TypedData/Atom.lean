import HardwareSigner.TypedData.Basic
/-! Atomic types and the word that a value has under each. -/

namespace HardwareSigner.TypedData

inductive AtomType where
  | string
  | bytes
  | bool
  | address
  | fixedBytes (size : Nat)
  | uint (width : Nat)
  | int (width : Nat)
  deriving DecidableEq

/-- The number behind a type's name; none means 256. -/
def suffix (type : String) : List Char → Except Fault Nat
  | [] => .ok 256
  | cs =>
    match Text.decimal? (2 ^ 64) cs with
    | some n => .ok n
    | none => .error (.unsupported type)

/-- A width in bits: whole bytes, one to thirty-two of them. -/
def width (type : String) (cs : List Char) : Except Fault Nat :=
  match suffix type cs with
  | .error fault => .error fault
  | .ok bits =>
    if bits = 0 ∨ 256 < bits ∨ bits % 8 ≠ 0 then .error (.badWidth type) else .ok bits

def atomType (type : String) : Except Fault AtomType :=
  match type.toList with
  | ['s', 't', 'r', 'i', 'n', 'g'] => .ok .string
  | ['b', 'y', 't', 'e', 's'] => .ok .bytes
  | ['b', 'o', 'o', 'l'] => .ok .bool
  | ['a', 'd', 'd', 'r', 'e', 's', 's'] => .ok .address
  | 'b' :: 'y' :: 't' :: 'e' :: 's' :: cs =>
    match suffix type cs with
    | .error fault => .error fault
    | .ok size =>
      if size = 0 ∨ 32 < size then .error (.badWidth type) else .ok (.fixedBytes size)
  | 'u' :: 'i' :: 'n' :: 't' :: cs => (width type cs).map .uint
  | 'i' :: 'n' :: 't' :: cs => (width type cs).map .int
  | _ => .error (.unsupported type)

/-- A natural number written out: hexadecimal behind `0x`, else decimal. -/
def numeral (text : List Char) : Except Fault Nat :=
  match text with
  | '0' :: 'x' :: digits =>
    match Text.grouped? 16 digits with
    | some n => .ok n
    | none => .error (.badHexNumeral (String.ofList text))
  | digits =>
    match Text.grouped? 10 digits with
    | some n => .ok n
    | none => .error (.badNumeral (String.ofList text))

/-- A natural number, given as a whole number or written out. -/
def natural : Json → Except Fault Nat
  | .string text => numeral text.toList
  | .number (.integer z fits) =>
    if 0 ≤ z then .ok z.toNat else .error (.expectedNumber (.number (.integer z fits)))
  | value => .error (.expectedNumber value)

/-- A natural number, or a negative one given as a whole number or with a minus sign. -/
def signed : Json → Except Fault Int
  | .number (.integer z _) => .ok z
  | .string text =>
    match text.toList with
    | '-' :: digits => (numeral digits).map fun n => -(n : Int)
    | digits => (numeral digits).map fun n => (n : Int)
  | value => (natural value).map fun n => (n : Int)

def text (type : String) : Json → Except Error String
  | .string s => .ok s
  | _ => .error (.invalidTypedData (Fault.expectedString type))

def hexBytes (s : String) : Except Error Bytes :=
  match Hex.decodeText s with
  | .ok bs => .ok bs
  | .error fault => .error (.badHex fault)

def truth : Json → Except Error Bool
  | .bool b => .ok b
  | .string s =>
    if s = "true" then .ok true
    else if s = "false" then .ok false
    else .error (.invalidTypedData Fault.expectedBool)
  | _ => .error (.invalidTypedData Fault.expectedBool)

/-- The two's complement word of a number. -/
def wordOfInt (z : Int) : Word :=
  .ofNat (z % 2 ^ 256).toNat

/-- The word of a value; texts and byte strings stand as their hash. -/
def AtomType.encode (type : String) (value : Json) : AtomType → Except Error Word
  | .string =>
    match text type value with
    | .error e => .error e
    | .ok s => .ok (Keccak.hash (Bytes.ofString s))
  | .bytes =>
    match text type value with
    | .error e => .error e
    | .ok s => (hexBytes s).map Keccak.hash
  | .bool =>
    match truth value with
    | .error e => .error e
    | .ok b => .ok (.ofNat b.toNat)
  | .address =>
    match text type value with
    | .error e => .error e
    | .ok s =>
      match Address.ofHex s with
      | .ok a => .ok a.toWord
      | .error fault => .error (.invalidTypedData (Fault.badAddress fault))
  | .fixedBytes size =>
    match text type value with
    | .error e => .error e
    | .ok s =>
      match hexBytes s with
      | .error e => .error e
      | .ok bs =>
        if size < bs.length then .error (.invalidTypedData (Fault.bytesTooLong bs.length type))
        else .ok (.padRight bs)
  | .uint bits =>
    match natural value with
    | .error fault => .error (.invalidTypedData fault)
    | .ok n =>
      if n < 2 ^ bits then .ok (.ofNat n) else .error (.invalidTypedData (Fault.tooLarge type))
  | .int bits =>
    match signed value with
    | .error fault => .error (.invalidTypedData fault)
    | .ok z =>
      if -2 ^ (bits - 1) ≤ z ∧ z < 2 ^ (bits - 1) then .ok (wordOfInt z)
      else .error (.invalidTypedData (Fault.outOfRange type))

def encodeAtom (type : String) (value : Json) : Except Error Word :=
  match atomType type with
  | .error fault => .error (.invalidTypedData fault)
  | .ok atom => atom.encode type value

end HardwareSigner.TypedData
