import HardwareSigner.Json.Reader
/-!
Lists of a fixed number of bytes.  Whoever reads one looks for an item more than is wanted, so as to
refuse longer lists.  A look that meets no byte fails without harm: the list is good if its closing
bracket stands at the place where the look was given up.
-/

namespace HardwareSigner.Json

/-- A byte, written as a whole number. -/
def readByte? (bs : Bytes) : Option (UInt8 × Bytes) :=
  match readScalar bs with
  | (.number numeral, some rest) =>
    match numeral.toNumber?.bind Number.toInt? with
    | some z => if 0 ≤ z ∧ z < 256 then some (UInt8.ofNat z.toNat, rest) else none
    | none => none
  | _ => none

/-- Bytes with commas between them. -/
def readBytes? : (size : Nat) → Bytes → Option (Bytes × Bytes)
  | 0, bs => some ([], bs)
  | size + 1, bs =>
    match readByte? (skipSpace bs) with
    | none => none
    | some (byte, rest) =>
      if size = 0 then some ([byte], rest)
      else
        match skipSpace rest with
        | 0x2C :: rest => (readBytes? size rest).map fun r => (byte :: r.1, r.2)
        | _ => none

/-- A word is given up behind its first wrong letter. -/
def giveUpWord : (word : Bytes) → Bytes → Bytes
  | [], bs => bs
  | _, [] => []
  | letter :: word, byte :: rest => if byte = letter then giveUpWord word rest else rest

/-- A text is given up behind its first bad escape or control character, else behind its end. -/
def giveUpText : Bytes → Bytes
  | [] => []
  | 0x22 :: rest => rest
  | 0x5C :: 0x75 :: a :: b :: c :: d :: rest =>
    match codeUnit? a b c d with
    | none => rest
    | some unit =>
      if isLow unit then rest
      else if isHigh unit then
        match rest with
        | 0x5C :: 0x75 :: a' :: b' :: c' :: d' :: rest' =>
          if (codeUnit? a' b' c' d').any isLow then giveUpText rest' else rest'
        | 0x5C :: 0x75 :: _ => []
        | 0x5C :: _ :: rest' => rest'
        | _ :: rest' => rest'
        | [] => []
      else giveUpText rest
  | 0x5C :: 0x75 :: _ => []
  | 0x5C :: mark :: rest => if (escaped? mark).isSome then giveUpText rest else rest
  | byte :: rest => if byte < 0x20 ∨ byte = 0x5C then rest else giveUpText rest

/-- The digits of a power are given up behind the one that takes it beyond 31 bits. -/
def giveUpPower (power : Nat) : Bytes → Bytes
  | [] => []
  | byte :: rest =>
    if isDigit byte then
      let next := power * 10 + (byte.toNat - 0x30)
      if next < 2 ^ 31 then giveUpPower next rest else rest
    else byte :: rest

/-- What is left of an exponent; no power is too large for a zero, nor a negative one for others. -/
def giveUpExponent (zero : Bool) (bs : Bytes) : Bytes :=
  match bs with
  | 0x2D :: byte :: rest => if isDigit byte then rest.dropWhile isDigit else rest
  | 0x2B :: byte :: rest => giveUpDigits byte rest
  | byte :: rest => giveUpDigits byte rest
  | [] => []
where
  giveUpDigits (byte : UInt8) (rest : Bytes) : Bytes :=
    if !isDigit byte then rest
    else if zero then rest.dropWhile isDigit
    else giveUpPower 0 (byte :: rest)

/-- A number is given up where a digit is missing, else behind its end. -/
def giveUpNumeral (bs : Bytes) : Bytes :=
  let (whole, rest) := readDigits bs
  match whole with
  | [] => rest.drop 1
  | 0 :: _ :: _ => bs.drop 1
  | _ =>
    match rest with
    | 0x2E :: rest =>
      match readDigits rest with
      | ([], rest) => rest
      | (fraction, rest) => giveUpEnd ((whole ++ fraction).all (· == 0)) rest
    | _ => giveUpEnd (whole.all (· == 0)) rest
where
  giveUpEnd (zero : Bool) : Bytes → Bytes
    | 0x65 :: rest | 0x45 :: rest => giveUpExponent zero rest
    | rest => rest

/-- What is left of a text where the look for a byte in it is given up. -/
def giveUp (bs : Bytes) : Bytes :=
  match bs with
  | 0x6E :: rest => giveUpWord [0x75, 0x6C, 0x6C] rest
  | 0x74 :: rest => giveUpWord [0x72, 0x75, 0x65] rest
  | 0x66 :: rest => giveUpWord [0x61, 0x6C, 0x73, 0x65] rest
  | 0x22 :: rest => giveUpText rest
  | 0x2D :: rest => giveUpNumeral rest
  | byte :: _ => if isDigit byte then giveUpNumeral bs else bs
  | [] => []

/-- Nothing is left but the end of a list. -/
def closes (bs : Bytes) : Bool :=
  match skipSpace bs with
  | 0x5D :: rest => (skipSpace rest).isEmpty
  | _ => false

/-- The list ends here, or one item that is no byte stands before its end. -/
def endsHere (bs : Bytes) : Bool :=
  match skipSpace bs with
  | 0x2C :: rest =>
    let item := skipSpace rest
    (readByte? item).isNone && closes (giveUp item)
  | _ => closes bs

/-- A document that is a list of so many bytes, at least one. -/
def byteList? (size : Nat) (bs : Bytes) : Option Bytes :=
  match skipSpace bs with
  | 0x5B :: rest =>
    match readBytes? size rest with
    | some (found, rest) => if endsHere rest then some found else none
    | none => none
  | _ => none

end HardwareSigner.Json
