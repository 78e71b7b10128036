import HardwareSigner.Json.Node
/-!
Reading of JSON text.  Every reader gives what it found together with the rest of the text, or with
no rest where the text is broken; the trees end there.
-/

namespace HardwareSigner.Json

def isSpace (b : UInt8) : Bool :=
  b == 0x20 || b == 0x09 || b == 0x0A || b == 0x0D

def skipSpace (bs : Bytes) : Bytes :=
  bs.dropWhile isSpace

/-- The inside of a text and what follows its closing quote. -/
def readBody? : Bytes → Option (Bytes × Bytes)
  | [] => none
  | 0x22 :: rest => some ([], rest)
  | 0x5C :: 0x75 :: a :: b :: c :: d :: rest =>
    if (codeUnit? a b c d).isSome then
      (readBody? rest).map fun r => (0x5C :: 0x75 :: a :: b :: c :: d :: r.1, r.2)
    else none
  | 0x5C :: mark :: rest =>
    if (escaped? mark).isSome then
      (readBody? rest).map fun r => (0x5C :: mark :: r.1, r.2)
    else none
  | byte :: rest =>
    if byte < 0x20 ∨ byte = 0x5C then none
    else (readBody? rest).map fun r => (byte :: r.1, r.2)

def isDigit (b : UInt8) : Bool :=
  0x30 ≤ b && b ≤ 0x39

/-- Leading digits and the rest. -/
def readDigits (bs : Bytes) : List Nat × Bytes :=
  ((bs.takeWhile isDigit).map fun b => b.toNat - 0x30, bs.dropWhile isDigit)

def readFraction? : Bytes → Option (List Nat × Bytes)
  | 0x2E :: rest =>
    match readDigits rest with
    | ([], _) => none
    | r => some r
  | rest => some ([], rest)

/-- A power of 31 bits or more; it is as good as any larger one, as no text has so many digits. -/
def hugePower : Nat := 2 ^ 31

/-- The digits of an exponent after its sign. -/
def readPower? (negative : Bool) (bs : Bytes) : Option (Option Int × Bytes) :=
  match readDigits bs with
  | ([], _) => none
  | (digits, rest) =>
    let power := digits.foldl (fun n d => min hugePower (n * 10 + d)) 0
    some (some (if negative then -(power : Int) else (power : Int)), rest)

def readExponent? : Bytes → Option (Option Int × Bytes)
  | mark :: rest =>
    if mark = 0x65 ∨ mark = 0x45 then
      match rest with
      | 0x2B :: rest' => readPower? false rest'
      | 0x2D :: rest' => readPower? true rest'
      | _ => readPower? false rest
    else some (none, mark :: rest)
  | [] => some (none, [])

/-- A number after its sign; a zero before other digits is refused. -/
def readNumeral? (negative : Bool) (bs : Bytes) : Option (Numeral × Bytes) :=
  match readDigits bs with
  | ([], _) => none
  | (0 :: _ :: _, _) => none
  | (whole, rest) =>
    match readFraction? rest with
    | none => none
    | some (fraction, rest) =>
      match readExponent? rest with
      | none => none
      | some (exponent, rest) => some (⟨negative, whole, fraction, exponent⟩, rest)

def readWord (word : Bytes) (node : Node) (bs : Bytes) : Node × Option Bytes :=
  if word.isPrefixOf bs then (node, some (bs.drop word.length)) else (.broken, none)

/-- Values that hold no others. -/
def readScalar (bs : Bytes) : Node × Option Bytes :=
  match bs with
  | 0x22 :: rest =>
    match readBody? rest with
    | some (body, rest) => (.string body, some rest)
    | none => (.broken, none)
  | 0x6E :: _ => readWord [0x6E, 0x75, 0x6C, 0x6C] .null bs
  | 0x74 :: _ => readWord [0x74, 0x72, 0x75, 0x65] (.bool true) bs
  | 0x66 :: _ => readWord [0x66, 0x61, 0x6C, 0x73, 0x65] (.bool false) bs
  | _ =>
    let negative := bs.head? == some 0x2D
    match readNumeral? negative (if negative then bs.drop 1 else bs) with
    | some (numeral, rest) => (.number numeral, some rest)
    | none => (.broken, none)

/-- A member's name, and what follows the colon. -/
def readName (bs : Bytes) : Option Bytes × Option Bytes :=
  match skipSpace bs with
  | 0x22 :: rest =>
    match readBody? rest with
    | some (body, rest) =>
      match skipSpace rest with
      | 0x3A :: rest => (some body, some rest)
      | _ => (some body, none)
    | none => (none, none)
  | _ => (none, none)

mutual

def readValue : (fuel : Nat) → Bytes → Node × Option Bytes
  | 0, _ => (.broken, none)
  | fuel + 1, bs =>
    match skipSpace bs with
    | 0x5B :: rest =>
      let r := readItems fuel true rest
      (.array r.1, r.2)
    | 0x7B :: rest =>
      let r := readMembers fuel true rest
      (.object r.1, r.2)
    | rest => readScalar rest

/-- Items up to the closing bracket; all but the first follow a comma. -/
def readItems : (fuel : Nat) → (first : Bool) → Bytes → List Node × Option Bytes
  | 0, _, _ => ([.broken], none)
  | fuel + 1, first, bs =>
    match skipSpace bs with
    | 0x5D :: rest => ([], some rest)
    | found =>
      let start := if first then some found else
        match found with
        | 0x2C :: rest => some rest
        | _ => none
      match start with
      | none => ([.broken], none)
      | some start =>
        match readValue fuel start with
        | (item, none) => ([item], none)
        | (item, some rest) =>
          let r := readItems fuel false rest
          (item :: r.1, r.2)

def readMembers : (fuel : Nat) → (first : Bool) → Bytes →
    List (Option Bytes × Node) × Option Bytes
  | 0, _, _ => ([(none, .broken)], none)
  | fuel + 1, first, bs =>
    match skipSpace bs with
    | 0x7D :: rest => ([], some rest)
    | found =>
      let start := if first then some found else
        match found with
        | 0x2C :: rest => some rest
        | _ => none
      match start with
      | none => ([(none, .broken)], none)
      | some start =>
        match readName start with
        | (name, none) => ([(name, .broken)], none)
        | (name, some rest) =>
          match readValue fuel rest with
          | (value, none) => ([(name, value)], none)
          | (value, some rest) =>
            let r := readMembers fuel false rest
            ((name, value) :: r.1, r.2)

end

/-- A text as one tree, and whether nothing but blanks follows it.  A level of nesting takes a byte
of text and two steps. -/
structure Document where
  root : Node
  ended : Bool

def Document.ofBytes (bs : Bytes) : Document :=
  match readValue (2 * bs.length + 2) bs with
  | (root, none) => ⟨root, false⟩
  | (root, some rest) => ⟨root, (skipSpace rest).isEmpty⟩

end HardwareSigner.Json
