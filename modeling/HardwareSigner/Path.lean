import HardwareSigner.Json.Decode
import HardwareSigner.Text.Blank
import HardwareSigner.Text.Quoted
/-! Derivation paths: lists of child indices, written `m/44'/60'/0'/0/0`. -/

namespace HardwareSigner

/-- Child indices from the root down; hardened ones have the highest bit set. -/
structure Path where
  indices : List UInt32
  deriving DecidableEq

namespace Path

def hardened : UInt32 := 0x80000000

def isHardened (index : UInt32) : Bool :=
  index &&& hardened != 0

/-- The account path that Ethereum wallets agree on. -/
def ethereum (index : UInt32) : Path :=
  ⟨[44 ||| hardened, 60 ||| hardened, hardened, 0, index]⟩

/-- The longest path a device takes. -/
def maxComponents : Nat := 10

def componentChars (index : UInt32) : List Char :=
  if isHardened index then '/' :: Nat.toDigits 10 (index &&& ~~~hardened).toNat ++ ['\'']
  else '/' :: Nat.toDigits 10 index.toNat

def toChars (path : Path) : List Char :=
  'm' :: path.indices.flatMap componentChars

def display (path : Path) : String :=
  String.ofList path.toChars

/-- Why a text is no path, or a path is no use to a device. -/
inductive Fault where
  | noRoot (text : String)
  | badIndex (text : String) (part : List Char)
  | outOfRange (text : String) (index : Nat)
  | components (path : Path)
  deriving DecidableEq

def Fault.message : Fault → String
  | noRoot text => text ++ ": must start with \"m\""
  | badIndex text part => text ++ ": bad index " ++ Text.quoted part
  | outOfRange text index => text ++ ": index " ++ toString index ++ " out of range"
  | components path =>
    path.display ++ " has " ++ toString path.indices.length ++ " components, Ledger accepts 1 to "
      ++ toString maxComponents

/-- The digits of a part, and whether it ends in a mark of hardening. -/
def splitMark (part : List Char) : List Char × Bool :=
  match part.getLast? with
  | some '\'' | some 'h' => (part.dropLast, true)
  | _ => (part, false)

def parsePart (text : String) (part : List Char) : Except Fault UInt32 :=
  let (digits, mark) := splitMark part
  match Text.decimal? (2 ^ 32) digits with
  | none => .error (.badIndex text part)
  | some index =>
    if 2 ^ 31 ≤ index then .error (.outOfRange text index)
    else .ok (if mark then UInt32.ofNat index ||| hardened else UInt32.ofNat index)

def parseParts (text : String) : List (List Char) → Except Fault (List UInt32)
  | [] => .ok []
  | part :: parts =>
    match parsePart text part with
    | .error fault => .error fault
    | .ok index => (parseParts text parts).map (index :: ·)

/-- Reads a path; blanks around it are passed over. -/
def parse (text : String) : Except Fault Path :=
  match Text.splitAt (· == '/') (Text.trim text.toList) with
  | ['m'] :: parts => (parseParts text parts).map Path.mk
  | _ => .error (.noRoot text)

def toJson (path : Path) : Json :=
  .string path.display

/-- A path stands in a document as its text. -/
def decoder {ρ : Type} (refuse : Fault → ρ) : Json.Decoder ρ Path := fun depth node =>
  match Json.Decoder.string depth node with
  | .error fault => .error fault
  | .ok text =>
    match parse text with
    | .ok path => .ok path
    | .error fault => .error (.refused (refuse fault))

end Path

end HardwareSigner
