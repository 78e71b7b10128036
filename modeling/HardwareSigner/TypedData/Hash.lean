import HardwareSigner.TypedData.Atom
import HardwareSigner.TypedData.Schema
/-!
Hashes of structs and of whole typed data.  A struct's hash covers its type text and one word for
every declared field; the recursion is on the value, so that it ends on recursive schemas too.
-/

namespace HardwareSigner.TypedData

/-- An array type taken apart: the item type, and the number of items if it is fixed. -/
structure ArrayType where
  item : String
  length : Option Nat
  deriving DecidableEq

/-- Splits off the last suffix `[]` or `[n]`, if the type ends in a bracket. -/
def arrayType (type : String) : Except Fault (Option ArrayType) :=
  match type.toList.reverse with
  | ']' :: inner =>
    let count := inner.takeWhile (· ≠ '[')
    match inner.drop count.length with
    | [] => .error (.badArrayType type)
    | _ :: item =>
      let item := String.ofList item.reverse
      if count.isEmpty then .ok (some ⟨item, none⟩)
      else
        match Text.decimal? (2 ^ 64) count.reverse with
        | some n => .ok (some ⟨item, some n⟩)
        | none => .error (.badArrayLength type)
  | _ => .ok none

/-- The words of a struct's fields, in declared order; `member` encodes what an object holds. -/
def encodeFields (name : String) (member : String → String → Option (Except Error Word)) :
    List Field → Except Error (List Word)
  | [] => .ok []
  | f :: fs =>
    match member f.name f.type with
    | none => .error (.invalidTypedData (Fault.missingField name f.name))
    | some (.error e) => .error e
    | some (.ok word) => (encodeFields name member fs).map (word :: ·)

/-- The members of an object: how many there are, and the word of one under a type. -/
structure Members where
  size : Nat
  word : String → String → Option (Except Error Word)

/-- The bytes that are hashed for a struct. -/
def structBytes (type : String) (words : List Word) : Bytes :=
  (Keccak.hash (Bytes.ofString type)).bytes ++ words.flatMap Word.bytes

/-- The hash of a struct whose members are given, or of a value that has none. -/
def hashMembers (td : TypedData) (name : String) (members? : Option Members) :
    Except Error Word :=
  match td.encodeType name, td.fields? name with
  | .error e, _ | _, .error e => .error e
  | .ok type, .ok fields =>
    match members? with
    | none => .error (.invalidTypedData (Fault.expectedObject name))
    | some members =>
      if fields.length < members.size then
        .error (.invalidTypedData (Fault.extraData name fields.length members.size))
      else
        (encodeFields name members.word fields).map fun words =>
          Keccak.hash (structBytes type words)

mutual

/-- The word of a value under a field type. -/
def encodeField (td : TypedData) (value : Json) (type : String) : Except Error Word :=
  match arrayType type with
  | .error fault => .error (.invalidTypedData fault)
  | .ok (some array) =>
    match value with
    | .array items =>
      if array.length.any (· ≠ items.length) then
        .error (.invalidTypedData
          (Fault.itemCount type (array.length.getD 0) items.length))
      else
        (encodeItems td items array.item).map fun words =>
          Keccak.hash (words.flatMap Word.bytes)
    | _ => .error (.invalidTypedData (Fault.expectedArray type))
  | .ok none =>
    if td.types.contains type then
      match value with
      | .object members => hashMembers td type (some ⟨members.length, encodeMember td members⟩)
      | _ => hashMembers td type none
    else encodeAtom type value

def encodeItems (td : TypedData) : List Json → (type : String) → Except Error (List Word)
  | [], _ => .ok []
  | item :: rest, type =>
    match encodeField td item type with
    | .error e => .error e
    | .ok word => (encodeItems td rest type).map (word :: ·)

/-- The word of the named member, if there is one. -/
def encodeMember (td : TypedData) :
    List (String × Json) → (name type : String) → Option (Except Error Word)
  | [], _, _ => none
  | (key, value) :: rest, name, type =>
    if key = name then some (encodeField td value type) else encodeMember td rest name type

end

/-- The hash of a value as an instance of a struct. -/
def hashStruct (td : TypedData) (name : String) : Json → Except Error Word
  | .object members => hashMembers td name (some ⟨members.length, encodeMember td members⟩)
  | _ => hashMembers td name none

def domainSeparator (td : TypedData) : Except Error Word :=
  td.hashStruct domainType td.domain.toJson

def messageHash (td : TypedData) : Except Error Word :=
  td.hashStruct td.primaryType td.message

/-- The digest that is signed, of the hashes of domain and message. -/
def signingDigest (domain message : Word) : Word :=
  Keccak.hash (0x19 :: 0x01 :: (domain.bytes ++ message.bytes))

def signingHash (td : TypedData) : Except Error Word :=
  match td.domainSeparator with
  | .error e => .error e
  | .ok domain => td.messageHash.map (signingDigest domain)

/-- The hash of a domain alone, under the definition read off it. -/
def Domain.separatorHash (d : Domain) : Except Error Word :=
  TypedData.domainSeparator ⟨d, .empty, domainType, .null⟩

/-- The two hashes that a device shows before it signs. -/
structure SigningHashes where
  domain : Word
  message : Word
  deriving DecidableEq

/-- Both hashes, the domain's first. -/
def signingHashes (td : TypedData) : Except Error SigningHashes :=
  match td.domainSeparator with
  | .error e => .error e
  | .ok domain => td.messageHash.map (SigningHashes.mk domain)

namespace SigningHashes

def digest (h : SigningHashes) : Word :=
  signingDigest h.domain h.message

/-- The form in which hashes are shown to an operator. -/
def shown (bs : Bytes) : String :=
  "0x" ++ Hex.encodeUpper bs

/-- What an operator compares with the screen of the device. -/
def lines (h : SigningHashes) : List String :=
  ["Signing the following payload with EIP-712:",
   "- Domain: " ++ shown h.domain.bytes,
   "- Message: " ++ shown h.message.bytes]

end SigningHashes

end HardwareSigner.TypedData
