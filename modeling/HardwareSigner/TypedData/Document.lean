import HardwareSigner.TypedData.Hash
/-! Typed data in documents. -/

namespace HardwareSigner.TypedData
open Json (Decoder Shape Slot require)

/-- The components of a record read so far. -/
structure Field.Draft where
  name : Option String
  type : Option String

def Field.shape : Shape Refusal Field.Draft Field where
  slots :=
    [.of "name" (·.name) (fun x s => { s with name := some x }) .string,
     .of "type" (·.type) (fun x s => { s with type := some x }) .string]
  start := ⟨none, none⟩
  finish missing s :=
    match require missing "name" s.name with
    | .error fault => .error fault
    | .ok name => (require missing "type" s.type).map (Field.mk name)

/-- A chain id is a number or a numeral, if it is there at all. -/
def chainIdDecoder : Decoder Refusal (Option UInt64) := fun depth node =>
  match Decoder.value depth node with
  | .error fault => .error fault
  | .ok .null => .ok none
  | .ok value =>
    match natural value with
    | .error fault => .error (.refused (.typedData fault))
    | .ok n => if n < 2 ^ 64 then .ok (some (UInt64.ofNat n)) else .error (.refused .chainId)

structure Domain.Draft where
  name : Option (Option String)
  version : Option (Option String)
  chainId : Option (Option UInt64)
  verifyingContract : Option (Option String)
  salt : Option (Option String)

/-- Components that are missing stay unset. -/
def Domain.shape : Shape Refusal Domain.Draft Domain where
  slots :=
    [.of "name" (·.name) (fun x s => { s with name := some x }) (.optional .string),
     .of "version" (·.version) (fun x s => { s with version := some x }) (.optional .string),
     .of "chainId" (·.chainId) (fun x s => { s with chainId := some x }) chainIdDecoder,
     .of "verifyingContract" (·.verifyingContract)
       (fun x s => { s with verifyingContract := some x }) (.optional .string),
     .of "salt" (·.salt) (fun x s => { s with salt := some x }) (.optional .string)]
  start := ⟨none, none, none, none, none⟩
  finish _ s :=
    .ok ⟨s.name.join, s.version.join, s.chainId.join, s.verifyingContract.join, s.salt.join⟩

structure Draft where
  domain : Option Domain
  types : Option (Table (List Field))
  primaryType : Option String
  message : Option Json

/-- Only the domain may be left out. -/
def shape : Shape Refusal Draft TypedData where
  slots :=
    [.of "domain" (·.domain) (fun x s => { s with domain := some x }) Domain.shape.decoder,
     .of "types" (·.types) (fun x s => { s with types := some x })
       (.table (.list Field.shape.decoder)),
     .of "primaryType" (·.primaryType) (fun x s => { s with primaryType := some x }) .string,
     .of "message" (·.message) (fun x s => { s with message := some x }) .value]
  start := ⟨none, none, none, none⟩
  finish missing s :=
    match require missing "types" s.types with
    | .error fault => .error fault
    | .ok types =>
      match require missing "primaryType" s.primaryType with
      | .error fault => .error fault
      | .ok primaryType =>
        (require missing "message" s.message).map
          (TypedData.mk (s.domain.getD .empty) types primaryType)

/-- Reads a document; its bytes need not be a text. -/
def ofBytes (bs : Bytes) : Except Error TypedData :=
  match Json.decode shape.decoder bs with
  | .ok td => .ok td
  | .error fault => .error (.badJson fault)

def ofText (text : String) : Except Error TypedData :=
  ofBytes (Bytes.ofString text)

def Domain.ofText (text : String) : Except Error Domain :=
  match Json.decode Domain.shape.decoder (Bytes.ofString text) with
  | .ok d => .ok d
  | .error fault => .error (.badJson fault)

def Field.toJson (f : Field) : Json :=
  .object [("name", .string f.name), ("type", .string f.type)]

/-- The document of typed data, members in declared order. -/
def toJson (td : TypedData) : Json :=
  .object
    [("domain", .object td.domain.members),
     ("types", .object (td.types.entries.map fun e => (e.1, .array (e.2.map Field.toJson)))),
     ("primaryType", .string td.primaryType),
     ("message", td.message)]

def toText (td : TypedData) : String :=
  td.toJson.render

/-- A field definition: an object with a name and a type, or an array of the two. -/
def Field.ofJson? : Json → Option Field
  | .object members =>
    match members.lookup "name", members.lookup "type" with
    | some (.string name), some (.string type) => some ⟨name, type⟩
    | _, _ => none
  | .array [.string name, .string type] => some ⟨name, type⟩
  | _ => none

/-- The definitions in an object of lists; entries and fields of other shapes are skipped. -/
def typesOf : Json → Table (List Field)
  | .object members =>
    .ofList (members.filterMap fun m =>
      match m.2 with
      | .array items => some (m.1, items.filterMap Field.ofJson?)
      | _ => none)
  | _ => .empty

/-- Typed data from its parts. -/
def ofParts (domain : Domain) (types : Json) (primaryType : String) (message : Json) :
    TypedData :=
  ⟨domain, typesOf types, primaryType, message⟩

end HardwareSigner.TypedData
