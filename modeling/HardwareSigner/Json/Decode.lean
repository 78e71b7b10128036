import HardwareSigner.Json.Place
import HardwareSigner.Json.Reader
/-!
Decoding of documents into records.  A decoder walks the tree in written order, so that of two
faults in a text the one that stands first is reported.
-/

namespace HardwareSigner.Json

/-- Why a document is refused; `ρ` holds the reasons of the decoded type itself. -/
inductive Fault (ρ : Type) where
  | unreadable
  | missingField (name : String)
  | duplicateField (name : String)
  | refused (reason : ρ)
  deriving DecidableEq

/-- What is said about a fault, apart from its place. -/
def Fault.message {ρ : Type} (reason : ρ → String) : Fault ρ → String
  | unreadable => "unreadable text"
  | missingField name => "missing field `" ++ name ++ "`"
  | duplicateField name => "duplicate field `" ++ name ++ "`"
  | refused r => Place.strip (reason r)

/-- Reads a node below which `depth - 1` more levels may be entered. -/
abbrev Decoder (ρ α : Type) := (depth : Nat) → Node → Except (Fault ρ) α

namespace Decoder
variable {ρ α σ : Type}

/-- A value of any shape. -/
def value : Decoder ρ Json := fun depth node =>
  match node.toJson? depth with
  | some j => .ok j
  | none => .error .unreadable

def string : Decoder ρ String
  | _, .string body =>
    match text? body with
    | some s => .ok s
    | none => .error .unreadable
  | _, _ => .error .unreadable

def bool : Decoder ρ Bool
  | _, .bool b => .ok b
  | _, _ => .error .unreadable

/-- A whole number for which `fits` holds. -/
def integer (fits : Int → Bool) : Decoder ρ Int
  | _, .number n =>
    match n.toNumber?.bind Number.toInt? with
    | some z => if fits z then .ok z else .error .unreadable
    | none => .error .unreadable
  | _, _ => .error .unreadable

/-- A value, or `null` for none. -/
def optional (d : Decoder ρ α) : Decoder ρ (Option α)
  | _, .null => .ok none
  | depth, node => (d depth node).map some

/-- Items one after another; the first fault ends the walk. -/
def items (d : Decoder ρ α) (depth : Nat) : List Node → Except (Fault ρ) (List α)
  | [] => .ok []
  | item :: rest =>
    match d depth item with
    | .error fault => .error fault
    | .ok x => (items d depth rest).map (x :: ·)

def list (d : Decoder ρ α) : Decoder ρ (List α)
  | depth, .array nodes => if 1 < depth then items d (depth - 1) nodes else .error .unreadable
  | _, _ => .error .unreadable

/-- Entries put into a table as they come. -/
def entries (d : Decoder ρ α) (depth : Nat) :
    List (Option Bytes × Node) → Table α → Except (Fault ρ) (Table α)
  | [], t => .ok t
  | (name, node) :: rest, t =>
    match name.bind text? with
    | none => .error .unreadable
    | some key =>
      match d depth node with
      | .error fault => .error fault
      | .ok x => entries d depth rest (t.insert key x)

/-- An object with names of any kind. -/
def table (d : Decoder ρ α) : Decoder ρ (Table α)
  | depth, .object members =>
    if 1 < depth then entries d (depth - 1) members .empty else .error .unreadable
  | _, _ => .error .unreadable

end Decoder

/-- One field of a record that is being read into `σ`. -/
structure Slot (ρ σ : Type) where
  name : String
  filled : σ → Bool
  fill : Decoder ρ (σ → σ)

/-- A slot for an optional component. -/
def Slot.of {ρ σ α : Type} (name : String) (get : σ → Option α) (set : α → σ → σ)
    (d : Decoder ρ α) : Slot ρ σ :=
  ⟨name, fun s => (get s).isSome, fun depth node => (d depth node).map set⟩

/-- How a record is read: its fields in their order, and what the read components make. -/
structure Shape (ρ σ α : Type) where
  slots : List (Slot ρ σ)
  start : σ
  finish : (missing : String → Fault ρ) → σ → Except (Fault ρ) α

namespace Shape
variable {ρ σ α : Type}

/-- Members in written order; unknown ones are passed over, a known one may come once. -/
def readMembers (slots : List (Slot ρ σ)) (depth : Nat) :
    List (Option Bytes × Node) → σ → Except (Fault ρ) σ
  | [], s => .ok s
  | (name, node) :: rest, s =>
    match name.bind text? with
    | none => .error .unreadable
    | some key =>
      match slots.find? (·.name = key) with
      | none => if node.isWhole then readMembers slots depth rest s else .error .unreadable
      | some slot =>
        if slot.filled s then .error (.duplicateField key)
        else
          match slot.fill depth node with
          | .error fault => .error fault
          | .ok set => readMembers slots depth rest (set s)

/-- Items for the fields in their order; items beyond the last field are refused. -/
def readItems (depth : Nat) : List (Slot ρ σ) → List Node → σ → Except (Fault ρ) σ
  | _, [], s => .ok s
  | [], _ :: _, _ => .error .unreadable
  | slot :: slots, node :: nodes, s =>
    match slot.fill depth node with
    | .error fault => .error fault
    | .ok set => readItems depth slots nodes (set s)

/-- A record is an object, or an array of its fields. -/
def decoder (shape : Shape ρ σ α) : Decoder ρ α
  | depth, .object members =>
    if 1 < depth then
      match readMembers shape.slots (depth - 1) members shape.start with
      | .ok s => shape.finish .missingField s
      | .error fault => .error fault
    else .error .unreadable
  | depth, .array nodes =>
    if 1 < depth then
      match readItems (depth - 1) shape.slots nodes shape.start with
      | .ok s => shape.finish (fun _ => .unreadable) s
      | .error fault => .error fault
    else .error .unreadable
  | _, _ => .error .unreadable

end Shape

/-- A component without a default. -/
def require {ρ α : Type} (missing : String → Fault ρ) (name : String) :
    Option α → Except (Fault ρ) α
  | some x => .ok x
  | none => .error (missing name)

/-- Arrays and objects may be nested to one level less than this. -/
def nestingLimit : Nat := 128

/-- Reads a whole text. -/
def decode {ρ α : Type} (d : Decoder ρ α) (bs : Bytes) : Except (Fault ρ) α :=
  let document := Document.ofBytes bs
  match d nestingLimit document.root with
  | .error fault => .error fault
  | .ok x => if document.ended then .ok x else .error .unreadable

end HardwareSigner.Json
