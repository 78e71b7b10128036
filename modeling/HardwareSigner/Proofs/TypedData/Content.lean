import HardwareSigner.Proofs.TypedData.Reading
/-!
The content of typed values, and their words with a list of all that is hashed on the way.  Both are
readings; without the lists the second is the one that makes words.
-/

namespace HardwareSigner.TypedData
variable {α β : Type}

/-- What an atomic type sees in a value. -/
inductive Atom where
  | text (utf8 : Bytes)
  | bytes (bs : Bytes)
  | truth (b : Bool)
  | address (a : Address)
  | fixed (padded : Word)
  | natural (n : Nat)
  | integer (z : Int)

/-- The content of a value under an atomic type, if it has one. -/
def AtomType.read (type : String) (value : Json) : AtomType → Except Error Atom
  | .string => (text type value).map fun s => .text (Bytes.ofString s)
  | .bytes =>
    match text type value with
    | .error e => .error e
    | .ok s => (hexBytes s).map .bytes
  | .bool => (truth value).map .truth
  | .address =>
    match text type value with
    | .error e => .error e
    | .ok s =>
      match Address.ofHex s with
      | .ok a => .ok (.address a)
      | .error fault => .error (.invalidTypedData (Fault.badAddress fault))
  | .fixedBytes size =>
    match text type value with
    | .error e => .error e
    | .ok s =>
      match hexBytes s with
      | .error e => .error e
      | .ok bs =>
        if size < bs.length then .error (.invalidTypedData (Fault.bytesTooLong bs.length type))
        else .ok (.fixed (.padRight bs))
  | .uint bits =>
    match natural value with
    | .error fault => .error (.invalidTypedData fault)
    | .ok n =>
      if n < 2 ^ bits then .ok (.natural n) else .error (.invalidTypedData (Fault.tooLarge type))
  | .int bits =>
    match signed value with
    | .error fault => .error (.invalidTypedData fault)
    | .ok z =>
      if -2 ^ (bits - 1) ≤ z ∧ z < 2 ^ (bits - 1) then .ok (.integer z)
      else .error (.invalidTypedData (Fault.outOfRange type))

/-- A result, and the byte strings that were hashed on the way to it, in order. -/
structure Hashed (α : Type) where
  result : α
  inputs : List Bytes

namespace Hashed

def plain (result : α) : Hashed α := ⟨result, []⟩

/-- The only step at which something is hashed. -/
def hash (bs : Bytes) : Hashed Word := ⟨Keccak.hash bs, [bs]⟩

def andThen (first : Hashed α) (next : α → Hashed β) : Hashed β :=
  ⟨(next first.result).result, first.inputs ++ (next first.result).inputs⟩

def all : List (Hashed α) → Hashed (List α)
  | [] => plain []
  | x :: xs => x.andThen fun a => (all xs).andThen fun as => plain (a :: as)

end Hashed

/-- The word of an atom; texts and byte strings are hashed for theirs. -/
def Atom.hashed : Atom → Hashed Word
  | .text bs | .bytes bs => .hash bs
  | .truth b => .plain (.ofNat b.toNat)
  | .address a => .plain a.toWord
  | .fixed w => .plain w
  | .natural n => .plain (.ofNat n)
  | .integer z => .plain (wordOfInt z)

end HardwareSigner.TypedData
