import HardwareSigner.TypedData.Basic
/-!
The type text of a struct: its own definition, and after it those of all structs it reaches, in the
order of their names.
-/

namespace HardwareSigner.TypedData

/-- A field type without its array suffixes. -/
def baseType (type : String) : String :=
  String.ofList (type.toList.takeWhile (· ≠ '['))

/-- The structs that a definition refers to. -/
def references (types : Table (List Field)) (name : String) : List String :=
  ((types.get? name).getD []).map (baseType ·.type) |>.filter types.contains

/-- Follows the references of the newest names until nothing new turns up or the fuel is used. -/
def reach (types : Table (List Field)) : (fuel : Nat) → (seen newest : List String) → List String
  | 0, seen, _ => seen
  | fuel + 1, seen, newest =>
    let new := ((newest.flatMap (references types)).filter fun n => !seen.contains n).eraseDups
    if new.isEmpty then seen else reach types fuel (seen ++ new) new

/-- Every round but the last finds a struct that was not seen before. -/
def reachable (types : Table (List Field)) (name : String) : List String :=
  reach types (types.entries.length + 1) [name] [name]

/-- The definition of a struct; that of the domain can be read off the domain itself. -/
def fields? (td : TypedData) (name : String) : Except Error (List Field) :=
  match td.types.get? name with
  | some fields => .ok fields
  | none => if name = domainType then .ok td.domain.typeFields else .error (.undefinedType name)

def definitionChars (name : String) (fields : List Field) : List Char :=
  name.toList ++ '(' ::
    [','].intercalate (fields.map fun f => f.type.toList ++ ' ' :: f.name.toList) ++ [')']

def encodeType (td : TypedData) (name : String) : Except Error String :=
  match td.fields? name with
  | .error e => .error e
  | .ok fields =>
    let reached := reachable td.types name
    let others := td.types.entries.filter fun e => reached.contains e.1 && e.1 ≠ name
    .ok (String.ofList
      (definitionChars name fields ++ others.flatMap fun e => definitionChars e.1 e.2))

end HardwareSigner.TypedData
