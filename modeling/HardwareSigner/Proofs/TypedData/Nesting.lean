import HardwareSigner.Proofs.TypedData.AcceptedTypes
import Mathlib.Logic.Relation
/-!
Why hashing ends, on recursive schemas too.  Whatever the schema, a value is encoded from the words
of what it directly holds, so that encoders are nested no deeper than values are.  A struct that a
value of it would have to hold once more, through fields and vectors that are not empty, has no
values.
-/

namespace HardwareSigner.TypedData
open Text (Padded)

/-- A base with suffixes `[n]` only, none of which asks for nothing. -/
inductive VectorOf (base : String) : String → Prop where
  | base : VectorOf base base
  | vector {item n cs} : VectorOf base item → Padded (n + 1) cs →
      VectorOf base (item ++ "[" ++ String.ofList cs ++ "]")

/-- Every value of the first struct holds one of the second in some field. -/
inductive Requires (td : TypedData) (name : String) : String → Prop where
  | field {fields f target} : td.types.get? name = some fields → f ∈ fields →
      td.types.contains target = true → target.toList.getLast? ≠ some ']' →
      VectorOf target f.type → Requires td name target

section
variable {td : TypedData}

/-- A type with a suffix `[n]` is one of so many items, if it is read at all. -/
theorem arrayType_of_vector {item : String} {n : Nat} {cs : List Char} (number : Padded n cs)
    {array? : Option ArrayType}
    (kind : arrayType (item ++ "[" ++ String.ofList cs ++ "]") = .ok array?) :
    array? = some ⟨item, some n⟩ := by
  rw [arrayType_of_brackets (number.notMem (.inl rfl)) (toList_brackets item cs)] at kind
  obtain ⟨length, read, rfl⟩ := map_eq_ok kind
  cases readCount_ok_iff.mp read with
  | any => exact absurd rfl number.ne_nil
  | exact number' => rw [number.unique number'.1]

/-- Filling a type ends, and with it what the structs in it require. -/
theorem Fillable.acc {type : String} (fillable : Fillable td type) :
    ∀ {base}, VectorOf base type → td.types.contains base = true →
      base.toList.getLast? ≠ some ']' → Acc (fun target name => Requires td name target) base := by
  induction fillable with
  | @array type array kind _ ih =>
      intro base vector known plain
      cases vector with
      | base =>
          rw [arrayType_of_getLast? plain] at kind
          cases kind
      | vector inside number =>
          obtain rfl := Option.some.inj (arrayType_of_vector number kind)
          exact ih _ rfl inside known plain
  | struct single defined _ ih =>
      intro base vector _ _
      cases vector with
      | base =>
          constructor
          rintro target ⟨defined', here, known, plain, inside⟩
          cases defined.symm.trans defined'
          exact ih _ here inside known plain
      | vector _ number => cases arrayType_of_vector number single
  | atom single unknown _ =>
      intro base vector known _
      cases vector with
      | base =>
          rw [known] at unknown
          cases unknown
      | vector _ number => cases arrayType_of_vector number single

theorem Requires.plain {name target : String} (requires : Requires td name target) :
    td.types.contains target = true ∧ target.toList.getLast? ≠ some ']' := by
  cases requires with
  | field _ _ known plain _ => exact ⟨known, plain⟩

theorem irrefl_of_acc {α : Type} {r : α → α → Prop} {a : α} (acc : Acc (fun b a => r a b) a) :
    ¬ Relation.TransGen r a a := by
  induction acc with
  | intro a _ ih =>
      intro cycle
      obtain ⟨b, first, rest⟩ := Relation.TransGen.head'_iff.mp cycle
      exact ih b first (.tail' rest first)

/-- No value is an instance of a struct that requires itself. -/
theorem exists_error_of_cycle {name : String} (cycle : Relation.TransGen (Requires td) name name)
    (value : Json) : ∃ e, td.hashStruct name value = .error e := by
  cases hashed : td.hashStruct name value with
  | error e => exact ⟨e, rfl⟩
  | ok h =>
      -- A value would fill the struct, and a struct that is filled requires nothing without end.
      obtain ⟨_, -, last⟩ := Relation.TransGen.tail'_iff.mp cycle
      obtain ⟨known, plain⟩ := last.plain
      rw [hashStruct_eq] at hashed
      obtain ⟨fields, declared, fillable⟩ := Reading.readStruct_fillable hashed
      have defined := (fields?_of_contains known fields).mp declared
      have fillable : Fillable td name := .struct (arrayType_of_getLast? plain) defined fillable
      exact absurd cycle (irrefl_of_acc (fillable.acc .base known plain))

/-- Words one after another, up to the first error; nothing if one that is asked for is missing. -/
def collect : List (Option (Except Error Word)) → Option (Except Error (List Word))
  | [] => some (.ok [])
  | none :: _ => none
  | some (.error e) :: _ => some (.error e)
  | some (.ok word) :: rest => (collect rest).map fun words => words.map (word :: ·)

/-- The call for the word of a field, if it is held. -/
def callField (call : Json → String → Option (Except Error Word)) (name : String)
    (members : List (String × Json)) (f : Field) : Option (Except Error Word) :=
  match members.lookup f.name with
  | none => some (.error (.invalidTypedData (Fault.missingField name f.name)))
  | some held => call held f.type

/-- The hash of a struct, where the words of its fields are called for. -/
def hashWith (td : TypedData) (call : Json → String → Option (Except Error Word)) (name : String)
    (value : Json) : Option (Except Error Word) :=
  match td.encodeType name, td.fields? name with
  | .error e, _ | _, .error e => some (.error e)
  | .ok text, .ok fields =>
    match value with
    | .object members =>
      if fields.length < members.length then
        some (.error (.invalidTypedData (Fault.extraData name fields.length members.length)))
      else
        (collect (fields.map (callField call name members))).map fun words =>
          words.map fun words => Keccak.hash (structBytes text words)
    | _ => some (.error (.invalidTypedData (Fault.expectedObject name)))

/-- The word of a value, where those of the values that it holds are called for. -/
def encodeWith (td : TypedData) (call : Json → String → Option (Except Error Word)) (value : Json)
    (type : String) : Option (Except Error Word) :=
  match arrayType type with
  | .error fault => some (.error (.invalidTypedData fault))
  | .ok (some array) =>
    match value with
    | .array items =>
      if array.length.any (· ≠ items.length) then
        some (.error (.invalidTypedData
          (Fault.itemCount type (array.length.getD 0) items.length)))
      else
        (collect (items.map fun item => call item array.item)).map fun words =>
          words.map fun words => Keccak.hash (words.flatMap Word.bytes)
    | _ => some (.error (.invalidTypedData (Fault.expectedArray type)))
  | .ok none =>
    if td.types.contains type then hashWith td call type value else some (encodeAtom type value)

/-- Answers the calls for what a value directly holds, and no others. -/
def within (value : Json) (answer : Json → String → Except Error Word) (child : Json)
    (type : String) : Option (Except Error Word) :=
  if child ∈ value.children then some (answer child type) else none

/-- The encoder with room for so many calls inside each other; without any it has no answer. -/
def limited (td : TypedData) : (room : Nat) → Json → String → Option (Except Error Word)
  | 0, _, _ => none
  | room + 1, value, type => encodeWith td (limited td room) value type

theorem collect_items {call : Json → String → Option (Except Error Word)} {items : List Json}
    {type : String}
    (each : ∀ item ∈ items, call item type = some (words.readValue td item type)) :
    collect (items.map fun item => call item type) = some (words.readItems td items type) := by
  induction items with
  | nil => rfl
  | cons item rest ih =>
      obtain ⟨first, others⟩ := List.forall_mem_cons.mp each
      rw [List.map_cons, first, Reading.readItems]
      cases words.readValue td item type with
      | error e => rfl
      | ok word => rw [collect, ih others, Option.map_some]

theorem collect_fields {call : Json → String → Option (Except Error Word)} {name : String}
    {members : List (String × Json)} {fields : List Field}
    (each : ∀ (f : Field) held, members.lookup f.name = some held →
      call held f.type = some (words.readValue td held f.type)) :
    collect (fields.map (callField call name members)) =
      some (Reading.readFields name (words.readMember td members) fields) := by
  induction fields with
  | nil => rfl
  | cons f fs ih =>
      rw [List.map_cons, callField, Reading.readFields, Reading.readMember_eq]
      cases found : members.lookup f.name with
      | none => rfl
      | some held =>
          simp only [each f held found, Option.map_some]
          cases words.readValue td held f.type with
          | error e => rfl
          | ok word => rw [collect, ih, Option.map_some]

/-- It is enough to answer the calls for what a value directly holds. -/
theorem hashWith_eq {call : Json → String → Option (Except Error Word)} {value : Json}
    (each : ∀ child ∈ value.children, ∀ type, call child type = some (td.encodeField child type))
    (name : String) : hashWith td call name value = some (td.hashStruct name value) := by
  simp only [encodeField_eq] at each
  rw [hashStruct_eq, hashWith]
  cases value with
  | object members =>
      have called (fields : List Field) :
          collect (fields.map (callField call name members)) =
            some (Reading.readFields name (words.readMember td members) fields) :=
        collect_fields fun f held found => each held (Json.mem_children_of_lookup found) f.type
      simp only [Reading.readStruct, Reading.readMembers, called]
      cases td.encodeType name with
      | error e => rfl
      | ok text =>
          cases td.fields? name with
          | error e => rfl
          | ok fields =>
              simp only
              split
              · rfl
              · rfl
  | null | bool | number | string | array =>
      simp only [Reading.readStruct, Reading.readMembers]
      cases td.encodeType name with
      | error e => rfl
      | ok text => cases td.fields? name <;> rfl

theorem encodeWith_eq {call : Json → String → Option (Except Error Word)} {value : Json}
    (each : ∀ child ∈ value.children, ∀ type, call child type = some (td.encodeField child type))
    (type : String) : encodeWith td call value type = some (td.encodeField value type) := by
  rw [encodeWith, encodeField_eq]
  rcases kind : arrayType type with fault | none | array
  · cases value <;> simp only [Reading.readValue, kind]
  · simp only
    cases known : td.types.contains type with
    | true =>
        rw [if_pos rfl, hashWith_eq each, hashStruct_eq, words.readValue_struct td kind known]
    | false =>
        rw [words.readValue_atom td kind known]
        rfl
  · cases value with
    | array items =>
        have called : collect (items.map fun item => call item array.item) =
            some (words.readItems td items array.item) := by
          apply collect_items
          intro item held
          rw [each item held, encodeField_eq]
        simp only [Reading.readValue, kind, called]
        split
        · rfl
        · rfl
    | null | bool | number | string | object => simp only [Reading.readValue, kind]

theorem limited_eq {room : Nat} {value : Json} (enough : value.depth < room) (type : String) :
    limited td room value type = some (td.encodeField value type) := by
  induction room generalizing value type with
  | zero => cases enough
  | succ room ih =>
      apply encodeWith_eq
      intro child held type
      exact ih (Nat.lt_of_lt_of_le (Json.depth_child held) (Nat.le_of_lt_succ enough)) type

/-- Hashing ends.  A struct that requires itself is refused for every value, and whatever is encoded
needs the words of the values that it directly holds, and no others; so there is room enough for
all calls inside each other if there is as much as the value is deep. -/
theorem hashing_ends (td : TypedData) :
    (∀ name, Relation.TransGen (Requires td) name name →
      ∀ value, ∃ e, td.hashStruct name value = .error e) ∧
    ∀ value,
      (∀ child ∈ value.children, child.depth < value.depth) ∧
      (∀ type,
        encodeWith td (within value td.encodeField) value type = some (td.encodeField value type) ∧
        limited td (value.depth + 1) value type = some (td.encodeField value type)) ∧
      ∀ name,
        hashWith td (within value td.encodeField) name value = some (td.hashStruct name value) ∧
        hashWith td (limited td value.depth) name value = some (td.hashStruct name value) := by
  refine ⟨fun name cycle => exists_error_of_cycle cycle, ?_⟩
  intro value
  have held : ∀ child ∈ value.children, ∀ type,
      within value td.encodeField child type = some (td.encodeField child type) :=
    fun child held type => if_pos held
  have enough : ∀ child ∈ value.children, ∀ type,
      limited td value.depth child type = some (td.encodeField child type) :=
    fun child held => limited_eq (Json.depth_child held)
  refine ⟨fun child => Json.depth_child, ?_, ?_⟩
  · intro type
    exact ⟨encodeWith_eq held type, encodeWith_eq enough type⟩
  · intro name
    exact ⟨hashWith_eq held name, hashWith_eq enough name⟩

/-- Nodes hold pairs and pairs hold nodes, whereas a tree may have no further trees in it; the one
that has takes all the room that there is. -/
theorem hashing_ends_tree :
    let td : TypedData := ⟨.empty, .ofList [("Node", [⟨"pair", "Pair"⟩]),
      ("Pair", [⟨"nodes", "Node[2][1]"⟩]), ("Tree", [⟨"kids", "Tree[]"⟩, ⟨"tags", "string[]"⟩])],
      "Tree", .null⟩
    let leaf := Json.object [("kids", .array []), ("tags", .array [.string "oak"])]
    let tree := Json.object [("kids", .array [leaf]), ("tags", .array [])]
    Relation.TransGen (Requires td) "Node" "Node" ∧
      (∀ value, ∃ e, td.hashStruct "Node" value = .error e) ∧ tree.depth = 4 ∧
      (∃ h, td.hashStruct "Tree" tree = .ok h) ∧
      hashWith td (limited td 4) "Tree" tree = some (td.hashStruct "Tree" tree) ∧
      hashWith td (limited td 3) "Tree" tree = none := by
  intro td leaf tree
  have numbered (n : Nat) : Padded n (Nat.toDigits 10 n) := .zeros 0
  have nodes : VectorOf "Node" "Node[2][1]" :=
    .vector (.vector .base (numbered 2)) (numbered 1)
  have first : Requires td "Node" "Pair" :=
    .field rfl List.mem_cons_self rfl (by decide) .base
  have second : Requires td "Pair" "Node" :=
    .field rfl List.mem_cons_self rfl (by decide) nodes
  have cycle : Relation.TransGen (Requires td) "Node" "Node" := .tail (.single first) second
  obtain ⟨refused, bounded⟩ := hashing_ends td
  obtain ⟨-, -, ends⟩ := bounded tree
  exact ⟨cycle, refused "Node" cycle, rfl, exists_of_isOk (by decide +kernel), (ends "Tree").2,
    by decide +kernel⟩

end

end HardwareSigner.TypedData
