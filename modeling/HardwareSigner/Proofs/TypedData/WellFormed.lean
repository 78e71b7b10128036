import HardwareSigner.Proofs.TypedData.Listing
import HardwareSigner.Proofs.TypedData.TypeNames
import HardwareSigner.Proofs.TypedData.Undeclared
/-!
How much of a schema is checked when a value is hashed.  Types are looked at as values are met, so
nothing is learned of the item type of an array that is empty; all that is met was checked.  Where
no array is empty this is all that the struct leads to, and a struct for which there is no value at
all is one that asks for an unknown type, or for itself, in every value.
-/

namespace HardwareSigner

/-- No array is empty, at any depth. -/
inductive Json.Full : Json → Prop where
  | of {value} : value ≠ .array [] → (∀ child ∈ value.children, Full child) → Full value

theorem Json.Full.child {value child : Json} (full : value.Full) (held : child ∈ value.children) :
    child.Full := by
  cases full with
  | of some each => exact each child held

namespace TypedData

/-- An array's items have the base of its own type. -/
theorem baseType_item {type : String} {array : ArrayType}
    (kind : arrayType type = .ok (some array)) : baseType array.item = baseType type := by
  obtain ⟨count, written, -⟩ := arrayType_some_iff.mp kind
  have stop : ('[' :: (count ++ [']'])).takeWhile (· ≠ '[') = [] := rfl
  rw [baseType, baseType, written, List.takeWhile_append, stop, List.append_nil]
  split
  · rename_i whole
    rw [(List.takeWhile_sublist _).eq_of_length whole]
  · rfl

theorem baseType_of_notMem {type : String} (plain : '[' ∉ type.toList) : baseType type = type := by
  rw [baseType, List.takeWhile_eq_self_iff.mpr, String.ofList_toList]
  intro c here
  rw [decide_eq_true_eq]
  rintro rfl
  exact plain here

theorem Element.baseType {type base : String} {value inner : Json}
    (element : Element type value base inner) : baseType base = baseType type := by
  induction element with
  | here single => rfl
  | item kind here element ih => exact ih.trans (baseType_item kind)

/-- Behind its array suffixes a type is that of a struct that is defined, or of an atom. -/
inductive Resolves (td : TypedData) : String → Prop where
  | array {type array} : arrayType type = .ok (some array) → Resolves td array.item →
      Resolves td type
  | single {type} : arrayType type = .ok none →
      (td.types.contains type = true ∨ ∃ atom, atomType type = .ok atom) → Resolves td type

theorem Element.resolves {td : TypedData} {type base : String} {value inner : Json}
    (element : Element type value base inner) (bottom : Resolves td base) : Resolves td type := by
  induction element with
  | here single => exact bottom
  | item kind here element ih => exact .array kind (ih bottom)

theorem Met.trans {td : TypedData} {name middle target : String} {value struct inner : Json}
    (first : Met td name value middle struct) (second : Met td middle struct target inner) :
    Met td name value target inner := by
  induction first with
  | here => exact second
  | field declared here held element known _ ih =>
      exact .field declared here held element known (ih second)

namespace Reading
variable {α : Type} {R : Reading α} {td : TypedData}

theorem known_of_single {type : String} {value : Json} {x : α}
    (single : arrayType type = .ok none) (read : R.readValue td value type = .ok x) :
    td.types.contains type = true ∨ ∃ atom, atomType type = .ok atom := by
  rw [readValue_ok_iff] at read
  cases read with
  | array kind _ _ =>
      rw [single] at kind
      cases kind
  | struct _ known _ => exact .inl known
  | atom _ _ found _ => exact .inr ⟨_, found⟩

/-- A type is known to be right as soon as there is one value at the bottom. -/
theorem resolves_of_element {type base : String} {value inner : Json} {x : α}
    (read : R.readValue td value type = .ok x) (element : Element type value base inner) :
    Resolves td type := by
  obtain ⟨single, y, read⟩ := R.readValue_element td read element
  exact element.resolves (.single single (known_of_single single read))

/-- A value without empty arrays has something at the bottom. -/
theorem exists_element {value : Json} (full : value.Full) {type : String} {x : α}
    (read : R.readValue td value type = .ok x) :
    ∃ base inner, Element type value base inner ∧ inner.Full := by
  induction full generalizing type x with
  | @of value some each ih =>
      rw [readValue_ok_iff] at read
      cases read with
      | @array array items xs kind count itemwise =>
          cases itemwise with
          | nil => exact absurd rfl some
          | @cons item _ rest _ first _ =>
              have here : item ∈ (Json.array (item :: rest)).children := List.mem_cons_self
              obtain ⟨base, inner, element, full⟩ := ih item here first
              exact ⟨base, inner, .item kind here element, full⟩
      | struct single _ _ => exact ⟨_, _, .here single, .of some each⟩
      | atom single _ _ _ => exact ⟨_, _, .here single, .of some each⟩

/-- What stands at the bottom has the base of the whole type, if no struct looks like an array. -/
theorem base_of_element (plain : ∀ n ∈ td.types.keys, '[' ∉ n.toList) {type base : String}
    {value inner : Json} {x : α} (read : R.readValue td value type = .ok x)
    (element : Element type value base inner) : baseType type = base := by
  obtain ⟨single, y, read⟩ := R.readValue_element td read element
  rw [← element.baseType]
  apply baseType_of_notMem
  rcases known_of_single single read with known | ⟨atom, found⟩
  · exact plain base (Table.mem_keys_iff.mpr (Option.isSome_iff_exists.mp known))
  · exact (atomType_ok_iff.mp found).notMem (.inl rfl)

/-- Where no array is empty, all structs that are reached are met. -/
theorem met_of_reaches (plain : ∀ n ∈ td.types.keys, '[' ∉ n.toList) {name target : String}
    {value : Json} {x : α} (read : R.readStruct td name value = .ok x) (full : value.Full)
    (reached : Reaches td.types name target) :
    ∃ struct, Met td name value target struct ∧ struct.Full := by
  induction reached with
  | here => exact ⟨value, .here, full⟩
  | @field middle fields f _ defined here known ih =>
      obtain ⟨struct, met, full⟩ := ih
      obtain ⟨y, read⟩ := R.readStruct_met td read met
      have declared : td.fields? middle = .ok fields := by rw [fields?, defined]
      rw [readStruct_ok_iff] at read
      cases read with
      | object _ declared' _ fieldwise =>
          obtain rfl := Except.ok.inj (declared.symm.trans declared')
          obtain ⟨z, -, held, found, read⟩ := exists_of_forall₂ fieldwise here
          obtain ⟨base, inner, element, full⟩ :=
            exists_element (full.child (Json.mem_children_of_lookup found)) read
          obtain rfl := base_of_element plain read element
          exact ⟨inner, met.trans (.field declared here found element known .here), full⟩

end Reading

/-- Types under which some value can be hashed.  The items of an array are asked for only if their
number is fixed, and not zero. -/
inductive Fillable (td : TypedData) : String → Prop where
  | array {type array} : arrayType type = .ok (some array) →
      (∀ n, array.length = some (n + 1) → Fillable td array.item) → Fillable td type
  | struct {type fields} : arrayType type = .ok none → td.types.get? type = some fields →
      (∀ f ∈ fields, Fillable td f.type) → Fillable td type
  | atom {type atom} : arrayType type = .ok none → td.types.contains type = false →
      atomType type = .ok atom → Fillable td type

namespace Reading
variable {α : Type} {R : Reading α} {td : TypedData}

theorem StructRead.fillable {name : String} {value : Json} {x : α}
    (ih : ∀ child ∈ value.children, ∀ type y, R.readValue td child type = .ok y →
      Fillable td type)
    (read : StructRead R td name value x) :
    ∃ fields, td.fields? name = .ok fields ∧ ∀ f ∈ fields, Fillable td f.type := by
  cases read with
  | @object _ fields _ _ _ declared _ fieldwise =>
      refine ⟨fields, declared, ?_⟩
      intro f here
      obtain ⟨y, -, held, found, read⟩ := exists_of_forall₂ fieldwise here
      exact ih held (Json.mem_children_of_lookup found) _ _ read

theorem readValue_fillable (value : Json) :
    ∀ type x, R.readValue td value type = .ok x → Fillable td type := by
  induction value using Json.ind with
  | step value ih =>
      intro type x read
      rw [readValue_ok_iff] at read
      cases read with
      | @array array items _ kind count itemwise =>
          refine .array kind ?_
          intro n fixed
          cases itemwise with
          | nil => cases count _ fixed
          | @cons item _ rest _ first _ => exact ih item List.mem_cons_self _ _ first
      | struct single known read =>
          obtain ⟨fields, declared, fillable⟩ := ((readStruct_ok_iff R td).mp read).fillable ih
          exact .struct single ((fields?_of_contains known fields).mp declared) fillable
      | atom single unknown found _ => exact .atom single unknown found

theorem readStruct_fillable {name : String} {value : Json} {x : α}
    (read : R.readStruct td name value = .ok x) :
    ∃ fields, td.fields? name = .ok fields ∧ ∀ f ∈ fields, Fillable td f.type :=
  ((readStruct_ok_iff R td).mp read).fillable fun child _ => readValue_fillable child

end Reading

/-- A value of an atomic type. -/
def AtomType.sample : AtomType → Json
  | .string | .bytes | .fixedBytes _ => .string ""
  | .bool => .bool true
  | .address => .string (Address.toHex .zero)
  | .uint _ | .int _ => .ofNat 0

theorem AtomType.encode_sample (atom : AtomType) (type : String) :
    ∃ word, atom.encode type atom.sample = .ok word := by
  cases atom with
  | string | bytes | bool => exact ⟨_, rfl⟩
  | fixedBytes size =>
      have read : hexBytes "" = .ok [] := rfl
      simp only [encode, sample, text, read, List.length_nil, Nat.not_lt_zero, if_false]
      exact ⟨_, rfl⟩
  | address =>
      have read : Address.ofHex (Address.toHex .zero) = .ok .zero := by decide +kernel
      simp only [encode, sample, text, read]
      exact ⟨_, rfl⟩
  | uint bits => exact ⟨.ofNat 0, if_pos (Nat.two_pow_pos bits)⟩
  | int bits =>
      have positive : (0 : Int) < 2 ^ (bits - 1) := Int.pow_pos (by decide)
      exact ⟨wordOfInt 0, if_pos ⟨Int.neg_nonpos_of_nonneg (Int.le_of_lt positive), positive⟩⟩

/-- Fields with names of their own can be given any values. -/
theorem exists_members {fields : List Field} (distinct : (fields.map (·.name)).Nodup)
    (value : Field → Json) :
    ∃ t : Table Json, t.entries.length ≤ fields.length ∧
      ∀ f ∈ fields, t.entries.lookup f.name = some (value f) := by
  refine ⟨.ofList (fields.map fun f => (f.name, value f)), ?_, ?_⟩
  · refine (Table.length_ofList_le _).trans_eq ?_
    rw [List.length_map]
  · intro f here
    refine Table.get?_ofList ?_ (List.mem_map_of_mem here)
    rw [List.map_map]
    exact distinct

section
variable {td : TypedData}

/-- A struct can be hashed if its fields can. -/
theorem exists_struct {name : String} {fields : List Field}
    (declared : td.fields? name = .ok fields) (distinct : (fields.map (·.name)).Nodup)
    (each : ∀ f ∈ fields, ∃ value word, words.readValue td value f.type = .ok word) :
    ∃ value word, words.readStruct td name value = .ok word := by
  choose! value word read using each
  obtain ⟨t, size, found⟩ := exists_members distinct value
  have fieldwise : List.Forall₂ (Reading.MemberRead words td t.entries) fields
      (fields.map word) := by
    rw [List.forall₂_map_right_iff, List.forall₂_same]
    intro f here
    exact ⟨value f, found f here, read f here⟩
  exact ⟨.object t.entries, _, (Reading.readStruct_ok_iff words td).mpr
    (.object (encodeType_of_fields? declared) declared size fieldwise)⟩

/-- As many items as an array type asks for. -/
theorem exists_items {array : ArrayType}
    (each : ∀ n, array.length = some (n + 1) →
      ∃ value word, words.readValue td value array.item = .ok word) :
    ∃ items ws, (∀ n, array.length = some n → items.length = n) ∧
      List.Forall₂ (fun item w => words.readValue td item array.item = .ok w) items ws := by
  rcases fixed : array.length with _ | _ | n
  · exact ⟨[], [], nofun, .nil⟩
  · refine ⟨[], [], ?_, .nil⟩
    rintro n ⟨⟩
    rfl
  · obtain ⟨value, word, read⟩ := each n fixed
    have alike (m : Nat) : List.Forall₂ (fun item w => words.readValue td item array.item = .ok w)
        (List.replicate m value) (List.replicate m word) := by
      induction m with
      | zero => exact .nil
      | succ m ih => exact .cons read ih
    refine ⟨_, _, ?_, alike (n + 1)⟩
    rintro m ⟨⟩
    exact List.length_replicate

theorem Fillable.exists_word
    (distinct : ∀ n fields, td.fields? n = .ok fields → (fields.map (·.name)).Nodup)
    {type : String} (fillable : Fillable td type) :
    ∃ value word, words.readValue td value type = .ok word := by
  induction fillable with
  | array kind _ ih =>
      obtain ⟨items, ws, count, itemwise⟩ := exists_items ih
      exact ⟨_, _, (Reading.readValue_ok_iff words td).mpr (.array kind count itemwise)⟩
  | @struct type fields single defined _ ih =>
      have known : td.types.contains type = true := by
        rw [Table.contains, defined, Option.isSome_some]
      have declared := (fields?_of_contains known fields).mpr defined
      obtain ⟨value, word, read⟩ := exists_struct declared (distinct type fields declared) ih
      refine ⟨value, word, ?_⟩
      rw [Reading.readValue_struct words td single known]
      exact read
  | @atom type atom single unknown found =>
      obtain ⟨word, encoded⟩ := atom.encode_sample type
      exact ⟨_, _, (Reading.readValue_ok_iff words td).mpr (.atom single unknown found encoded)⟩

end

/-- Some value can be hashed as a struct just when all fields can be filled, as long as no
definition names a field twice. -/
theorem exists_hashStruct_iff {td : TypedData} (name : String)
    (distinct : ∀ n fields, td.fields? n = .ok fields → (fields.map (·.name)).Nodup) :
    (∃ value h, td.hashStruct name value = .ok h) ↔
      ∃ fields, td.fields? name = .ok fields ∧ ∀ f ∈ fields, Fillable td f.type := by
  simp only [hashStruct_eq]
  constructor
  · rintro ⟨value, h, read⟩
    exact Reading.readStruct_fillable read
  · rintro ⟨fields, declared, fillable⟩
    exact exists_struct declared (distinct name fields declared)
      fun f here => (fillable f here).exists_word distinct

/-- What is known of a schema once a value was hashed under it.  Wherever a struct is met, the type
of a field names a struct that is defined or an atom, unless an empty array is all that is held.  So
it is with every struct that is reached if no array is empty, and no struct looks like an array.
Whatever the value, nothing but an array that may be empty hides an unknown type. -/
theorem schema_of_hashStruct {td : TypedData} {name : String} {value : Json} {h : Word}
    (hashed : td.hashStruct name value = .ok h) :
    (∀ target struct, Met td name value target struct →
      ∃ fields members, td.fields? target = .ok fields ∧ struct = .object members ∧
        ∀ f ∈ fields, ∃ held, members.lookup f.name = some held ∧
          ((∃ base inner, Element f.type held base inner) → Resolves td f.type)) ∧
    (value.Full → (∀ n ∈ td.types.keys, '[' ∉ n.toList) →
      ∀ n, Reaches td.types name n →
        ∃ fields, td.fields? n = .ok fields ∧ ∀ f ∈ fields, Resolves td f.type) ∧
    ∃ fields, td.fields? name = .ok fields ∧ ∀ f ∈ fields, Fillable td f.type := by
  rw [hashStruct_eq] at hashed
  have checked : ∀ target struct, Met td name value target struct →
      ∃ fields members, td.fields? target = .ok fields ∧ struct = .object members ∧
        ∀ f ∈ fields, ∃ held, members.lookup f.name = some held ∧
          ∃ word, words.readValue td held f.type = .ok word := by
    intro target struct met
    obtain ⟨y, read⟩ := words.readStruct_met td hashed met
    rw [Reading.readStruct_ok_iff] at read
    cases read with
    | @object _ fields members _ _ declared _ fieldwise =>
        refine ⟨fields, members, declared, rfl, ?_⟩
        intro f here
        obtain ⟨word, -, held, found, read⟩ := exists_of_forall₂ fieldwise here
        exact ⟨held, found, word, read⟩
  refine ⟨?_, ?_, Reading.readStruct_fillable hashed⟩
  · intro target struct met
    obtain ⟨fields, members, declared, object, each⟩ := checked target struct met
    refine ⟨fields, members, declared, object, ?_⟩
    intro f here
    obtain ⟨held, found, word, read⟩ := each f here
    refine ⟨held, found, ?_⟩
    rintro ⟨base, inner, element⟩
    exact Reading.resolves_of_element read element
  · intro full plain n reached
    obtain ⟨struct, met, full⟩ := Reading.met_of_reaches plain hashed full reached
    obtain ⟨fields, members, declared, rfl, each⟩ := checked n struct met
    refine ⟨fields, declared, ?_⟩
    intro f here
    obtain ⟨held, found, word, read⟩ := each f here
    obtain ⟨base, inner, element, -⟩ :=
      Reading.exists_element (full.child (Json.mem_children_of_lookup found)) read
    exact Reading.resolves_of_element read element

/-- An order in which every array holds something. -/
theorem schema_of_hashStruct_order :
    let td : TypedData := ⟨.empty, .ofList [("Order", [⟨"lines", "Line[][1]"⟩, ⟨"boss", "Person"⟩]),
      ("Line", [⟨"item", "string"⟩]), ("Person", [⟨"name", "string"⟩])], "Order", .null⟩
    let line := Json.object [("item", .string "nut")]
    let boss := Json.object [("name", .string "Ada")]
    let order := Json.object [("boss", boss), ("lines", .array [.array [line, line]])]
    (∃ h, td.hashStruct "Order" order = .ok h) ∧ order.Full ∧
      (∀ n ∈ td.types.keys, '[' ∉ n.toList) ∧
      (∀ n, Reaches td.types "Order" n →
        ∃ fields, td.fields? n = .ok fields ∧ ∀ f ∈ fields, Resolves td f.type) ∧
      Met td "Order" order "Line" line ∧ Fillable td "Line[][1]" := by
  intro td line boss order
  have hashable : (td.hashStruct "Order" order).isOk = true := by decide +kernel
  have text (s : String) : (Json.string s).Full := .of nofun nofun
  have fullLine : line.Full := .of nofun (List.forall_mem_singleton.mpr (text "nut"))
  have fullBoss : boss.Full := .of nofun (List.forall_mem_singleton.mpr (text "Ada"))
  have fullPair : (Json.array [line, line]).Full :=
    .of nofun (List.forall_mem_cons.mpr ⟨fullLine, List.forall_mem_singleton.mpr fullLine⟩)
  have fullLines : (Json.array [.array [line, line]]).Full :=
    .of nofun (List.forall_mem_singleton.mpr fullPair)
  have full : order.Full :=
    .of nofun (List.forall_mem_cons.mpr ⟨fullBoss, List.forall_mem_singleton.mpr fullLines⟩)
  have plain : ∀ n ∈ td.types.keys, '[' ∉ n.toList := by decide +kernel
  have element : Element "Line[][1]" (.array [.array [line, line]]) "Line" line :=
    .item rfl List.mem_cons_self (.item rfl List.mem_cons_self (.here rfl))
  have met : Met td "Order" order "Line" line :=
    .field rfl List.mem_cons_self rfl element rfl .here
  cases hashed : td.hashStruct "Order" order with
  | error e =>
      rw [hashed] at hashable
      cases hashable
  | ok h =>
      obtain ⟨-, reached, fields, declared, fillable⟩ := schema_of_hashStruct hashed
      have known : td.fields? "Order" = .ok [⟨"lines", "Line[][1]"⟩, ⟨"boss", "Person"⟩] := rfl
      cases declared.symm.trans known
      exact ⟨⟨h, rfl⟩, full, plain, reached full plain, met, fillable _ List.mem_cons_self⟩

theorem not_resolves {td : TypedData} {type : String} {fault : Fault}
    (single : arrayType type = .ok none) (unknown : td.types.contains type = false)
    (unread : atomType type = .error fault) : ¬ Resolves td type := by
  intro resolves
  cases resolves with
  | array kind _ =>
      rw [single] at kind
      cases kind
  | single _ known =>
      rw [unknown, unread] at known
      rcases known with known | ⟨atom, found⟩
      · cases known
      · cases found

/-- A struct that is not defined goes unnoticed as the item type of an empty array.  It also does if
only a struct refers to it that is reached and never met: the base of `Fee[` is `Fee`, but what is
met under that type is the struct of that very name. -/
theorem undefined_struct_is_hashed :
    let bare : TypedData := ⟨.empty, .ofList [("Tx", [⟨"fees", "Fee[]"⟩])], "Tx", .null⟩
    let alike : TypedData := ⟨.empty, .ofList [("Tx", [⟨"fee", "Fee["⟩]),
      ("Fee[", [⟨"gas", "string"⟩]), ("Fee", [⟨"coin", "Coin"⟩])], "Tx", .null⟩
    (∃ h, bare.hashStruct "Tx" (.object [("fees", .array [])]) = .ok h) ∧
      bare.fields? "Tx" = .ok [⟨"fees", "Fee[]"⟩] ∧ ¬ Resolves bare "Fee[]" ∧
    (∃ h, alike.hashStruct "Tx" (.object [("fee", .object [("gas", .string "1")])]) = .ok h) ∧
      Reaches alike.types "Tx" "Fee" ∧ alike.fields? "Fee" = .ok [⟨"coin", "Coin"⟩] ∧
      ¬ Resolves alike "Coin" := by
  intro bare alike
  refine ⟨⟨_, rfl⟩, rfl, ?_, ⟨_, rfl⟩, ?_, rfl, not_resolves rfl rfl rfl⟩
  · intro resolves
    cases resolves with
    | array kind item =>
        cases kind
        exact not_resolves rfl rfl rfl item
    | single single _ => cases single
  · exact mem_reachable_iff.mp (by decide +kernel)

end TypedData

end HardwareSigner
