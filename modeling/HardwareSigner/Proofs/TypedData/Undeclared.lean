import HardwareSigner.Proofs.Forall2
import HardwareSigner.Proofs.Table
import HardwareSigner.Proofs.TypedData.Reading
import Mathlib.Data.List.Dedup
import Mathlib.Data.Fintype.EquivFin
/-!
Members that no definition declares.  Wherever a struct is met, an object that is hashed has as many
members as fields at most, and a member for each name.  If the names are distinct this leaves room
for no other member; where a name is declared twice an undeclared member is passed over in silence.
-/

namespace HardwareSigner.TypedData
variable {α : Type}

/-- What nested arrays hold at the bottom: a value, and its type without the array suffixes. -/
inductive Element : (type : String) → Json → (base : String) → Json → Prop where
  | here {type value} : arrayType type = .ok none → Element type value type value
  | item {type array items item base inner} : arrayType type = .ok (some array) → item ∈ items →
      Element array.item item base inner → Element type (.array items) base inner

/-- The structs that are met in a value when it is encoded as a struct; the value comes first. -/
inductive Met (td : TypedData) : (name : String) → Json → (target : String) → Json → Prop where
  | here {name value} : Met td name value name value
  | field {name fields members f value base inner target struct} : td.fields? name = .ok fields →
      f ∈ fields → members.lookup f.name = some value → Element f.type value base inner →
      td.types.contains base = true → Met td base inner target struct →
      Met td name (.object members) target struct

namespace Reading
variable (R : Reading α) (td : TypedData)

theorem readValue_element {type base : String} {value inner : Json} {x : α}
    (read : R.readValue td value type = .ok x) (element : Element type value base inner) :
    arrayType base = .ok none ∧ ∃ y, R.readValue td inner base = .ok y := by
  induction element generalizing x with
  | here single => exact ⟨single, x, read⟩
  | item kind here element ih =>
      rw [readValue_ok_iff] at read
      cases read with
      | array kind' count itemwise =>
          obtain rfl := Option.some.inj (Except.ok.inj (kind.symm.trans kind'))
          obtain ⟨y, -, read⟩ := exists_of_forall₂ itemwise here
          exact ih read
      | struct single _ _ | atom single _ _ _ =>
          rw [kind] at single
          cases single

theorem readStruct_met {name target : String} {value struct : Json} {x : α}
    (read : R.readStruct td name value = .ok x) (met : Met td name value target struct) :
    ∃ y, R.readStruct td target struct = .ok y := by
  induction met generalizing x with
  | here => exact ⟨x, read⟩
  | field declared here held element known met ih =>
      rw [readStruct_ok_iff] at read
      cases read with
      | object written declared' fits fieldwise =>
          obtain rfl := Except.ok.inj (declared.symm.trans declared')
          obtain ⟨y, -, value, held', read⟩ := exists_of_forall₂ fieldwise here
          obtain rfl := Option.some.inj (held.symm.trans held')
          obtain ⟨single, z, read⟩ := readValue_element R td read element
          rw [readValue_struct R td single known] at read
          exact ih read

end Reading

/-- Every declared name once more, with the value it has, and one name besides. -/
def crowd (fields : List Field) (members : List (String × Json)) (extra : String) : Table Json :=
  .ofList ((extra :: fields.map (·.name)).map fun name => (name, (members.lookup name).getD .null))

theorem crowd_lookup {fields : List Field} {members : List (String × Json)} {f : Field}
    {value : Json} (here : f ∈ fields) (held : members.lookup f.name = some value)
    (extra : String) : (crowd fields members extra).entries.lookup f.name = some value := by
  have among : f.name ∈ extra :: fields.map (·.name) :=
    List.mem_cons_of_mem _ (List.mem_map_of_mem here)
  have found := Table.get?_ofList_map (extra :: fields.map (·.name))
    (fun name => (members.lookup name).getD .null) f.name
  rw [if_pos among, held] at found
  exact found

theorem crowd_length {fields : List Field} (twice : ¬ (fields.map (·.name)).Nodup)
    (members : List (String × Json)) (extra : String) :
    (crowd fields members extra).entries.length ≤ fields.length := by
  have fewer : (fields.map (·.name)).dedup.length < (fields.map (·.name)).length := by
    apply Nat.lt_of_le_of_ne (List.dedup_sublist _).length_le
    intro same
    rw [← (List.dedup_sublist _).eq_of_length same] at twice
    exact twice (List.nodup_dedup _)
  have within : (crowd fields members extra).keys ⊆ extra :: (fields.map (·.name)).dedup := by
    intro key held
    rw [crowd, Table.mem_keys_ofList_map] at held
    rcases List.mem_cons.mp held with rfl | declared
    · exact List.mem_cons_self
    · exact List.mem_cons_of_mem _ (List.mem_dedup.mpr declared)
  -- A table holds each name once, so that a repeated name makes room for the one besides.
  have bound := ((Table.keys_nodup _).subperm within).length_le
  rw [List.length_map] at fewer
  calc (crowd fields members extra).entries.length
      = (crowd fields members extra).keys.length := (List.length_map _).symm
    _ ≤ (fields.map (·.name)).dedup.length + 1 := bound
    _ ≤ fields.length := fewer

theorem crowd_extra (fields : List Field) (members : List (String × Json)) (extra : String) :
    extra ∈ (crowd fields members extra).keys :=
  Table.mem_keys_ofList_map.mpr List.mem_cons_self

namespace Reading

/-- An object that is read as a struct with a name declared twice can have a member more. -/
theorem readStruct_crowd (R : Reading α) (td : TypedData) {name : String} {fields : List Field}
    {members : List (String × Json)} {x : α} (declared : td.fields? name = .ok fields)
    (twice : ¬ (fields.map (·.name)).Nodup)
    (read : R.readStruct td name (.object members) = .ok x) (extra : String) :
    R.readStruct td name (.object (crowd fields members extra).entries) = .ok x := by
  rw [readStruct_ok_iff] at read ⊢
  cases read with
  | object written declared' fits fieldwise =>
      obtain rfl := Except.ok.inj (declared.symm.trans declared')
      refine .object written declared (crowd_length twice members extra) ?_
      have among := (List.forall₂_and_left fields _).mpr ⟨fun f here => here, fieldwise⟩
      refine among.imp ?_
      rintro f x ⟨here, value, held, read⟩
      exact ⟨value, crowd_lookup here held extra, read⟩

end Reading

/-- The condition under which no undeclared data are left out of a hash.  Wherever a struct is met,
its declared names are held; if they are distinct the members are just these, and otherwise an
object with an undeclared member has the same hash. -/
theorem members_of_hashStruct {td : TypedData} {name target : String} {value struct : Json}
    {h : Word} (hashed : td.hashStruct name value = .ok h) (met : Met td name value target struct) :
    ∃ fields members h', td.fields? target = .ok fields ∧ struct = .object members ∧
      td.hashStruct target struct = .ok h' ∧
      (∀ f ∈ fields, f.name ∈ members.map Prod.fst) ∧
      ((fields.map (·.name)).Nodup → (members.map Prod.fst).Perm (fields.map (·.name))) ∧
      (¬ (fields.map (·.name)).Nodup → ∃ t : Table Json,
        (∃ key ∈ t.keys, key ∉ fields.map (·.name)) ∧
        td.hashStruct target (.object t.entries) = .ok h') := by
  rw [hashStruct_eq] at hashed
  obtain ⟨h', read⟩ := words.readStruct_met td hashed met
  have call := (Reading.readStruct_ok_iff words td).mp read
  cases call with
  | @object text fields members xs written declared fits fieldwise =>
      have held : ∀ f ∈ fields, f.name ∈ members.map Prod.fst := by
        intro f here
        obtain ⟨x, -, value, held, -⟩ := exists_of_forall₂ fieldwise here
        exact mem_keys_iff_lookup.mpr ⟨value, held⟩
      refine ⟨fields, members, _, declared, rfl, (td.hashStruct_eq _ _).trans read, held, ?_, ?_⟩
      · intro distinct
        have within : fields.map (·.name) ⊆ members.map Prod.fst := by
          intro key among
          obtain ⟨f, here, rfl⟩ := List.mem_map.mp among
          exact held f here
        refine ((distinct.subperm within).perm_of_length_le ?_).symm
        rw [List.length_map, List.length_map]
        exact fits
      · intro twice
        obtain ⟨extra, undeclared⟩ := Infinite.exists_notMem_finset (fields.map (·.name)).toFinset
        refine ⟨crowd fields members extra, ⟨extra, crowd_extra fields members extra, ?_⟩, ?_⟩
        · exact fun among => undeclared (List.mem_toFinset.mpr among)
        · rw [hashStruct_eq]
          exact words.readStruct_crowd td declared twice read extra

/-- A note in a list is met, and says more than its definition declares. -/
theorem members_of_hashStruct_note :
    let td : TypedData := ⟨.empty, .ofList [("Box", [⟨"notes", "Note[]"⟩]),
      ("Note", [⟨"memo", "string"⟩, ⟨"memo", "string"⟩])], "Box", .null⟩
    let note := Json.object [("memo", .string "hi"), ("to_address", .string "evmos1recipient")]
    ∃ h h', td.hashStruct "Box" (.object [("notes", .array [note])]) = .ok h ∧
      td.hashStruct "Note" note = .ok h' ∧
      ∃ t : Table Json, (∃ key ∈ t.keys, key ∉ ["memo", "memo"]) ∧
        td.hashStruct "Note" (.object t.entries) = .ok h' := by
  intro td note
  have hashed : td.hashStruct "Box" (.object [("notes", .array [note])]) = .ok _ := rfl
  have element : Element "Note[]" (.array [note]) "Note" note :=
    .item rfl List.mem_cons_self (.here rfl)
  have met : Met td "Box" (.object [("notes", .array [note])]) "Note" note :=
    .field rfl List.mem_cons_self rfl element rfl .here
  obtain ⟨fields, members, h', declared, -, read, -, -, crowded⟩ := members_of_hashStruct hashed met
  have known : td.fields? "Note" = .ok [⟨"memo", "string"⟩, ⟨"memo", "string"⟩] := rfl
  cases declared.symm.trans known
  exact ⟨_, h', hashed, read, crowded (by decide)⟩

/-- A struct that declares a name twice is hashed with a member that it does not declare. -/
theorem undeclared_member_is_hashed :
    let td : TypedData :=
      ⟨.empty, .ofList [("Tx", [⟨"memo", "string"⟩, ⟨"memo", "string"⟩])], "Tx", .null⟩
    let members := [("memo", Json.string "hi"), ("to_address", .string "evmos1recipient")]
    (∃ h, td.hashStruct "Tx" (.object members) = .ok h) ∧
      ∃ fields, td.fields? "Tx" = .ok fields ∧
        ∃ key ∈ members.map Prod.fst, key ∉ fields.map (·.name) := by
  intro td members
  refine ⟨⟨_, rfl⟩, _, rfl, "to_address", ?_, ?_⟩
  · decide
  · decide

end HardwareSigner.TypedData
