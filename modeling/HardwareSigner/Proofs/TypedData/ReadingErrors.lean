import HardwareSigner.Proofs.TypedData.Locality
/-!
What a reading fails with.  Parts are read from left to right, and the first that cannot be read
fails the whole with its own error; what comes after it is not looked at.
-/

namespace HardwareSigner.TypedData
variable {α : Type}

section
variable {ι ε : Type} {f : ι → Except ε α} {i : ι} {l : List ι} {e : ε}

theorem mapM_cons_eq : (i :: l).mapM f =
    match f i with
    | .error e => .error e
    | .ok x => (l.mapM f).map (x :: ·) := by
  rw [List.mapM_cons]
  cases f i with
  | error e => rfl
  | ok x => cases l.mapM f <;> rfl

/-- A list fails at its first element that does. -/
theorem mapM_error_iff :
    l.mapM f = .error e ↔ ∃ before i after, l = before ++ i :: after ∧
      (∀ j ∈ before, ∃ x, f j = .ok x) ∧ f i = .error e := by
  constructor
  · intro failed
    induction l with
    | nil => cases failed
    | cons i rest ih =>
        cases read : f i with
        | error e' =>
            rw [mapM_cons_eq, read] at failed
            cases failed
            exact ⟨[], i, rest, rfl, fun j here => absurd here List.not_mem_nil, read⟩
        | ok x =>
            rw [mapM_cons_eq, read] at failed
            obtain ⟨before, j, after, rfl, fine, failed⟩ := ih (map_eq_error failed)
            exact ⟨i :: before, j, after, rfl, List.forall_mem_cons.mpr ⟨⟨x, read⟩, fine⟩, failed⟩
  · rintro ⟨before, i, after, rfl, fine, failed⟩
    induction before with
    | nil => rw [List.nil_append, mapM_cons_eq, failed]
    | cons j before ih =>
        obtain ⟨⟨x, read⟩, others⟩ := List.forall_mem_cons.mp fine
        simp only [List.cons_append, mapM_cons_eq, read, ih others, Except.map]

end

namespace Reading

/-- What is read for a field of a struct. -/
def readField (R : Reading α) (td : TypedData) (name : String) (members : List (String × Json))
    (f : Field) : Except Error α :=
  match members.lookup f.name with
  | none => .error (.invalidTypedData (Fault.missingField name f.name))
  | some held => R.readValue td held f.type

/-- Why a struct is not read: its own shape, or the first field that is not. -/
inductive StructRefused (R : Reading α) (td : TypedData) (name : String) : Json → Error → Prop where
  | undefined {value e} : td.fields? name = .error e → StructRefused R td name value e
  | other {value fields} : td.fields? name = .ok fields → (∀ members, value ≠ .object members) →
      StructRefused R td name value (.invalidTypedData (Fault.expectedObject name))
  | crowded {fields members} : td.fields? name = .ok fields → fields.length < members.length →
      StructRefused R td name (.object members)
        (.invalidTypedData (Fault.extraData name fields.length members.length))
  | field {before f after members e} : td.fields? name = .ok (before ++ f :: after) →
      members.length ≤ (before ++ f :: after).length →
      (∀ g ∈ before, ∃ x, R.readField td name members g = .ok x) →
      R.readField td name members f = .error e → StructRefused R td name (.object members) e

/-- Why a value is not read: its type, its own shape, or the first item that is not. -/
inductive ValueRefused (R : Reading α) (td : TypedData) (type : String) : Json → Error → Prop where
  | badType {value fault} : arrayType type = .error fault →
      ValueRefused R td type value (.invalidTypedData fault)
  | other {array value} : arrayType type = .ok (some array) → (∀ items, value ≠ .array items) →
      ValueRefused R td type value (.invalidTypedData (Fault.expectedArray type))
  | count {array n items} : arrayType type = .ok (some array) → array.length = some n →
      items.length ≠ n →
      ValueRefused R td type (.array items)
        (.invalidTypedData (Fault.itemCount type n items.length))
  | item {array before item after e} : arrayType type = .ok (some array) →
      (∀ n, array.length = some n → (before ++ item :: after).length = n) →
      (∀ i ∈ before, ∃ x, R.readValue td i array.item = .ok x) →
      R.readValue td item array.item = .error e →
      ValueRefused R td type (.array (before ++ item :: after)) e
  | struct {value e} : arrayType type = .ok none → td.types.contains type = true →
      StructRefused R td type value e → ValueRefused R td type value e
  | unknown {value fault} : arrayType type = .ok none → td.types.contains type = false →
      atomType type = .error fault → ValueRefused R td type value (.invalidTypedData fault)
  | atom {value atom e} : arrayType type = .ok none → td.types.contains type = false →
      atomType type = .ok atom → R.atom atom type value = .error e → ValueRefused R td type value e

section
variable {R : Reading α} {td : TypedData}

theorem readItems_eq (items : List Json) (type : String) :
    R.readItems td items type = items.mapM fun item => R.readValue td item type := by
  induction items with
  | nil => rfl
  | cons item rest ih =>
      simp only [readItems, mapM_cons_eq, ih]
      cases R.readValue td item type <;> rfl

theorem readFields_eq (name : String) (members : List (String × Json)) (fields : List Field) :
    readFields name (R.readMember td members) fields =
      fields.mapM (R.readField td name members) := by
  induction fields with
  | nil => rfl
  | cons f fs ih =>
      simp only [readFields, readMember_eq, mapM_cons_eq, readField, ih]
      cases members.lookup f.name with
      | none => rfl
      | some held =>
          simp only [Option.map_some]
          cases R.readValue td held f.type <;> rfl

theorem readStruct_undefined {name : String} {e : Error} (undefined : td.fields? name = .error e)
    (value : Json) : R.readStruct td name value = .error e := by
  cases value <;> simp only [readStruct, readMembers, encodeType_eq, undefined, Except.map]

theorem readStruct_other {name : String} {fields : List Field}
    (declared : td.fields? name = .ok fields) {value : Json}
    (other : ∀ members, value ≠ .object members) :
    R.readStruct td name value = .error (.invalidTypedData (Fault.expectedObject name)) := by
  cases value with
  | object members => exact absurd rfl (other members)
  | null | bool | number | string | array =>
      simp only [readStruct, readMembers, encodeType_eq, declared, Except.map]

theorem readStruct_object {name : String} {fields : List Field}
    (declared : td.fields? name = .ok fields) (members : List (String × Json)) :
    ∃ text, R.readStruct td name (.object members) =
      if fields.length < members.length then
        .error (.invalidTypedData (Fault.extraData name fields.length members.length))
      else (fields.mapM (R.readField td name members)).map (R.record text) := by
  refine ⟨String.ofList (definitionsChars ((name, fields) :: td.others name)), ?_⟩
  simp only [readStruct, readMembers, encodeType_eq, declared, Except.map, readFields_eq]

theorem readStruct_error_iff {name : String} {value : Json} {e : Error} :
    R.readStruct td name value = .error e ↔ StructRefused R td name value e := by
  constructor
  · intro refused
    cases declared : td.fields? name with
    | error e' =>
        rw [readStruct_undefined declared] at refused
        cases refused
        exact .undefined declared
    | ok fields =>
        cases value with
        | object members =>
            obtain ⟨text, same⟩ := R.readStruct_object declared members
            rw [same] at refused
            split at refused
            · cases refused
              exact .crowded declared ‹_›
            · rename_i fits
              obtain ⟨before, f, after, rfl, fine, failed⟩ :=
                mapM_error_iff.mp (map_eq_error refused)
              exact .field declared (Nat.le_of_not_lt fits) fine failed
        | null | bool | number | string | array =>
            rw [readStruct_other declared fun _ => Json.noConfusion] at refused
            cases refused
            exact .other declared fun _ => Json.noConfusion
  · intro refused
    cases refused with
    | undefined undefined => exact readStruct_undefined undefined value
    | other declared other => exact readStruct_other declared other
    | crowded declared crowded =>
        obtain ⟨text, same⟩ := R.readStruct_object declared _
        rw [same, if_pos crowded]
    | field declared fits fine failed =>
        obtain ⟨text, same⟩ := R.readStruct_object declared _
        rw [same, if_neg (Nat.not_lt_of_le fits),
          mapM_error_iff.mpr ⟨_, _, _, rfl, fine, failed⟩, Except.map]

theorem readValue_badType {type : String} {fault : Fault} (bad : arrayType type = .error fault)
    (value : Json) : R.readValue td value type = .error (.invalidTypedData fault) := by
  cases value <;> simp only [readValue, bad]

theorem readValue_other {type : String} {array : ArrayType}
    (kind : arrayType type = .ok (some array)) {value : Json}
    (other : ∀ items, value ≠ .array items) :
    R.readValue td value type = .error (.invalidTypedData (Fault.expectedArray type)) := by
  cases value with
  | array items => exact absurd rfl (other items)
  | null | bool | number | string | object => simp only [readValue, kind]

theorem readValue_array {type : String} {array : ArrayType}
    (kind : arrayType type = .ok (some array)) (items : List Json) :
    R.readValue td (.array items) type =
      if array.length.any (· ≠ items.length) then
        .error (.invalidTypedData (Fault.itemCount type (array.length.getD 0) items.length))
      else (items.mapM fun item => R.readValue td item array.item).map R.array := by
  simp only [readValue, kind, readItems_eq]

theorem readValue_error_iff {type : String} {value : Json} {e : Error} :
    R.readValue td value type = .error e ↔ ValueRefused R td type value e := by
  constructor
  · intro refused
    rcases kind : arrayType type with fault | none | array
    · rw [readValue_badType kind] at refused
      cases refused
      exact .badType kind
    · cases known : td.types.contains type with
      | true =>
          rw [R.readValue_struct td kind known, readStruct_error_iff] at refused
          exact .struct kind known refused
      | false =>
          rw [R.readValue_atom td kind known] at refused
          cases named : atomType type with
          | error fault =>
              rw [named] at refused
              cases refused
              exact .unknown kind known named
          | ok atom =>
              rw [named] at refused
              exact .atom kind known named refused
    · cases value with
      | array items =>
          rw [readValue_array kind] at refused
          split at refused
          · rename_i count
            cases fixed : array.length with
            | none =>
                rw [fixed] at count
                cases count
            | some n =>
                rw [fixed] at refused count
                cases refused
                exact .count kind fixed (Ne.symm (of_decide_eq_true count))
          · rename_i count
            obtain ⟨before, item, after, rfl, fine, failed⟩ :=
              mapM_error_iff.mp (map_eq_error refused)
            exact .item kind (any_ne_iff.mp count) fine failed
      | null | bool | number | string | object =>
          rw [readValue_other kind fun _ => Json.noConfusion] at refused
          cases refused
          exact .other kind fun _ => Json.noConfusion
  · intro refused
    cases refused with
    | badType bad => exact readValue_badType bad value
    | other kind other => exact readValue_other kind other
    | @count array n items kind fixed count =>
        have differs : array.length.any (· ≠ items.length) = true := by
          rw [fixed]
          exact decide_eq_true (Ne.symm count)
        rw [readValue_array kind, if_pos differs, fixed]
        rfl
    | item kind fits fine failed =>
        rw [readValue_array kind, if_neg (any_ne_iff.mpr fits),
          mapM_error_iff.mpr ⟨_, _, _, rfl, fine, failed⟩, Except.map]
    | struct single known refused =>
        rw [R.readValue_struct td single known, readStruct_error_iff]
        exact refused
    | unknown single unknown unnamed => rw [R.readValue_atom td single unknown, unnamed]
    | atom single unknown named refused =>
        rw [R.readValue_atom td single unknown, named]
        exact refused

end

end Reading

end HardwareSigner.TypedData
