import HardwareSigner.Proofs.TypedData.TypeNames
import HardwareSigner.Proofs.TypedData.TypeText
import Mathlib.Data.List.Sort
/-!
Which definitions a hash depends on.  Every name that is looked up on the way is that of the struct
itself or the front of a field's type: what stands before the first bracket for the type text, what
is left of the suffixes for the values.  Definitions of other names make no difference, neither to
a hash nor to an error.
-/

namespace HardwareSigner.TypedData
variable {α : Type}

/-- The names on which a struct depends: its own, and every front of a type that is declared for a
field of a struct among them. -/
inductive DependsOn (td : TypedData) (name : String) : String → Prop where
  | here : DependsOn td name name
  | front {middle fields f} (front rest : String) : DependsOn td name middle →
      td.fields? middle = .ok fields → f ∈ fields → f.type = front ++ rest →
      DependsOn td name front

theorem DependsOn.trans {td : TypedData} {name middle target : String}
    (first : DependsOn td name middle) (second : DependsOn td middle target) :
    DependsOn td name target := by
  induction second with
  | here => exact first
  | front front rest _ declared here written ih => exact .front front rest ih declared here written

/-- A type of which every front is a name on which the struct depends. -/
def Covers (td : TypedData) (name type : String) : Prop :=
  ∀ front rest, type = front ++ rest → DependsOn td name front

theorem Covers.self {td : TypedData} {name type : String} (covers : Covers td name type) :
    DependsOn td name type :=
  covers type "" String.append_empty.symm

theorem Covers.of_front {td : TypedData} {name front rest : String}
    (covers : Covers td name (front ++ rest)) : Covers td name front := by
  rintro short more rfl
  exact covers short (more ++ rest) String.append_assoc

theorem DependsOn.covers {td : TypedData} {name middle : String} {fields : List Field} {f : Field}
    (depends : DependsOn td name middle) (declared : td.fields? middle = .ok fields)
    (here : f ∈ fields) : Covers td name f.type := by
  intro front rest written
  exact .front front rest depends declared here written

theorem exists_front_baseType (type : String) : ∃ rest, type = baseType type ++ rest := by
  refine ⟨String.ofList (type.toList.dropWhile (· ≠ '[')), ?_⟩
  rw [← String.toList_inj, baseType, toList_append_ofList, String.toList_ofList,
    List.takeWhile_append_dropWhile]

theorem exists_front_item {type : String} {array : ArrayType}
    (kind : arrayType type = .ok (some array)) : ∃ rest, type = array.item ++ rest := by
  obtain ⟨count, written, -⟩ := arrayType_some_iff.mp kind
  exact ⟨_, eq_append_ofList array.item written⟩

theorem Reaches.dependsOn {td : TypedData} {name target : String}
    (reached : Reaches td.types name target) : DependsOn td name target := by
  induction reached with
  | here => exact .here
  | @field middle fields f _ defined here known ih =>
      obtain ⟨rest, written⟩ := exists_front_baseType f.type
      have declared : td.fields? middle = .ok fields := by rw [fields?, defined]
      exact .front _ rest ih declared here written

theorem encodeType_eq (td : TypedData) (name : String) :
    td.encodeType name = (td.fields? name).map fun fields =>
      String.ofList (definitionsChars ((name, fields) :: td.others name)) := by
  unfold encodeType
  cases td.fields? name <;> rfl

/-- Schemas with one domain that agree on all names on which a struct depends. -/
structure AgreeOn (td td' : TypedData) (name : String) : Prop where
  domain : td.domain = td'.domain
  types : ∀ n, DependsOn td name n → td.types.get? n = td'.types.get? n

namespace AgreeOn
variable {td td' : TypedData} {name : String}

theorem fields? (agree : AgreeOn td td' name) {n : String} (depends : DependsOn td name n) :
    td.fields? n = td'.fields? n := by
  unfold TypedData.fields?
  rw [agree.types n depends, agree.domain]

theorem contains (agree : AgreeOn td td' name) {n : String} (depends : DependsOn td name n) :
    td.types.contains n = td'.types.contains n := by
  unfold Table.contains
  rw [agree.types n depends]

theorem dependsOn (agree : AgreeOn td td' name) {n : String} (depends : DependsOn td' name n) :
    DependsOn td name n := by
  induction depends with
  | here => exact .here
  | front front rest _ declared here written ih =>
      exact .front front rest ih ((agree.fields? ih).trans declared) here written

theorem symm (agree : AgreeOn td td' name) : AgreeOn td' td name := by
  refine ⟨agree.domain.symm, ?_⟩
  intro n depends
  exact (agree.types n (agree.dependsOn depends)).symm

theorem inner (agree : AgreeOn td td' name) {n : String} (depends : DependsOn td name n) :
    AgreeOn td td' n :=
  ⟨agree.domain, fun m further => agree.types m (depends.trans further)⟩

theorem reaches (agree : AgreeOn td td' name) {n : String} (reached : Reaches td.types name n) :
    Reaches td'.types name n := by
  induction reached with
  | here => exact .here
  | field before defined here known ih =>
      have last := (Reaches.field before defined here known).dependsOn
      rw [agree.types _ before.dependsOn] at defined
      rw [agree.contains last] at known
      exact .field ih defined here known

theorem others_subset (agree : AgreeOn td td' name) {e : String × List Field}
    (listed : e ∈ td.others name) : e ∈ td'.others name := by
  obtain ⟨n, fields⟩ := e
  obtain ⟨reached, other, declared⟩ := mem_others_iff.mp listed
  rw [agree.fields? reached.dependsOn] at declared
  exact mem_others_iff.mpr ⟨agree.reaches reached, other, declared⟩

/-- Both list the same definitions, since a list in the order of the names is known by what it
holds. -/
theorem others (agree : AgreeOn td td' name) : td.others name = td'.others name := by
  have irreflexive : Std.Irrefl fun a b : String × List Field => a.1 < b.1 :=
    ⟨fun e => String.lt_irrefl e.1⟩
  apply List.Pairwise.eq_of_mem_iff (td.types.sorted.filter _) (td'.types.sorted.filter _)
  intro e
  exact ⟨agree.others_subset, agree.symm.others_subset⟩

theorem encodeType (agree : AgreeOn td td' name) : td.encodeType name = td'.encodeType name := by
  rw [encodeType_eq, encodeType_eq, agree.others, agree.fields? .here]

end AgreeOn

namespace Reading
variable {R : Reading α} {td td' : TypedData} {name : String}

theorem readItems_congr {items : List Json} {type : String}
    (each : ∀ item ∈ items, R.readValue td item type = R.readValue td' item type) :
    R.readItems td items type = R.readItems td' items type := by
  induction items with
  | nil => rfl
  | cons item rest ih =>
      obtain ⟨first, others⟩ := List.forall_mem_cons.mp each
      simp only [readItems, first, ih others]

theorem readFields_congr {member member' : String → String → Option (Except Error α)}
    {fields : List Field} (each : ∀ f ∈ fields, member f.name f.type = member' f.name f.type) :
    readFields name member fields = readFields name member' fields := by
  induction fields with
  | nil => rfl
  | cons f fs ih =>
      obtain ⟨first, others⟩ := List.forall_mem_cons.mp each
      simp only [readFields, first, ih others]

/-- A struct is read alike if the values that it holds are. -/
theorem readStruct_of_agree (agree : AgreeOn td td' name) {value : Json}
    (ih : ∀ child ∈ value.children, ∀ type, Covers td name type →
      R.readValue td child type = R.readValue td' child type) :
    R.readStruct td name value = R.readStruct td' name value := by
  cases value with
  | object members =>
      simp only [readStruct, readMembers, agree.encodeType, agree.fields? .here, encodeType_eq]
      cases declared : td'.fields? name with
      | error e => rfl
      | ok fields =>
          have each : ∀ f ∈ fields, R.readMember td members f.name f.type =
              R.readMember td' members f.name f.type := by
            intro f here
            rw [readMember_eq, readMember_eq]
            cases found : members.lookup f.name with
            | none => rfl
            | some held =>
                apply congrArg some
                apply ih held (Json.mem_children_of_lookup found)
                exact DependsOn.here.covers ((agree.fields? .here).trans declared) here
          simp only [Except.map, readFields_congr each]
  | null | bool | number | string | array =>
      simp only [readStruct, readMembers, agree.encodeType, agree.fields? .here]

theorem readValue_of_agree (agree : AgreeOn td td' name) (value : Json) :
    ∀ type, Covers td name type → R.readValue td value type = R.readValue td' value type := by
  induction value using Json.ind with
  | step value ih =>
      intro type covers
      rcases kind : arrayType type with fault | none | array
      · cases value <;> simp only [readValue, kind]
      · have known := agree.contains covers.self
        cases defined : td'.types.contains type with
        | true =>
            rw [readValue_struct R td kind (known.trans defined),
              readValue_struct R td' kind defined]
            apply readStruct_of_agree (agree.inner covers.self)
            intro child held type' further
            apply ih child held
            intro front rest written
            exact covers.self.trans (further front rest written)
        | false =>
            rw [readValue_atom R td kind (known.trans defined),
              readValue_atom R td' kind defined]
      · cases value with
        | array items =>
            obtain ⟨rest, rfl⟩ := exists_front_item kind
            have each : R.readItems td items array.item = R.readItems td' items array.item :=
              readItems_congr fun item held => ih item held _ covers.of_front
            simp only [readValue, kind, each]
        | null | bool | number | string | object => simp only [readValue, kind]

end Reading

/-- Definitions on which a struct does not depend make no difference to its type text or to what
any value is hashed to, whether this is a word or an error. -/
theorem hashStruct_of_agree {td td' : TypedData} {name : String} (same : td.domain = td'.domain)
    (agree : ∀ n, DependsOn td name n → td.types.get? n = td'.types.get? n) :
    td.encodeType name = td'.encodeType name ∧
      ∀ value, td.hashStruct name value = td'.hashStruct name value := by
  have agree : AgreeOn td td' name := ⟨same, agree⟩
  refine ⟨agree.encodeType, ?_⟩
  intro value
  rw [hashStruct_eq, hashStruct_eq]
  apply Reading.readStruct_of_agree agree
  intro child _
  exact Reading.readValue_of_agree agree child

theorem mem_of_fields? {td : TypedData} {name : String} {fields : List Field}
    (declared : td.fields? name = .ok fields) :
    (name, fields) ∈ td.types.entries ∨ fields = td.domain.typeFields := by
  unfold fields? at declared
  split at declared
  · cases declared
    exact .inl (Table.mem_entries_iff.mpr ‹_›)
  · split at declared
    · cases declared
      exact .inr rfl
    · cases declared

/-- What is said of pets and parks is of no use to an order, whose own structs lead back to it. -/
theorem hashStruct_of_agree_order :
    let types := Table.ofList [("Order", [Field.mk "lines" "Line[2][]", ⟨"by", "Worker"⟩]),
      ("Line", [⟨"of", "Order[]"⟩, ⟨"item", "string"⟩]), ("Worker", [⟨"boss", "Worker[]"⟩]),
      ("Park", [⟨"pets", "Pet[]"⟩])]
    let td : TypedData := ⟨⟨some "Evmos", none, none, none, none⟩, types, "Order", .null⟩
    let td' := { td with types := (types.insert "Park" []).insert "Pet" [⟨"of", "Order"⟩] }
    let order := Json.object [("by", .object [("boss", .array [])]), ("lines", .array [])]
    (∃ h, td.hashStruct "Order" order = .ok h) ∧ td.encodeType "Park" ≠ td'.encodeType "Park" ∧
      (∀ n, DependsOn td "Order" n → td.types.get? n = td'.types.get? n) ∧
      ∀ value, td.hashStruct "Order" value = td'.hashStruct "Order" value := by
  intro types td td' order
  have hashed : ∃ h, td.hashStruct "Order" order = .ok h := exists_of_isOk (by decide +kernel)
  have differs : td.encodeType "Park" ≠ td'.encodeType "Park" := by decide +kernel
  -- No name with a capital P comes up where there was none before.
  have closed : ∀ e ∈ td.types.entries, 'P' ∉ e.1.toList → ∀ f ∈ e.2, 'P' ∉ f.type.toList := by
    decide +kernel
  have inferred : ∀ f ∈ td.domain.typeFields, 'P' ∉ f.type.toList := by decide +kernel
  have plain : ∀ n, DependsOn td "Order" n → 'P' ∉ n.toList := by
    intro n depends
    induction depends with
    | here => decide
    | @front middle fields f front rest _ declared here written ih =>
        have whole : 'P' ∉ f.type.toList := by
          rcases mem_of_fields? declared with listed | rfl
          · exact closed _ listed ih f here
          · exact inferred f here
        rw [written, String.toList_append] at whole
        exact fun held => whole (List.mem_append_left _ held)
  have agree : ∀ n, DependsOn td "Order" n → td.types.get? n = td'.types.get? n := by
    intro n depends
    have capital := plain n depends
    have other : n ≠ "Pet" := by
      rintro rfl
      exact capital (by decide)
    have other' : n ≠ "Park" := by
      rintro rfl
      exact capital (by decide)
    rw [Table.get?_insert, if_neg other, Table.get?_insert, if_neg other']
  have same : td.domain = td'.domain := rfl
  exact ⟨hashed, differs, agree, (hashStruct_of_agree same agree).2⟩

end HardwareSigner.TypedData
