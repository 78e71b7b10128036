import HardwareSigner.Proofs.Json.Induction
import HardwareSigner.TypedData.Hash
import Mathlib.Data.List.Forall2
/-!
Typed values are read along their types in one way, whatever is made of them: the word that is
hashed for a value is one reading of it.  What it takes for a reading to succeed is said once here.
-/

namespace HardwareSigner.TypedData
variable {α β : Type}

theorem map_eq_ok {ε : Type} {f : α → β} {x : Except ε α} {b : β} (made : x.map f = .ok b) :
    ∃ a, x = .ok a ∧ f a = b := by
  cases x with
  | error e => cases made
  | ok a => exact ⟨a, rfl, Except.ok.inj made⟩

theorem map_eq_error {ε : Type} {f : α → β} {x : Except ε α} {e : ε} (failed : x.map f = .error e) :
    x = .error e := by
  cases x with
  | error e' =>
      cases failed
      rfl
  | ok a => cases failed

theorem exists_of_isOk {ε : Type} {x : Except ε α} (fine : x.isOk = true) : ∃ a, x = .ok a := by
  cases x with
  | error e => cases fine
  | ok a => exact ⟨a, rfl⟩

/-- What to make of typed values: of atoms, of the items of an array, and of the declared fields of
a struct with its type text. -/
structure Reading (α : Type) where
  atom : AtomType → (type : String) → Json → Except Error α
  array : List α → α
  record : (text : String) → List α → α

namespace Reading

/-- The fields of a struct in declared order; `member` reads what an object holds. -/
def readFields (name : String) (member : String → String → Option (Except Error α)) :
    List Field → Except Error (List α)
  | [] => .ok []
  | f :: fs =>
    match member f.name f.type with
    | none => .error (.invalidTypedData (Fault.missingField name f.name))
    | some (.error e) => .error e
    | some (.ok x) => (readFields name member fs).map (x :: ·)

/-- A struct, from the number of members that are given and the way to read one. -/
def readMembers (R : Reading α) (td : TypedData) (name : String)
    (members? : Option (Nat × (String → String → Option (Except Error α)))) : Except Error α :=
  match td.encodeType name, td.fields? name with
  | .error e, _ | _, .error e => .error e
  | .ok text, .ok fields =>
    match members? with
    | none => .error (.invalidTypedData (Fault.expectedObject name))
    | some (size, member) =>
      if fields.length < size then
        .error (.invalidTypedData (Fault.extraData name fields.length size))
      else (readFields name member fields).map (R.record text)

mutual

def readValue (R : Reading α) (td : TypedData) (value : Json) (type : String) : Except Error α :=
  match arrayType type with
  | .error fault => .error (.invalidTypedData fault)
  | .ok (some array) =>
    match value with
    | .array items =>
      if array.length.any (· ≠ items.length) then
        .error (.invalidTypedData (Fault.itemCount type (array.length.getD 0) items.length))
      else (readItems R td items array.item).map R.array
    | _ => .error (.invalidTypedData (Fault.expectedArray type))
  | .ok none =>
    if td.types.contains type then
      match value with
      | .object members => R.readMembers td type (some (members.length, readMember R td members))
      | _ => R.readMembers td type none
    else
      match atomType type with
      | .error fault => .error (.invalidTypedData fault)
      | .ok atom => R.atom atom type value

def readItems (R : Reading α) (td : TypedData) : List Json → (type : String) → Except Error (List α)
  | [], _ => .ok []
  | item :: rest, type =>
    match readValue R td item type with
    | .error e => .error e
    | .ok x => (readItems R td rest type).map (x :: ·)

def readMember (R : Reading α) (td : TypedData) :
    List (String × Json) → (name type : String) → Option (Except Error α)
  | [], _, _ => none
  | (key, value) :: rest, name, type =>
    if key = name then some (readValue R td value type) else readMember R td rest name type

end

def readStruct (R : Reading α) (td : TypedData) (name : String) : Json → Except Error α
  | .object members => R.readMembers td name (some (members.length, readMember R td members))
  | _ => R.readMembers td name none

section
variable (R : Reading α) (td : TypedData)

theorem readMember_eq (members : List (String × Json)) (name type : String) :
    R.readMember td members name type =
      (members.lookup name).map fun value => R.readValue td value type := by
  induction members with
  | nil => rfl
  | cons member rest ih =>
      obtain ⟨key, value⟩ := member
      by_cases here : key = name
      · subst here
        simp only [readMember, if_true, List.lookup_cons_self, Option.map_some]
      · have other : (name == key) = false := beq_false_of_ne (Ne.symm here)
        simp only [readMember, if_neg here, ih, List.lookup_cons, other]

theorem readItems_ok_iff {items : List Json} {type : String} {xs : List α} :
    R.readItems td items type = .ok xs ↔
      List.Forall₂ (fun item x => R.readValue td item type = .ok x) items xs := by
  induction items generalizing xs with
  | nil =>
      simp only [readItems, Except.ok.injEq, List.forall₂_nil_left_iff]
      exact eq_comm
  | cons item rest ih =>
      simp only [readItems]
      constructor
      · intro read
        cases first : R.readValue td item type with
        | error e =>
            rw [first] at read
            cases read
        | ok x =>
            rw [first] at read
            obtain ⟨ys, others, rfl⟩ := map_eq_ok read
            exact .cons first (ih.mp others)
      · intro read
        cases read with
        | cons first others => simp only [first, ih.mpr others, Except.map]

theorem readFields_ok_iff {name : String} {member : String → String → Option (Except Error α)}
    {fields : List Field} {xs : List α} :
    readFields name member fields = .ok xs ↔
      List.Forall₂ (fun f x => member f.name f.type = some (.ok x)) fields xs := by
  induction fields generalizing xs with
  | nil =>
      simp only [readFields, Except.ok.injEq, List.forall₂_nil_left_iff]
      exact eq_comm
  | cons f fs ih =>
      simp only [readFields]
      constructor
      · intro read
        rcases first : member f.name f.type with _ | e | x
        · rw [first] at read
          cases read
        · rw [first] at read
          cases read
        · rw [first] at read
          obtain ⟨ys, others, rfl⟩ := map_eq_ok read
          exact .cons first (ih.mp others)
      · intro read
        cases read with
        | cons first others => simp only [first, ih.mpr others, Except.map]

/-- A member of an object is read as a field. -/
def MemberRead (members : List (String × Json)) (f : Field) (x : α) : Prop :=
  ∃ value, members.lookup f.name = some value ∧ R.readValue td value f.type = .ok x

/-- What a struct is read as, and from what. -/
inductive StructRead (name : String) : Json → α → Prop where
  | object {text fields members xs} : td.encodeType name = .ok text →
      td.fields? name = .ok fields → members.length ≤ fields.length →
      List.Forall₂ (MemberRead R td members) fields xs →
      StructRead name (.object members) (R.record text xs)

/-- What a value is read as under a type, and from what. -/
inductive ValueRead (type : String) : Json → α → Prop where
  | array {array items xs} : arrayType type = .ok (some array) →
      (∀ length, array.length = some length → items.length = length) →
      List.Forall₂ (fun item x => R.readValue td item array.item = .ok x) items xs →
      ValueRead type (.array items) (R.array xs)
  | struct {value x} : arrayType type = .ok none → td.types.contains type = true →
      R.readStruct td type value = .ok x → ValueRead type value x
  | atom {atom value x} : arrayType type = .ok none → td.types.contains type = false →
      atomType type = .ok atom → R.atom atom type value = .ok x → ValueRead type value x

theorem memberRead_iff {members : List (String × Json)} {f : Field} {x : α} :
    R.readMember td members f.name f.type = some (.ok x) ↔ MemberRead R td members f x := by
  rw [readMember_eq, Option.map_eq_some_iff]
  rfl

theorem readMembers_none (name : String) (x : α) : R.readMembers td name none ≠ .ok x := by
  intro read
  simp only [readMembers] at read
  split at read <;> cases read

theorem readMembers_ok_iff {name : String} {members : List (String × Json)} {x : α} :
    R.readMembers td name (some (members.length, R.readMember td members)) = .ok x ↔
      StructRead R td name (.object members) x := by
  simp only [readMembers]
  constructor
  · intro read
    cases written : td.encodeType name with
    | error e =>
        rw [written] at read
        cases read
    | ok text =>
        cases declared : td.fields? name with
        | error e =>
            rw [written, declared] at read
            cases read
        | ok fields =>
            simp only [written, declared] at read
            split at read
            · cases read
            · rename_i fits
              obtain ⟨xs, fieldwise, rfl⟩ := map_eq_ok read
              refine .object written declared (Nat.le_of_not_lt fits) ?_
              exact (readFields_ok_iff.mp fieldwise).imp fun f x => (memberRead_iff R td).mp
  · intro read
    cases read with
    | object written declared fits fieldwise =>
        have each : readFields name (R.readMember td members) _ = .ok _ :=
          readFields_ok_iff.mpr (fieldwise.imp fun f x => (memberRead_iff R td).mpr)
        simp only [written, declared, if_neg (Nat.not_lt_of_le fits), each, Except.map]

theorem readStruct_ok_iff {name : String} {value : Json} {x : α} :
    R.readStruct td name value = .ok x ↔ StructRead R td name value x := by
  cases value with
  | object members => exact readMembers_ok_iff R td
  | null | bool | number | string | array =>
      constructor
      · intro read
        exact absurd read (readMembers_none R td name x)
      · intro read
        cases read

/-- A value whose type is that of a struct is read as one. -/
theorem readValue_struct {type : String} (single : arrayType type = .ok none)
    (known : td.types.contains type = true) (value : Json) :
    R.readValue td value type = R.readStruct td type value := by
  cases value <;> simp only [readValue, single, known, if_true] <;> rfl

/-- Any other value is read as an atom. -/
theorem readValue_atom {type : String} (single : arrayType type = .ok none)
    (unknown : td.types.contains type = false) (value : Json) :
    R.readValue td value type =
      match atomType type with
      | .error fault => .error (.invalidTypedData fault)
      | .ok atom => R.atom atom type value := by
  cases value <;> simp only [readValue, single, unknown, Bool.false_eq_true, if_false]

theorem any_ne_iff {length : Option Nat} {n : Nat} :
    ¬ length.any (· ≠ n) ↔ ∀ m, length = some m → n = m := by
  cases length with
  | none => simp only [Option.any_none, Bool.false_eq_true, not_false_eq_true, reduceCtorEq,
      false_implies, implies_true]
  | some m => simp only [Option.any_some, decide_eq_true_eq, ne_eq, Decidable.not_not,
      Option.some.injEq, forall_eq']; exact eq_comm

theorem readValue_ok_iff {type : String} {value : Json} {x : α} :
    R.readValue td value type = .ok x ↔ ValueRead R td type value x := by
  constructor
  · intro read
    rcases kind : arrayType type with fault | none | array
    · cases value <;> simp only [readValue, kind] at read <;> cases read
    · by_cases known : td.types.contains type = true
      · exact .struct kind known (R.readValue_struct td kind known value ▸ read)
      · rw [Bool.not_eq_true] at known
        rw [R.readValue_atom td kind known] at read
        cases found : atomType type with
        | error fault =>
            rw [found] at read
            cases read
        | ok atom =>
            rw [found] at read
            exact .atom kind known found read
    · cases value with
      | array items =>
          simp only [readValue, kind] at read
          split at read
          · cases read
          · rename_i count
            obtain ⟨xs, itemwise, rfl⟩ := map_eq_ok read
            exact .array kind (any_ne_iff.mp count) ((readItems_ok_iff R td).mp itemwise)
      | null | bool | number | string | object =>
          simp only [readValue, kind] at read
          cases read
  · intro read
    cases read with
    | array kind count itemwise =>
        have each := (readItems_ok_iff R td).mpr itemwise
        simp only [readValue, kind, if_neg (any_ne_iff.mpr count), each]
        rfl
    | struct kind known read => exact (R.readValue_struct td kind known value).trans read
    | atom kind unknown found read =>
        rw [R.readValue_atom td kind unknown, found]
        exact read

end

/-- One reading can be had from another by making something of its results. -/
structure Maps (R : Reading α) (S : Reading β) (f : α → β) : Prop where
  atom : ∀ atom type value, S.atom atom type value = (R.atom atom type value).map f
  array : ∀ xs, S.array (xs.map f) = f (R.array xs)
  record : ∀ text xs, S.record text (xs.map f) = f (R.record text xs)

/-- Results that are each made of something are made of a list of these. -/
theorem forall₂_of_made {ι : Type} {P : ι → α → Prop} {f : α → β} {as : List ι} {ys : List β}
    (made : List.Forall₂ (fun a y => ∃ x, P a x ∧ f x = y) as ys) :
    ∃ xs, List.Forall₂ P as xs ∧ xs.map f = ys := by
  induction made with
  | nil => exact ⟨[], .nil, rfl⟩
  | cons first rest ih =>
      obtain ⟨x, read, rfl⟩ := first
      obtain ⟨xs, others, rfl⟩ := ih
      exact ⟨x :: xs, .cons read others, rfl⟩

section
variable {R : Reading α} {S : Reading β} {f : α → β} (td : TypedData)

theorem StructRead.made (h : Maps R S f) {name : String} {value : Json} {y : β}
    (ih : ∀ child ∈ value.children, ∀ type y, S.readValue td child type = .ok y →
      ∃ x, R.readValue td child type = .ok x ∧ f x = y)
    (read : StructRead S td name value y) : ∃ x, R.readStruct td name value = .ok x ∧ f x = y := by
  cases read with
  | @object text fields members ys written declared fits fieldwise =>
      have made : List.Forall₂ (fun g y => ∃ x, MemberRead R td members g x ∧ f x = y)
          fields ys := by
        refine fieldwise.imp ?_
        rintro g y ⟨value, held, read⟩
        obtain ⟨x, source, rfl⟩ := ih value (Json.mem_children_of_lookup held) _ _ read
        exact ⟨x, ⟨value, held, source⟩, rfl⟩
      obtain ⟨xs, sources, rfl⟩ := forall₂_of_made made
      refine ⟨R.record text xs, ?_, (h.record text xs).symm⟩
      exact (readStruct_ok_iff R td).mpr (.object written declared fits sources)

/-- Where the reading that is made succeeds, so does the one it is made of. -/
theorem readValue_made (h : Maps R S f) (value : Json) :
    ∀ type y, S.readValue td value type = .ok y →
      ∃ x, R.readValue td value type = .ok x ∧ f x = y := by
  induction value using Json.ind with
  | step value ih =>
      intro type y read
      rw [readValue_ok_iff] at read
      cases read with
      | array kind count itemwise =>
          have each := (List.forall₂_and_left _ _).mpr ⟨ih, itemwise⟩
          obtain ⟨xs, sources, rfl⟩ := forall₂_of_made (each.imp fun item y h => h.1 _ _ h.2)
          refine ⟨R.array xs, ?_, (h.array xs).symm⟩
          exact (readValue_ok_iff R td).mpr (.array kind count sources)
      | struct kind known read =>
          rw [readValue_struct R td kind known]
          exact ((readStruct_ok_iff S td).mp read).made td h ih
      | @atom atom _ _ kind unknown found read =>
          rw [h.atom] at read
          obtain ⟨x, source, rfl⟩ := map_eq_ok read
          exact ⟨x, (readValue_ok_iff R td).mpr (.atom kind unknown found source), rfl⟩

theorem readStruct_made (h : Maps R S f) {name : String} {value : Json} {y : β}
    (read : S.readStruct td name value = .ok y) :
    ∃ x, R.readStruct td name value = .ok x ∧ f x = y :=
  ((readStruct_ok_iff S td).mp read).made td h fun child _ => readValue_made td h child

end

end Reading

/-- The reading that makes words of values. -/
def words : Reading Word where
  atom atom type value := atom.encode type value
  array ws := Keccak.hash (ws.flatMap Word.bytes)
  record text ws := Keccak.hash (structBytes text ws)

section
variable (td : TypedData)

theorem encodeFields_eq (name : String) (member : String → String → Option (Except Error Word))
    (fields : List Field) :
    encodeFields name member fields = Reading.readFields name member fields := by
  induction fields with
  | nil => rfl
  | cons f fs ih =>
      simp only [encodeFields, Reading.readFields, ih]
      rcases member f.name f.type with _ | e | word <;> rfl

theorem hashMembers_eq (name : String) (members? : Option Members) :
    td.hashMembers name members? =
      words.readMembers td name (members?.map fun members => (members.size, members.word)) := by
  cases members? <;> simp only [hashMembers, Reading.readMembers, encodeFields_eq] <;> rfl

theorem encodeField_eq (value : Json) :
    ∀ type, td.encodeField value type = words.readValue td value type := by
  induction value using Json.ind with
  | step value ih =>
      have items : ∀ l : List Json, (∀ item ∈ l, item ∈ value.children) → ∀ type,
          td.encodeItems l type = words.readItems td l type := by
        intro l held type
        induction l with
        | nil => rfl
        | cons item rest ih' =>
            rw [List.forall_mem_cons] at held
            simp only [encodeItems, Reading.readItems, ih item held.1, ih' held.2]
            cases words.readValue td item type <;> rfl
      have members : ∀ l : List (String × Json), (∀ m ∈ l, m.2 ∈ value.children) →
          td.encodeMember l = words.readMember td l := by
        intro l held
        funext name type
        induction l with
        | nil => rfl
        | cons m rest ih' =>
            rw [List.forall_mem_cons] at held
            simp only [encodeMember, Reading.readMember, ih m.2 held.1, ih' held.2]
      intro type
      cases value with
      | array l =>
          simp only [encodeField, Reading.readValue, hashMembers_eq, items l fun _ held => held]
          rfl
      | object l =>
          have same := members l fun m held => List.mem_map_of_mem held
          simp only [encodeField, Reading.readValue, hashMembers_eq, same]
          rfl
      | null | bool | number | string =>
          simp only [encodeField, Reading.readValue, hashMembers_eq]
          rfl

theorem hashStruct_eq (name : String) (value : Json) :
    td.hashStruct name value = words.readStruct td name value := by
  cases value with
  | object members =>
      have same : td.encodeMember members = words.readMember td members := by
        funext name type
        induction members with
        | nil => rfl
        | cons m rest ih => simp only [encodeMember, Reading.readMember, encodeField_eq, ih]
      simp only [hashStruct, Reading.readStruct, hashMembers_eq, same]
      rfl
  | null | bool | number | string | array =>
      simp only [hashStruct, Reading.readStruct, hashMembers_eq]
      rfl

end

end HardwareSigner.TypedData
