import HardwareSigner.Proofs.TypedData.AtomValues
import HardwareSigner.Proofs.TypedData.Listing
import HardwareSigner.Proofs.TypedData.ReadingErrors
import HardwareSigner.Proofs.TypedData.Undeclared
/-!
Which values match their types, and what becomes of those that do not.  They are refused as invalid
data, with one exception: bytes that are not hexadecimal are refused as such, with no word on the
typed data that they stand in, if they are the first thing that is wrong.
-/

namespace HardwareSigner.TypedData

/-- The values of a type. -/
inductive Conforms (td : TypedData) : (type : String) → Json → Prop where
  | array {type array items} : arrayType type = .ok (some array) →
      (∀ n, array.length = some n → items.length = n) →
      (∀ item ∈ items, Conforms td array.item item) → Conforms td type (.array items)
  | struct {type fields members} (held : Field → Json) : arrayType type = .ok none →
      td.types.get? type = some fields → members.length ≤ fields.length →
      (∀ f ∈ fields, members.lookup f.name = some (held f)) →
      (∀ f ∈ fields, Conforms td f.type (held f)) → Conforms td type (.object members)
  | atom {type atom value} : arrayType type = .ok none → td.types.contains type = false →
      atomType type = .ok atom → atom.Admits value → Conforms td type value

/-- A member of an object is a value for a field. -/
def Suits (td : TypedData) (members : List (String × Json)) (f : Field) : Prop :=
  ∃ held, members.lookup f.name = some held ∧ Conforms td f.type held

/-- The instances of a struct; the fields of the domain may have been read off it. -/
inductive Instance (td : TypedData) (name : String) : Json → Prop where
  | object {fields members} : td.fields? name = .ok fields → members.length ≤ fields.length →
      (∀ f ∈ fields, Suits td members f) → Instance td name (.object members)

/-- A value under an atomic type, all before which matches its type. -/
inductive ComesTo (td : TypedData) : (type : String) → Json → AtomType → Json → Prop where
  | here {type atom value} : arrayType type = .ok none → td.types.contains type = false →
      atomType type = .ok atom → ComesTo td type value atom value
  | item {type array before item after atom leaf} : arrayType type = .ok (some array) →
      (∀ n, array.length = some n → (before ++ item :: after).length = n) →
      (∀ i ∈ before, Conforms td array.item i) → ComesTo td array.item item atom leaf →
      ComesTo td type (.array (before ++ item :: after)) atom leaf
  | field {type before f after members held atom leaf} : arrayType type = .ok none →
      td.types.get? type = some (before ++ f :: after) →
      members.length ≤ (before ++ f :: after).length → (∀ g ∈ before, Suits td members g) →
      members.lookup f.name = some held → ComesTo td f.type held atom leaf →
      ComesTo td type (.object members) atom leaf

/-- A value under an atomic type in a struct, all before which matches its type. -/
inductive StructComesTo (td : TypedData) (name : String) : Json → AtomType → Json → Prop where
  | field {before f after members held atom leaf} : td.fields? name = .ok (before ++ f :: after) →
      members.length ≤ (before ++ f :: after).length → (∀ g ∈ before, Suits td members g) →
      members.lookup f.name = some held → ComesTo td f.type held atom leaf →
      StructComesTo td name (.object members) atom leaf

section
variable {td : TypedData} {type : String} {value : Json}

/-- An instance of a struct is of the type that has its name. -/
theorem Instance.conforms (single : arrayType type = .ok none)
    (known : td.types.contains type = true) (inst : Instance td type value) :
    Conforms td type value := by
  obtain ⟨declared, size, each⟩ := inst
  unfold Suits at each
  choose! held found each using each
  exact .struct held single ((fields?_of_contains known _).mp declared) size found each

theorem StructComesTo.comesTo (single : arrayType type = .ok none)
    (known : td.types.contains type = true) {atom : AtomType} {leaf : Json}
    (comes : StructComesTo td type value atom leaf) : ComesTo td type value atom leaf := by
  obtain ⟨declared, size, each, found, comes⟩ := comes
  exact .field single ((fields?_of_contains known _).mp declared) size each found comes

theorem contains_of_get? {fields : List Field} (defined : td.types.get? type = some fields) :
    td.types.contains type = true := by
  rw [Table.contains, defined, Option.isSome_some]

theorem instance_iff_of_children {name : String}
    (ih : ∀ child ∈ value.children, ∀ type,
      (∃ w, words.readValue td child type = .ok w) ↔ Conforms td type child) :
    (∃ w, words.readStruct td name value = .ok w) ↔ Instance td name value := by
  simp only [Reading.readStruct_ok_iff]
  constructor
  · rintro ⟨w, -, declared, size, fieldwise⟩
    refine .object declared size ?_
    intro f here
    obtain ⟨w, -, held, found, read⟩ := exists_of_forall₂ fieldwise here
    exact ⟨held, found, (ih held (Json.mem_children_of_lookup found) f.type).mp ⟨w, read⟩⟩
  · intro inst
    cases inst with
    | @object fields members declared size each =>
        have read : ∀ f ∈ fields, ∃ w, Reading.MemberRead words td members f w := by
          intro f here
          obtain ⟨held, found, conforms⟩ := each f here
          obtain ⟨w, read⟩ := (ih held (Json.mem_children_of_lookup found) f.type).mpr conforms
          exact ⟨w, held, found, read⟩
        obtain ⟨ws, fieldwise⟩ := exists_forall₂ read
        exact ⟨_, .object (encodeType_of_fields? declared) declared size fieldwise⟩

theorem conforms_iff (value : Json) :
    ∀ type, (∃ w, words.readValue td value type = .ok w) ↔ Conforms td type value := by
  induction value using Json.ind with
  | step value ih =>
      intro type
      constructor
      · rintro ⟨w, read⟩
        rw [Reading.readValue_ok_iff] at read
        cases read with
        | array kind count itemwise =>
            refine .array kind count ?_
            intro item held
            obtain ⟨w, -, read⟩ := exists_of_forall₂ itemwise held
            exact (ih item held _).mp ⟨w, read⟩
        | struct single known read =>
            exact ((instance_iff_of_children ih).mp ⟨w, read⟩).conforms single known
        | atom single unknown named encoded =>
            exact .atom single unknown named (AtomType.admits_of_encode named encoded)
      · intro conforms
        cases conforms with
        | array kind count each =>
            have read := fun item held => (ih item held _).mpr (each item held)
            obtain ⟨ws, itemwise⟩ := exists_forall₂ read
            exact ⟨_, (Reading.readValue_ok_iff words td).mpr (.array kind count itemwise)⟩
        | struct held single defined size found each =>
            have known := contains_of_get? defined
            rw [words.readValue_struct td single known, instance_iff_of_children ih]
            refine .object ((fields?_of_contains known _).mpr defined) size ?_
            intro f here
            exact ⟨held f, found f here, each f here⟩
        | atom single unknown named admits =>
            obtain ⟨w, encoded⟩ := AtomType.encode_admits named admits
            exact ⟨w, (Reading.readValue_ok_iff words td).mpr (.atom single unknown named encoded)⟩

theorem instance_iff {name : String} :
    (∃ w, words.readStruct td name value = .ok w) ↔ Instance td name value :=
  instance_iff_of_children fun child _ => conforms_iff child

theorem readField_ok_iff {name : String} {members : List (String × Json)} {f : Field} :
    (∃ w, words.readField td name members f = .ok w) ↔ Suits td members f := by
  unfold Reading.readField Suits
  cases found : members.lookup f.name with
  | none => simp
  | some held => simp [← conforms_iff held f.type]

/-- Bytes that are not hexadecimal are what is reported if they are what is wrong first. -/
theorem badHex_of_structComesTo {name : String} {atom : AtomType} {leaf : Json} {fault : Hex.Fault}
    (ih : ∀ child ∈ value.children, ∀ type, ComesTo td type child atom leaf →
      words.readValue td child type = .error (.badHex fault))
    (comes : StructComesTo td name value atom leaf) :
    words.readStruct td name value = .error (.badHex fault) := by
  cases comes with
  | field declared size each found comes =>
      have refused := ih _ (Json.mem_children_of_lookup found) _ comes
      rw [Reading.readStruct_error_iff]
      refine .field declared size ?_ ?_
      · intro g before
        exact readField_ok_iff.mpr (each g before)
      · rw [Reading.readField, found]
        exact refused

theorem badHex_of_comesTo {atom : AtomType} {leaf : Json} {fault : Hex.Fault}
    (garbled : atom.Garbled leaf fault) (value : Json) :
    ∀ type, ComesTo td type value atom leaf →
      words.readValue td value type = .error (.badHex fault) := by
  induction value using Json.ind with
  | step value ih =>
      intro type comes
      cases comes with
      | here single unknown named =>
          rw [words.readValue_atom td single unknown, named]
          exact AtomType.encode_garbled garbled
      | item kind fits fine comes =>
          rw [Reading.readValue_error_iff]
          refine .item kind fits ?_ (ih _ (List.mem_append_right _ List.mem_cons_self) _ comes)
          intro i before
          exact (conforms_iff i _).mpr (fine i before)
      | field single defined size each found comes =>
          have known := contains_of_get? defined
          rw [words.readValue_struct td single known]
          apply badHex_of_structComesTo ih
          exact .field ((fields?_of_contains known _).mpr defined) size each found comes

/-- A text that is not hexadecimal is what the encoder comes to. -/
def GarbledAt (comes : AtomType → Json → Prop) (fault : Hex.Fault) : Prop :=
  ∃ atom leaf, comes atom leaf ∧ atom.Garbled leaf fault

theorem refusal_of_structRefused {name : String} {e : Error} {fields : List Field}
    (ih : ∀ child ∈ value.children, ∀ type, words.readValue td child type = .error e →
      Refusal (GarbledAt (ComesTo td type child)) e)
    (declared : td.fields? name = .ok fields)
    (refused : words.readStruct td name value = .error e) :
    Refusal (GarbledAt (StructComesTo td name value)) e := by
  cases Reading.readStruct_error_iff.mp refused with
  | undefined undefined =>
      rw [declared] at undefined
      cases undefined
  | other _ _ | crowded _ _ => exact .invalid _
  | @field _ f _ members _ declared size each refused =>
      unfold Reading.readField at refused
      split at refused
      · cases refused
        exact .invalid _
      · rename_i held found
        apply (ih held (Json.mem_children_of_lookup found) _ refused).mono
        rintro fault ⟨atom, leaf, comes, garbled⟩
        refine ⟨atom, leaf, .field declared size ?_ found comes, garbled⟩
        intro g before
        exact readField_ok_iff.mp (each g before)

theorem refusal_of_readValue {e : Error} (value : Json) :
    ∀ type, words.readValue td value type = .error e →
      Refusal (GarbledAt (ComesTo td type value)) e := by
  induction value using Json.ind with
  | step value ih =>
      intro type refused
      cases Reading.readValue_error_iff.mp refused with
      | badType _ | other _ _ | count _ _ _ | unknown _ _ _ => exact .invalid _
      | item kind fits fine refused =>
          apply (ih _ (List.mem_append_right _ List.mem_cons_self) _ refused).mono
          rintro fault ⟨atom, leaf, comes, garbled⟩
          refine ⟨atom, leaf, .item kind fits ?_ comes, garbled⟩
          intro i before
          exact (conforms_iff i _).mp (fine i before)
      | struct single known refused =>
          obtain ⟨fields, defined⟩ := Option.isSome_iff_exists.mp known
          have declared := (fields?_of_contains known fields).mpr defined
          rw [← Reading.readStruct_error_iff] at refused
          apply (refusal_of_structRefused ih declared refused).mono
          rintro fault ⟨atom, leaf, comes, garbled⟩
          exact ⟨atom, leaf, comes.comesTo single known, garbled⟩
      | @atom _ atom _ single unknown named refused =>
          apply (AtomType.refusal_of_encode named refused).mono
          intro fault garbled
          exact ⟨atom, value, .here single unknown named, garbled⟩

theorem hashStruct_ok_iff {name : String} :
    (∃ h, td.hashStruct name value = .ok h) ↔ Instance td name value := by
  rw [hashStruct_eq]
  exact instance_iff

theorem hashStruct_undefined {name : String} (unknown : td.types.contains name = false)
    (other : name ≠ domainType) : td.hashStruct name value = .error (.undefinedType name) := by
  rw [hashStruct_eq]
  apply Reading.readStruct_undefined
  rw [fields?_of_not_contains unknown, if_neg other]

theorem exists_fields {name : String}
    (defined : td.types.contains name = true ∨ name = domainType) :
    ∃ fields, td.fields? name = .ok fields := by
  cases known : td.types.contains name with
  | true =>
      obtain ⟨fields, found⟩ := Option.isSome_iff_exists.mp known
      exact ⟨fields, (fields?_of_contains known fields).mpr found⟩
  | false =>
      rcases defined with known' | rfl
      · rw [known] at known'
        cases known'
      · rw [fields?_of_not_contains known, if_pos rfl]
        exact ⟨_, rfl⟩

theorem refusal_of_hashStruct {name : String} {e : Error}
    (defined : td.types.contains name = true ∨ name = domainType)
    (refused : td.hashStruct name value = .error e) :
    Refusal (GarbledAt (StructComesTo td name value)) e := by
  obtain ⟨fields, declared⟩ := exists_fields defined
  rw [hashStruct_eq] at refused
  apply refusal_of_structRefused _ declared refused
  intro child _
  exact refusal_of_readValue child

theorem hashStruct_badHex_iff {name : String} {fault : Hex.Fault} :
    td.hashStruct name value = .error (.badHex fault) ↔
      GarbledAt (StructComesTo td name value) fault := by
  constructor
  · intro refused
    by_cases defined : td.types.contains name = true ∨ name = domainType
    · cases refusal_of_hashStruct defined refused with
      | garbled garbled => exact garbled
    · obtain ⟨unknown, other⟩ := not_or.mp defined
      rw [hashStruct_undefined (Bool.eq_false_of_not_eq_true unknown) other] at refused
      cases refused
  · rintro ⟨atom, leaf, comes, garbled⟩
    rw [hashStruct_eq]
    apply badHex_of_structComesTo _ comes
    intro child _
    exact badHex_of_comesTo garbled child

end

/-- What hashing comes to: an error if the struct is not defined, a word if the value is an instance
of it, and otherwise the error of what is wrong first. -/
structure Contract (td : TypedData) (name : String) (value : Json) (result : Except Error Word) :
    Prop where
  undefined : td.types.contains name = false → name ≠ domainType →
    result = .error (.undefinedType name)
  accepted : (∃ h, result = .ok h) ↔ Instance td name value
  garbled : ∀ fault : Hex.Fault,
    result = .error (.badHex fault) ↔ GarbledAt (StructComesTo td name value) fault
  invalid : td.types.contains name = true ∨ name = domainType → ¬ Instance td name value →
    (∀ fault, ¬ GarbledAt (StructComesTo td name value) fault) →
    ∃ detail, result = .error (.invalidTypedData detail)

theorem hashStruct_contract (td : TypedData) (name : String) (value : Json) :
    Contract td name value (td.hashStruct name value) where
  undefined := hashStruct_undefined
  accepted := hashStruct_ok_iff
  garbled _ := hashStruct_badHex_iff
  invalid := by
    intro defined other readable
    cases result : td.hashStruct name value with
    | ok h => exact absurd (hashStruct_ok_iff.mp ⟨h, result⟩) other
    | error e =>
        cases refusal_of_hashStruct defined result with
        | invalid detail => exact ⟨detail, rfl⟩
        | garbled garbled => exact absurd garbled (readable _)

/-- The errors of hashing.  A struct that is not defined is reported as such, and a value that is no
instance of one that is defined as invalid data, but as bad hexadecimal just when the first thing
that is wrong is a text that is no hexadecimal where bytes are asked for.  The hash that is signed
fails with the first error of its two parts. -/
theorem errors_of_hashing (td : TypedData) :
    (∀ name value, Contract td name value (td.hashStruct name value)) ∧
      Contract td domainType td.domain.toJson td.domainSeparator ∧
      Contract td td.primaryType td.message td.messageHash ∧
      ∀ e, (td.signingHash = .error e ↔ td.domainSeparator = .error e ∨
          (∃ h, td.domainSeparator = .ok h) ∧ td.messageHash = .error e) ∧
        (td.signingHashes = .error e ↔ td.domainSeparator = .error e ∨
          (∃ h, td.domainSeparator = .ok h) ∧ td.messageHash = .error e) := by
  refine ⟨td.hashStruct_contract, td.hashStruct_contract _ _, td.hashStruct_contract _ _, ?_⟩
  intro e
  unfold signingHash signingHashes
  cases td.domainSeparator with
  | error e' => simp
  | ok h => cases td.messageHash <;> simp [Except.map]

/-- What is no address is invalid data; what is no byte string at all is not. -/
theorem garbled_bytes_are_bad_hex :
    let td : TypedData := ⟨.empty,
      .ofList [("Tx", [⟨"data", "bytes"⟩]), ("Pay", [⟨"to", "address"⟩])],
      "Tx", .object [("data", .string "0xzz")]⟩
    td.types.contains "Tx" = true ∧ ¬ Instance td "Tx" td.message ∧
      (∃ h, td.domainSeparator = .ok h) ∧
      td.messageHash = .error (.badHex (Hex.Fault.badByte 122 0)) ∧
      td.signingHash = .error (.badHex (Hex.Fault.badByte 122 0)) ∧
      td.hashStruct "Pay" (.object [("to", .string "0xzz")]) =
        .error (.invalidTypedData (Fault.badAddress (.hex (Hex.Fault.badByte 122 0)))) := by
  intro td
  have refused : td.messageHash = .error (.badHex (Hex.Fault.badByte 122 0)) := by decide +kernel
  have other : ¬ Instance td "Tx" td.message := by
    rw [← hashStruct_ok_iff]
    rintro ⟨h, hashed⟩
    cases refused.symm.trans hashed
  exact ⟨rfl, other, exists_of_isOk (by decide +kernel), refused, by decide +kernel,
    by decide +kernel⟩

end HardwareSigner.TypedData
