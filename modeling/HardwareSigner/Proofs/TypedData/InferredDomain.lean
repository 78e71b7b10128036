import HardwareSigner.Proofs.TypedData.ReadingErrors
import HardwareSigner.Proofs.TypedData.RoundTrip
import HardwareSigner.Proofs.TypedData.Undeclared
/-!
The struct of a domain, read off the domain or declared.  A domain holds texts and a number, so that
a schema that defines a struct under the name of one of their types refuses the domain before the
definition is of any use; in all other schemas the struct refers to nothing.
-/

namespace HardwareSigner.TypedData
variable {α : Type}

/-- The types of the components of a domain. -/
def componentTypes : List String := ["string", "uint256", "address", "bytes32"]

theorem single_of_mem_componentTypes {type : String} (here : type ∈ componentTypes) :
    arrayType type = .ok none ∧ baseType type = type ∧ type ≠ domainType := by
  have each : ∀ type ∈ componentTypes,
      arrayType type = .ok none ∧ baseType type = type ∧ type ≠ domainType := by decide +kernel
  exact each type here

namespace Domain

/-- Every component that is declared is held, and none is an object. -/
theorem component {d : Domain} {f : Field} (here : f ∈ d.typeFields) :
    f.type ∈ componentTypes ∧
      ∃ value, (f.name, value) ∈ d.members ∧ ∀ members, value ≠ .object members := by
  unfold typeFields at here
  simp only [List.mem_filterMap, List.mem_cons, List.not_mem_nil, or_false, id] at here
  obtain ⟨_, rfl | rfl | rfl | rfl | rfl, set⟩ := here <;>
    obtain ⟨x, given, rfl⟩ := Option.map_eq_some_iff.mp set
  case inl | inr.inl | inr.inr.inr.inl | inr.inr.inr.inr =>
      refine ⟨by decide, .string x, ?_, ?_⟩
      · simp [members, given]
      · rintro _ ⟨⟩
  case inr.inr.inl =>
      refine ⟨by decide, .ofNat x.toNat x.toNat_lt, ?_, ?_⟩
      · simp [members, given]
      · rintro _ ⟨⟩

theorem names_optional (o : Option α) (name : String) (value : α → Json) :
    ((o.map fun x => (name, value x)).toList.map Prod.fst).Sublist [name] := by
  cases o with
  | none => exact List.nil_sublist _
  | some x => exact List.Sublist.refl _

theorem members_nodup (d : Domain) : (d.members.map Prod.fst).Nodup := by
  have names : ["name", "version", "chainId", "verifyingContract", "salt"].Nodup := by decide
  refine names.sublist ?_
  unfold members
  simp only [filterMap_id_cons, List.map_append, List.filterMap_nil, List.append_nil]
  apply (names_optional d.name "name" _).append
  apply (names_optional d.version "version" _).append
  apply (names_optional d.chainId "chainId" _).append
  apply (names_optional d.verifyingContract "verifyingContract" _).append
  exact names_optional d.salt "salt" _

theorem lookup_component {d : Domain} {f : Field} (here : f ∈ d.typeFields) :
    ∃ value, (Table.ofList d.members).entries.lookup f.name = some value ∧
      ∀ members, value ≠ .object members := by
  obtain ⟨-, value, held, other⟩ := component here
  exact ⟨value, Table.get?_ofList d.members_nodup held, other⟩

end Domain

section
variable {td td' : TypedData}

/-- A struct that refers to nothing that is defined is listed alone. -/
theorem others_of_plain {name : String} {fields : List Field}
    (declared : td.fields? name = .ok fields)
    (plain : ∀ f ∈ fields, td.types.contains (baseType f.type) = false) : td.others name = [] := by
  have alone : ∀ n, Reaches td.types name n → n = name := by
    intro n reached
    induction reached with
    | here => rfl
    | field _ defined here known ih =>
        subst ih
        rw [fields?, defined] at declared
        cases declared
        cases (plain _ here).symm.trans known
  rw [List.eq_nil_iff_forall_not_mem]
  rintro ⟨n, fields⟩ listed
  obtain ⟨reached, other, -⟩ := mem_others_iff.mp listed
  exact other (alone n reached)

namespace Reading
variable (R : Reading α)

theorem readValue_of_other {type : String} (single : arrayType type = .ok none)
    (known : td.types.contains type = true) {value : Json}
    (other : ∀ members, value ≠ .object members) :
    R.readValue td value type = .error (.invalidTypedData (Fault.expectedObject type)) := by
  obtain ⟨fields, defined⟩ := Option.isSome_iff_exists.mp known
  rw [readValue_struct R td single known]
  exact readStruct_other ((fields?_of_contains known fields).mpr defined) other

/-- Of a schema a component of a domain sees no more than whether its type is a struct. -/
theorem readMember_component (d : Domain) {f : Field} (here : f ∈ d.typeFields)
    (agree : td.types.contains f.type = td'.types.contains f.type) :
    R.readMember td (Table.ofList d.members).entries f.name f.type =
      R.readMember td' (Table.ofList d.members).entries f.name f.type := by
  obtain ⟨value, held, other⟩ := d.lookup_component here
  obtain ⟨single, -, -⟩ := single_of_mem_componentTypes (d.component here).1
  rw [readMember_eq, readMember_eq, held, Option.map_some, Option.map_some]
  apply congrArg some
  cases known : td'.types.contains f.type with
  | true =>
      rw [R.readValue_of_other single (agree.trans known) other,
        R.readValue_of_other single known other]
  | false =>
      rw [R.readValue_atom td single (agree.trans known), R.readValue_atom td' single known]

/-- Once all components of a domain were read, none of their types is a struct. -/
theorem plain_of_readFields (d : Domain) {xs : List α}
    (read : readFields domainType (R.readMember td (Table.ofList d.members).entries) d.typeFields =
      .ok xs) : ∀ f ∈ d.typeFields, td.types.contains f.type = false := by
  intro f here
  obtain ⟨value, held, other⟩ := d.lookup_component here
  obtain ⟨single, -, -⟩ := single_of_mem_componentTypes (d.component here).1
  obtain ⟨x, -, read⟩ := exists_of_forall₂ (readFields_ok_iff.mp read) here
  rw [readMember_eq, held, Option.map_some, Option.some.injEq] at read
  rw [← Bool.not_eq_true]
  intro known
  rw [R.readValue_of_other single known other] at read
  cases read

end Reading

/-- Two schemas under which the components of a domain have the same fields and the same types that
are structs have one hash for the domain. -/
theorem domainSeparator_congr (same : td.domain = td'.domain)
    (declared : td.fields? domainType = .ok td.domain.typeFields)
    (declared' : td'.fields? domainType = .ok td.domain.typeFields)
    (agree : ∀ f ∈ td.domain.typeFields,
      td.types.contains f.type = td'.types.contains f.type) :
    td.domainSeparator = td'.domainSeparator := by
  have each : ∀ f ∈ td.domain.typeFields,
      words.readMember td (Table.ofList td.domain.members).entries f.name f.type =
        words.readMember td' (Table.ofList td.domain.members).entries f.name f.type :=
    fun f here => words.readMember_component td.domain here (agree f here)
  unfold domainSeparator
  rw [hashStruct_eq, hashStruct_eq, ← same, Domain.toJson, Json.ofMembers]
  simp only [Reading.readStruct, Reading.readMembers, encodeType_eq, declared, declared',
    Except.map, Reading.readFields_congr each]
  cases read : Reading.readFields domainType
    (words.readMember td' (Table.ofList td.domain.members).entries) td.domain.typeFields with
  | error e => rfl
  | ok xs =>
      -- All that is left of a schema is its definitions in the type text, and there are none.
      have plain := words.plain_of_readFields td.domain read
      have base : ∀ f ∈ td.domain.typeFields, baseType f.type = f.type :=
        fun f here => (single_of_mem_componentTypes (td.domain.component here).1).2.1
      rw [others_of_plain declared, others_of_plain declared']
      · intro f here
        rw [base f here, plain f here]
      · intro f here
        rw [base f here, agree f here, plain f here]

/-- Declaring the fields that are read off a domain makes no difference to its hash or its error,
nor do all other definitions if none is in the name of a component's type. -/
theorem domainSeparator_declared (td : TypedData)
    (undeclared : td.types.contains domainType = false) :
    let declared := td.types.insert domainType td.domain.typeFields
    { td with types := declared }.domainSeparator = td.domainSeparator ∧
      ((∀ type ∈ componentTypes, td.types.contains type = false) →
        { td with types := declared }.domainSeparator = td.domain.separatorHash ∧
          td.domainSeparator = td.domain.separatorHash) := by
  intro types
  have inferred : td.fields? domainType = .ok td.domain.typeFields := by
    rw [fields?_of_not_contains undeclared, if_pos rfl]
  have first : { td with types := types }.domainSeparator = td.domainSeparator := by
    apply domainSeparator_congr
    · rfl
    · rw [fields?, Table.get?_insert, if_pos rfl]
    · exact inferred
    · intro f here
      have other := (single_of_mem_componentTypes (td.domain.component here).1).2.2
      rw [Table.contains, Table.get?_insert, if_neg other, Table.contains]
  refine ⟨first, ?_⟩
  intro unshadowed
  have second : td.domainSeparator = td.domain.separatorHash := by
    unfold Domain.separatorHash
    apply domainSeparator_congr
    · rfl
    · exact inferred
    · rfl
    · intro f here
      rw [unshadowed f.type (td.domain.component here).1]
      rfl
  exact ⟨first.trans second, second⟩

/-- A domain with all its components, under a schema of its own and under one that defines a struct
in the name of a type that the domain uses. -/
theorem domainSeparator_declared_mail :
    let domain : Domain := ⟨some "Ether Mail", some "1", some 1,
      some "0xCcCCccccCCCCcCCCCCCcCcCccCcCCCcCcccccccC",
      some "0xaaaaaaaaaaaaaaaaaaaaaaaaaaaaaaaaaaaaaaaaaaaaaaaaaaaaaaaaaaaaaaaa"⟩
    let types := Table.ofList [("Mail", [Field.mk "to" "string[]"])]
    let td : TypedData := ⟨domain, types, "Mail", .null⟩
    let shadowed := { td with types := types.insert "string" [⟨"of", "Mail"⟩] }
    let declare (td : TypedData) :=
      { td with types := td.types.insert domainType td.domain.typeFields }
    domain.typeFields.length = 5 ∧ (∃ h, domain.separatorHash = .ok h) ∧
      (declare td).domainSeparator = domain.separatorHash ∧
      td.domainSeparator = domain.separatorHash ∧
      shadowed.encodeType domainType ≠ (declare shadowed).encodeType domainType ∧
      (declare shadowed).domainSeparator = shadowed.domainSeparator ∧
      shadowed.domainSeparator = .error (.invalidTypedData (Fault.expectedObject "string")) := by
  intro domain types td shadowed declare
  have unshadowed : ∀ type ∈ componentTypes, td.types.contains type = false := by decide +kernel
  have hashed : ∃ h, domain.separatorHash = .ok h := exists_of_isOk (by decide +kernel)
  obtain ⟨first, second⟩ := (domainSeparator_declared td (by decide +kernel)).2 unshadowed
  have third := (domainSeparator_declared shadowed (by decide +kernel)).1
  exact ⟨rfl, hashed, first, second, by decide +kernel, third, by decide +kernel⟩

end

end HardwareSigner.TypedData
