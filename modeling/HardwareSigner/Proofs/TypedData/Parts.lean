import HardwareSigner.Proofs.TypedData.Values
/-!
Typed data made of its parts.  Definitions that cannot be read are skipped there, while a document
that has any is refused; where nothing has to be skipped, both ways lead to the same typed data.
-/

namespace HardwareSigner.TypedData
open Json (Decoder part? toString?)

section
variable {ι α : Type}

/-- What can be read in whole is what is left of it when the unreadable is skipped. -/
theorem filterMap_of_forall₂ {f : ι → Option α} {is : List ι} {as : List α}
    (each : List.Forall₂ (fun i a => f i = some a) is as) : is.filterMap f = as := by
  induction each with
  | nil => rfl
  | cons head _ ih => rw [List.filterMap_cons_some head, ih]

end

/-- One entry of an object of definitions, if it is a list. -/
def entryOf (m : String × Json) : Option (String × List Field) :=
  match m.2 with
  | .array items => some (m.1, items.filterMap Field.ofJson?)
  | _ => none

theorem typesOf_object (members : List (String × Json)) :
    typesOf (.object members) = .ofList (members.filterMap entryOf) :=
  rfl

theorem entryOf_eq_some_iff {m : String × Json} {name : String} {fields : List Field} :
    entryOf m = some (name, fields) ↔
      ∃ items, m = (name, .array items) ∧ fields = items.filterMap Field.ofJson? := by
  obtain ⟨key, value⟩ := m
  constructor
  · intro kept
    unfold entryOf at kept
    split at kept
    · rename_i items same
      cases kept
      exact ⟨items, congrArg _ same, rfl⟩
    · cases kept
  · rintro ⟨items, same, rfl⟩
    cases same
    rfl

theorem entryOf_of_list? {m : String × Json} {fields : List Field}
    (read : Json.list? Field.ofJson? m.2 = some fields) : entryOf m = some (m.1, fields) := by
  obtain ⟨name, value⟩ := m
  cases value with
  | array items =>
      have kept := filterMap_of_forall₂ (mapM_eq_some_iff.mp read)
      exact entryOf_eq_some_iff.mpr ⟨items, rfl, kept.symm⟩
  | null | bool | number | string | object => cases read

/-- Definitions that can all be read are read with nothing skipped. -/
theorem typesOf_of_typesOf? {types : Json} {t : Table (List Field)}
    (read : typesOf? types = some t) : typesOf types = t := by
  cases types with
  | object members =>
      obtain ⟨entries, made, rfl⟩ := Option.map_eq_some_iff.mp read
      refine congrArg Table.ofList (filterMap_of_forall₂ ((mapM_eq_some_iff.mp made).imp ?_))
      rintro m e found
      obtain ⟨fields, whole, rfl⟩ := Option.map_eq_some_iff.mp found
      exact entryOf_of_list? whole
  | null | bool | number | string | array => cases read

/-- What is left of an object of definitions. -/
theorem get?_typesOf (t : Table Json) (name : String) (fields : List Field) :
    (typesOf (.object t.entries)).get? name = some fields ↔
      ∃ items, t.get? name = some (.array items) ∧ fields = items.filterMap Field.ofJson? := by
  have sorted : Sorted (t.entries.filterMap entryOf) := by
    refine t.sorted.filterMap entryOf ?_
    rintro m m' smaller ⟨_, _⟩ kept ⟨_, _⟩ kept'
    obtain ⟨items, rfl, -⟩ := entryOf_eq_some_iff.mp kept
    obtain ⟨items', rfl, -⟩ := entryOf_eq_some_iff.mp kept'
    exact smaller
  rw [← Table.mem_entries_iff, typesOf_object, Table.entries_ofList sorted, List.mem_filterMap]
  constructor
  · rintro ⟨m, held, kept⟩
    obtain ⟨items, rfl, whole⟩ := entryOf_eq_some_iff.mp kept
    exact ⟨items, Table.mem_entries_iff.mp held, whole⟩
  · rintro ⟨items, held, whole⟩
    exact ⟨_, Table.mem_entries_iff.mpr held, entryOf_eq_some_iff.mpr ⟨items, rfl, whole⟩⟩

theorem typesOf_of_not_object {types : Json} (other : ∀ members, types ≠ .object members) :
    typesOf types = .empty := by
  cases types with
  | object members => exact absurd rfl (other members)
  | null => rfl
  | bool b => rfl
  | number n => rfl
  | string s => rfl
  | array items => rfl

/-- A document with these four members. -/
def documentOf (domain types : Json) (primaryType : String) (message : Json) : Json :=
  .ofMembers [("domain", domain), ("types", types), ("primaryType", .string primaryType),
    ("message", message)]

theorem part?_of_component {α : Type} {place : Nat} {name : String} {value component : Json}
    (held : value.component? place name = some component) (read : Json → Option α) :
    part? read place name value = (read component).map some := by
  rw [part?, held]

theorem ofJson?_documentOf {value : Json} {domain : Domain}
    (read : Domain.ofJson? value = some domain) (types : Json) (primaryType : String)
    (message : Json) :
    ofJson? (documentOf value types primaryType message) =
      (typesOf? types).map fun t => ⟨domain, t, primaryType, message⟩ := by
  have component {name : String} {member : Json} (place : Nat)
      (held : (name, member) ∈ [("domain", value), ("types", types),
        ("primaryType", .string primaryType), ("message", message)]) :
      (documentOf value types primaryType message).component? place name = some member :=
    Table.get?_ofList (by simp) held
  have h₀ := part?_of_component (component 0 (.head _)) Domain.ofJson?
  have h₁ := part?_of_component (component 1 (.tail _ (.head _))) typesOf?
  have h₂ := part?_of_component (component 2 (.tail _ (.tail _ (.head _)))) toString?
  have h₃ := part?_of_component (component 3 (.tail _ (.tail _ (.tail _ (.head _))))) some
  rw [ofJson?]
  refine (if_pos rfl).trans ?_
  rw [h₀, h₁, h₂, h₃, read]
  cases typesOf? types <;> rfl

/-- Typed data made of parts is what the document of these parts is read as, if its definitions can
be read at all; if they cannot, then the document is refused, and of the parts those definitions
stay that are lists, each with those of its items that can be read, in their order.  What can be
read is for both what the reader of documents takes. -/
theorem parts_are_read_as_their_document (domain : Domain) (types : Json) (primaryType : String)
    (message : Json) :
    let td := ofParts domain types primaryType message
    (∀ value, Domain.ofJson? value = some domain →
      ofJson? (documentOf value types primaryType message) = (typesOf? types).map fun _ => td) ∧
    (∀ t, typesOf? types = some t → td = ⟨domain, t, primaryType, message⟩) ∧
    (∀ t : Table Json, types = .object t.entries → ∀ name fields,
      td.types.get? name = some fields ↔
        ∃ items, t.get? name = some (.array items) ∧ fields = items.filterMap Field.ofJson?) ∧
    ((∀ members, types ≠ .object members) → td = ⟨domain, .empty, primaryType, message⟩) ∧
    Domain.ofJson? domain.toJson = some domain ∧
    Field.shape.decoder.Reads Field.ofJson? ∧
    (Decoder.table (.list Field.shape.decoder)).Reads typesOf? ∧
    shape.decoder.Reads ofJson? := by
  intro td
  have made {t : Table (List Field)} (read : typesOf? types = some t) :
      td = ⟨domain, t, primaryType, message⟩ := by
    rw [← typesOf_of_typesOf? read]
    rfl
  refine ⟨?_, fun t => made, ?_, ?_, domain.ofJson?_toJson, Field.reads, types_reads, reads⟩
  · intro value read
    rw [ofJson?_documentOf read]
    cases known : typesOf? types with
    | none => rfl
    | some t => rw [Option.map_some, Option.map_some, made known]
  · rintro t rfl name fields
    exact get?_typesOf t name fields
  · intro other
    rw [← typesOf_of_not_object other]
    rfl

/-- Fields of either form are read in whole; of a list with other items in it the fields stay. -/
theorem parts_are_read_as_their_document_mixed :
    let field (name type : String) : Json := .array [.string name, .string type]
    let memo : Json := .object [("more", .null), ("name", .string "memo"), ("type", .string "bool")]
    let good := Table.ofList [("Tx", .array [memo, field "fee" "Fee"]), ("Fee", .array [])]
    let mixed := [.null, .array [.string "gas"], field "gas" "uint8"]
    let bad := good.insert "Fee" (.array mixed)
    let domain : Domain := ⟨some "Evmos", none, some 9001, none, none⟩
    ofJson? (documentOf domain.toJson (.object good.entries) "Tx" .null) =
        some (ofParts domain (.object good.entries) "Tx" .null) ∧
      (ofParts domain (.object bad.entries) "Tx" .null).types.get? "Fee" =
        some [⟨"gas", "uint8"⟩] := by
  intro field memo good mixed bad domain
  obtain ⟨whole, -, -, -, written, -⟩ :=
    parts_are_read_as_their_document domain (.object good.entries) "Tx" .null
  obtain ⟨-, -, left, -⟩ := parts_are_read_as_their_document domain (.object bad.entries) "Tx" .null
  refine ⟨(whole _ written).trans ?_, (left bad rfl "Fee" _).mpr ⟨mixed, ?_, rfl⟩⟩
  · have known : (typesOf? (.object good.entries)).isSome := by decide +kernel
    obtain ⟨t, read⟩ := Option.isSome_iff_exists.mp known
    rw [read]
    rfl
  · rw [Table.get?_insert, if_pos rfl]

end HardwareSigner.TypedData
