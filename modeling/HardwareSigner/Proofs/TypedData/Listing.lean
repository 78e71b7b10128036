import HardwareSigner.Proofs.Text.Utf8
import HardwareSigner.Proofs.TypedData.TypeText
import Mathlib.Data.List.Sort
import Mathlib.Order.Bounds.Defs
/-!
Which definitions a type text lists.  They are those of the least set of structs that holds the
first one and is closed under references, every one once, and behind the first they are sorted.
-/

namespace HardwareSigner.TypedData

/-- Closed under the references of the structs that are defined: with each of them holds those that
the types of its fields name before their first bracket. -/
def Closed (types : Table (List Field)) (names : Set String) : Prop :=
  ∀ n ∈ names, ∀ fields, types.get? n = some fields → ∀ f ∈ fields,
    let base := String.ofList (f.type.toList.takeWhile (· ≠ '['))
    types.contains base = true → base ∈ names

/-- What is reached from a struct is in every closed set that holds it. -/
theorem reaches_isLeast (types : Table (List Field)) (name : String) :
    IsLeast {names | name ∈ names ∧ Closed types names} {n | Reaches types name n} := by
  constructor
  · refine ⟨.here, ?_⟩
    intro n reached fields defined f here base known
    exact .field reached defined here known
  · rintro names ⟨start, closed⟩ n reached
    induction reached with
    | here => exact start
    | field _ defined here known held => exact closed _ held _ defined _ here known

/-- A definition as a type text has it. -/
def definition (name : String) (fields : List Field) : String :=
  name ++ "(" ++ ",".intercalate (fields.map fun f => f.type ++ " " ++ f.name) ++ ")"

theorem toList_definition (name : String) (fields : List Field) :
    (definition name fields).toList = definitionChars name fields := by
  have member (f : Field) :
      (f.type ++ " " ++ f.name).toList = f.type.toList ++ ' ' :: f.name.toList := by
    simp only [String.toList_append, List.append_assoc]
    rfl
  simp only [definition, definitionChars, String.toList_append, String.toList_intercalate,
    List.map_map, Function.comp_def, member, List.append_assoc]
  rfl

theorem toList_definitions (definitions : List (String × List Field)) :
    (String.join (definitions.map fun e => definition e.1 e.2)).toList =
      definitionsChars definitions := by
  simp only [String.toList_join, List.flatMap_map, toList_definition, definitionsChars]

theorem others_sorted (td : TypedData) (name : String) :
    (td.others name).Pairwise fun a b => Bytes.ofString a.1 < Bytes.ofString b.1 :=
  (td.types.sorted.filter _).imp Bytes.ofString_lt

/-- All other structs that are reached are defined, and so they are listed. -/
theorem mem_keys_others_iff {td : TypedData} {name n : String} :
    n ∈ (td.others name).map Prod.fst ↔ Reaches td.types name n ∧ n ≠ name := by
  rw [List.mem_map]
  constructor
  · rintro ⟨⟨n, fields⟩, listed, rfl⟩
    obtain ⟨reached, other, -⟩ := mem_others_iff.mp listed
    exact ⟨reached, other⟩
  · rintro ⟨reached, other⟩
    obtain ⟨fields, listed⟩ := (reaches_iff_listed.mp reached).resolve_left other
    exact ⟨(n, fields), listed, rfl⟩

theorem encodeType_of_fields? {td : TypedData} {name : String} {fields : List Field}
    (found : td.fields? name = .ok fields) :
    td.encodeType name = .ok (definition name fields ++
      String.join ((td.others name).map fun e => definition e.1 e.2)) := by
  refine encodeType_ok_iff.mpr ⟨fields, found, ?_⟩
  rw [String.toList_append, toList_definition, toList_definitions]
  rfl

/-- The type text of a struct is its definition and those of the others it leads to, in the order of
the bytes of their names.  There is one for every struct that is defined and for the domain, whose
members are read off the domain itself if nothing defines it; for other names there is none. -/
theorem encodeType_lists_reachable (td : TypedData) (name : String) :
    IsLeast {names | name ∈ names ∧ Closed td.types names} {n | Reaches td.types name n} ∧
    (td.types.contains name = false → name ≠ "EIP712Domain" →
      td.encodeType name = .error (.undefinedType name)) ∧
    (td.types.contains name = true ∨ name = "EIP712Domain" →
      ∃ others : List (String × List Field),
        td.encodeType name =
          .ok (definition name ((td.types.get? name).getD td.domain.typeFields) ++
            String.join (others.map fun e => definition e.1 e.2)) ∧
        others.Pairwise (fun a b => Bytes.ofString a.1 < Bytes.ofString b.1) ∧
        (∀ n, n ∈ others.map Prod.fst ↔ Reaches td.types name n ∧ n ≠ name) ∧
        ∀ e ∈ others, td.types.get? e.1 = some e.2) := by
  refine ⟨reaches_isLeast td.types name, ?_, ?_⟩
  · intro unknown other
    have missing : td.types.get? name = none :=
      Option.not_isSome_iff_eq_none.mp (Bool.eq_false_iff.mp unknown)
    rw [encodeType, fields?, missing]
    simp only [if_neg (show name ≠ domainType from other)]
  · intro known
    have found : td.fields? name = .ok ((td.types.get? name).getD td.domain.typeFields) := by
      cases defined : td.types.get? name with
      | some fields => rw [fields?, defined, Option.getD_some]
      | none =>
          rw [Table.contains, defined] at known
          have domain : name = domainType := known.resolve_left Bool.false_ne_true
          rw [fields?, defined, Option.getD_none]
          exact if_pos domain
    refine ⟨td.others name, encodeType_of_fields? found, others_sorted td name, ?_, ?_⟩
    · exact fun n => mem_keys_others_iff
    · intro e listed
      exact Table.mem_entries_iff.mp (List.mem_filter.mp listed).1

/-- An order leads to its lines and through them back to itself, and nothing leads to the park. -/
theorem encodeType_lists_reachable_order :
    let types := Table.ofList [("Order", [Field.mk "lines" "Line[2][]", ⟨"by", "Worker"⟩]),
      ("Worker", [⟨"boss", "Worker[]"⟩]), ("Line", [⟨"of", "Order[]"⟩, ⟨"item", "string"⟩]),
      ("Park", [⟨"open", "Order"⟩])]
    let td : TypedData := ⟨⟨some "Evmos", none, none, none, none⟩, types, "Order", .null⟩
    (∀ n, Reaches types "Order" n ↔ n ∈ ["Order", "Line", "Worker"]) ∧
    (∃ others : List (String × List Field), others.map Prod.fst = ["Line", "Worker"] ∧
      td.encodeType "Order" = .ok (definition "Order" [⟨"lines", "Line[2][]"⟩, ⟨"by", "Worker"⟩] ++
        String.join (others.map fun e => definition e.1 e.2))) ∧
    td.encodeType "Pet" = .error (.undefinedType "Pet") := by
  intro types td
  obtain ⟨⟨⟨start, closed⟩, least⟩, -, listed⟩ := encodeType_lists_reachable td "Order"
  obtain ⟨-, unknown, -⟩ := encodeType_lists_reachable td "Pet"
  have whole : Closed types {n | n ∈ ["Order", "Line", "Worker"]} := by
    have each : ∀ n ∈ ["Order", "Line", "Worker"], ∀ f ∈ (types.get? n).getD [],
      let base := String.ofList (f.type.toList.takeWhile (· ≠ '['))
      types.contains base = true → base ∈ ["Order", "Line", "Worker"] := by decide +kernel
    intro n held fields defined
    have own := each n held
    rw [defined] at own
    exact own
  have reached (n : String) : Reaches types "Order" n ↔ n ∈ ["Order", "Line", "Worker"] := by
    constructor
    · exact fun there => least ⟨List.mem_cons_self, whole⟩ there
    · intro held
      have line := closed _ start _ rfl ⟨"lines", "Line[2][]"⟩ (by decide) (by decide +kernel)
      have worker := closed _ start _ rfl ⟨"by", "Worker"⟩ (by decide) (by decide +kernel)
      simp only [List.mem_cons, List.not_mem_nil, or_false] at held
      rcases held with rfl | rfl | rfl
      · exact start
      · exact line
      · exact worker
  obtain ⟨others, text, sorted, members, -⟩ := listed (.inl (by decide +kernel))
  refine ⟨reached, ⟨others, ?_, text⟩, unknown (by decide +kernel) (by decide)⟩
  have irreflexive : Std.Irrefl fun a b : String => Bytes.ofString a < Bytes.ofString b :=
    ⟨fun a => List.lt_irrefl _⟩
  have ordered : (others.map Prod.fst).Pairwise fun a b => Bytes.ofString a < Bytes.ofString b :=
    List.pairwise_map.mpr sorted
  refine ordered.eq_of_mem_iff (by decide +kernel) fun n => ?_
  rw [members, reached]
  constructor
  · rintro ⟨held, other⟩
    exact List.mem_of_ne_of_mem other held
  · intro held
    refine ⟨List.mem_cons_of_mem _ held, ?_⟩
    rintro rfl
    exact absurd held (by decide)

end HardwareSigner.TypedData
