import HardwareSigner.Proofs.TypedData.Reachable
import HardwareSigner.TypedData.Document
import Mathlib.Control.Monad.Basic
/-!
What a type text says.  It sets definitions one behind the other and marks nothing in them as name
or type, so that it can be read back only if no name or type holds what separates them.  For such
schemas the text of a struct determines all that the struct leads to.
-/

namespace HardwareSigner.TypedData

/-- The definitions in a type text after the first. -/
def others (td : TypedData) (name : String) : List (String × List Field) :=
  td.types.entries.filter fun e => (reachable td.types name).contains e.1 && e.1 ≠ name

def definitionsChars (definitions : List (String × List Field)) : List Char :=
  definitions.flatMap fun e => definitionChars e.1 e.2

theorem encodeType_ok_iff {td : TypedData} {name text : String} :
    td.encodeType name = .ok text ↔ ∃ fields, td.fields? name = .ok fields ∧
      text.toList = definitionsChars ((name, fields) :: td.others name) := by
  rw [encodeType]
  cases td.fields? name with
  | error e =>
      constructor
      · intro written
        cases written
      · rintro ⟨fields, impossible, -⟩
        cases impossible
  | ok fields =>
      have list (cs : List Char) : String.ofList cs = text ↔ text.toList = cs := by
        rw [← String.toList_inj, String.toList_ofList]
        exact eq_comm
      simp only [Except.ok.injEq, exists_eq_left', list]
      rfl

theorem fields?_of_contains {td : TypedData} {name : String}
    (known : td.types.contains name = true) (fields : List Field) :
    td.fields? name = .ok fields ↔ td.types.get? name = some fields := by
  obtain ⟨defined, found⟩ := Option.isSome_iff_exists.mp known
  simp only [fields?, found, Except.ok.injEq, Option.some.injEq]

theorem fields?_of_not_contains {td : TypedData} {name : String}
    (unknown : td.types.contains name = false) :
    td.fields? name =
      if name = domainType then .ok td.domain.typeFields else .error (.undefinedType name) := by
  rw [fields?, Option.isNone_iff_eq_none.mp (Option.isSome_eq_false_iff.mp unknown)]

/-- The other definitions are those of the structs that are reached. -/
theorem mem_others_iff {td : TypedData} {name n : String} {fields : List Field} :
    (n, fields) ∈ td.others name ↔
      Reaches td.types name n ∧ n ≠ name ∧ td.fields? n = .ok fields := by
  rw [others, List.mem_filter, Table.mem_entries_iff, Bool.and_eq_true, List.contains_iff_mem,
    mem_reachable_iff, decide_eq_true_eq]
  constructor
  · rintro ⟨found, reached, other⟩
    exact ⟨reached, other, (fields?_of_contains (reached.contains other) fields).mpr found⟩
  · rintro ⟨reached, other, found⟩
    exact ⟨(fields?_of_contains (reached.contains other) fields).mp found, reached, other⟩

/-- A member that can be told from what surrounds it: its name ends where it seems to end, and so
does its type, which cannot be taken for the end of the list either. -/
structure Field.Legible (f : Field) : Prop where
  name : ∀ c ∈ f.name.toList, ¬ (c = ',' ∨ c = ')')
  type : ' ' ∉ f.type.toList
  start : f.type.toList.head? ≠ some ')'

theorem Field.legible_iff (f : Field) :
    f.Legible ↔ (',' ∉ f.name.toList ∧ ')' ∉ f.name.toList) ∧ ' ' ∉ f.type.toList ∧
      f.type.toList.head? ≠ some ')' := by
  constructor
  · rintro ⟨name, type, start⟩
    exact ⟨⟨fun here => name _ here (.inl rfl), fun here => name _ here (.inr rfl)⟩, type, start⟩
  · rintro ⟨⟨comma, bracket⟩, type, start⟩
    refine ⟨?_, type, start⟩
    rintro c here (rfl | rfl)
    · exact comma here
    · exact bracket here

instance (f : Field) : Decidable f.Legible :=
  decidable_of_iff _ f.legible_iff.symm

/-- Two texts that first hold a mark where they end are equal if they start what is equal. -/
theorem append_inj_of_mark {mark : Char → Prop} {xs ys r s : List Char} {c d : Char}
    (plain : ∀ x ∈ xs, ¬ mark x) (plain' : ∀ y ∈ ys, ¬ mark y) (marked : mark c) (marked' : mark d)
    (same : xs ++ c :: r = ys ++ d :: s) : xs = ys ∧ c :: r = d :: s := by
  induction xs generalizing ys with
  | nil =>
      cases ys with
      | nil => exact ⟨rfl, same⟩
      | cons y ys =>
          obtain ⟨rfl, -⟩ := List.cons.inj same
          exact absurd marked (plain' _ List.mem_cons_self)
  | cons x xs ih =>
      cases ys with
      | nil =>
          obtain ⟨rfl, -⟩ := List.cons.inj same
          exact absurd marked' (plain _ List.mem_cons_self)
      | cons y ys =>
          obtain ⟨rfl, behind⟩ := List.cons.inj same
          obtain ⟨rfl, rest⟩ := ih (fun z here => plain z (List.mem_cons_of_mem _ here))
            (fun z here => plain' z (List.mem_cons_of_mem _ here)) behind
          exact ⟨rfl, rest⟩

theorem append_inj_of_notMem {xs ys r s : List Char} {c : Char} (plain : c ∉ xs) (plain' : c ∉ ys)
    (same : xs ++ c :: r = ys ++ c :: s) : xs = ys ∧ r = s := by
  obtain ⟨texts, rest⟩ := @append_inj_of_mark (· = c) xs ys r s c c
    (fun x here is => plain (is ▸ here)) (fun y here is => plain' (is ▸ here)) rfl rfl same
  exact ⟨texts, (List.cons.inj rest).2⟩

/-- A member and what follows it in a type text. -/
def Field.chars (f : Field) (rest : List Char) : List Char :=
  f.type.toList ++ ' ' :: (f.name.toList ++ rest)

/-- The members after the first, and what follows their list. -/
def moreChars (rest : List Char) : List Field → List Char
  | [] => ')' :: rest
  | f :: fs => ',' :: f.chars (moreChars rest fs)

/-- All members, and what follows their list. -/
def membersChars (rest : List Char) : List Field → List Char
  | [] => ')' :: rest
  | f :: fs => f.chars (moreChars rest fs)

theorem moreChars_start (rest : List Char) (fs : List Field) :
    ∃ c cs, (c = ',' ∨ c = ')') ∧ moreChars rest fs = c :: cs := by
  cases fs with
  | nil => exact ⟨_, _, .inr rfl, rfl⟩
  | cons f fs => exact ⟨_, _, .inl rfl, rfl⟩

theorem definitionChars_append (name : String) (fields : List Field) (rest : List Char) :
    definitionChars name fields ++ rest = name.toList ++ '(' :: membersChars rest fields := by
  -- The commas stand between members in the one form and before them in the other.
  have listed (f : Field) (fs : List Field) :
      [','].intercalate ((f :: fs).map fun f => f.type.toList ++ ' ' :: f.name.toList) ++
        ')' :: rest = f.chars (moreChars rest fs) := by
    induction fs generalizing f with
    | nil =>
        simp only [List.map_cons, List.map_nil, List.intercalate_singleton, Field.chars, moreChars,
          List.append_assoc, List.cons_append]
    | cons g fs ih =>
        simp only [List.map_cons] at ih ⊢
        rw [List.intercalate_cons_cons, List.append_assoc, List.append_assoc, ih]
        simp only [Field.chars, moreChars, List.append_assoc, List.cons_append, List.nil_append]
  cases fields with
  | nil =>
      simp only [definitionChars, membersChars, List.map_nil, List.intercalate_nil,
        List.append_assoc, List.cons_append, List.nil_append]
  | cons f fs =>
      simp only [membersChars, ← listed, definitionChars, List.append_assoc, List.cons_append,
        List.nil_append]

theorem Field.chars_injective {f g : Field} (legible : f.Legible) (legible' : g.Legible)
    {r s : List Char} (stops : ∃ c cs, (c = ',' ∨ c = ')') ∧ r = c :: cs)
    (stops' : ∃ c cs, (c = ',' ∨ c = ')') ∧ s = c :: cs) (same : f.chars r = g.chars s) :
    f = g ∧ r = s := by
  obtain ⟨c, cs, mark, rfl⟩ := stops
  obtain ⟨d, ds, mark', rfl⟩ := stops'
  obtain ⟨types, behind⟩ := append_inj_of_notMem legible.type legible'.type same
  obtain ⟨names, rest⟩ := append_inj_of_mark legible.name legible'.name mark mark' behind
  refine ⟨?_, rest⟩
  cases f
  cases g
  rw [Field.mk.injEq]
  exact ⟨String.toList_inj.mp names, String.toList_inj.mp types⟩

theorem moreChars_injective {fs gs : List Field} (legible : ∀ f ∈ fs, f.Legible)
    (legible' : ∀ g ∈ gs, g.Legible) {r s : List Char} (same : moreChars r fs = moreChars s gs) :
    fs = gs ∧ r = s := by
  induction fs generalizing gs with
  | nil =>
      cases gs with
      | nil => exact ⟨rfl, (List.cons.inj same).2⟩
      | cons g gs => exact absurd (List.cons.inj same).1 (by decide)
  | cons f fs ih =>
      cases gs with
      | nil => exact absurd (List.cons.inj same).1 (by decide)
      | cons g gs =>
          obtain ⟨first, others⟩ := List.forall_mem_cons.mp legible
          obtain ⟨first', others'⟩ := List.forall_mem_cons.mp legible'
          obtain ⟨rfl, behind⟩ := Field.chars_injective first first' (moreChars_start r fs)
            (moreChars_start s gs) (List.cons.inj same).2
          obtain ⟨rfl, rest⟩ := ih others others' behind
          exact ⟨rfl, rest⟩

/-- A list with a member does not look like an empty one. -/
theorem Field.chars_ne_close {f : Field} (legible : f.Legible) (rest behind : List Char) :
    f.chars rest ≠ ')' :: behind := by
  intro same
  have start := legible.start
  rw [Field.chars] at same
  cases written : f.type.toList with
  | nil =>
      rw [written] at same
      exact absurd (List.cons.inj same).1 (by decide)
  | cons c cs =>
      rw [written] at same start
      exact start (congrArg some (List.cons.inj same).1)

theorem membersChars_injective {fs gs : List Field} (legible : ∀ f ∈ fs, f.Legible)
    (legible' : ∀ g ∈ gs, g.Legible) {r s : List Char}
    (same : membersChars r fs = membersChars s gs) : fs = gs ∧ r = s := by
  cases fs with
  | nil =>
      cases gs with
      | nil => exact ⟨rfl, (List.cons.inj same).2⟩
      | cons g gs =>
          exact absurd same.symm (Field.chars_ne_close (legible' g List.mem_cons_self) _ _)
  | cons f fs =>
      cases gs with
      | nil => exact absurd same (Field.chars_ne_close (legible f List.mem_cons_self) _ _)
      | cons g gs =>
          refine moreChars_injective legible legible' ?_
          exact congrArg (List.cons ',') same

theorem definitionsChars_injective {ds es : List (String × List Field)}
    (legible : ∀ d ∈ ds, '(' ∉ d.1.toList ∧ ∀ f ∈ d.2, f.Legible)
    (legible' : ∀ e ∈ es, '(' ∉ e.1.toList ∧ ∀ f ∈ e.2, f.Legible)
    (same : definitionsChars ds = definitionsChars es) : ds = es := by
  -- Read from the front: a name ends at its opening bracket, and the members tell where they end.
  have some (name : String) (fields : List Field) (rest : List Char) :
      [] ≠ definitionChars name fields ++ rest := by
    rw [definitionChars_append]
    exact List.ne_nil_of_mem (List.mem_append_right _ List.mem_cons_self) ∘ Eq.symm
  induction ds generalizing es with
  | nil =>
      cases es with
      | nil => rfl
      | cons e es => exact absurd same (some _ _ _)
  | cons d ds ih =>
      cases es with
      | nil => exact absurd same.symm (some _ _ _)
      | cons e es =>
          obtain ⟨first, others⟩ := List.forall_mem_cons.mp legible
          obtain ⟨first', others'⟩ := List.forall_mem_cons.mp legible'
          simp only [definitionsChars, List.flatMap_cons, definitionChars_append] at same ih
          obtain ⟨names, members⟩ := append_inj_of_notMem first.1 first'.1 same
          obtain ⟨fields, rest⟩ := membersChars_injective first.2 first'.2 members
          rw [Prod.ext (String.toList_inj.mp names) fields, ih others others' rest]

/-- All members that a struct leads to are legible, and so are the names of the other structs. -/
structure Legible (td : TypedData) (name : String) : Prop where
  fields : ∀ n fields, Reaches td.types name n → td.fields? n = .ok fields →
    ∀ f ∈ fields, f.Legible
  names : ∀ n, Reaches td.types name n → n ≠ name → '(' ∉ n.toList

/-- The search for structs decides it. -/
theorem legible_iff {td : TypedData} {name : String} :
    td.Legible name ↔ ∀ n ∈ reachable td.types name, (n ≠ name → '(' ∉ n.toList) ∧
      ∀ f ∈ (td.fields? n).toOption.getD [], f.Legible := by
  constructor
  · intro legible n here
    have reached := mem_reachable_iff.mp here
    refine ⟨legible.names n reached, ?_⟩
    cases found : td.fields? n with
    | error e => exact nofun
    | ok fields => exact legible.fields n fields reached found
  · intro each
    constructor
    · intro n fields reached found
      have legible := (each n (mem_reachable_iff.mpr reached)).2
      rw [found] at legible
      exact legible
    · intro n reached
      exact (each n (mem_reachable_iff.mpr reached)).1

instance (td : TypedData) (name : String) : Decidable (td.Legible name) :=
  decidable_of_iff _ legible_iff.symm

theorem Legible.others {td : TypedData} {name : String} (legible : td.Legible name) :
    ∀ e ∈ td.others name, '(' ∉ e.1.toList ∧ ∀ f ∈ e.2, f.Legible := by
  rintro ⟨n, fields⟩ here
  obtain ⟨reached, other, found⟩ := mem_others_iff.mp here
  exact ⟨legible.names n reached other, legible.fields n fields reached found⟩

/-- A struct that is reached is the first in the type text, or one of the others. -/
theorem reaches_iff_listed {td : TypedData} {name n : String} :
    Reaches td.types name n ↔ n = name ∨ ∃ fields, (n, fields) ∈ td.others name := by
  constructor
  · intro reached
    by_cases first : n = name
    · exact .inl first
    · right
      obtain ⟨fields, found⟩ := Option.isSome_iff_exists.mp (reached.contains first)
      refine ⟨fields, mem_others_iff.mpr ⟨reached, first, ?_⟩⟩
      exact (fields?_of_contains (reached.contains first) fields).mpr found
  · rintro (rfl | ⟨fields, here⟩)
    · exact .here
    · exact (mem_others_iff.mp here).1

/-- Two legible schemas in which a struct has one type text agree on all that it leads to. -/
theorem schema_of_encodeType {td td' : TypedData} {name text : String}
    (legible : td.Legible name) (legible' : td'.Legible name)
    (written : td.encodeType name = .ok text) (written' : td'.encodeType name = .ok text) :
    (∀ n, Reaches td.types name n ↔ Reaches td'.types name n) ∧
      ∀ n, Reaches td.types name n →
        ∃ fields, td.fields? n = .ok fields ∧ td'.fields? n = .ok fields := by
  obtain ⟨fields, first, chars⟩ := encodeType_ok_iff.mp written
  obtain ⟨fields', first', chars'⟩ := encodeType_ok_iff.mp written'
  have same := chars.symm.trans chars'
  simp only [definitionsChars, List.flatMap_cons, definitionChars_append] at same
  obtain ⟨rfl, rest⟩ := membersChars_injective (legible.fields name fields .here first)
    (legible'.fields name fields' .here first') (List.cons.inj (List.append_cancel_left same)).2
  -- Every struct that is reached has its definition in the text, so no more is needed.
  have listed : td.others name = td'.others name :=
    definitionsChars_injective legible.others legible'.others rest
  constructor
  · intro n
    rw [reaches_iff_listed, reaches_iff_listed, listed]
  · intro n reached
    rcases reaches_iff_listed.mp reached with rfl | ⟨fields, here⟩
    · exact ⟨fields, first, first'⟩
    · exact ⟨fields, (mem_others_iff.mp here).2.2, (mem_others_iff.mp (listed ▸ here)).2.2⟩

/-- Typed data made of definitions alone. -/
def ofDefinitions (definitions : List (String × List Field)) : TypedData :=
  ofParts .empty
    (.object (definitions.map fun e => (e.1, .array (e.2.map Field.toJson)))) "Order" .null

/-- Definitions that refer to themselves and to each other, beside others that are not reached; a
name may hold blanks and opening brackets. -/
theorem schema_of_encodeType_order :
    let order := [("Order", [Field.mk "maker (main" "Person", ⟨"lines", "Line[2][]"⟩]),
      ("Person", [⟨"boss", "Person[]"⟩]), ("Line", [⟨"of", "Order"⟩, ⟨"", "uint256"⟩])]
    let one := ofDefinitions (order ++ [("Pet", [⟨"a,string b", "string"⟩])])
    let two := ofDefinitions order
    let text := "Order(Person maker (main,Line[2][] lines)" ++ "Line(Order of,uint256 )" ++
      "Person(Person[] boss)"
    one.Legible "Order" ∧ two.Legible "Order" ∧ ¬ one.Legible "Pet" ∧
      one.encodeType "Order" = .ok text ∧ two.encodeType "Order" = .ok text ∧
      (∀ n, Reaches one.types "Order" n ↔ Reaches two.types "Order" n) ∧
      ∀ n, Reaches one.types "Order" n →
        ∃ fields, one.fields? n = .ok fields ∧ two.fields? n = .ok fields := by
  intro order one two text
  have legible : one.Legible "Order" := by decide +kernel
  have legible' : two.Legible "Order" := by decide +kernel
  have other : ¬ one.Legible "Pet" := by decide +kernel
  have written : one.encodeType "Order" = .ok text := by decide +kernel
  have written' : two.encodeType "Order" = .ok text := by decide +kernel
  exact ⟨legible, legible', other, written, written',
    schema_of_encodeType legible legible' written written'⟩

/-- A type text that two schemas share although a struct that they lead to differs. -/
def Confused (one two : List (String × List Field)) (name : String) : Prop :=
  ∃ n text, Reaches (ofDefinitions one).types name n ∧
    (ofDefinitions one).encodeType name = .ok text ∧
    (ofDefinitions two).encodeType name = .ok text ∧
    (ofDefinitions one).fields? n ≠ (ofDefinitions two).fields? n

/-- Schemas with one type text that differ.  In each pair only one of the things is done that a
legible schema does not do: a comma in a name, a closing bracket in a name, a blank in a type, a
type that starts with a closing bracket, and an opening bracket in the name of another struct. -/
theorem encodeType_confuses_schemas :
    Confused [("Order", [⟨"a,string b", "string"⟩])]
      [("Order", [⟨"a", "string"⟩, ⟨"b", "string"⟩])] "Order" ∧
    Confused [("Order", [⟨"a)Line(string b", "Line"⟩])]
      [("Order", [⟨"a", "Line"⟩]), ("Line", [⟨"b", "string"⟩])] "Order" ∧
    Confused [("Order", [⟨"b", "string a"⟩])] [("Order", [⟨"a b", "string"⟩])] "Order" ∧
    Confused
      [("Order", [⟨"a", "Line"⟩, ⟨"b", "Pet"⟩]), ("Line", [⟨"c", ")Pet(string"⟩])]
      [("Order", [⟨"a", "Line"⟩, ⟨"b", "Pet"⟩]), ("Line", []), ("Pet", [⟨"c", "string"⟩])]
      "Order" ∧
    Confused
      [("Order", [⟨"a", "Line"⟩, ⟨"b", "Line(x"⟩]), ("Line", [⟨"d", "x(y"⟩])]
      [("Order", [⟨"a", "Line"⟩, ⟨"b", "Line(x"⟩]), ("Line(x", [⟨"d", "y"⟩])] "Order" := by
  refine ⟨⟨"Order", "Order(string a,string b)", .here, ?_, ?_, ?_⟩,
    ⟨"Order", "Order(Line a)Line(string b)", .here, ?_, ?_, ?_⟩,
    ⟨"Order", "Order(string a b)", .here, ?_, ?_, ?_⟩,
    ⟨"Line", "Order(Line a,Pet b)Line()Pet(string c)", mem_reachable_iff.mp ?_, ?_, ?_, ?_⟩,
    ⟨"Line", "Order(Line a,Line(x b)Line(x(y d)", mem_reachable_iff.mp ?_, ?_, ?_, ?_⟩⟩ <;>
    decide +kernel

end HardwareSigner.TypedData
