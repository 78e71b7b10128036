import HardwareSigner.Proofs.TypedData.WellFormed
/-!
What the type text in front of a struct's hash covers.  The structs that are hashed with it are
found by taking array suffixes off from the right, those that it lists by cutting types at the first
bracket.  The two agree as long as the struct is defined and nothing else that is met has a bracket
in its name; where they part, a struct is hashed that the type text does not list.
-/

namespace HardwareSigner.TypedData
variable {td : TypedData}

/-- The reading that makes words, with the type text of every struct that is hashed for them. -/
def logged : Reading (Word × List String) where
  atom atom type value := (atom.encode type value).map fun w => (w, [])
  array xs := (Keccak.hash ((xs.map Prod.fst).flatMap Word.bytes), xs.flatMap Prod.snd)
  record text xs := (Keccak.hash (structBytes text (xs.map Prod.fst)), text :: xs.flatMap Prod.snd)

theorem logged_maps : logged.Maps words Prod.fst where
  atom := by
    intro atom type value
    simp only [words, logged]
    cases atom.encode type value <;> rfl
  array _ := rfl
  record _ _ := rfl

/-- A text was logged for a value of this type: one for each struct that is met in it. -/
def Mentions (td : TypedData) (type : String) (value : Json) (text : String) : Prop :=
  ∃ base inner, Element type value base inner ∧ td.types.contains base = true ∧
    ∃ target struct, Met td base inner target struct ∧ td.encodeType target = .ok text

theorem mem_flatMap_of_forall₂ {α β γ : Type} {R : α → Prop} {f : β → List γ} {c : γ}
    {as : List α} {bs : List β} (each : List.Forall₂ (fun a b => c ∈ f b ↔ R a) as bs) :
    c ∈ bs.flatMap f ↔ ∃ a ∈ as, R a := by
  induction each with
  | nil => simp only [List.flatMap_nil, List.not_mem_nil, false_and, exists_false]
  | cons first rest ih =>
      simp only [List.flatMap_cons, List.mem_append, List.mem_cons, exists_eq_or_imp, first, ih]

theorem mentions_array {type text : String} {array : ArrayType} {items : List Json}
    (kind : arrayType type = .ok (some array)) :
    Mentions td type (.array items) text ↔ ∃ item ∈ items, Mentions td array.item item text := by
  constructor
  · rintro ⟨base, inner, element, known, met⟩
    cases element with
    | here single =>
        rw [kind] at single
        cases single
    | item kind' here element =>
        obtain rfl := Option.some.inj (Except.ok.inj (kind.symm.trans kind'))
        exact ⟨_, here, base, inner, element, known, met⟩
  · rintro ⟨item, here, base, inner, element, known, met⟩
    exact ⟨base, inner, .item kind here element, known, met⟩

theorem mentions_single {type text : String} {value : Json} (single : arrayType type = .ok none) :
    Mentions td type value text ↔ td.types.contains type = true ∧
      ∃ target struct, Met td type value target struct ∧ td.encodeType target = .ok text := by
  constructor
  · rintro ⟨base, inner, element, known, met⟩
    cases element with
    | here => exact ⟨known, met⟩
    | item kind _ _ =>
        rw [single] at kind
        cases kind
  · rintro ⟨known, met⟩
    exact ⟨type, value, .here single, known, met⟩

/-- The text of a struct itself comes first, then what is logged for its fields. -/
theorem mem_log_of_structRead {name text : String} {value : Json} {x : Word × List String}
    (ih : ∀ child ∈ value.children, ∀ type x, logged.readValue td child type = .ok x →
      (text ∈ x.2 ↔ Mentions td type child text))
    (read : Reading.StructRead logged td name value x) :
    text ∈ x.2 ↔
      ∃ target struct, Met td name value target struct ∧ td.encodeType target = .ok text := by
  cases read with
  | @object first fields members xs written declared fits fieldwise =>
      have each : List.Forall₂ (fun f x => text ∈ Prod.snd x ↔
          ∃ held, members.lookup f.name = some held ∧ Mentions td f.type held text) fields xs := by
        refine fieldwise.imp ?_
        rintro f x ⟨held, found, read⟩
        have inside := ih held (Json.mem_children_of_lookup found) _ _ read
        simp only [found, Option.some.injEq, exists_eq_left', inside]
      simp only [logged, List.mem_cons, mem_flatMap_of_forall₂ each]
      constructor
      · rintro (rfl | ⟨f, here, held, found, base, inner, element, known, target, struct, met, own⟩)
        · exact ⟨name, _, .here, written⟩
        · exact ⟨target, struct, .field declared here found element known met, own⟩
      · rintro ⟨target, struct, met, own⟩
        cases met with
        | here => exact .inl (Except.ok.inj (own.symm.trans written))
        | field declared' here found element known met =>
            obtain rfl := Except.ok.inj (declared.symm.trans declared')
            exact .inr ⟨_, here, _, found, _, _, element, known, target, struct, met, own⟩

theorem mem_log_of_readValue (text : String) (value : Json) :
    ∀ type x, logged.readValue td value type = .ok x →
      (text ∈ x.2 ↔ Mentions td type value text) := by
  induction value using Json.ind with
  | step value ih =>
      intro type x read
      rw [Reading.readValue_ok_iff] at read
      cases read with
      | @array array items xs kind count itemwise =>
          rw [mentions_array kind]
          refine mem_flatMap_of_forall₂ ?_
          exact ((List.forall₂_and_left _ _).mpr ⟨ih, itemwise⟩).imp fun item x h => h.1 _ _ h.2
      | struct single known read =>
          rw [mentions_single single,
            mem_log_of_structRead ih ((Reading.readStruct_ok_iff logged td).mp read)]
          exact (and_iff_right known).symm
      | atom single unknown found read =>
          obtain ⟨w, -, rfl⟩ := map_eq_ok read
          rw [mentions_single single, unknown]
          simp only [List.not_mem_nil, Bool.false_eq_true, false_and]

/-- The type texts that are hashed are those of the structs that are met. -/
theorem mem_log_iff {name : String} {value : Json} {x : Word × List String}
    (read : logged.readStruct td name value = .ok x) (text : String) :
    text ∈ x.2 ↔
      ∃ target struct, Met td name value target struct ∧ td.encodeType target = .ok text :=
  mem_log_of_structRead (fun child _ => mem_log_of_readValue text child)
    ((Reading.readStruct_ok_iff logged td).mp read)

theorem notMem_baseType (type : String) : '[' ∉ (baseType type).toList := by
  rw [baseType, String.toList_ofList]
  intro here
  have other := List.mem_takeWhile_imp here
  exact of_decide_eq_true other rfl

/-- Nothing is reached but from a struct that is defined. -/
theorem Reaches.contains_start {types : Table (List Field)} {name target : String}
    (reached : Reaches types name target) (other : target ≠ name) :
    types.contains name = true := by
  induction reached with
  | here => exact absurd rfl other
  | @field middle fields f _ defined here known ih =>
      by_cases first : middle = name
      · rw [← first, Table.contains, defined, Option.isSome_some]
      · exact ih first

/-- What is reached from another struct is the base of some type. -/
theorem Reaches.plain {types : Table (List Field)} {name target : String}
    (reached : Reaches types name target) (other : target ≠ name) : '[' ∉ target.toList := by
  cases reached with
  | here => exact absurd rfl other
  | field _ _ _ _ => exact notMem_baseType _

/-- Structs are reached along the way on which they are met, if each is the base of its type. -/
theorem Met.reaches {root name target : String} {value struct : Json}
    (met : Met td name value target struct) (reached : Reaches td.types root name)
    (plain : ∀ t s, Met td name value t s → t ≠ root →
      td.types.contains root = true ∧ '[' ∉ t.toList) : Reaches td.types root target := by
  induction met with
  | here => exact reached
  | @field name fields members f value base inner target struct declared here found element known
      met ih =>
      have step : Reaches td.types root base := by
        by_cases first : base = root
        · rw [first]
          exact .here
        · obtain ⟨defined, named⟩ := plain base inner
            (.field declared here found element known .here) first
          have known' : td.types.contains name = true := by
            by_cases start : name = root
            · rwa [start]
            · exact reached.contains start
          have same : baseType f.type = base :=
            element.baseType.symm.trans (baseType_of_notMem named)
          rw [← same] at known ⊢
          exact .field reached ((fields?_of_contains known' fields).mp declared) here known
      refine ih step ?_
      intro t s inside
      exact plain t s (.field declared here found element known inside)

/-- What is met inside of a struct is defined. -/
theorem Met.mem_keys {name target : String} {value struct : Json}
    (met : Met td name value target struct) (other : target ≠ name) : target ∈ td.types.keys := by
  induction met with
  | here => exact absurd rfl other
  | @field _ _ _ _ _ base _ target _ _ _ _ _ known _ ih =>
      by_cases last : target = base
      · rw [last]
        exact Table.mem_keys_iff.mpr (Option.isSome_iff_exists.mp known)
      · exact ih last

/-- The condition under which the type text in front of a hash lists every struct that is hashed.
The structs that are hashed are those that are met, and each has its type text hashed; they are all
listed just when the first is defined, and no other has a bracket in its name. -/
theorem coverage_of_hashStruct {name : String} {value : Json} {h : Word}
    (hashed : td.hashStruct name value = .ok h) :
    ∃ log fields, logged.readStruct td name value = .ok (h, log) ∧
      (∀ text, text ∈ log ↔
        ∃ target struct, Met td name value target struct ∧ td.encodeType target = .ok text) ∧
      td.fields? name = .ok fields ∧
      td.encodeType name = .ok (definition name fields ++
        String.join ((td.others name).map fun e => definition e.1 e.2)) ∧
      ((∀ target struct, Met td name value target struct →
          target = name ∨ target ∈ (td.others name).map Prod.fst) ↔
        ∀ target struct, Met td name value target struct → target ≠ name →
          td.types.contains name = true ∧ '[' ∉ target.toList) := by
  rw [hashStruct_eq] at hashed
  obtain ⟨⟨_, log⟩, read, rfl⟩ := Reading.readStruct_made td logged_maps hashed
  have call := (Reading.readStruct_ok_iff words td).mp hashed
  cases call with
  | @object text fields members xs written declared fits fieldwise =>
      refine ⟨log, fields, read, mem_log_iff read, declared, encodeType_of_fields? declared, ?_⟩
      constructor
      · intro covered target struct met other
        have listed := (covered target struct met).resolve_left other
        have reached := (mem_keys_others_iff.mp listed).1
        exact ⟨reached.contains_start other, reached.plain other⟩
      · intro plain target struct met
        by_cases other : target = name
        · exact .inl other
        · exact .inr (mem_keys_others_iff.mpr ⟨met.reaches .here plain, other⟩)

/-- A team that holds people who know each other: whoever is met is listed, boss of a boss or not. -/
theorem coverage_of_hashStruct_team :
    let td : TypedData := ⟨.empty, .ofList [("Team[1", [⟨"lead", "Person"⟩, ⟨"spare", "Pet[][]"⟩]),
      ("Person", [⟨"boss", "Person[]"⟩, ⟨"pets", "Pet[1]"⟩]), ("Pet", [])], "Team[1", .null⟩
    let pets := Json.array [.object []]
    let boss := Json.object [("boss", .array []), ("pets", pets)]
    let lead := Json.object [("boss", .array [boss, boss]), ("pets", pets)]
    let team := Json.object [("lead", lead), ("spare", .array [.array []])]
    (∃ h, td.hashStruct "Team[1" team = .ok h) ∧ Met td "Team[1" team "Person" boss ∧
      ∀ target struct, Met td "Team[1" team target struct →
        target = "Team[1" ∨ target ∈ (td.others "Team[1").map Prod.fst := by
  intro td pets boss lead team
  obtain ⟨h, hashed⟩ : ∃ h, td.hashStruct "Team[1" team = .ok h :=
    exists_of_isOk (by decide +kernel)
  have met : Met td "Team[1" team "Person" boss :=
    .field rfl List.mem_cons_self rfl (.here rfl) rfl
      (.field rfl List.mem_cons_self rfl (.item rfl List.mem_cons_self (.here rfl)) rfl .here)
  have plain : ∀ n ∈ td.types.keys, n ≠ "Team[1" → '[' ∉ n.toList := by decide +kernel
  obtain ⟨-, -, -, -, -, -, covered⟩ := coverage_of_hashStruct hashed
  refine ⟨⟨h, hashed⟩, met, covered.mpr ?_⟩
  intro target struct met other
  exact ⟨rfl, plain target (met.mem_keys other) other⟩

/-- A struct whose name has a bracket is hashed under its own name, while `Fee` is what the type text
asks for.  Behind a domain that is read off itself nothing is listed, not even the struct that has
the name of an atom. -/
theorem hashed_struct_is_not_listed :
    let td : TypedData := ⟨.empty, .ofList [("Tx", [⟨"fee", "Fee["⟩]),
      ("Fee[", [⟨"gas", "string"⟩])], "Tx", .null⟩
    let fee := Json.object [("gas", .string "1")]
    let named : TypedData := ⟨⟨some "Evmos", none, none, none, none⟩, .ofList [("string", [])],
      "EIP712Domain", .null⟩
    (∃ h, td.hashStruct "Tx" (.object [("fee", fee)]) = .ok h) ∧
      Met td "Tx" (.object [("fee", fee)]) "Fee[" fee ∧ "Fee[" ≠ "Tx" ∧
      "Fee[" ∉ (td.others "Tx").map Prod.fst ∧ td.encodeType "Tx" = .ok "Tx(Fee[ fee)" ∧
    (∃ h, named.hashStruct "EIP712Domain" (.object [("name", .object [])]) = .ok h) ∧
      Met named "EIP712Domain" (.object [("name", .object [])]) "string" (.object []) ∧
      "string" ≠ "EIP712Domain" ∧ "string" ∉ (named.others "EIP712Domain").map Prod.fst ∧
      named.encodeType "EIP712Domain" = .ok "EIP712Domain(string name)" := by
  intro td fee named
  refine ⟨⟨_, rfl⟩, ?_, by decide, by decide +kernel, by decide +kernel, ⟨_, rfl⟩, ?_, by decide,
    by decide +kernel, by decide +kernel⟩
  · exact .field rfl List.mem_cons_self rfl (.here rfl) rfl .here
  · exact .field rfl List.mem_cons_self rfl (.here rfl) rfl .here

end HardwareSigner.TypedData
