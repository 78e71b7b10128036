import HardwareSigner.Proofs.TypedData.WellFormed
/-!
Under which types a value can be encoded at all.  They are a base and its array suffixes, and if
anything is found at the bottom, the base is a struct or the name of an atom.  The names are those
of the standard but for the numbers in them: these may be padded, and a padded number is taken for
the number that it pads.
-/

namespace HardwareSigner.TypedData
open Text (Padded)

/-- Numbers as the standard has them, with neither sign nor leading zeros. -/
def Decimal (n : Nat) (cs : List Char) : Prop :=
  cs = Nat.toDigits 10 n

/-- An empty array is met, so that its item type is left alone. -/
inductive Hollow : (type : String) → Json → (item : String) → Prop where
  | here {type array} : arrayType type = .ok (some array) → Hollow type (.array []) array.item
  | item {type array items item rest} : arrayType type = .ok (some array) → item ∈ items →
      Hollow array.item item rest → Hollow type (.array items) rest

theorem eq_brackets {type item : String} {count : List Char}
    (written : type.toList = item.toList ++ '[' :: (count ++ [']'])) :
    type = item ++ "[" ++ String.ofList count ++ "]" := by
  rw [← String.toList_inj, written]
  simp only [String.toList_append, String.toList_ofList, List.append_assoc]
  rfl

theorem toList_brackets (item : String) (count : List Char) :
    (item ++ "[" ++ String.ofList count ++ "]").toList =
      item.toList ++ '[' :: (count ++ [']']) := by
  simp only [String.toList_append, String.toList_ofList, List.append_assoc]
  rfl

theorem suffixed_of_arrayType {base type : String} {array : ArrayType}
    (kind : arrayType type = .ok (some array)) (inside : Suffixed Padded base array.item) :
    Suffixed Padded base type := by
  obtain ⟨item, length⟩ := array
  obtain ⟨count, written, counted⟩ := arrayType_some_iff.mp kind
  rw [eq_brackets written]
  cases counted with
  | any =>
      rw [String.append_assoc, String.append_assoc]
      exact .list inside
  | exact number => exact .vector inside number.1

theorem item_shorter {type : String} {array : ArrayType}
    (kind : arrayType type = .ok (some array)) : array.item.toList.length < type.toList.length := by
  obtain ⟨count, written, -⟩ := arrayType_some_iff.mp kind
  rw [written, List.length_append, List.length_cons]
  omega

theorem Element.suffixed {type base : String} {value inner : Json}
    (element : Element type value base inner) : Suffixed Padded base type := by
  induction element with
  | here single => exact .base
  | item kind here element ih => exact suffixed_of_arrayType kind ih

theorem Hollow.suffixed {type item : String} {value : Json} (hollow : Hollow type value item) :
    Suffixed Padded item type ∧ item.toList.length < type.toList.length := by
  induction hollow with
  | here kind => exact ⟨suffixed_of_arrayType kind .base, item_shorter kind⟩
  | item kind here hollow ih =>
      exact ⟨suffixed_of_arrayType kind ih.1, Nat.lt_trans ih.2 (item_shorter kind)⟩

section
variable {td : TypedData}

/-- Either something is found at the bottom, or an empty array is. -/
theorem element_or_hollow (value : Json) :
    ∀ type word, words.readValue td value type = .ok word →
      (∃ base inner, Element type value base inner) ∨ ∃ item, Hollow type value item := by
  induction value using Json.ind with
  | step value ih =>
      intro type word read
      rw [Reading.readValue_ok_iff] at read
      cases read with
      | @array array items ws kind count itemwise =>
          cases itemwise with
          | nil => exact .inr ⟨array.item, .here kind⟩
          | @cons item _ rest _ first _ =>
              have here : item ∈ item :: rest := List.mem_cons_self
              rcases ih item here _ _ first with ⟨base, inner, element⟩ | ⟨last, hollow⟩
              · exact .inl ⟨base, inner, .item kind here element⟩
              · exact .inr ⟨last, .item kind here hollow⟩
      | struct single _ _ => exact .inl ⟨type, value, .here single⟩
      | atom single _ _ _ => exact .inl ⟨type, value, .here single⟩

/-- An array type is used for its parts alone. -/
theorem readValue_of_same_array {type type' : String} {array : ArrayType} {value : Json}
    {word : Word} (kind : arrayType type = .ok (some array))
    (kind' : arrayType type' = .ok (some array)) (read : words.readValue td value type = .ok word) :
    words.readValue td value type' = .ok word := by
  rw [Reading.readValue_ok_iff] at read ⊢
  cases read with
  | array known count itemwise =>
      obtain rfl := Option.some.inj (Except.ok.inj (kind.symm.trans known))
      exact .array kind' count itemwise
  | struct single _ _ | atom single _ _ _ =>
      rw [kind] at single
      cases single

end

theorem text_of_other_name {type s : String} {value : Json} (read : text type value = .ok s)
    (type' : String) : text type' value = .ok s := by
  cases value with
  | string _ => exact read
  | null | bool | number | array | object => cases read

/-- The name of an atomic type is of use in errors only. -/
theorem AtomType.encode_of_other_name {atom : AtomType} {type : String} {value : Json} {word : Word}
    (encoded : atom.encode type value = .ok word) (type' : String) :
    atom.encode type' value = .ok word := by
  cases atom <;> simp only [AtomType.encode] at encoded ⊢
  case string | bytes | address =>
      split at encoded
      · cases encoded
      · rename_i s read
        rw [text_of_other_name read]
        exact encoded
  case bool => exact encoded
  case fixedBytes size =>
      split at encoded
      · cases encoded
      · rename_i s read
        rw [text_of_other_name read]
        simp only
        cases found : hexBytes s with
        | error e =>
            rw [found] at encoded
            cases encoded
        | ok bs =>
            simp only [found] at encoded ⊢
            split at encoded
            · cases encoded
            · rename_i fits
              rw [if_neg fits]
              exact encoded
  case uint bits | int bits =>
      split at encoded
      · cases encoded
      · split at encoded
        · rename_i fits
          rw [if_pos fits]
          exact encoded
        · cases encoded

section
variable {td : TypedData}

/-- Two names of one atomic type are good for the same values. -/
theorem readValue_of_same_atom {atom : AtomType} {type type' : String} {value : Json} {word : Word}
    (named : AtomName Padded atom type) (named' : AtomName Padded atom type')
    (unknown : td.types.contains type = false) (unknown' : td.types.contains type' = false)
    (read : words.readValue td value type = .ok word) :
    words.readValue td value type' = .ok word := by
  rw [words.readValue_atom td named.single unknown, atomType_of_atomName named] at read
  rw [words.readValue_atom td named'.single unknown', atomType_of_atomName named']
  exact AtomType.encode_of_other_name read type'

end

theorem padded_of_decimal {n : Nat} {cs : List Char} (decimal : Decimal n cs) : Padded n cs := by
  rw [show cs = List.replicate 0 '0' ++ Nat.toDigits 10 n from decimal]
  exact .zeros 0

theorem AtomName.padded {atom : AtomType} {type : String} (named : AtomName Decimal atom type) :
    AtomName Padded atom type := by
  cases named with
  | string => exact .string
  | bytes => exact .bytes
  | bool => exact .bool
  | address => exact .address
  | wideUint => exact .wideUint
  | wideInt => exact .wideInt
  | fixedBytes number least most => exact .fixedBytes (padded_of_decimal number) least most
  | uint number sound => exact .uint (padded_of_decimal number) sound
  | int number sound => exact .int (padded_of_decimal number) sound

theorem arrayType_vector {n : Nat} {cs : List Char} (number : Padded n cs) (fits : n < 2 ^ 64)
    (item : String) :
    arrayType (item ++ "[" ++ String.ofList cs ++ "]") = .ok (some ⟨item, some n⟩) :=
  arrayType_some_iff.mpr ⟨cs, toList_brackets item cs, .exact ⟨number, fits⟩⟩

/-- The types under which values can be encoded: what is found at the bottom of a value is a struct
or an atom, and all that stands behind its name are suffixes of arrays; so it is with the type that
an empty array leaves alone.  In any of the numbers a sign and leading zeros make no difference. -/
theorem type_of_encodeField (td : TypedData) :
    (∀ type value word, td.encodeField value type = .ok word →
      ((∃ base inner, Element type value base inner) ∨ ∃ item, Hollow type value item) ∧
      (∀ base inner, Element type value base inner → Suffixed Padded base type ∧
        (td.types.contains base = true ∨ ∃ atom, AtomName Padded atom base)) ∧
      ∀ item, Hollow type value item → Suffixed Padded item type ∧ item ≠ type) ∧
    (∀ item n cs value word, Padded n cs → n < 2 ^ 64 →
      (td.encodeField value (item ++ "[" ++ String.ofList cs ++ "]") = .ok word ↔
        td.encodeField value (item ++ "[" ++ toString n ++ "]") = .ok word)) ∧
    ∀ atom type standard value word, AtomName Padded atom type → AtomName Decimal atom standard →
      td.types.contains type = false → td.types.contains standard = false →
      (td.encodeField value type = .ok word ↔ td.encodeField value standard = .ok word) := by
  simp only [encodeField_eq]
  refine ⟨?_, ?_, ?_⟩
  · intro type value word read
    refine ⟨element_or_hollow value type word read, ?_, ?_⟩
    · intro base inner element
      obtain ⟨single, y, bottom⟩ := words.readValue_element td read element
      refine ⟨element.suffixed, (Reading.known_of_single single bottom).imp_right ?_⟩
      rintro ⟨atom, found⟩
      exact ⟨atom, atomName_of_atomType found⟩
    · intro item hollow
      obtain ⟨suffixed, shorter⟩ := hollow.suffixed
      refine ⟨suffixed, ?_⟩
      rintro rfl
      exact Nat.lt_irrefl _ shorter
  · intro item n cs value word number fits
    have kind := arrayType_vector number fits item
    have kind' := arrayType_vector (padded_of_decimal (n := n) rfl) fits item
    exact ⟨readValue_of_same_array kind kind', readValue_of_same_array kind' kind⟩
  · intro atom type standard value word named named' unknown unknown'
    exact ⟨readValue_of_same_atom named named'.padded unknown unknown',
      readValue_of_same_atom named'.padded named unknown' unknown⟩

/-- Padded numbers in an array type and in the name of an atom, and an empty array beside one that
holds something. -/
theorem type_of_encodeField_lines :
    let td : TypedData := ⟨.empty, .ofList [("Line", [⟨"item", "string"⟩])], "Line", .null⟩
    let lines := Json.array [.array [], .array [.object [("item", .string "nut")]]]
    (∃ word, td.encodeField lines "Line[][+02]" = .ok word) ∧
      Suffixed Padded "Line" "Line[][+02]" ∧
      (∀ value word, td.encodeField value "Line[][+02]" = .ok word ↔
        td.encodeField value "Line[][2]" = .ok word) ∧
      ∀ value word, td.encodeField value "uint+08" = .ok word ↔
        td.encodeField value "uint8" = .ok word := by
  intro td lines
  obtain ⟨word, encoded⟩ : ∃ word, td.encodeField lines "Line[][+02]" = .ok word :=
    exists_of_isOk (by decide +kernel)
  have outer : arrayType "Line[][+02]" = .ok (some ⟨"Line[]", some 2⟩) := by decide +kernel
  have inner : arrayType "Line[]" = .ok (some ⟨"Line", none⟩) := by decide +kernel
  have hollow : Hollow "Line[][+02]" lines "Line" := .item outer List.mem_cons_self (.here inner)
  have sound : ByteWidth 8 := ⟨by decide, by decide, by decide⟩
  obtain ⟨types, vectors, atoms⟩ := type_of_encodeField td
  refine ⟨⟨_, encoded⟩, ((types _ _ _ encoded).2.2 _ hollow).1, ?_, ?_⟩
  · intro value word
    have spelled : "Line[][+02]" = "Line[]" ++ "[" ++ String.ofList ['+', '0', '2'] ++ "]" := by
      decide +kernel
    have plain : "Line[][2]" = "Line[]" ++ "[" ++ toString 2 ++ "]" := by decide +kernel
    rw [spelled, plain]
    exact vectors "Line[]" 2 ['+', '0', '2'] value word (.plus 1) (by decide)
  · have padded : AtomName Padded (.uint 8) "uint+08" := by
      rw [show "uint+08" = "uint" ++ String.ofList ['+', '0', '8'] by decide +kernel]
      exact .uint (.plus 1) sound
    have standard : AtomName Decimal (.uint 8) "uint8" := by
      rw [show "uint8" = "uint" ++ String.ofList ['8'] by decide +kernel]
      exact .uint rfl sound
    exact fun value word => atoms _ _ _ value word padded standard rfl rfl

theorem notMem_of_decimal {n : Nat} {cs : List Char} (decimal : Decimal n cs) : '+' ∉ cs := by
  intro here
  rw [show cs = Nat.toDigits 10 n from decimal] at here
  exact absurd (Nat.isDigit_of_mem_toDigits (by decide) (by decide) here) (by decide)

/-- No standard type that ends in a base without a plus sign has one. -/
theorem Suffixed.mem_base {base type : String} (suffixed : Suffixed Decimal base type)
    (here : '+' ∈ type.toList) : '+' ∈ base.toList := by
  induction suffixed with
  | base => exact here
  | @list item _ ih =>
      rw [String.toList_append, List.mem_append] at here
      exact ih (here.resolve_right (by decide))
  | @vector item n cs _ number ih =>
      rw [toList_brackets] at here
      simp only [List.mem_append, List.mem_cons, List.not_mem_nil, or_false] at here
      rcases here with here | other | here | other
      · exact ih here
      · exact absurd other (by decide)
      · exact absurd here (notMem_of_decimal number)
      · exact absurd other (by decide)

/-- Values are encoded under types that are none of the standard. -/
theorem padded_types_are_accepted :
    let td : TypedData := ⟨.empty, .empty, "Tx", .null⟩
    ∀ e ∈ [("uint+8", Json.ofNat 1), ("bytes+4", .string "0x"), ("uint8[+1]", .array [.ofNat 1])],
      td.types.contains e.1 = false ∧ (∃ word, td.encodeField e.2 e.1 = .ok word) ∧
      ∀ base, Suffixed Decimal base e.1 →
        ¬ (td.types.contains base = true ∨ ∃ atom, AtomName Decimal atom base) := by
  intro td e listed
  have signed : '+' ∈ e.1.toList := by
    simp only [List.mem_cons, List.not_mem_nil, or_false] at listed
    rcases listed with rfl | rfl | rfl <;> decide
  refine ⟨rfl, ?_, ?_⟩
  · simp only [List.mem_cons, List.not_mem_nil, or_false] at listed
    rcases listed with rfl | rfl | rfl <;> exact exists_of_isOk (by decide +kernel)
  · rintro base suffixed (known | ⟨atom, named⟩)
    · cases known
    · exact named.notMem_of (fun n cs => notMem_of_decimal) (by decide) (suffixed.mem_base signed)

end HardwareSigner.TypedData
