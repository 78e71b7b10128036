import HardwareSigner.Proofs.Json.Decoding
import HardwareSigner.TypedData.Document
/-!
Documents of typed data are read as what they were written from.  A text that was read nests its
message no deeper than the next reader can follow, and gives the members of its objects in order.
-/

namespace HardwareSigner.TypedData
open Json (Decoder Shape memberNodes memberNodes_append nestingLimit)

section
variable {depth : Nat}

theorem field_toNode (f : Field) (room : 1 < depth) :
    Field.shape.decoder depth f.toJson.toNode = .ok f := by
  rw [Field.toJson, Json.toNode, Shape.decoder, if_pos room, memberNodes,
    Shape.readMembers_member rfl rfl (Decoder.string_toNode f.name), memberNodes,
    Shape.readMembers_member rfl rfl (Decoder.string_toNode f.type)]
  rfl

theorem fields_toNode (fields : List Field) (room : 2 < depth) :
    Decoder.list Field.shape.decoder depth (Json.array (fields.map Field.toJson)).toNode =
      .ok fields := by
  have inside : 1 < depth - 1 := by omega
  rw [Json.toNode, Decoder.list, if_pos (by omega)]
  exact Decoder.items_toNode fun f _ => field_toNode f inside

theorem types_toNode (types : Table (List Field)) (room : 3 < depth) :
    Decoder.table (.list Field.shape.decoder) depth
        (Json.object (types.entries.map fun e => (e.1, .array (e.2.map Field.toJson)))).toNode =
      .ok types := by
  have outside : 1 < depth := by omega
  have inside : 2 < depth - 1 := by omega
  exact Decoder.table_toNode (fun fields => .array (fields.map Field.toJson)) outside
    fun e _ => fields_toNode e.2 inside

theorem optional_toNode (s : String) :
    Decoder.optional (ρ := Refusal) .string depth (Json.string s).toNode = .ok (some s) := by
  have found : Decoder.string (ρ := Refusal) depth (Json.string s).toNode = .ok s :=
    Decoder.string_toNode s
  rw [Json.toNode] at found ⊢
  rw [Decoder.optional, found]
  · rfl
  · intro same
    cases same

theorem chainId_toNode (n : UInt64) :
    chainIdDecoder depth (Json.ofNat n.toNat n.toNat_lt).toNode = .ok (some n) := by
  have exact : (Json.ofNat n.toNat n.toNat_lt).Integral := ⟨nofun, nofun⟩
  have found : Decoder.value (ρ := Refusal) depth (Json.ofNat n.toNat n.toNat_lt).toNode =
      .ok (Json.ofNat n.toNat n.toNat_lt) := Decoder.value_toNode (.number _) exact
  have whole : natural (Json.ofNat n.toNat n.toNat_lt) = .ok n.toNat := by
    simp [natural, Json.ofNat, Json.Number.ofNat]
  rw [chainIdDecoder, found]
  simp only [Json.ofNat] at whole ⊢
  simp only [whole, n.toNat_lt, if_true, UInt64.ofNat_toNat]

theorem filterMap_id_cons {α : Type} (o : Option α) (os : List (Option α)) :
    (o :: os).filterMap id = o.toList ++ os.filterMap id := by
  cases o <;> rfl

theorem joined {α : Type} (o : Option α) : (o.map some).join = o := by
  cases o <;> rfl

theorem domain_toNode (d : Domain) (room : 1 < depth) :
    Domain.shape.decoder depth (Json.object d.members).toNode = .ok d := by
  rw [Json.toNode, Shape.decoder, if_pos room, Domain.members]
  simp only [filterMap_id_cons, memberNodes_append, List.filterMap_nil]
  -- one component after another, as the reader meets them
  rw [Shape.readMembers_optional (y := some) (fun o s => { s with name := o.map some }) rfl
    (by rfl) (by rfl) (by intro x; rfl) optional_toNode]
  rw [Shape.readMembers_optional (y := some) (fun o s => { s with version := o.map some }) rfl
    (by rfl) (by rfl) (by intro x; rfl) optional_toNode]
  rw [Shape.readMembers_optional (y := some) (fun o s => { s with chainId := o.map some }) rfl
    (by rfl) (by rfl) (by intro x; rfl) chainId_toNode]
  rw [Shape.readMembers_optional (y := some)
    (fun o s => { s with verifyingContract := o.map some }) rfl
    (by rfl) (by rfl) (by intro x; rfl) optional_toNode]
  rw [Shape.readMembers_optional (y := some) (fun o s => { s with salt := o.map some }) rfl
    (by rfl) (by rfl) (by intro x; rfl) optional_toNode]
  rw [memberNodes, Shape.readMembers]
  simp only [Domain.shape, joined]

theorem message_of_finish {missing : String → Json.Fault Refusal} {s : Draft} {td : TypedData}
    (made : shape.finish missing s = .ok td) : s.message = some td.message := by
  obtain ⟨domain, types, primaryType, message⟩ := s
  cases types with
  | none => cases made
  | some types =>
      cases primaryType with
      | none => cases made
      | some primaryType =>
          cases message with
          | none => cases made
          | some message =>
              cases made
              rfl

/-- A decoder that is done with a document has room for its message below the outermost object. -/
theorem readable_of_ofBytes {bs : Bytes} {td : TypedData} (read : ofBytes bs = .ok td) :
    td.message.Readable (nestingLimit - 1) := by
  have decoded : Json.decode shape.decoder bs = .ok td := by
    unfold ofBytes at read
    split at read
    · cases read
      assumption
    · cases read
  obtain ⟨node, found⟩ := Json.decoded_of_decode decoded
  let P (s : Draft) := ∀ message, s.message = some message → message.Readable (nestingLimit - 1)
  have fills : ∀ slot ∈ shape.slots, ∀ node set,
      slot.fill (nestingLimit - 1) node = .ok set → ∀ s, P s → P (set s) := by
    intro slot known node set filled s before
    simp only [shape, List.mem_cons, List.not_mem_nil, or_false] at known
    rcases known with rfl | rfl | rfl | rfl
    · obtain ⟨domain, -, rfl⟩ := Shape.fill_of filled
      exact before
    · obtain ⟨types, -, rfl⟩ := Shape.fill_of filled
      exact before
    · obtain ⟨primaryType, -, rfl⟩ := Shape.fill_of filled
      exact before
    · obtain ⟨value, taken, rfl⟩ := Shape.fill_of filled
      rintro message ⟨⟩
      unfold Decoder.value at taken
      split at taken
      · cases taken
        exact Json.readable_of_toJson? ‹_›
      · cases taken
  obtain ⟨missing, s, kept, made⟩ := Shape.decoder_keeps nofun fills found
  exact kept td.message (message_of_finish made)

theorem integral_string (s : String) : (Json.string s).Integral := ⟨nofun, nofun⟩

theorem integral_members (d : Domain) : (Json.object d.members).Integral := by
  refine ⟨nofun, fun value held => ?_⟩
  obtain ⟨member, set, rfl⟩ := List.mem_map.mp held
  simp only [Domain.members, List.mem_filterMap, List.mem_cons, List.not_mem_nil, or_false, id,
    exists_eq_right] at set
  rcases set with set | set | set | set | set
  · obtain ⟨s, -, rfl⟩ := Option.map_eq_some_iff.mp set.symm
    exact integral_string s
  · obtain ⟨s, -, rfl⟩ := Option.map_eq_some_iff.mp set.symm
    exact integral_string s
  · obtain ⟨n, -, rfl⟩ := Option.map_eq_some_iff.mp set.symm
    exact ⟨nofun, nofun⟩
  · obtain ⟨s, -, rfl⟩ := Option.map_eq_some_iff.mp set.symm
    exact integral_string s
  · obtain ⟨s, -, rfl⟩ := Option.map_eq_some_iff.mp set.symm
    exact integral_string s

theorem integral_field (f : Field) : f.toJson.Integral := by
  refine ⟨nofun, ?_⟩
  rintro value (_ | ⟨_, _ | ⟨_, ⟨⟩⟩⟩)
  · exact integral_string f.name
  · exact integral_string f.type

theorem integral_types (types : Table (List Field)) :
    (Json.object (types.entries.map fun e => (e.1, .array (e.2.map Field.toJson)))).Integral := by
  refine ⟨nofun, fun value held => ?_⟩
  simp only [Json.children, List.map_map, List.mem_map, Function.comp_apply] at held
  obtain ⟨e, -, rfl⟩ := held
  refine ⟨nofun, fun value held => ?_⟩
  obtain ⟨f, -, rfl⟩ := List.mem_map.mp held
  exact integral_field f

theorem integral_toJson {td : TypedData} (exact : td.message.Integral) : td.toJson.Integral := by
  refine ⟨nofun, ?_⟩
  rintro value (_ | ⟨_, _ | ⟨_, _ | ⟨_, _ | ⟨_, ⟨⟩⟩⟩⟩⟩)
  · exact integral_members td.domain
  · exact integral_types td.types
  · exact integral_string td.primaryType
  · exact exact

theorem toJson_toNode {td : TypedData} (readable : td.message.Readable (nestingLimit - 1))
    (exact : td.message.Integral) : shape.decoder nestingLimit td.toJson.toNode = .ok td := by
  rw [toJson, Json.toNode, Shape.decoder, if_pos (by decide), memberNodes,
    Shape.readMembers_member rfl rfl (domain_toNode td.domain (by decide)), memberNodes,
    Shape.readMembers_member rfl rfl (types_toNode td.types (by decide)), memberNodes,
    Shape.readMembers_member rfl rfl (Decoder.string_toNode td.primaryType), memberNodes,
    Shape.readMembers_member rfl rfl (Decoder.value_toNode readable exact)]
  rfl

theorem ok_of_toOption {ε α : Type} {x : Except ε α} {a : α} (found : x.toOption = some a) :
    x = .ok a := by
  cases x with
  | error e => cases found
  | ok b => exact congrArg Except.ok (Option.some.inj found)

/--
What was read from a document is read again from the text that is written of it, so that all its
hashes and faults are those of the first reading.
-/
theorem ofText_toText {bs : Bytes} {td : TypedData} (read : ofBytes bs = .ok td)
    (exact : td.message.Integral) :
    ofText td.toText = .ok td ∧
      ∀ name value, (ofText td.toText).bind (·.hashStruct name value) =
        td.hashStruct name value := by
  have again : ofText td.toText = .ok td := by
    have decoded := Json.decode_bytes (integral_toJson exact)
      (toJson_toNode (readable_of_ofBytes read) exact)
    rw [Json.bytes] at decoded
    rw [ofText, toText, Json.render, Bytes.ofString_ofList, ofBytes, decoded]
  refine ⟨again, fun name value => ?_⟩
  rw [again]
  rfl

/-- Blanks, escapes, the order of members and the notation of a chain id are settled by the first
reading. -/
theorem ofText_toText_of_loose_text :
    let text := "\x7b\"message\": \x7b\"to\": \"\\u0041\\/\", \"n\": [-7, null]\x7d, " ++
      "\"primaryType\": \"Tx\", \"domain\": \x7b\"salt\": null, \"chainId\": \"0x2329\"\x7d, " ++
      "\"types\": \x7b\"Tx\": [[\"to\", \"string\"]], \"Box\": []\x7d\x7d"
    ∃ td, ofBytes (Bytes.ofString text) = .ok td ∧
      td.toText = "\x7b\"domain\":\x7b\"chainId\":9001\x7d,\"types\":\x7b\"Box\":[],\"Tx\":" ++
        "[\x7b\"name\":\"to\",\"type\":\"string\"\x7d]\x7d,\"primaryType\":\"Tx\",\"message\":" ++
        "\x7b\"n\":[-7,null],\"to\":\"A/\"\x7d\x7d" ∧
      ofText td.toText = .ok td ∧
      ∀ name value, (ofText td.toText).bind (·.hashStruct name value) =
        td.hashStruct name value := by
  intro text
  let n := Json.array [.number (.integer (-7) (by omega)), .null]
  have integral : (Json.object [("n", n), ("to", .string "A/")]).Integral := by
    refine ⟨nofun, ?_⟩
    rintro value (_ | ⟨_, _ | ⟨_, ⟨⟩⟩⟩)
    · refine ⟨nofun, ?_⟩
      rintro item (_ | ⟨_, _ | ⟨_, ⟨⟩⟩⟩)
      · exact ⟨nofun, nofun⟩
      · exact ⟨nofun, nofun⟩
    · exact integral_string "A/"
  have read : ofBytes (Bytes.ofString text) = .ok ⟨⟨none, none, some 9001, none, none⟩,
      .ofList [("Tx", [⟨"to", "string"⟩]), ("Box", [])], "Tx",
      .object [("n", n), ("to", .string "A/")]⟩ := ok_of_toOption (by decide +kernel)
  exact ⟨_, read, by decide +kernel, ofText_toText read integral⟩

end

end HardwareSigner.TypedData
