import HardwareSigner.Proofs.Json.Records
import HardwareSigner.Proofs.TypedData.Integers
import HardwareSigner.Proofs.TypedData.RoundTrip
/-!
Typed data that is read from a value in memory.  For each of its records there is a reading of
values that takes what the reader of documents takes; fields are the ones that the reader of parts
knows as well.
-/

namespace HardwareSigner.TypedData
open Json (Decoder part? optional? list? table? toString?)

theorem Field.finish_ok_iff {missing : String → Json.Fault _} {s : Field.Draft} {f : Field} :
    Field.shape.finish missing s = .ok f ↔ s = ⟨some f.name, some f.type⟩ := by
  constructor
  · intro made
    obtain ⟨_ | name, _ | type⟩ := s
    · cases made
    · cases made
    · cases made
    · cases made
      rfl
  · rintro rfl
    rfl

def Field.parts : List (Json.Part HardwareSigner.Refusal Field.Draft) :=
  [⟨"name", (·.name), fun x s => { s with name := some x }, .string, toString?⟩,
   ⟨"type", (·.type), fun x s => { s with type := some x }, .string, toString?⟩]

theorem Field.described : Field.shape.Described Field.parts where
  slots := rfl
  lawful := by
    simp only [parts, List.forall_mem_cons]
    exact ⟨⟨fun _ _ => rfl, Decoder.string_reads⟩, ⟨fun _ _ => rfl, Decoder.string_reads⟩, nofun⟩
  apart := by
    simp only [parts, List.pairwise_cons, List.forall_mem_cons]
    exact ⟨⟨⟨by decide, fun _ _ => rfl, fun _ _ => rfl⟩, nofun⟩, nofun, .nil⟩
  unset := by
    simp only [parts, List.forall_mem_cons]
    exact ⟨rfl, rfl, nofun⟩
  ext {s s'} same := by
    simp only [parts, List.forall_mem_cons] at same
    obtain ⟨name, type, -⟩ := same
    cases s
    cases s'
    cases name
    cases type
    rfl
  settled made := finish_ok_iff.mpr (finish_ok_iff.mp made)

theorem Field.ofJson?_eq_some_iff {value : Json} {f : Field} :
    ofJson? value = some f ↔ value.isRecord 2 = true ∧
      value.component? 0 "name" = some (.string f.name) ∧
      value.component? 1 "type" = some (.string f.type) := by
  constructor
  · intro read
    unfold ofJson? at read
    split at read
    · split at read
      · rename_i name type
        cases read
        exact ⟨rfl, name, type⟩
      · cases read
    · cases read
      exact ⟨rfl, rfl, rfl⟩
    · cases read
  · rintro ⟨record, name, type⟩
    cases value with
    | object members =>
        simp only [Json.component?] at name type
        simp only [ofJson?, name, type]
    | array items =>
        have short : items.length ≤ 2 := of_decide_eq_true record
        rcases items with _ | ⟨first, _ | ⟨second, _ | ⟨third, rest⟩⟩⟩
        · cases name
        · cases type
        · cases name
          cases type
          rfl
        · simp only [List.length_cons] at short
          omega
    | null | bool | number | string => cases record

theorem toString?_eq_some_iff {value : Json} {s : String} :
    value.toString? = some s ↔ value = .string s := by
  constructor
  · intro found
    cases value with
    | string s => exact congrArg Json.string (Option.some.inj found)
    | null | bool | number | array | object => cases found
  · rintro rfl
    rfl

theorem part?_toString?_iff {place : Nat} {name s : String} {value : Json} :
    part? toString? place name value = some (some s) ↔
      value.component? place name = some (.string s) := by
  rw [Json.part?_eq_some_iff, Option.map_some, Option.map_eq_some_iff]
  simp only [toString?_eq_some_iff, exists_eq_right]

/-- A field is read from a value as from a document. -/
theorem Field.reads : Field.shape.decoder.Reads Field.ofJson? := by
  refine described.reads fun value f => ?_
  rw [ofJson?_eq_some_iff, ← part?_toString?_iff, ← part?_toString?_iff]
  simp only [finish_ok_iff]
  constructor
  · rintro ⟨record, name, type⟩
    exact ⟨record, ⟨some f.name, some f.type⟩, ⟨name, type, trivial⟩, .missingField, rfl⟩
  · rintro ⟨record, s, ⟨name, type, -⟩, missing, rfl⟩
    exact ⟨record, name, type⟩

/-- A chain id as a number or a numeral. -/
def chainId? (value : Json) : Option UInt64 :=
  match natural value with
  | .ok n => if n < 2 ^ 64 then some (UInt64.ofNat n) else none
  | .error _ => none

theorem chainId?_eq_some_iff {value : Json} {depth : Nat} {node : Json.Node}
    (valued : node.toJson? depth = some value) (there : value ≠ .null) {id : Option UInt64} :
    chainIdDecoder depth node = .ok id ↔ (chainId? value).map some = some id := by
  rw [chainIdDecoder_eq valued there, chainId?]
  cases natural value with
  | error fault => exact iff_of_false nofun nofun
  | ok n =>
      simp only [Except.mapError, Except.bind]
      split
      · rw [Option.map_some, Except.ok.injEq, Option.some.injEq]
      · exact iff_of_false nofun nofun

theorem chainId_reads : chainIdDecoder.Reads (optional? chainId?) where
  sound {depth node value id} valued taken := by
    by_cases missing : value = .null
    · obtain rfl := missing
      rw [chainIdDecoder, Decoder.value, valued] at taken
      cases taken
      rfl
    · rw [Decoder.optional?_of_ne_null missing]
      exact (chainId?_eq_some_iff valued missing).mp taken
  complete {depth node value id} valued _ found := by
    by_cases missing : value = .null
    · obtain rfl := missing
      rw [chainIdDecoder, Decoder.value, valued]
      exact ⟨none, rfl⟩
    · rw [Decoder.optional?_of_ne_null missing] at found
      exact ⟨id, (chainId?_eq_some_iff valued missing).mpr found⟩

namespace Domain

def parts : List (Json.Part HardwareSigner.Refusal Domain.Draft) :=
  [⟨"name", (·.name), fun x s => { s with name := some x }, .optional .string,
    optional? toString?⟩,
   ⟨"version", (·.version), fun x s => { s with version := some x }, .optional .string,
    optional? toString?⟩,
   ⟨"chainId", (·.chainId), fun x s => { s with chainId := some x }, chainIdDecoder,
    optional? chainId?⟩,
   ⟨"verifyingContract", (·.verifyingContract), fun x s => { s with verifyingContract := some x },
    .optional .string, optional? toString?⟩,
   ⟨"salt", (·.salt), fun x s => { s with salt := some x }, .optional .string,
    optional? toString?⟩]

theorem described : Domain.shape.Described parts where
  slots := rfl
  lawful := by
    have text {ρ : Type} := Decoder.optional_reads (@Decoder.string_reads ρ)
    simp only [parts, List.forall_mem_cons]
    exact ⟨⟨fun _ _ => rfl, text⟩, ⟨fun _ _ => rfl, text⟩, ⟨fun _ _ => rfl, chainId_reads⟩,
      ⟨fun _ _ => rfl, text⟩, ⟨fun _ _ => rfl, text⟩, nofun⟩
  apart := by
    simp only [parts, List.pairwise_cons, List.forall_mem_cons, List.not_mem_nil, false_implies,
      implies_true, List.Pairwise.nil, and_true]
    repeat' apply And.intro
    all_goals exact ⟨by decide, fun _ _ => rfl, fun _ _ => rfl⟩
  unset := by
    simp only [parts, List.forall_mem_cons]
    exact ⟨rfl, rfl, rfl, rfl, rfl, nofun⟩
  ext {s s'} same := by
    simp only [parts, List.forall_mem_cons] at same
    obtain ⟨name, version, chainId, verifyingContract, salt, -⟩ := same
    cases s
    cases s'
    cases name
    cases version
    cases chainId
    cases verifyingContract
    cases salt
    rfl
  settled made := made

/-- A domain in memory, as an object or as an array. -/
def ofJson? (value : Json) : Option Domain :=
  if value.isRecord 5 then do
    let name ← part? (optional? toString?) 0 "name" value
    let version ← part? (optional? toString?) 1 "version" value
    let chainId ← part? (optional? chainId?) 2 "chainId" value
    let verifyingContract ← part? (optional? toString?) 3 "verifyingContract" value
    let salt ← part? (optional? toString?) 4 "salt" value
    some ⟨name.join, version.join, chainId.join, verifyingContract.join, salt.join⟩
  else none

theorem reads : Domain.shape.decoder.Reads ofJson? := by
  refine described.reads fun value d => ?_
  constructor
  · intro read
    unfold ofJson? at read
    split at read
    · rename_i record
      obtain ⟨name, h₀, read⟩ := Option.bind_eq_some_iff.mp read
      obtain ⟨version, h₁, read⟩ := Option.bind_eq_some_iff.mp read
      obtain ⟨chainId, h₂, read⟩ := Option.bind_eq_some_iff.mp read
      obtain ⟨verifyingContract, h₃, read⟩ := Option.bind_eq_some_iff.mp read
      obtain ⟨salt, h₄, read⟩ := Option.bind_eq_some_iff.mp read
      cases read
      exact ⟨record, ⟨name, version, chainId, verifyingContract, salt⟩,
        ⟨h₀, h₁, h₂, h₃, h₄, trivial⟩, .missingField, rfl⟩
    · cases read
  · rintro ⟨record, s, ⟨h₀, h₁, h₂, h₃, h₄, -⟩, missing, made⟩
    cases made
    rw [ofJson?]
    refine (if_pos record).trans ?_
    refine Option.bind_eq_some_iff.mpr ⟨s.name, h₀, ?_⟩
    refine Option.bind_eq_some_iff.mpr ⟨s.version, h₁, ?_⟩
    refine Option.bind_eq_some_iff.mpr ⟨s.chainId, h₂, ?_⟩
    refine Option.bind_eq_some_iff.mpr ⟨s.verifyingContract, h₃, ?_⟩
    exact Option.bind_eq_some_iff.mpr ⟨s.salt, h₄, rfl⟩

/-- What a domain is written as is read as this domain. -/
theorem ofJson?_toJson (d : Domain) : ofJson? d.toJson = some d := by
  have readable : ∀ value ∈ d.members.map Prod.snd, value.Readable 1 := by
    intro value held
    obtain ⟨member, set, rfl⟩ := List.mem_map.mp held
    simp only [members, List.mem_filterMap, List.mem_cons, List.not_mem_nil, or_false, id,
      exists_eq_right] at set
    rcases set with set | set | set | set | set
    · obtain ⟨s, -, rfl⟩ := Option.map_eq_some_iff.mp set.symm
      exact .string s
    · obtain ⟨s, -, rfl⟩ := Option.map_eq_some_iff.mp set.symm
      exact .string s
    · obtain ⟨n, -, rfl⟩ := Option.map_eq_some_iff.mp set.symm
      exact .number _
    · obtain ⟨s, -, rfl⟩ := Option.map_eq_some_iff.mp set.symm
      exact .string s
    · obtain ⟨s, -, rfl⟩ := Option.map_eq_some_iff.mp set.symm
      exact .string s
  have room : 1 < 2 := by decide
  obtain ⟨-, integral⟩ := integral_members d
  have valued : (Json.object d.members).toNode.toJson? 2 = some d.toJson := by
    rw [Json.toNode, Json.Node.toJson?, if_pos room, Json.toMembers?_memberNodes fun value held =>
      Json.toJson?_toNode (readable value held) (integral value held)]
    rfl
  exact reads.sound valued (domain_toNode d room)

end Domain

/-- Definitions in memory, of which every one must be a list of fields. -/
def typesOf? : Json → Option (Table (List Field)) :=
  table? (list? Field.ofJson?)

theorem types_reads :
    (Decoder.table (.list Field.shape.decoder)).Reads typesOf? :=
  Decoder.table_reads (Decoder.list_reads Field.reads)

def parts : List (Json.Part HardwareSigner.Refusal Draft) :=
  [⟨"domain", (·.domain), fun x s => { s with domain := some x }, Domain.shape.decoder,
    Domain.ofJson?⟩,
   ⟨"types", (·.types), fun x s => { s with types := some x },
    .table (.list Field.shape.decoder), typesOf?⟩,
   ⟨"primaryType", (·.primaryType), fun x s => { s with primaryType := some x }, .string,
    toString?⟩,
   ⟨"message", (·.message), fun x s => { s with message := some x }, .value, some⟩]

theorem finish_ok_iff {missing : String → Json.Fault _} {s : Draft} {td : TypedData} :
    shape.finish missing s = .ok td ↔ ∃ domain, domain.getD .empty = td.domain ∧
      s = ⟨domain, some td.types, some td.primaryType, some td.message⟩ := by
  constructor
  · intro made
    obtain ⟨domain, _ | types, _ | primaryType, _ | message⟩ := s
    all_goals cases made
    exact ⟨domain, rfl, rfl⟩
  · rintro ⟨domain, same, rfl⟩
    simp only [shape, Json.require, same]
    rfl

theorem described : shape.Described parts where
  slots := rfl
  lawful := by
    simp only [parts, List.forall_mem_cons]
    exact ⟨⟨fun _ _ => rfl, Domain.reads⟩, ⟨fun _ _ => rfl, types_reads⟩,
      ⟨fun _ _ => rfl, Decoder.string_reads⟩, ⟨fun _ _ => rfl, Decoder.value_reads⟩, nofun⟩
  apart := by
    simp only [parts, List.pairwise_cons, List.forall_mem_cons, List.not_mem_nil, false_implies,
      implies_true, List.Pairwise.nil, and_true]
    repeat' apply And.intro
    all_goals exact ⟨by decide, fun _ _ => rfl, fun _ _ => rfl⟩
  unset := by
    simp only [parts, List.forall_mem_cons]
    exact ⟨rfl, rfl, rfl, rfl, nofun⟩
  ext {s s'} same := by
    simp only [parts, List.forall_mem_cons] at same
    obtain ⟨domain, types, primaryType, message, -⟩ := same
    cases s
    cases s'
    cases domain
    cases types
    cases primaryType
    cases message
    rfl
  settled made := finish_ok_iff.mpr (finish_ok_iff.mp made)

/-- Typed data in memory; only the domain may be missing. -/
def ofJson? (value : Json) : Option TypedData :=
  if value.isRecord 4 then do
    let domain ← part? Domain.ofJson? 0 "domain" value
    let types ← (part? typesOf? 1 "types" value).join
    let primaryType ← (part? toString? 2 "primaryType" value).join
    let message ← (part? some 3 "message" value).join
    some ⟨domain.getD .empty, types, primaryType, message⟩
  else none

/-- Typed data is read from a value as from a document. -/
theorem reads : shape.decoder.Reads ofJson? := by
  refine described.reads fun value td => ?_
  simp only [finish_ok_iff]
  constructor
  · intro read
    unfold ofJson? at read
    split at read
    · rename_i record
      obtain ⟨domain, h₀, read⟩ := Option.bind_eq_some_iff.mp read
      obtain ⟨types, h₁, read⟩ := Option.bind_eq_some_iff.mp read
      obtain ⟨primaryType, h₂, read⟩ := Option.bind_eq_some_iff.mp read
      obtain ⟨message, h₃, read⟩ := Option.bind_eq_some_iff.mp read
      cases read
      exact ⟨record, ⟨domain, some types, some primaryType, some message⟩,
        ⟨h₀, Option.join_eq_some_iff.mp h₁, Option.join_eq_some_iff.mp h₂,
          Option.join_eq_some_iff.mp h₃, trivial⟩, .missingField, domain, rfl, rfl⟩
    · cases read
  · rintro ⟨record, _, ⟨h₀, h₁, h₂, h₃, -⟩, missing, domain, same, rfl⟩
    rw [ofJson?]
    refine (if_pos record).trans ?_
    refine Option.bind_eq_some_iff.mpr ⟨domain, h₀, ?_⟩
    refine Option.bind_eq_some_iff.mpr ⟨td.types, Option.join_eq_some_iff.mpr h₁, ?_⟩
    refine Option.bind_eq_some_iff.mpr ⟨td.primaryType, Option.join_eq_some_iff.mpr h₂, ?_⟩
    refine Option.bind_eq_some_iff.mpr ⟨td.message, Option.join_eq_some_iff.mpr h₃, ?_⟩
    rw [same]

end HardwareSigner.TypedData
