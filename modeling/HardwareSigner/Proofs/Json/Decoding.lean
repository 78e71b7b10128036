import HardwareSigner.Json.Decode
import HardwareSigner.Proofs.Json.Writing
import HardwareSigner.Proofs.Table
/-! Decoders undo the writing of values, and what a decoder accepts can be decoded again. -/

namespace HardwareSigner.Json

/-- Arrays and objects for which a decoder has room, with the members of objects in order. -/
inductive Readable : (depth : Nat) → Json → Prop where
  | null {depth : Nat} : Readable depth .null
  | bool {depth : Nat} (b : Bool) : Readable depth (.bool b)
  | number {depth : Nat} (n : Number) : Readable depth (.number n)
  | string {depth : Nat} (s : String) : Readable depth (.string s)
  | array {depth : Nat} {items : List Json} (room : 1 < depth)
      (each : ∀ item ∈ items, Readable (depth - 1) item) : Readable depth (.array items)
  | object {depth : Nat} {members : List (String × Json)} (room : 1 < depth)
      (sorted : Sorted members)
      (each : ∀ value ∈ members.map Prod.snd, Readable (depth - 1) value) :
      Readable depth (.object members)

section
variable {depth : Nat}

theorem readable_ofMembers {members : List (String × Json)} (room : 1 < depth)
    (each : ∀ value ∈ members.map Prod.snd, Readable (depth - 1) value) :
    Readable depth (.ofMembers members) := by
  refine .object room (Table.sorted _) fun value held => ?_
  obtain ⟨e, kept, rfl⟩ := List.mem_map.mp held
  exact each e.2 (List.mem_map_of_mem (Table.mem_ofList kept))

mutual

theorem readable_of_toJson? : ∀ {depth : Nat} {node : Node} {value : Json},
    node.toJson? depth = some value → Readable depth value
  | _, .broken, _, found => nomatch found
  | _, .null, _, rfl => .null
  | _, .bool b, _, rfl => .bool b
  | _, .number n, _, found => by
      obtain ⟨x, -, rfl⟩ := Option.map_eq_some_iff.mp found
      exact .number x
  | _, .string body, _, found => by
      obtain ⟨s, -, rfl⟩ := Option.map_eq_some_iff.mp found
      exact .string s
  | depth, .array nodes, _, found => by
      rw [Node.toJson?] at found
      split at found
      · obtain ⟨items, read, rfl⟩ := Option.map_eq_some_iff.mp found
        exact .array ‹_› (readable_of_toItems? read)
      · cases found
  | depth, .object nodes, _, found => by
      rw [Node.toJson?] at found
      split at found
      · obtain ⟨members, read, rfl⟩ := Option.map_eq_some_iff.mp found
        exact readable_ofMembers ‹_› (readable_of_toMembers? read)
      · cases found

theorem readable_of_toItems? : ∀ {depth : Nat} {nodes : List Node} {items : List Json},
    Node.toItems? depth nodes = some items → ∀ item ∈ items, Readable depth item
  | _, [], _, rfl => nofun
  | depth, node :: nodes, _, found => by
      rw [Node.toItems?] at found
      split at found
      · rename_i first rest
        cases found
        exact List.forall_mem_cons.mpr ⟨readable_of_toJson? first, readable_of_toItems? rest⟩
      · cases found

theorem readable_of_toMembers? : ∀ {depth : Nat} {nodes : List (Option Bytes × Node)}
    {members : List (String × Json)}, Node.toMembers? depth nodes = some members →
      ∀ value ∈ members.map Prod.snd, Readable depth value
  | _, [], _, rfl => nofun
  | depth, (name, node) :: nodes, _, found => by
      rw [Node.toMembers?] at found
      split at found
      · rename_i first rest
        cases found
        exact List.forall_mem_cons.mpr ⟨readable_of_toJson? first, readable_of_toMembers? rest⟩
      · cases found

end

theorem memberNodes_append (xs ys : List (String × Json)) :
    memberNodes (xs ++ ys) = memberNodes xs ++ memberNodes ys := by
  induction xs with
  | nil => rfl
  | cons x xs ih => exact congrArg ((some (body x.1), x.2.toNode) :: ·) ih

theorem toItems?_itemNodes {items : List Json}
    (each : ∀ item ∈ items, item.toNode.toJson? depth = some item) :
    Node.toItems? depth (itemNodes items) = some items := by
  induction items with
  | nil => rfl
  | cons item items ih =>
      have rest := ih fun other later => each other (List.mem_cons_of_mem _ later)
      rw [itemNodes, Node.toItems?, each item List.mem_cons_self, rest]

theorem toMembers?_memberNodes {members : List (String × Json)}
    (each : ∀ value ∈ members.map Prod.snd, value.toNode.toJson? depth = some value) :
    Node.toMembers? depth (memberNodes members) = some members := by
  induction members with
  | nil => rfl
  | cons member members ih =>
      obtain ⟨name, value⟩ := member
      have rest := ih fun other later => each other (List.mem_cons_of_mem _ later)
      rw [memberNodes, Node.toMembers?, Option.bind_some, text?_body, each value List.mem_cons_self,
        rest]

theorem toJson?_toNode {value : Json} (readable : Readable depth value) (exact : value.Integral) :
    value.toNode.toJson? depth = some value := by
  induction readable with
  | null => rw [toNode, Node.toJson?]
  | bool b => rw [toNode, Node.toJson?]
  | number n =>
      obtain ⟨whole, -⟩ := exact
      cases n with
      | integer z fits => rw [toNode_integer, Node.toJson?, toNumber?_ofInt fits, Option.map_some]
      | double x => exact absurd rfl (whole x)
  | string s => rw [toNode, Node.toJson?, text?_body, Option.map_some]
  | array room each ih =>
      obtain ⟨-, children⟩ := exact
      rw [toNode, Node.toJson?, if_pos room,
        toItems?_itemNodes fun item held => ih item held (children item held), Option.map_some]
  | object room sorted each ih =>
      obtain ⟨-, children⟩ := exact
      rw [toNode, Node.toJson?, if_pos room,
        toMembers?_memberNodes fun value held => ih value held (children value held),
        Option.map_some, ofMembers, Table.entries_ofList sorted]

end

section
variable {ρ σ α : Type} {depth : Nat}

namespace Decoder

theorem value_toNode {value : Json} (readable : Readable depth value) (exact : value.Integral) :
    Decoder.value (ρ := ρ) depth value.toNode = .ok value := by
  rw [Decoder.value, toJson?_toNode readable exact]

theorem string_toNode (s : String) :
    Decoder.string (ρ := ρ) depth (Json.string s).toNode = .ok s := by
  rw [toNode, Decoder.string, text?_body]

theorem items_toNode {d : Decoder ρ α} {write : α → Json} {xs : List α}
    (each : ∀ x ∈ xs, d depth (write x).toNode = .ok x) :
    items d depth (itemNodes (xs.map write)) = .ok xs := by
  induction xs with
  | nil => rfl
  | cons x xs ih =>
      have rest := ih fun other later => each other (List.mem_cons_of_mem _ later)
      rw [List.map_cons, itemNodes, items, each x List.mem_cons_self, rest]
      rfl

theorem entries_toNode {d : Decoder ρ α} {write : α → Json} {es : List (String × α)}
    (each : ∀ e ∈ es, d depth (write e.2).toNode = .ok e.2) (t : Table α) :
    entries d depth (memberNodes (es.map fun e => (e.1, write e.2))) t =
      .ok (es.foldl (fun t e => t.insert e.1 e.2) t) := by
  induction es generalizing t with
  | nil => rfl
  | cons e es ih =>
      have rest := ih fun other later => each other (List.mem_cons_of_mem _ later)
      rw [List.map_cons, memberNodes, entries, Option.bind_some, text?_body,
        each e List.mem_cons_self]
      exact rest (t.insert e.1 e.2)

theorem table_toNode {d : Decoder ρ α} (write : α → Json) {t : Table α} (room : 1 < depth)
    (each : ∀ e ∈ t.entries, d (depth - 1) (write e.2).toNode = .ok e.2) :
    Decoder.table d depth (Json.object (t.entries.map fun e => (e.1, write e.2))).toNode =
      .ok t := by
  rw [toNode, Decoder.table, if_pos room, entries_toNode each]
  exact congrArg Except.ok t.ofList_entries

end Decoder

namespace Shape
variable {slots : List (Slot ρ σ)} {s : σ} {rest : List (Option Bytes × Node)}

variable {β : Type} {name : String} {get : σ → Option β} {set : β → σ → σ} {d : Decoder ρ β}

theorem readMembers_member {value : Json} {x : β}
    (known : slots.find? (·.name = name) = some (.of name get set d)) (unset : get s = none)
    (read : d depth value.toNode = .ok x) :
    readMembers slots depth ((some (body name), value.toNode) :: rest) s =
      readMembers slots depth rest (set x s) := by
  rw [readMembers, Option.bind_some, text?_body]
  simp only [known, Slot.of, unset, read, Option.isSome_none, Bool.false_eq_true, if_false]
  rfl

/-- A member that is written only if there is something to write; `put` says what to make of
either. -/
theorem readMembers_optional {write : α → Json} (put : Option α → σ → σ) {o : Option α} {y : α → β}
    (known : slots.find? (·.name = name) = some (.of name get set d)) (unset : get s = none)
    (skipped : put none s = s) (put_some : ∀ x, put (some x) s = set (y x) s)
    (read : ∀ x, d depth (write x).toNode = .ok (y x)) :
    readMembers slots depth (memberNodes (o.map fun x => (name, write x)).toList ++ rest) s =
      readMembers slots depth rest (put o s) := by
  cases o with
  | none =>
      rw [skipped]
      rfl
  | some x =>
      rw [put_some]
      exact readMembers_member known unset (read x)

theorem fill_of {node : Node} {f : σ → σ}
    (filled : (Slot.of name get set d).fill depth node = .ok f) :
    ∃ x, d depth node = .ok x ∧ set x = f := by
  simp only [Slot.of] at filled
  cases read : d depth node with
  | error fault =>
      rw [read] at filled
      cases filled
  | ok x =>
      rw [read] at filled
      exact ⟨x, rfl, Except.ok.inj filled⟩

/-- The ways in which the components of a record are filled in. -/
inductive Fills (shape : Shape ρ σ α) (depth : Nat) : Node → σ → Prop where
  | object {nodes : List (Option Bytes × Node)} {s : σ} : 1 < depth →
      readMembers shape.slots (depth - 1) nodes shape.start = .ok s →
      Fills shape depth (.object nodes) s
  | array {nodes : List Node} {s : σ} : 1 < depth →
      readItems (depth - 1) shape.slots nodes shape.start = .ok s →
      Fills shape depth (.array nodes) s

theorem fills_of_decoder {shape : Shape ρ σ α} {node : Node} {x : α}
    (read : shape.decoder depth node = .ok x) :
    ∃ s, shape.Fills depth node s ∧ ∃ missing, shape.finish missing s = .ok x := by
  cases node with
  | object nodes =>
      rw [decoder] at read
      split at read
      · split at read
        · rename_i s filled
          exact ⟨s, .object ‹_› filled, _, read⟩
        · cases read
      · cases read
  | array nodes =>
      rw [decoder] at read
      split at read
      · split at read
        · rename_i s filled
          exact ⟨s, .array ‹_› filled, _, read⟩
        · cases read
      · cases read
  | broken | null | bool | number | string => cases read

theorem decoder_of_fills {shape : Shape ρ σ α} {node : Node} {s : σ}
    (fills : shape.Fills depth node s) :
    ∃ missing, shape.decoder depth node = shape.finish missing s := by
  cases fills with
  | object room filled => exact ⟨_, by rw [decoder, if_pos room, filled]⟩
  | array room filled => exact ⟨_, by rw [decoder, if_pos room, filled]⟩

section
variable {P : σ → Prop}

theorem readMembers_keeps
    (fills : ∀ slot ∈ slots, ∀ node set, slot.fill depth node = .ok set → ∀ s, P s → P (set s))
    {nodes : List (Option Bytes × Node)} {s s' : σ}
    (read : readMembers slots depth nodes s = .ok s') (before : P s) : P s' := by
  induction nodes generalizing s with
  | nil =>
      cases read
      exact before
  | cons node nodes ih =>
      obtain ⟨name, value⟩ := node
      rw [readMembers] at read
      split at read
      · cases read
      split at read
      · split at read
        · exact ih read before
        · cases read
      rename_i slot known
      split at read
      · cases read
      split at read
      · cases read
      · rename_i set filled
        exact ih read (fills slot (List.mem_of_find?_eq_some known) value set filled s before)

theorem readItems_keeps {nodes : List Node} {s s' : σ}
    (fills : ∀ slot ∈ slots, ∀ node set, slot.fill depth node = .ok set → ∀ s, P s → P (set s))
    (read : readItems depth slots nodes s = .ok s') (before : P s) : P s' := by
  induction nodes generalizing slots s with
  | nil =>
      rw [readItems] at read
      cases read
      exact before
  | cons node nodes ih =>
      cases slots with
      | nil => cases read
      | cons slot slots =>
          rw [readItems] at read
          split at read
          · cases read
          · rename_i set filled
            exact ih (fun other later => fills other (List.mem_cons_of_mem _ later)) read
              (fills slot List.mem_cons_self node set filled s before)

/-- A record is made of components that have what every single reading gives them. -/
theorem decoder_keeps {shape : Shape ρ σ α} {node : Node} {x : α}
    (start : P shape.start)
    (fills : ∀ slot ∈ shape.slots, ∀ node set, slot.fill (depth - 1) node = .ok set →
      ∀ s, P s → P (set s))
    (read : shape.decoder depth node = .ok x) :
    ∃ missing s, P s ∧ shape.finish missing s = .ok x := by
  obtain ⟨s, filled, missing, made⟩ := fills_of_decoder read
  refine ⟨missing, s, ?_, made⟩
  cases filled with
  | object _ filled => exact readMembers_keeps fills filled start
  | array _ filled => exact readItems_keeps fills filled start

end

end Shape

/-- The text of a value is decoded as its tree is. -/
theorem decode_bytes_eq (d : Decoder ρ α) {value : Json} (exact : value.Integral) :
    decode d value.bytes = d nestingLimit value.toNode := by
  rw [decode, ofBytes_bytes exact]
  simp only [if_true]
  cases d nestingLimit value.toNode <;> rfl

theorem decode_bytes {d : Decoder ρ α} {value : Json} {x : α} (exact : value.Integral)
    (read : d nestingLimit value.toNode = .ok x) : decode d value.bytes = .ok x :=
  (decode_bytes_eq d exact).trans read

theorem decoded_of_decode {d : Decoder ρ α} {bs : Bytes} {x : α} (read : decode d bs = .ok x) :
    ∃ node, d nestingLimit node = .ok x := by
  rw [decode] at read
  split at read
  · cases read
  · rename_i y found
    split at read
    · cases read
      exact ⟨_, found⟩
    · cases read

end

end HardwareSigner.Json
