import HardwareSigner.Proofs.Json.Decoding
import HardwareSigner.TypedData.Document
/-!
Where a chain id stands in the document of a domain.  What stands there is read by the decoder for
chain ids alone, and nothing but the chain id depends on it.
-/

namespace HardwareSigner.Json.Shape

section
variable {ρ σ α : Type} {depth : Nat} {slots : List (Slot ρ σ)}

theorem readMembers_append (nodes nodes' : List (Option Bytes × Node)) (s : σ) :
    readMembers slots depth (nodes ++ nodes') s =
      (readMembers slots depth nodes s).bind (readMembers slots depth nodes') := by
  induction nodes generalizing s with
  | nil => rfl
  | cons node nodes ih =>
      obtain ⟨name, value⟩ := node
      rw [List.cons_append, readMembers, readMembers]
      split
      · rfl
      split
      · split
        · exact ih s
        · rfl
      split
      · rfl
      split
      · rfl
      · exact ih _

theorem readMembers_known {body : Bytes} {name : String} {slot : Slot ρ σ} {node : Node}
    (named : text? body = some name) (known : slots.find? (·.name = name) = some slot)
    (nodes : List (Option Bytes × Node)) (s : σ) :
    readMembers slots depth ((some body, node) :: nodes) s =
      if slot.filled s then .error (.duplicateField name)
      else (slot.fill depth node).bind fun set => readMembers slots depth nodes (set s) := by
  rw [readMembers, Option.bind_some, named]
  simp only [known]
  split
  · rfl
  · cases slot.fill depth node <;> rfl

/-- A change of the state that the reading of every open component keeps. -/
structure Kept (slots : List (Slot ρ σ)) (depth : Nat) (P : σ → Prop) (f : σ → σ) : Prop where
  filled : ∀ slot ∈ slots, ∀ s, P s → slot.filled (f s) = slot.filled s
  fill : ∀ slot ∈ slots, ∀ node set, slot.fill depth node = .ok set → ∀ s, P s →
    slot.filled s = false → P (set s) ∧ set (f s) = f (set s)

theorem Kept.readMembers {P : σ → Prop} {f : σ → σ} (kept : Kept slots depth P f)
    (nodes : List (Option Bytes × Node)) {s : σ} (before : P s) :
    readMembers slots depth nodes (f s) = (readMembers slots depth nodes s).map f := by
  induction nodes generalizing s with
  | nil => rfl
  | cons node nodes ih =>
      obtain ⟨name, value⟩ := node
      rw [Shape.readMembers, Shape.readMembers]
      split
      · rfl
      split
      · split
        · exact ih before
        · rfl
      rename_i slot found
      have known := List.mem_of_find?_eq_some found
      rw [kept.filled slot known s before]
      split
      · rfl
      rename_i unset
      split
      · rfl
      · rename_i set read
        obtain ⟨after, same⟩ :=
          kept.fill slot known value set read s before (Bool.not_eq_true _ ▸ unset)
        rw [same]
        exact ih after

theorem readItems_map {f : σ → σ}
    (fills : ∀ slot ∈ slots, ∀ node set, slot.fill depth node = .ok set →
      ∀ s, set (f s) = f (set s)) (nodes : List Node) (s : σ) :
    readItems depth slots nodes (f s) = (readItems depth slots nodes s).map f := by
  induction nodes generalizing slots s with
  | nil => cases slots <;> rfl
  | cons node nodes ih =>
      cases slots with
      | nil => rfl
      | cons slot slots =>
          rw [readItems, readItems]
          split
          · rfl
          · rename_i set read
            rw [fills slot List.mem_cons_self node set read]
            exact ih (fun other later => fills other (List.mem_cons_of_mem _ later)) _

end

end HardwareSigner.Json.Shape

namespace HardwareSigner.TypedData
open Json (Node Shape Slot text?)

/-- The documents of a domain, as functions of what stands for the chain id: a member of an object,
or the third item of an array. -/
inductive ChainIdPlace : (Node → Node) → Prop where
  | member {name : Bytes} (before after : List (Option Bytes × Node))
      (named : text? name = some "chainId") :
      ChainIdPlace fun node => .object (before ++ (some name, node) :: after)
  | item (name version : Node) (after : List Node) :
      ChainIdPlace fun node => .array (name :: version :: node :: after)

section
variable {depth : Nat}

def Domain.Draft.withChainId (id : Option UInt64) (s : Domain.Draft) : Domain.Draft :=
  { s with chainId := some id }

theorem kept_withChainId (id : Option UInt64) :
    Shape.Kept Domain.shape.slots depth (·.chainId.isSome) (Domain.Draft.withChainId id) where
  filled := by
    intro slot known s set
    simp only [Domain.shape, List.mem_cons, List.not_mem_nil, or_false] at known
    rcases known with rfl | rfl | rfl | rfl | rfl
    case inr.inr.inl => exact set.symm
    all_goals rfl
  fill := by
    intro slot known node f filled s set unset
    simp only [Domain.shape, List.mem_cons, List.not_mem_nil, or_false] at known
    rcases known with rfl | rfl | rfl | rfl | rfl
    case inr.inr.inl =>
      rw [show s.chainId.isSome = false from unset] at set
      cases set
    all_goals
      obtain ⟨x, -, rfl⟩ := Shape.fill_of filled
      exact ⟨set, rfl⟩

theorem readMembers_chainId {name : Bytes} (named : text? name = some "chainId")
    {before after : List (Option Bytes × Node)} {s t : Domain.Draft}
    (accepted : Shape.readMembers Domain.shape.slots depth
      (before ++ (some name, .null) :: after) s = .ok t) (node : Node) :
    Shape.readMembers Domain.shape.slots depth (before ++ (some name, node) :: after) s =
      (chainIdDecoder depth node).map t.withChainId := by
  rw [Shape.readMembers_append] at accepted ⊢
  cases first : Shape.readMembers Domain.shape.slots depth before s with
  | error fault =>
      rw [first] at accepted
      cases accepted
  | ok m =>
      rw [first, Except.bind, Shape.readMembers_known named rfl] at accepted
      rw [Except.bind, Shape.readMembers_known named rfl]
      -- the place is still open when the reader comes to it, or null would not have passed
      split at accepted
      · cases accepted
      · rename_i unset
        rw [if_neg unset]
        cases read : chainIdDecoder depth node with
        | error fault => simp only [Slot.of, read, Except.map, Except.bind]
        | ok id =>
            have rest : Shape.readMembers Domain.shape.slots depth after (m.withChainId none) =
              .ok t := accepted
            have kept := (@kept_withChainId depth id).readMembers after
              (s := m.withChainId none) rfl
            rw [rest] at kept
            simp only [Slot.of, read, Except.map, Except.bind]
            exact kept

theorem readItems_chainId {name version : Node} {after : List Node} {s t : Domain.Draft}
    (accepted : Shape.readItems depth Domain.shape.slots (name :: version :: .null :: after) s =
      .ok t) (node : Node) :
    Shape.readItems depth Domain.shape.slots (name :: version :: node :: after) s =
      (chainIdDecoder depth node).map t.withChainId := by
  simp only [Domain.shape, Shape.readItems] at accepted ⊢
  split at accepted
  · cases accepted
  rename_i f _
  split at accepted
  · cases accepted
  rename_i g _
  cases read : chainIdDecoder depth node with
  | error fault => simp only [Slot.of, read, Except.map]
  | ok id =>
      -- none of the components still to come is the chain id
      have rest : Shape.readItems depth (Domain.shape.slots.drop 3) after
          ((g (f s)).withChainId none) = .ok t := accepted
      have fills : ∀ slot ∈ Domain.shape.slots.drop 3, ∀ node set,
          slot.fill depth node = .ok set → ∀ s : Domain.Draft,
            set (s.withChainId id) = (set s).withChainId id := by
        intro slot later node set filled s
        simp only [Domain.shape, List.drop_succ_cons, List.drop_zero, List.mem_cons,
          List.not_mem_nil, or_false] at later
        rcases later with rfl | rfl
        all_goals
          obtain ⟨x, -, rfl⟩ := Shape.fill_of filled
          rfl
      have kept := Shape.readItems_map fills after ((g (f s)).withChainId none)
      rw [rest] at kept
      simp only [Slot.of, read, Except.map]
      exact kept

/-- A domain that is read without a chain id is read with one just when this can be read, and gets
it. -/
theorem decoder_of_place {document : Node → Node} (place : ChainIdPlace document) {d : Domain}
    (accepted : Domain.shape.decoder depth (document .null) = .ok d) (node : Node) :
    Domain.shape.decoder depth (document node) =
      (chainIdDecoder (depth - 1) node).map fun id => { d with chainId := id } := by
  cases place with
  | member before after named =>
      rw [Shape.decoder] at accepted ⊢
      split at accepted
      · rename_i room
        rw [if_pos room]
        split at accepted
        · rename_i t read
          rw [readMembers_chainId named read]
          cases accepted
          cases chainIdDecoder (depth - 1) node <;> rfl
        · cases accepted
      · cases accepted
  | item name version after =>
      rw [Shape.decoder] at accepted ⊢
      split at accepted
      · rename_i room
        rw [if_pos room]
        split at accepted
        · rename_i t read
          rw [readItems_chainId read]
          cases accepted
          cases chainIdDecoder (depth - 1) node <;> rfl
        · cases accepted
      · cases accepted

end

end HardwareSigner.TypedData
