import HardwareSigner.Json.Basic
/-!
Induction over JSON values, with the hypothesis for all values that one directly holds, and how deep
values are held in one.
-/

namespace HardwareSigner.Json

/-- The items of an array, or the values of an object's members. -/
def children : Json → List Json
  | .array items => items
  | .object members => members.map Prod.snd
  | _ => []

theorem mem_children_of_lookup {members : List (String × Json)} {name : String} {value : Json}
    (held : members.lookup name = some value) : value ∈ (Json.object members).children := by
  induction members with
  | nil => cases held
  | cons member rest ih =>
      rw [List.lookup_cons] at held
      split at held
      · cases held
        exact List.mem_cons_self
      · exact List.mem_cons_of_mem _ (ih held)

@[elab_as_elim]
theorem ind {motive : Json → Prop}
    (step : ∀ value, (∀ child ∈ value.children, motive child) → motive value) (value : Json) :
    motive value := by
  refine @Json.rec motive (fun items => ∀ item ∈ items, motive item)
    (fun members => ∀ child ∈ members.map Prod.snd, motive child) (fun member => motive member.2)
    (step _ nofun) (fun _ => step _ nofun) (fun _ => step _ nofun) (fun _ => step _ nofun)
    (fun items => step (.array items)) (fun members => step (.object members))
    nofun ?_ nofun ?_ (fun _ _ held => held) value
  · intro head tail first rest
    exact List.forall_mem_cons.mpr ⟨first, rest⟩
  · intro head tail first rest
    exact List.forall_mem_cons.mpr ⟨first, rest⟩

mutual

/-- How deep arrays and objects are nested in a value. -/
def depth : Json → Nat
  | .array items => depthItems items + 1
  | .object members => depthMembers members + 1
  | _ => 0

def depthItems : List Json → Nat
  | [] => 0
  | item :: rest => max item.depth (depthItems rest)

def depthMembers : List (String × Json) → Nat
  | [] => 0
  | (_, value) :: rest => max value.depth (depthMembers rest)

end

theorem depth_le_items {items : List Json} {item : Json} (held : item ∈ items) :
    item.depth ≤ depthItems items := by
  induction items with
  | nil => cases held
  | cons first rest ih =>
      rw [depthItems]
      rcases List.mem_cons.mp held with rfl | later
      · exact Nat.le_max_left _ _
      · exact Nat.le_trans (ih later) (Nat.le_max_right _ _)

theorem depth_le_members {members : List (String × Json)} {member : String × Json}
    (held : member ∈ members) : member.2.depth ≤ depthMembers members := by
  induction members with
  | nil => cases held
  | cons first rest ih =>
      rw [depthMembers]
      rcases List.mem_cons.mp held with rfl | later
      · exact Nat.le_max_left _ _
      · exact Nat.le_trans (ih later) (Nat.le_max_right _ _)

theorem depth_child {value child : Json} (held : child ∈ value.children) :
    child.depth < value.depth := by
  cases value with
  | array items => exact Nat.lt_succ_of_le (depth_le_items held)
  | object members =>
      obtain ⟨member, here, rfl⟩ := List.mem_map.mp held
      exact Nat.lt_succ_of_le (depth_le_members here)
  | null | bool | number | string => cases held

end HardwareSigner.Json
