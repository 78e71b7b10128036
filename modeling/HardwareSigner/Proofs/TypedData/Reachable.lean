import HardwareSigner.Proofs.Table
import HardwareSigner.TypedData.Schema
/-!
The structs that a definition leads to.  The search goes in rounds and stops by its fuel at the
latest; it finds exactly those structs that are reached by following references one by one, on
definitions that refer to themselves as on all others.
-/

namespace HardwareSigner.TypedData

/-- Reached from a struct by following the types of fields, one after another.  What stands behind
the first bracket of a type does not matter. -/
inductive Reaches (types : Table (List Field)) (name : String) : String → Prop where
  | here : Reaches types name name
  | field {middle fields f} : Reaches types name middle → types.get? middle = some fields →
      f ∈ fields → types.contains (String.ofList (f.type.toList.takeWhile (· ≠ '['))) = true →
      Reaches types name (String.ofList (f.type.toList.takeWhile (· ≠ '[')))

variable {types : Table (List Field)}

theorem mem_references_iff {name target : String} :
    target ∈ references types name ↔
      ∃ fields, types.get? name = some fields ∧
        ∃ f ∈ fields, types.contains (baseType f.type) = true ∧ baseType f.type = target := by
  rw [references, List.mem_filter, List.mem_map]
  cases defined : types.get? name with
  | none =>
      constructor
      · rintro ⟨⟨f, here, -⟩, -⟩
        cases here
      · rintro ⟨fields, impossible, -⟩
        cases impossible
  | some fields =>
      constructor
      · rintro ⟨⟨f, here, rfl⟩, known⟩
        exact ⟨fields, rfl, f, here, known, rfl⟩
      · rintro ⟨fields', same, f, here, known, rfl⟩
        cases same
        exact ⟨⟨f, here, rfl⟩, known⟩

theorem Reaches.reference {name middle target : String} (reached : Reaches types name middle)
    (referred : target ∈ references types middle) : Reaches types name target := by
  obtain ⟨fields, defined, f, here, known, rfl⟩ := mem_references_iff.mp referred
  exact .field reached defined here known

/-- What is reached is defined, but for the start. -/
theorem Reaches.contains {name target : String} (reached : Reaches types name target)
    (other : target ≠ name) : types.contains target = true := by
  cases reached with
  | here => exact absurd rfl other
  | field _ _ _ known => exact known

/-- The structs that a round finds: referred to by the newest ones, and not seen before. -/
def found (types : Table (List Field)) (seen newest : List String) : List String :=
  ((newest.flatMap (references types)).filter fun n => !seen.contains n).eraseDups

theorem mem_found_iff {seen newest : List String} {n : String} :
    n ∈ found types seen newest ↔ (∃ m ∈ newest, n ∈ references types m) ∧ n ∉ seen := by
  rw [found, List.mem_eraseDups, List.mem_filter, List.mem_flatMap, Bool.not_eq_true',
    List.contains_eq_mem, decide_eq_false_iff_not]

theorem reach_succ (fuel : Nat) (seen newest : List String) :
    reach types (fuel + 1) seen newest =
      if (found types seen newest).isEmpty then seen
      else reach types fuel (seen ++ found types seen newest) (found types seen newest) := rfl

theorem subset_reach (fuel : Nat) (seen newest : List String) :
    seen ⊆ reach types fuel seen newest := by
  induction fuel generalizing seen newest with
  | zero => exact List.Subset.refl seen
  | succ fuel ih =>
      rw [reach_succ]
      split
      · exact List.Subset.refl seen
      · exact List.Subset.trans (List.subset_append_left seen _) (ih _ _)

/-- A round between two states of the search: whatever is not among the newest structs was followed
already. -/
structure Frontier (types : Table (List Field)) (seen newest : List String) : Prop where
  within : newest ⊆ seen
  followed : ∀ n ∈ seen, n ∉ newest → references types n ⊆ seen

theorem Frontier.next {seen newest : List String} (frontier : Frontier types seen newest) :
    Frontier types (seen ++ found types seen newest) (found types seen newest) where
  within := List.subset_append_right seen _
  followed := by
    intro n held older m referred
    have old : n ∈ seen := (List.mem_append.mp held).resolve_right older
    by_cases seenBefore : m ∈ seen
    · exact List.mem_append_left _ seenBefore
    · by_cases new : n ∈ newest
      · exact List.mem_append_right _ (mem_found_iff.mpr ⟨⟨n, new, referred⟩, seenBefore⟩)
      · exact absurd (frontier.followed n old new referred) seenBefore

theorem Frontier.closed {seen newest : List String} (frontier : Frontier types seen newest)
    (done : found types seen newest = []) {n : String} (held : n ∈ seen) :
    references types n ⊆ seen := by
  intro m referred
  by_contra unseen
  by_cases new : n ∈ newest
  · have here : m ∈ found types seen newest := mem_found_iff.mpr ⟨⟨n, new, referred⟩, unseen⟩
    rw [done] at here
    cases here
  · exact unseen (frontier.followed n held new referred)

theorem reach_sound {name : String} (fuel : Nat) {seen newest : List String}
    (frontier : Frontier types seen newest) (reached : ∀ n ∈ seen, Reaches types name n) :
    ∀ n ∈ reach types fuel seen newest, Reaches types name n := by
  induction fuel generalizing seen newest with
  | zero => exact reached
  | succ fuel ih =>
      rw [reach_succ]
      split
      · exact reached
      · refine ih frontier.next ?_
        intro n held
        rcases List.mem_append.mp held with old | new
        · exact reached n old
        · obtain ⟨⟨m, here, referred⟩, -⟩ := mem_found_iff.mp new
          exact (reached m (frontier.within here)).reference referred

/-- The defined structs that the search has not seen. -/
def unseen (types : Table (List Field)) (seen : List String) : List String :=
  types.keys.filter fun n => n ∉ seen

/-- Every round that finds something leaves fewer structs to be found. -/
theorem unseen_found {seen newest : List String} (some : found types seen newest ≠ []) :
    (unseen types (seen ++ found types seen newest)).length < (unseen types seen).length := by
  obtain ⟨n, here⟩ := List.exists_mem_of_ne_nil _ some
  obtain ⟨⟨m, -, referred⟩, new⟩ := mem_found_iff.mp here
  have known : n ∈ types.keys := by
    obtain ⟨fields, -, f, -, known, rfl⟩ := mem_references_iff.mp referred
    exact Table.mem_keys_iff.mpr (Option.isSome_iff_exists.mp known)
  have rest : unseen types (seen ++ found types seen newest) =
      (unseen types seen).filter fun n => n ∉ found types seen newest := by
    simp only [unseen, List.filter_filter, List.mem_append, not_or, Bool.decide_and, Bool.and_comm]
  rw [rest, List.length_filter_lt_length_iff_exists]
  refine ⟨n, List.mem_filter.mpr ⟨known, decide_eq_true new⟩, ?_⟩
  rw [decide_eq_true_eq]
  exact not_not_intro here

/-- With fuel for every struct left, the search ends with all references of what it has seen. -/
theorem reach_closed (fuel : Nat) {seen newest : List String}
    (frontier : Frontier types seen newest) (enough : (unseen types seen).length < fuel) :
    ∀ n ∈ reach types fuel seen newest, references types n ⊆ reach types fuel seen newest := by
  induction fuel generalizing seen newest with
  | zero => exact absurd enough (Nat.not_lt_zero _)
  | succ fuel ih =>
      rw [reach_succ]
      split
      · rename_i done
        exact fun n held => frontier.closed (List.isEmpty_iff.mp done) held
      · rename_i more
        refine ih frontier.next ?_
        have fewer := unseen_found (mt List.isEmpty_iff.mpr more)
        omega

/-- The search finds what is reached by following references, and nothing else. -/
theorem mem_reachable_iff {name target : String} :
    target ∈ reachable types name ↔ Reaches types name target := by
  have start : Frontier types [name] [name] :=
    ⟨List.Subset.refl _, fun n held older => absurd held older⟩
  constructor
  · refine reach_sound _ start ?_ target
    intro n held
    obtain rfl := List.mem_singleton.mp held
    exact .here
  · intro reached
    have enough : (unseen types [name]).length < types.entries.length + 1 := by
      have most := List.length_filter_le (fun n => decide (n ∉ [name])) types.keys
      rw [Table.keys, List.length_map] at most
      exact Nat.lt_succ_of_le most
    -- What the search returns holds its start and is closed under references.
    induction reached with
    | here => exact subset_reach _ _ _ List.mem_cons_self
    | field _ defined here known ih =>
        exact reach_closed _ start enough _ ih
          (mem_references_iff.mpr ⟨_, defined, _, here, known, rfl⟩)

end HardwareSigner.TypedData
