import Mathlib.Data.List.Forall2
/-! Lists that have to do with each other item by item. -/

namespace HardwareSigner

section
variable {ι α β : Type}

/-- What two lists have to do with each other by way of a third. -/
theorem forall₂_of_both {A : ι → α → Prop} {B : ι → β → Prop} {C : α → β → Prop} {is : List ι}
    {as : List α} {bs : List β} (first : List.Forall₂ A is as) (second : List.Forall₂ B is bs)
    (step : ∀ i a b, a ∈ as → A i a → B i b → C a b) : List.Forall₂ C as bs := by
  induction first generalizing bs with
  | nil =>
      cases second
      exact .nil
  | @cons i a is as head _ ih =>
      cases second with
      | @cons _ b _ _ head' rest =>
          refine .cons (step i a b List.mem_cons_self head head') (ih rest ?_)
          exact fun i a b later => step i a b (List.mem_cons_of_mem _ later)

theorem exists_of_forall₂ {A : ι → α → Prop} {is : List ι} {as : List α}
    (both : List.Forall₂ A is as) {i : ι} (held : i ∈ is) : ∃ a ∈ as, A i a := by
  induction both with
  | nil => cases held
  | cons head _ ih =>
      rcases List.mem_cons.mp held with rfl | later
      · exact ⟨_, List.mem_cons_self, head⟩
      · obtain ⟨a, one, fits⟩ := ih later
        exact ⟨a, List.mem_cons_of_mem _ one, fits⟩

theorem exists_forall₂ {A : ι → α → Prop} {is : List ι} (each : ∀ i ∈ is, ∃ a, A i a) :
    ∃ as, List.Forall₂ A is as := by
  induction is with
  | nil => exact ⟨[], .nil⟩
  | cons i is ih =>
      obtain ⟨⟨a, first⟩, others⟩ := List.forall_mem_cons.mp each
      obtain ⟨as, rest⟩ := ih others
      exact ⟨a :: as, .cons first rest⟩

end

end HardwareSigner
