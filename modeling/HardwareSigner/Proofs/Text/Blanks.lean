import HardwareSigner.Text.Blank
import Mathlib.Data.List.TakeWhile
/-! Texts taken apart: the blanks around a text, and the parts between separators. -/

namespace HardwareSigner.Text

/-- Nothing but blanks is taken off a text. -/
theorem exists_trim (cs : List Char) :
    ∃ before after, cs = before ++ trim cs ++ after ∧
      ∀ c ∈ before ++ after, isBlank c = true := by
  let rest := cs.dropWhile isBlank
  refine ⟨cs.takeWhile isBlank, (rest.reverse.takeWhile isBlank).reverse, ?_, ?_⟩
  · have back : rest = (rest.reverse.dropWhile isBlank).reverse ++
        (rest.reverse.takeWhile isBlank).reverse := by
      rw [← List.reverse_append, List.takeWhile_append_dropWhile, List.reverse_reverse]
    calc cs = cs.takeWhile isBlank ++ rest := List.takeWhile_append_dropWhile.symm
      _ = cs.takeWhile isBlank ++ (trim cs ++ (rest.reverse.takeWhile isBlank).reverse) :=
        congrArg (cs.takeWhile isBlank ++ ·) back
      _ = _ := (List.append_assoc _ _ _).symm
  · intro c here
    rcases List.mem_append.mp here with front | back
    · exact List.mem_takeWhile_imp front
    · exact List.mem_takeWhile_imp (List.mem_reverse.mp back)

/-- Whatever has no blanks in it is left when the blanks around it are taken off. -/
theorem trim_append {before body after : List Char}
    (around : ∀ c ∈ before ++ after, isBlank c = true) (solid : ∀ c ∈ body, isBlank c = false) :
    trim (before ++ body ++ after) = body := by
  obtain ⟨front, back⟩ := List.forall_mem_append.mp around
  have stays {cs : List Char} (solid : ∀ c ∈ cs, isBlank c = false) : cs.dropWhile isBlank = cs := by
    refine List.dropWhile_eq_self_iff.mpr fun some => ?_
    rw [solid _ (List.getElem_mem some)]
    exact Bool.false_ne_true
  have gone {cs : List Char} (blank : ∀ c ∈ cs, isBlank c = true) : cs.dropWhile isBlank = [] :=
    List.dropWhile_eq_nil_iff.mpr blank
  have backwards : ∀ c ∈ body.reverse, isBlank c = false := fun c here =>
    solid c (List.mem_reverse.mp here)
  rw [trim, List.append_assoc, List.dropWhile_append_of_pos front, List.dropWhile_append,
    stays solid]
  by_cases empty : body = []
  · subst empty
    rw [if_pos List.isEmpty_nil, gone back]
    rfl
  · rw [if_neg (mt List.isEmpty_iff.mp empty), List.reverse_append,
      List.dropWhile_append_of_pos fun c here => back c (List.mem_reverse.mp here),
      stays backwards, List.reverse_reverse]

section
variable {d : Char}

theorem exists_splitAt (cs : List Char) : ∃ part parts, splitAt (· == d) cs = part :: parts := by
  cases cs with
  | nil => exact ⟨[], [], rfl⟩
  | cons c cs =>
      rw [splitAt]
      split
      · exact ⟨[], _, rfl⟩
      · split <;> exact ⟨_, _, rfl⟩

/-- The parts of a text, joined by what separates them, are the text. -/
theorem eq_of_splitAt {cs part : List Char} {parts : List (List Char)}
    (split : splitAt (· == d) cs = part :: parts) : cs = part ++ parts.flatMap (d :: ·) := by
  induction cs generalizing part parts with
  | nil =>
      cases split
      rfl
  | cons c cs ih =>
      obtain ⟨first, others, rest⟩ := exists_splitAt (d := d) cs
      have joined := ih rest
      rw [splitAt, rest] at split
      by_cases separator : c = d
      · subst separator
        rw [if_pos (beq_self_eq_true c)] at split
        cases split
        rw [joined]
        rfl
      · rw [if_neg (mt eq_of_beq separator)] at split
        cases split
        rw [joined]
        rfl

/-- What stands before the first separator belongs to the first part. -/
theorem splitAt_append {part cs first : List Char} {others : List (List Char)} (apart : d ∉ part)
    (split : splitAt (· == d) cs = first :: others) :
    splitAt (· == d) (part ++ cs) = (part ++ first) :: others := by
  induction part with
  | nil => exact split
  | cons c part ih =>
      obtain ⟨other, rest⟩ := not_or.mp (mt List.mem_cons.mpr apart)
      rw [List.cons_append, splitAt, if_neg (mt eq_of_beq (Ne.symm other)), ih rest]
      rfl

/-- Parts without the character are taken apart again when they are joined by it. -/
theorem splitAt_joined {part : List Char} {parts : List (List Char)}
    (apart : ∀ p ∈ part :: parts, d ∉ p) :
    splitAt (· == d) (part ++ parts.flatMap (d :: ·)) = part :: parts := by
  induction parts generalizing part with
  | nil =>
      rw [splitAt_append (apart part List.mem_cons_self) rfl, List.append_nil]
  | cons p ps ih =>
      obtain ⟨first, others⟩ := List.forall_mem_cons.mp apart
      have split : splitAt (· == d) ((p :: ps).flatMap (d :: ·)) = [] :: p :: ps := by
        rw [List.flatMap_cons, List.cons_append, splitAt, if_pos (beq_self_eq_true d), ih others]
      rw [splitAt_append first split, List.append_nil]

end

end HardwareSigner.Text
