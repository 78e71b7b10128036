import HardwareSigner.Bech32
import HardwareSigner.Proofs.Text.LetterCase
import HardwareSigner.Proofs.Text.Utf8
import Mathlib.Data.List.GetD
/-!
The characters of a text: each of the thirty-two values has one small character, and a prefix can be
written just if its characters can be printed and keep to one case.
-/

namespace HardwareSigner.Bech32

theorem fiveOf?_charOf : ∀ five < 32, fiveOf? (charOf five) = some five := by decide

theorem not_isUpper_charOf : ∀ five < 32, (charOf five).isUpper = false := by decide

theorem charOf_ne_separator : ∀ five < 32, charOf five ≠ '1' := by decide

theorem fiveOf?_eq_some_iff {c : Char} {five : Nat} :
    fiveOf? c = some five ↔ five < 32 ∧ c.toLower = charOf five := by
  constructor
  · intro found
    obtain ⟨bound, same, -⟩ := List.idxOf?_eq_some_iff.mp found
    exact ⟨bound, same.symm.trans (List.getD_eq_getElem charset 'q' bound).symm⟩
  · rintro ⟨small, same⟩
    have read := fiveOf?_charOf five small
    rw [fiveOf?, Text.toLower_eq_self_iff.mpr (not_isUpper_charOf five small)] at read
    rw [fiveOf?, same, read]

theorem fivesOf?_eq_some_iff {cs : List Char} {fives : List Nat} :
    fivesOf? cs = some fives ↔
      cs.map Char.toLower = fives.map charOf ∧ ∀ five ∈ fives, five < 32 := by
  induction cs generalizing fives with
  | nil =>
      cases fives with
      | nil => exact ⟨fun _ => ⟨rfl, List.forall_mem_nil _⟩, fun _ => rfl⟩
      | cons five fives =>
          refine ⟨fun found => ?_, fun ⟨same, _⟩ => ?_⟩
          · cases found
          · cases same
  | cons c cs ih =>
      constructor
      · intro found
        rw [fivesOf?] at found
        split at found
        · rename_i five rest first others
          cases found
          obtain ⟨small, same⟩ := fiveOf?_eq_some_iff.mp first
          obtain ⟨sames, smalls⟩ := ih.mp others
          refine ⟨?_, List.forall_mem_cons.mpr ⟨small, smalls⟩⟩
          rw [List.map_cons, List.map_cons, same, sames]
        · cases found
      · rintro ⟨same, small⟩
        cases fives with
        | nil => cases same
        | cons five rest =>
            obtain ⟨first, others⟩ := List.cons.inj same
            obtain ⟨small, smalls⟩ := List.forall_mem_cons.mp small
            rw [fivesOf?, fiveOf?_eq_some_iff.mpr ⟨small, first⟩, ih.mpr ⟨others, smalls⟩]

theorem toLower_charOf {five : Nat} (small : five < 32) : (charOf five).toLower = charOf five :=
  Text.toLower_eq_self_iff.mpr (not_isUpper_charOf five small)

theorem map_toLower_charOf {fives : List Nat} (small : ∀ five ∈ fives, five < 32) :
    (fives.map charOf).map Char.toLower = fives.map charOf := by
  rw [List.map_map]
  exact List.map_congr_left fun five held => toLower_charOf (small five held)

/-- Values are told apart by their characters. -/
theorem map_charOf_injective {fives fives' : List Nat} (small : ∀ five ∈ fives, five < 32)
    (small' : ∀ five ∈ fives', five < 32) (same : fives.map charOf = fives'.map charOf) :
    fives = fives' := by
  have read := fivesOf?_eq_some_iff.mpr ⟨map_toLower_charOf small, small⟩
  have read' := fivesOf?_eq_some_iff.mpr ⟨map_toLower_charOf small', small'⟩
  rw [same, read'] at read
  exact (Option.some.inj read).symm

/-- The prefixes that a text can have: one to eighty-three bytes, all of them printed characters, and
not letters of both cases. -/
structure Readable (part : String) : Prop where
  some : 0 < part.utf8ByteSize
  short : part.utf8ByteSize ≤ maxPart
  printed : ∀ c ∈ part.toList, 33 ≤ c.toNat ∧ c.toNat ≤ 126
  oneCase : part.toLower = part ∨ part.toUpper = part

theorem not_both_cases (c : Char) : (c.isUpper && c.isLower) = false := by
  rw [Bool.eq_false_iff, ne_eq, Bool.and_eq_true]
  exact fun both => Text.not_isLower_of_isUpper both.1 both.2

/-- A letter that meets one of the other case, and it alone, mixes the cases. -/
theorem mixed_iff : ∀ upper lower u l : Bool, (upper && lower) = false → (u && l) = false →
    ((l && upper || u && lower) = true ↔ ¬ ((upper || u) && (lower || l)) = false) := by decide

theorem unmixed_before : ∀ upper lower u l : Bool, ((upper || u) && (lower || l)) = false →
    (upper && lower) = false := by decide

/-- The characters that are still to come are looked at together with those that came before. -/
theorem checkChars_ok_iff {upper lower : Bool} {cs : List Char} (before : (upper && lower) = false) :
    checkChars upper lower cs = .ok () ↔ (∀ c ∈ cs, 33 ≤ c.toNat ∧ c.toNat ≤ 126) ∧
      ((upper || cs.any Char.isUpper) && (lower || cs.any Char.isLower)) = false := by
  induction cs generalizing upper lower with
  | nil =>
      rw [List.any_nil, List.any_nil, Bool.or_false, Bool.or_false]
      exact ⟨fun _ => ⟨List.forall_mem_nil _, before⟩, fun _ => rfl⟩
  | cons c cs ih =>
      have mixed := mixed_iff upper lower c.isUpper c.isLower before (not_both_cases c)
      have refused {fault : Fault} (P : Prop) (wrong : ¬ P) :
          (Except.error fault : Except Fault Unit) = .ok () ↔ P :=
        ⟨fun stopped => (by cases stopped), fun holds => absurd holds wrong⟩
      rw [checkChars, List.forall_mem_cons, List.any_cons, List.any_cons, ← Bool.or_assoc,
        ← Bool.or_assoc]
      by_cases high : 128 ≤ c.toNat
      · rw [if_pos high]
        exact refused _ fun ⟨⟨range, _⟩, _⟩ => by omega
      by_cases outside : c.toNat < 33 ∨ 126 < c.toNat
      · rw [if_neg high, if_pos outside]
        exact refused _ fun ⟨⟨range, _⟩, _⟩ => by omega
      rw [if_neg high, if_neg outside]
      by_cases one : ((upper || c.isUpper) && (lower || c.isLower)) = false
      · rw [if_neg (mt mixed.mp (not_not_intro one)), ih one]
        have inside : 33 ≤ c.toNat ∧ c.toNat ≤ 126 := by omega
        rw [and_iff_right inside]
      · rw [if_pos (mixed.mpr one)]
        exact refused _ fun ⟨_, apart⟩ => one (unmixed_before _ _ _ _ apart)

/-- Letters keep to one case if they are their own form in it. -/
theorem mixesCase_eq_false_iff {cs : List Char} :
    mixesCase cs = false ↔ cs.map Char.toLower = cs ∨ cs.map Char.toUpper = cs := by
  rw [mixesCase, Bool.and_eq_false_iff, Text.map_toLower_eq_self_iff, Text.map_toUpper_eq_self_iff]

theorem checkPart_ok_iff {part : String} : checkPart part = .ok () ↔ Readable part := by
  have cases : ((false || part.toList.any Char.isUpper) &&
      (false || part.toList.any Char.isLower)) = false ↔ part.toLower = part ∨ part.toUpper = part := by
    rw [← String.toList_inj, ← String.toList_inj, Text.toList_toLower, Text.toList_toUpper,
      ← mixesCase_eq_false_iff]
    rfl
  rw [checkPart]
  constructor
  · intro checked
    split at checked
    · cases checked
    split at checked
    · cases checked
    rename_i some short
    obtain ⟨printed, one⟩ := (checkChars_ok_iff rfl).mp checked
    exact ⟨Nat.pos_of_ne_zero some, Nat.le_of_not_lt short, printed, cases.mp one⟩
  · intro readable
    rw [if_neg (Nat.ne_of_gt readable.some), if_neg (Nat.not_lt_of_le readable.short)]
    exact (checkChars_ok_iff rfl).mpr ⟨readable.printed, cases.mpr readable.oneCase⟩

instance (part : String) : Decidable (Readable part) :=
  decidable_of_iff _ checkPart_ok_iff

theorem Readable.length {part : String} (readable : Readable part) :
    part.utf8ByteSize = part.toList.length :=
  Bytes.utf8ByteSize_of_ascii fun c held => by
    have range := readable.printed c held
    omega

/-- A prefix can be written in the other case as well. -/
theorem Readable.mapped {part : String} (readable : Readable part) {f : Char → Char}
    (printed : ∀ c : Char, 33 ≤ c.toNat ∧ c.toNat ≤ 126 → 33 ≤ (f c).toNat ∧ (f c).toNat ≤ 126)
    (oneCase : (part.map f).toLower = part.map f ∨ (part.map f).toUpper = part.map f) :
    Readable (part.map f) := by
  have range : ∀ c ∈ (part.map f).toList, 33 ≤ c.toNat ∧ c.toNat ≤ 126 := by
    rw [String.toList_map]
    exact List.forall_mem_map.mpr fun c held => printed c (readable.printed c held)
  have ascii : ∀ c ∈ (part.map f).toList, c.toNat < 128 := by
    intro c held
    have printed := range c held
    omega
  have size : (part.map f).utf8ByteSize = part.utf8ByteSize := by
    rw [readable.length, Bytes.utf8ByteSize_of_ascii ascii, String.toList_map, List.length_map]
  exact ⟨size ▸ readable.some, size ▸ readable.short, range, oneCase⟩

theorem Readable.toLower {part : String} (readable : Readable part) : Readable part.toLower := by
  refine readable.mapped (fun c range => ?_) (.inl (Text.lowered_toLower part))
  rw [Text.toNat_toLower]
  split
  · rename_i upper
    have letters := Text.isUpper_iff.mp upper
    omega
  · exact range

theorem Readable.toUpper {part : String} (readable : Readable part) : Readable part.toUpper := by
  refine readable.mapped (fun c range => ?_) (.inr (Text.raised_toUpper part))
  rw [Text.toNat_toUpper]
  split
  · rename_i lower
    have letters := Text.isLower_iff.mp lower
    omega
  · exact range

end HardwareSigner.Bech32
