import HardwareSigner.Path
import HardwareSigner.Proofs.Json.Decoding
import HardwareSigner.Proofs.Json.Values
import HardwareSigner.Proofs.Text.Blanks
import HardwareSigner.Proofs.Text.Numerals
import Mathlib.Data.Nat.Bitwise
/-!
The texts of derivation paths.  What is read as a path, and as which one, is said by a grammar; the
text that a path is shown as is one of those that stand for it, alone and in a document.
-/

namespace HardwareSigner.Path

/-- The part of a text that stands for a child index: digits of a number below `2 ^ 31`, a plus sign
before them or not, and behind them an apostrophe or an `h` if the index is hardened. -/
inductive Spells : List Char → UInt32 → Prop where
  | mk {sign digits mark : List Char} {n : Nat} {index : UInt32}
      (signed : sign = [] ∨ sign = ['+'])
      (some_digit : digits ≠ []) (written : Text.Writes 10 digits n) (fits : n < 2 ^ 31)
      (marked : mark = [] ∨ mark = ['\''] ∨ mark = ['h'])
      (value : index.toNat = n + if mark = [] then 0 else 2 ^ 31) :
      Spells (sign ++ digits ++ mark) index

/-- The letter of the root and, each behind a slash, the parts for the indices of a path; blanks may
stand around it all. -/
inductive Denotes : List Char → Path → Prop where
  | mk {before after : List Char} {parts : List (List Char)} {path : Path}
      (blank : ∀ c ∈ before ++ after, Text.isBlank c = true)
      (spelled : List.Forall₂ Spells parts path.indices) :
      Denotes (before ++ ('m' :: parts.flatMap ('/' :: ·)) ++ after) path

theorem toNat_hardened : hardened.toNat = 2 ^ 31 := rfl

theorem isHardened_iff {index : UInt32} : isHardened index = true ↔ 2 ^ 31 ≤ index.toNat := by
  have bound : index.toNat < 2 ^ 32 := index.toNat_lt
  have bit : (index &&& hardened).toNat = (index.toNat.testBit 31).toNat * 2 ^ 31 := by
    rw [UInt32.toNat_and, toNat_hardened, Nat.and_two_pow]
  rw [isHardened, bne_iff_ne, ne_eq, ← UInt32.toNat_inj, bit, Nat.toNat_testBit]
  change ¬ index.toNat / 2 ^ 31 % 2 * 2 ^ 31 = 0 ↔ _
  omega

/-- The number of an index without its highest bit. -/
theorem toNat_unmarked (index : UInt32) :
    (index &&& ~~~hardened).toNat = index.toNat % 2 ^ 31 := by
  have mask : (~~~hardened).toNat = 2 ^ 31 - 1 := rfl
  rw [UInt32.toNat_and, mask, Nat.and_two_pow_sub_one_eq_mod]

theorem toNat_ofNat_or {n : Nat} (fits : n < 2 ^ 31) :
    (UInt32.ofNat n ||| hardened).toNat = n + 2 ^ 31 := by
  have small : n % 2 ^ 32 = n := Nat.mod_eq_of_lt (by omega)
  have joined := Nat.two_pow_add_eq_or_of_lt fits 1
  rw [Nat.mul_one, Nat.or_comm, Nat.add_comm] at joined
  rw [UInt32.toNat_or, toNat_hardened, UInt32.toNat_ofNat', small, joined]

section
variable {part : List Char} {index : UInt32}

/-- A part is a padded number and perhaps a mark. -/
theorem spells_iff : Spells part index ↔ ∃ front mark n, part = front ++ mark ∧
    Text.Padded n front ∧ n < 2 ^ 31 ∧ (mark = [] ∨ mark = ['\''] ∨ mark = ['h']) ∧
    index.toNat = n + if mark = [] then 0 else 2 ^ 31 := by
  constructor
  · rintro ⟨signed, some_digit, written, fits, marked, value⟩
    have padded := Text.padded_iff.mpr ⟨_, _, rfl, signed, some_digit, written⟩
    exact ⟨_, _, _, rfl, padded, fits, marked, value⟩
  · rintro ⟨front, mark, n, rfl, padded, fits, marked, value⟩
    obtain ⟨sign, digits, rfl, signed, some_digit, written⟩ := Text.padded_iff.mp padded
    exact ⟨signed, some_digit, written, fits, marked, value⟩

/-- The characters of a part. -/
theorem Spells.isDigit (spells : Spells part index) {c : Char} (here : c ∈ part) :
    c = '+' ∨ c = '\'' ∨ c = 'h' ∨ c.isDigit = true := by
  obtain ⟨front, mark, n, rfl, padded, -, marked, -⟩ := spells_iff.mp spells
  rcases List.mem_append.mp here with digit | last
  · exact (padded.isDigit digit).imp id fun digit => .inr (.inr digit)
  · rcases marked with rfl | rfl | rfl
    · cases last
    · exact .inr (.inl (List.mem_singleton.mp last))
    · exact .inr (.inr (.inl (List.mem_singleton.mp last)))

/-- No digit and no sign is a mark. -/
theorem not_padded_of_mark {n : Nat} {front : List Char} {mark : Char}
    (marks : mark = '\'' ∨ mark = 'h') : ¬ Text.Padded n (front ++ [mark]) := by
  intro padded
  have last : mark ∈ front ++ [mark] := List.mem_append_right _ List.mem_cons_self
  rcases padded.isDigit last with rfl | digit
  · revert marks
    decide
  · rcases marks with rfl | rfl <;> exact absurd digit (by decide)

theorem splitMark_of_mark {front : List Char} {mark : Char} (marks : mark = '\'' ∨ mark = 'h') :
    splitMark (front ++ [mark]) = (front, true) := by
  rw [splitMark, List.getLast?_concat, List.dropLast_concat]
  rcases marks with rfl | rfl <;> rfl

theorem splitMark_of_other
    (other : ∀ front mark, part = front ++ [mark] → ¬ (mark = '\'' ∨ mark = 'h')) :
    splitMark part = (part, false) := by
  unfold splitMark
  split
  case h_1 last =>
    obtain ⟨front, whole⟩ := List.getLast?_eq_some_iff.mp last
    exact absurd (.inl rfl) (other front _ whole)
  case h_2 last =>
    obtain ⟨front, whole⟩ := List.getLast?_eq_some_iff.mp last
    exact absurd (.inr rfl) (other front _ whole)
  case h_3 => rfl

theorem toNat_index {n : Nat} (fits : n < 2 ^ 31) (mark : Bool) :
    (if mark then UInt32.ofNat n ||| hardened else UInt32.ofNat n).toNat =
      n + if mark then 2 ^ 31 else 0 := by
  cases mark with
  | true => exact toNat_ofNat_or fits
  | false => exact UInt32.toNat_ofNat_of_lt' (Nat.lt_trans fits (by decide))

theorem parsePart_of_splitMark {text : String} {front : List Char} {mark : Bool}
    (split : splitMark part = (front, mark)) :
    parsePart text part = .ok index ↔ ∃ n, Text.Padded n front ∧ n < 2 ^ 31 ∧
      index.toNat = n + if mark then 2 ^ 31 else 0 := by
  have read {n : Nat} : Text.decimal? (2 ^ 32) front = some n ↔ Text.Padded n front ∧ n < 2 ^ 32 :=
    Text.decimal?_eq_some_iff (by decide)
  simp only [parsePart, split]
  cases found : Text.decimal? (2 ^ 32) front with
  | none =>
      refine iff_of_false nofun ?_
      rintro ⟨n, padded, fits, -⟩
      have some := read.mpr ⟨padded, Nat.lt_trans fits (by decide)⟩
      cases found.symm.trans some
  | some n =>
      obtain ⟨padded, -⟩ := read.mp found
      by_cases fits : n < 2 ^ 31
      · simp only [if_neg (Nat.not_le.mpr fits), Except.ok.injEq]
        constructor
        · rintro rfl
          exact ⟨n, padded, fits, toNat_index fits mark⟩
        · rintro ⟨m, same, -, value⟩
          obtain rfl := padded.unique same
          exact UInt32.toNat_inj.mp ((toNat_index fits mark).trans value.symm)
      · simp only [if_pos (Nat.not_lt.mp fits), reduceCtorEq, false_iff]
        rintro ⟨m, same, small, -⟩
        obtain rfl := padded.unique same
        exact fits small

/-- A part is read as the index that it stands for. -/
theorem parsePart_ok_iff {text : String} : parsePart text part = .ok index ↔ Spells part index := by
  rw [spells_iff]
  by_cases ends : ∃ front mark, part = front ++ [mark] ∧ (mark = '\'' ∨ mark = 'h')
  · obtain ⟨front, mark, rfl, marks⟩ := ends
    rw [parsePart_of_splitMark (splitMark_of_mark marks)]
    constructor
    · rintro ⟨n, padded, fits, value⟩
      refine ⟨front, [mark], n, rfl, padded, fits, .inr ?_, value⟩
      exact marks.imp (congrArg ([·])) (congrArg ([·]))
    · rintro ⟨number, last, n, whole, padded, fits, marked, value⟩
      by_cases none : last = []
      · subst none
        rw [List.append_nil] at whole
        exact absurd (whole ▸ padded) (not_padded_of_mark marks)
      · obtain ⟨c, rfl⟩ : ∃ c, last = [c] := by
          rcases marked with rfl | rfl | rfl
          · exact absurd rfl none
          · exact ⟨_, rfl⟩
          · exact ⟨_, rfl⟩
        obtain ⟨rfl, -⟩ := List.append_inj' whole rfl
        exact ⟨n, padded, fits, value⟩
  · have other (front : List Char) (mark : Char) (whole : part = front ++ [mark]) :
        ¬ (mark = '\'' ∨ mark = 'h') := fun marks => ends ⟨front, mark, whole, marks⟩
    rw [parsePart_of_splitMark (splitMark_of_other other)]
    constructor
    · rintro ⟨n, padded, fits, value⟩
      exact ⟨part, [], n, (List.append_nil part).symm, padded, fits, .inl rfl, value⟩
    · rintro ⟨front, mark, n, whole, padded, fits, rfl | rfl | rfl, value⟩
      · rw [List.append_nil] at whole
        exact ⟨n, whole ▸ padded, fits, value⟩
      · exact absurd (.inl rfl) (other front _ whole)
      · exact absurd (.inr rfl) (other front _ whole)

theorem parseParts_ok_iff {text : String} {parts : List (List Char)} {indices : List UInt32} :
    parseParts text parts = .ok indices ↔ List.Forall₂ Spells parts indices := by
  induction parts generalizing indices with
  | nil =>
      rw [parseParts, Except.ok.injEq, List.forall₂_nil_left_iff, eq_comm]
  | cons part parts ih =>
      rw [parseParts, List.forall₂_cons_left_iff]
      cases first : parsePart text part with
      | error fault =>
          refine iff_of_false nofun ?_
          rintro ⟨index, -, spells, -⟩
          cases first.symm.trans (parsePart_ok_iff.mpr spells)
      | ok index =>
          have spells := parsePart_ok_iff.mp first
          constructor
          · intro read
            cases rest : parseParts text parts with
            | error fault =>
                rw [rest] at read
                cases read
            | ok others =>
                rw [rest] at read
                exact ⟨index, others, spells, ih.mp rest, (Except.ok.inj read).symm⟩
          · rintro ⟨index', others, spells', each, rfl⟩
            have again : parsePart text part = .ok index' := parsePart_ok_iff.mpr spells'
            cases first.symm.trans again
            simp only [ih.mpr each, Except.map]

end

theorem isBlank_of_printable {c : Char} (low : 0x21 ≤ c.toNat) (high : c.toNat ≤ 0x7E) :
    Text.isBlank c = false := by
  simp only [Text.isBlank, Bool.or_eq_false_iff, Bool.and_eq_false_iff, decide_eq_false_iff_not,
    beq_eq_false_iff_ne]
  omega

/-- A part holds no blank and no slash. -/
theorem Spells.solid {part : List Char} {index : UInt32} (spells : Spells part index) {c : Char}
    (here : c ∈ part) : Text.isBlank c = false ∧ c ≠ '/' := by
  rcases spells.isDigit here with rfl | rfl | rfl | digit
  · decide
  · decide
  · decide
  · have range : '0'.val ≤ c.val ∧ c.val ≤ '9'.val := by
      simpa only [Char.isDigit, Bool.and_eq_true, decide_eq_true_eq] using digit
    have low : 48 ≤ c.toNat := range.1
    have high : c.toNat ≤ 57 := range.2
    refine ⟨isBlank_of_printable (by omega) (by omega), ?_⟩
    rintro rfl
    exact absurd digit (by decide)

/-- Without the blanks around it, a text that denotes a path falls apart into its parts. -/
theorem Denotes.parts {cs : List Char} {path : Path} (denotes : Denotes cs path) :
    ∃ parts, Text.splitAt (· == '/') (Text.trim cs) = ['m'] :: parts ∧
      List.Forall₂ Spells parts path.indices := by
  obtain ⟨blank, spelled⟩ := denotes
  rename_i before after parts
  have each (part : List Char) (held : part ∈ parts) (c : Char) (here : c ∈ part) :
      Text.isBlank c = false ∧ c ≠ '/' := by
    obtain ⟨index, -, spells⟩ := exists_of_forall₂ spelled held
    exact spells.solid here
  have solid : ∀ c ∈ 'm' :: parts.flatMap ('/' :: ·), Text.isBlank c = false := by
    intro c here
    rcases List.mem_cons.mp here with rfl | later
    · rfl
    · obtain ⟨part, held, inside⟩ := List.mem_flatMap.mp later
      rcases List.mem_cons.mp inside with rfl | inside
      · rfl
      · exact (each part held c inside).1
  have apart : ∀ part ∈ ['m'] :: parts, '/' ∉ part := by
    refine List.forall_mem_cons.mpr ⟨by decide, fun part held here => ?_⟩
    exact (each part held '/' here).2 rfl
  refine ⟨parts, ?_, spelled⟩
  rw [Text.trim_append blank solid]
  exact Text.splitAt_joined apart

/-- A text is read as the path that it denotes. -/
theorem parse_ok_iff {text : String} {path : Path} :
    parse text = .ok path ↔ Denotes text.toList path := by
  constructor
  · intro read
    rw [parse] at read
    split at read
    · rename_i parts divided
      cases found : parseParts text parts with
      | error fault =>
          rw [found] at read
          cases read
      | ok indices =>
          rw [found] at read
          cases read
          obtain ⟨before, after, whole, blank⟩ := Text.exists_trim text.toList
          rw [Text.eq_of_splitAt divided] at whole
          rw [whole]
          exact .mk blank (parseParts_ok_iff.mp found)
    · cases read
  · intro denotes
    obtain ⟨parts, divided, spelled⟩ := denotes.parts
    rw [parse, divided]
    simp only [parseParts_ok_iff.mpr spelled, Except.map]

/-- The part that an index is shown as. -/
def shownPart (index : UInt32) : List Char :=
  if isHardened index then Nat.toDigits 10 (index &&& ~~~hardened).toNat ++ ['\'']
  else Nat.toDigits 10 index.toNat

theorem componentChars_eq : componentChars = fun index => '/' :: shownPart index := by
  funext index
  rw [componentChars, shownPart]
  split <;> rfl

theorem spells_shownPart (index : UInt32) : Spells (shownPart index) index := by
  rw [spells_iff, shownPart]
  have bound : index.toNat < 2 ^ 32 := index.toNat_lt
  split
  · rename_i marked
    have high := isHardened_iff.mp marked
    have small := toNat_unmarked index
    refine ⟨_, ['\''], _, rfl, .zeros 0, by omega, .inr (.inl rfl), ?_⟩
    rw [if_neg (List.cons_ne_nil _ _)]
    omega
  · rename_i unmarked
    have low := mt isHardened_iff.mpr unmarked
    exact ⟨_, [], _, (List.append_nil _).symm, .zeros 0, by omega, .inl rfl, rfl⟩

theorem denotes_display (path : Path) : Denotes path.display.toList path := by
  have shown : path.display.toList =
      [] ++ ('m' :: (path.indices.map shownPart).flatMap ('/' :: ·)) ++ [] := by
    rw [display, String.toList_ofList, toChars, componentChars_eq, List.flatMap_map,
      List.append_nil, List.nil_append]
  rw [shown]
  refine .mk nofun (List.forall₂_map_left_iff.mpr ?_)
  exact List.forall₂_same.mpr fun index _ => spells_shownPart index

theorem decode_render {ρ : Type} (refuse : Fault → ρ) (path : Path) :
    Json.decode (decoder refuse) (Bytes.ofString path.toJson.render) = .ok path := by
  rw [Json.render, Bytes.ofString_ofList]
  refine Json.decode_bytes ⟨nofun, nofun⟩ ?_
  rw [decoder, toJson, Json.Decoder.string_toNode]
  simp only [parse_ok_iff.mpr (denotes_display path)]

/--
A path is read again from the text that it is shown as, and from that text in a document.  A text is
read just if the grammar of paths has it, and as the path that it denotes there; this path is shown
as a text of the same meaning.
-/
theorem texts_of_paths {ρ : Type} (refuse : Fault → ρ) :
    (∀ path : Path, parse path.display = .ok path ∧
      Json.decode (decoder refuse) (Bytes.ofString path.toJson.render) = .ok path) ∧
    (∀ text path, parse text = .ok path ↔ Denotes text.toList path) ∧
    ∀ text, (parse text).bind (fun path => parse path.display) = parse text := by
  have again (path : Path) : parse path.display = .ok path :=
    parse_ok_iff.mpr (denotes_display path)
  refine ⟨fun path => ⟨again path, decode_render refuse path⟩, fun text path => parse_ok_iff, ?_⟩
  intro text
  cases parse text with
  | error fault => rfl
  | ok path => exact again path

end HardwareSigner.Path
