import HardwareSigner.Proofs.Bech32.Characters
import HardwareSigner.Proofs.Bech32.Checksum
import HardwareSigner.Proofs.Bech32.Groups
import Mathlib.Data.List.TakeWhile
/-!
The texts that are read.  In small letters they are a prefix, the separator, groups of five bits and a
checksum for one of two residues; the text itself keeps to small letters or to capitals.
-/

namespace HardwareSigner.Bech32

section
variable {cs part data : List Char}

theorem drop_takeWhile_length {α : Type} (p : α → Bool) (xs : List α) :
    xs.drop (xs.takeWhile p).length = xs.dropWhile p :=
  calc xs.drop (xs.takeWhile p).length
      = (xs.takeWhile p ++ xs.dropWhile p).drop (xs.takeWhile p).length := by
        rw [List.takeWhile_append_dropWhile]
    _ = xs.dropWhile p := List.drop_left

/-- The data are what follows the last separator. -/
theorem splitLast?_eq_some_iff :
    splitLast? cs = some (part, data) ↔ cs = part ++ '1' :: data ∧ '1' ∉ data := by
  unfold splitLast?
  simp only [drop_takeWhile_length]
  constructor
  · intro found
    have whole := List.takeWhile_append_dropWhile (p := (· ≠ '1')) (l := cs.reverse)
    have stop := List.head?_dropWhile_not (· ≠ '1') cs.reverse
    have apart : '1' ∉ cs.reverse.takeWhile (· ≠ '1') := by
      intro held
      have other := List.mem_takeWhile_imp held
      exact absurd rfl (of_decide_eq_true other)
    split at found
    · rename_i c front rest
      cases found
      rw [rest] at whole stop
      have mark : c = '1' := not_not.mp (of_decide_eq_false stop)
      subst mark
      have turned := congrArg List.reverse whole
      rw [List.reverse_append, List.reverse_cons, List.append_assoc, List.reverse_reverse] at turned
      exact ⟨turned.symm, mt List.mem_reverse.mp apart⟩
    · cases found
  · intro ⟨whole, apart⟩
    subst whole
    have backwards : ∀ c ∈ data.reverse, decide (c ≠ '1') = true := by
      intro c held
      refine decide_eq_true fun same => apart ?_
      subst same
      exact List.mem_reverse.mp held
    have before : ('1' :: part.reverse).dropWhile (· ≠ '1') = '1' :: part.reverse := rfl
    have none : ('1' :: part.reverse).takeWhile (· ≠ '1') = [] := rfl
    rw [List.reverse_append, List.reverse_cons, List.append_assoc, List.singleton_append,
      List.takeWhile_append_of_pos backwards, List.dropWhile_append_of_pos backwards, before, none,
      List.append_nil]
    simp only [List.reverse_reverse]

end

/-- A small separator is the separator. -/
theorem eq_separator_of_toLower {c : Char} (small : c.toLower = '1') : c = '1' := by
  have capital : '1'.toUpper = '1' := by decide
  rcases (Text.toLower_eq_iff (by decide)).mp small with same | same
  · exact same
  · exact same.trans capital

/-- A text is taken apart into a prefix and values if it begins with the one and, in small letters,
goes on with the characters of the others. -/
theorem parted_iff {cs part : List Char} {values : List Nat} :
    (∃ data, splitLast? cs = some (part, data) ∧ fivesOf? data = some values) ↔
      part <+: cs ∧ cs.map Char.toLower = part.map Char.toLower ++ '1' :: values.map charOf ∧
        ∀ v ∈ values, v < 32 := by
  constructor
  · intro ⟨data, split, read⟩
    obtain ⟨whole, -⟩ := splitLast?_eq_some_iff.mp split
    obtain ⟨same, small⟩ := fivesOf?_eq_some_iff.mp read
    subst whole
    refine ⟨List.prefix_append _ _, ?_, small⟩
    rw [List.map_append, List.map_cons, same]
    rfl
  · intro ⟨⟨rest, whole⟩, letters, small⟩
    subst whole
    rw [List.map_append, List.append_cancel_left_eq] at letters
    cases rest with
    | nil => cases letters
    | cons c data =>
        obtain ⟨first, same⟩ := List.cons.inj letters
        have mark := eq_separator_of_toLower first
        subst mark
        have apart : '1' ∉ data := by
          intro held
          have low := List.mem_map_of_mem (f := Char.toLower) held
          rw [same] at low
          obtain ⟨v, among, char⟩ := List.mem_map.mp low
          exact charOf_ne_separator v (small v among) char
        exact ⟨data, splitLast?_eq_some_iff.mpr ⟨rfl, apart⟩, fivesOf?_eq_some_iff.mpr ⟨same, small⟩⟩

/-- What is written, in small letters, of a prefix and of groups of five bits: both, and the checksum
that gives them this residue. -/
def written (goal : Nat) (part : List Char) (fives : List Nat) : List Char :=
  part.map Char.toLower ++ '1' :: (fives ++ closing goal (expand part ++ fives)).map charOf

/-- A text that says a prefix and groups of five bits under a checksum for this residue. -/
structure Spells (goal : Nat) (part : String) (fives : List Nat) (text : String) : Prop where
  readable : Readable part
  small : ∀ five ∈ fives, five < 32
  begins : part.toList <+: text.toList
  oneCase : text.toLower = text ∨ text.toUpper = text
  letters : text.toLower.toList = written goal part.toList fives

theorem length_written (goal : Nat) (part : List Char) (fives : List Nat) :
    (written goal part fives).length = part.length + 1 + fives.length + checksumLength := by
  rw [written, List.length_append, List.length_cons, List.length_map, List.length_map,
    List.length_append, length_closing]
  omega

/-- Letter case is nothing to the checksum. -/
theorem expand_congr {part part' : List Char}
    (same : part.map Char.toLower = part'.map Char.toLower) : expand part = expand part' := by
  have high (cs : List Char) :
      cs.map (·.toLower.toNat / 32) = (cs.map Char.toLower).map (·.toNat / 32) := by
    rw [List.map_map]
    rfl
  have low (cs : List Char) :
      cs.map (·.toLower.toNat % 32) = (cs.map Char.toLower).map (·.toNat % 32) := by
    rw [List.map_map]
    rfl
  rw [expand, expand, high, low, high, low, same]

theorem written_congr {goal : Nat} {part part' : List Char} {fives : List Nat}
    (same : part.map Char.toLower = part'.map Char.toLower) :
    written goal part fives = written goal part' fives := by
  rw [written, written, expand_congr same, same]

theorem closed_lt {goal : Nat} {before fives : List Nat} (small : ∀ five ∈ fives, five < 32) :
    ∀ v ∈ fives ++ closing goal before, v < 32 :=
  List.forall_mem_append.mpr ⟨small, fun _ held => closing_lt held⟩

theorem written_toLower {goal : Nat} {part : List Char} {fives : List Nat}
    (small : ∀ five ∈ fives, five < 32) :
    (written goal part fives).map Char.toLower = written goal part fives := by
  have mark : '1'.toLower = '1' := rfl
  rw [written, List.map_append, List.map_cons, Text.map_toLower_toLower, mark,
    map_toLower_charOf (closed_lt small)]

/-- What is written says which groups were meant, and under which residue. -/
theorem written_inj {goal goal' : Nat} (room : goal < 2 ^ 30) (room' : goal' < 2 ^ 30)
    {part : List Char} {fives fives' : List Nat} (small : ∀ five ∈ fives, five < 32)
    (small' : ∀ five ∈ fives', five < 32) :
    written goal part fives = written goal' part fives' ↔ goal = goal' ∧ fives = fives' := by
  constructor
  · intro same
    have size := congrArg List.length same
    rw [length_written, length_written] at size
    have chars := (List.cons.inj (List.append_cancel_left same)).2
    have values := map_charOf_injective (closed_lt small) (closed_lt small') chars
    obtain ⟨groups, sum⟩ := List.append_inj values (by omega)
    subst groups
    exact ⟨closing_injective room room' sum, rfl⟩
  · intro ⟨target, groups⟩
    rw [target, groups]

theorem room_of_target {goal : Nat} (known : goal = target ∨ goal = targetM) : goal < 2 ^ 30 := by
  rcases known with plain | other
  · rw [plain]
    decide
  · rw [other]
    decide

theorem mixesCase_iff_of_text {text : String} :
    mixesCase text.toList = false ↔ text.toLower = text ∨ text.toUpper = text := by
  rw [mixesCase_eq_false_iff, ← String.toList_inj, ← String.toList_inj, Text.toList_toLower,
    Text.toList_toUpper]

/-- A text in which a prefix and values are found, and nothing is wrong with them. -/
structure Sound (text part : String) (values : List Nat) : Prop where
  parted : ∃ data, splitLast? text.toList = some (part.toList, data) ∧ fivesOf? data = some values
  oneCase : text.toLower = text ∨ text.toUpper = text
  readable : Readable part
  long : checksumLength ≤ values.length
  short : text.toList.length ≤ maxLength
  closed : residue (expand part.toList ++ values) = target ∨
    residue (expand part.toList ++ values) = targetM

theorem length_of_fivesOf? {data : List Char} {values : List Nat}
    (read : fivesOf? data = some values) : values.length = data.length := by
  have same := congrArg List.length (fivesOf?_eq_some_iff.mp read).1
  rw [List.length_map, List.length_map] at same
  exact same.symm

/-- The values without the checksum are read as bytes. -/
theorem decode_sound_iff {text part : String} {bs : Bytes} :
    decode text = .ok (part, bs) ↔ ∃ values, Sound text part values ∧
      ofFives (values.take (values.length - checksumLength)) = bs := by
  constructor
  · intro found
    rw [decode] at found
    dsimp only at found
    split at found
    · cases found
    rename_i front data split
    split at found
    · cases found
    rename_i values read
    split at found
    · cases found
    rename_i pure
    split at found
    · cases found
    rename_i checked
    split at found
    · cases found
    rename_i sizes
    split at found
    · cases found
    rename_i sound
    cases found
    have size := length_of_fivesOf? read
    have one := mixesCase_iff_of_text.mp (Bool.eq_false_iff.mpr pure)
    refine ⟨values, ⟨⟨data, ?_, read⟩, one, checkPart_ok_iff.mp checked, ?_, ?_, ?_⟩, rfl⟩
    · rw [String.toList_ofList, split]
    · omega
    · omega
    · rw [String.toList_ofList]
      omega
  · intro ⟨values, sound, bytes⟩
    obtain ⟨data, split, read⟩ := sound.parted
    have size := length_of_fivesOf? read
    have long := sound.long
    have short := sound.short
    have closed := sound.closed
    have fits : ¬ (data.length < checksumLength ∨ maxLength < text.toList.length) := by omega
    have known : ¬ (residue (expand part.toList ++ values) ≠ target ∧
        residue (expand part.toList ++ values) ≠ targetM) := by omega
    rw [decode]
    simp only [split, read, mixesCase_iff_of_text.mpr sound.oneCase, String.ofList_toList,
      checkPart_ok_iff.mpr sound.readable, Bool.false_eq_true, if_false]
    rw [if_neg fits, if_neg known, bytes]

/-- The last values are the checksum of the others for the residue of all. -/
theorem closed_iff {before values : List Nat} {goal : Nat} (room : goal < 2 ^ 30)
    (small : ∀ v ∈ values, v < 32) :
    checksumLength ≤ values.length ∧ residue (before ++ values) = goal ↔
      ∃ fives, values = fives ++ closing goal (before ++ fives) := by
  constructor
  · intro ⟨long, reached⟩
    have groups := List.take_append_drop (values.length - checksumLength) values
    have last : ∀ v ∈ values.drop (values.length - checksumLength), v < 32 := fun v held =>
      small v (List.mem_of_mem_drop held)
    have six : (values.drop (values.length - checksumLength)).length = checksumLength := by
      rw [List.length_drop]
      omega
    have sum := (residue_append_iff room last six).mp (by rw [List.append_assoc, groups, reached])
    refine ⟨values.take (values.length - checksumLength), ?_⟩
    rw [← sum, groups]
  · intro ⟨fives, whole⟩
    have sum := (residue_append_iff room (fun v held => closing_lt held)
      (length_closing goal (before ++ fives))).mpr rfl
    rw [List.append_assoc, ← whole] at sum
    refine ⟨?_, sum⟩
    rw [whole, List.length_append, length_closing]
    exact Nat.le_add_left _ _

theorem take_closed (goal : Nat) (before fives : List Nat) :
    (fives ++ closing goal before).take
      ((fives ++ closing goal before).length - checksumLength) = fives := by
  rw [List.length_append, length_closing, Nat.add_sub_cancel, List.take_left]

/-- The texts that are read, and what they are read as. -/
theorem decode_ok_iff {text part : String} {bs : Bytes} :
    decode text = .ok (part, bs) ↔ text.toList.length ≤ maxLength ∧
      ∃ goal fives, (goal = target ∨ goal = targetM) ∧ Spells goal part fives text ∧
        ofFives fives = bs := by
  rw [decode_sound_iff]
  constructor
  · intro ⟨values, sound, bytes⟩
    obtain ⟨begins, letters, small⟩ := parted_iff.mp sound.parted
    obtain ⟨goal, known, reached⟩ : ∃ goal, (goal = target ∨ goal = targetM) ∧
        residue (expand part.toList ++ values) = goal := ⟨_, sound.closed, rfl⟩
    obtain ⟨fives, whole⟩ :=
      (closed_iff (room_of_target known) small).mp ⟨sound.long, reached⟩
    rw [whole, take_closed] at bytes
    rw [whole] at letters small
    rw [← Text.toList_toLower] at letters
    have groups := (List.forall_mem_append.mp small).1
    exact ⟨sound.short, goal, fives, known,
      ⟨sound.readable, groups, begins, sound.oneCase, letters⟩, bytes⟩
  · intro ⟨short, goal, fives, known, spelled, bytes⟩
    have small : ∀ v ∈ fives ++ closing goal (expand part.toList ++ fives), v < 32 :=
      closed_lt spelled.small
    have letters := spelled.letters
    rw [Text.toList_toLower] at letters
    obtain ⟨long, reached⟩ := (closed_iff (room_of_target known) small).mpr ⟨fives, rfl⟩
    refine ⟨_, ⟨parted_iff.mpr ⟨spelled.begins, letters, small⟩, spelled.oneCase,
      spelled.readable, long, short, ?_⟩, ?_⟩
    · rw [reached]
      exact known
    · rw [take_closed, bytes]

/-- The prefixes and bytes that can be written, and how. -/
theorem encode_ok_iff {part text : String} {bs : Bytes} (some : bs ≠ []) :
    encode part bs = .ok text ↔ Readable part ∧
      part.toList.length + 1 + groupCount bs + checksumLength ≤ maxLength ∧
        text.toList = written target part.toList (toFives bs) := by
  have whole : part.toList.map Char.toLower ++ '1' ::
      (toFives bs ++ checksum (part.toList.map Char.toLower) (toFives bs)).map charOf =
        written target part.toList (toFives bs) := by
    rw [written, checksum_eq, expand_congr (Text.map_toLower_toLower part.toList)]
  rw [encode, if_neg (mt List.isEmpty_iff.mp some)]
  constructor
  · intro found
    split at found
    · cases found
    rename_i checked
    dsimp only at found
    split at found
    · cases found
    rename_i fits
    cases found
    rw [List.length_map] at fits
    rw [String.toList_ofList]
    exact ⟨checkPart_ok_iff.mp checked, Nat.le_of_not_lt fits, whole⟩
  · intro ⟨readable, fits, letters⟩
    rw [checkPart_ok_iff.mpr readable]
    dsimp only
    rw [List.length_map, if_neg (Nat.not_lt_of_le fits), whole, ← letters, String.ofList_toList]

end HardwareSigner.Bech32
