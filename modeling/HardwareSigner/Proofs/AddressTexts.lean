import HardwareSigner.Address
import HardwareSigner.Proofs.Bech32.Spelling
/-!
Addresses as bech32 texts.  A text that was written is read as its address; what is read besides are
texts under the checksum of the later variant, and texts with one more group of bits.
-/

namespace HardwareSigner.Address

open Bech32

variable {text part : String} {a : Address}

theorem length_toFives_bytes (a : Address) : (toFives a.bytes).length = 32 := by
  rw [length_toFives, a.size]

theorem length_le_maxPart (readable : Readable part) : part.toList.length ≤ 83 :=
  readable.length.symm.trans_le readable.short

/-- What an address is written as. -/
theorem toBech32_ok_iff :
    toBech32 part a = .ok text ↔
      Readable part ∧ text.toList = written target part.toList (toFives a.bytes) := by
  have some : a.bytes ≠ [] := by
    intro none
    have size := a.size
    rw [none] at size
    cases size
  have count : groupCount a.bytes = 32 := by rw [groupCount, a.size]
  rw [toBech32, encode_ok_iff some, count]
  constructor
  · intro ⟨readable, _, letters⟩
    exact ⟨readable, letters⟩
  · intro ⟨readable, letters⟩
    have short := length_le_maxPart readable
    exact ⟨readable, by rw [checksumLength, maxLength]; omega, letters⟩

/-- The groups that hold an address are its own, and perhaps one more, of which the bits are left
over. -/
theorem ofFives_eq_bytes_iff {fives : List Nat} (small : ∀ five ∈ fives, five < 32) :
    ofFives fives = a.bytes ↔
      ∃ extra : List Nat, extra.length ≤ 1 ∧ fives = toFives a.bytes ++ extra := by
  have own := length_toFives_bytes a
  constructor
  · intro read
    have size := length_ofFives fives
    rw [read, a.size] at size
    have bits : 8 * (ofFives fives).length = 5 * 32 := by rw [read, a.size]
    have front := toFives_ofFives small bits
    rw [read] at front
    refine ⟨fives.drop 32, ?_, by rw [front, List.take_append_drop]⟩
    rw [List.length_drop]
    omega
  · intro ⟨extra, few, whole⟩
    have bits : 8 * (ofFives fives).length = 5 * 32 := by
      rw [length_ofFives, whole, List.length_append, own]
      omega
    have front := toFives_ofFives small bits
    rw [whole, List.take_left' own, ← whole] at front
    rw [← ofFives_toFives (ofFives fives), front, ofFives_toFives]

/-- What is read as an address. -/
theorem ofBech32_ok_iff :
    ofBech32 text = .ok (part, a) ↔ ∃ goal extra, (goal = target ∨ goal = targetM) ∧
      extra.length ≤ 1 ∧ Spells goal part (toFives a.bytes ++ extra) text := by
  have decoded : ofBech32 text = .ok (part, a) ↔ decode text = .ok (part, a.bytes) := by
    constructor
    · intro found
      rw [ofBech32] at found
      split at found
      · cases found
      rename_i front bs read
      split at found
      · cases found
        exact read
      · cases found
    · intro read
      rw [ofBech32, read]
      exact dif_pos a.size
  rw [decoded, decode_ok_iff]
  constructor
  · intro ⟨_, goal, fives, known, spelled, read⟩
    obtain ⟨extra, few, whole⟩ := (ofFives_eq_bytes_iff spelled.small).mp read
    subst whole
    exact ⟨goal, extra, known, few, spelled⟩
  · intro ⟨goal, extra, known, few, spelled⟩
    have size := congrArg List.length spelled.letters
    rw [Text.toList_toLower, List.length_map, length_written, List.length_append,
      length_toFives_bytes, checksumLength] at size
    have short := length_le_maxPart spelled.readable
    refine ⟨by rw [maxLength]; omega, goal, _, known, spelled, ?_⟩
    exact (ofFives_eq_bytes_iff spelled.small).mpr ⟨extra, few, rfl⟩

/-- A written text in small letters. -/
theorem spells_of_toBech32 (made : toBech32 part a = .ok text) :
    Spells target part.toLower (toFives a.bytes) text := by
  obtain ⟨readable, letters⟩ := toBech32_ok_iff.mp made
  have small : ∀ five ∈ toFives a.bytes, five < 32 := fun five held => toFives_lt held
  have lowered : text.toLower = text := by
    rw [← String.toList_inj, Text.toList_toLower, letters, written_toLower small]
  refine ⟨readable.toLower, small, ?_, .inl lowered, ?_⟩
  · rw [Text.toList_toLower, letters, written]
    exact List.prefix_append _ _
  · rw [lowered, letters, Text.toList_toLower,
      written_congr (Text.map_toLower_toLower part.toList)]

/-- A written text in capitals. -/
theorem capitals_of_toBech32 (made : toBech32 part a = .ok text) :
    Spells target part.toUpper (toFives a.bytes) text.toUpper := by
  obtain ⟨readable, letters⟩ := toBech32_ok_iff.mp made
  have lower := spells_of_toBech32 made
  refine ⟨readable.toUpper, lower.small, ?_, .inr (Text.raised_toUpper text), ?_⟩
  · rw [Text.toList_toUpper, Text.toList_toUpper, letters, written, List.map_append,
      Text.map_toUpper_toLower]
    exact List.prefix_append _ _
  · rw [Text.lowered_toUpper, lower.letters, Text.toList_toLower, Text.toList_toUpper]
    exact written_congr
      ((Text.map_toLower_toLower _).trans (Text.map_toLower_toUpper part.toList).symm)

theorem ofBech32_of_spells (spelled : Spells target part (toFives a.bytes) text) :
    ofBech32 text = .ok (part, a) := by
  refine ofBech32_ok_iff.mpr ⟨target, [], .inl rfl, Nat.zero_le 1, ?_⟩
  rw [List.append_nil]
  exact spelled

/--
An address can be written behind a prefix just if the prefix is readable.  What is written is the
text of the address's bytes, and is read as the address and the prefix in small letters; so no other
address, and no prefix that differs in small letters, has the same text.
-/
theorem texts_of_addresses (part : String) (a : Address) :
    ((∃ text, toBech32 part a = .ok text) ↔ Readable part) ∧
    ∀ text, toBech32 part a = .ok text →
      ofBech32 text = .ok (part.toLower, a) ∧ Bech32.encode part a.bytes = .ok text ∧
      ∀ part' a', toBech32 part' a' = .ok text → a' = a ∧ part'.toLower = part.toLower := by
  refine ⟨⟨fun ⟨_, made⟩ => (toBech32_ok_iff.mp made).1, fun readable => ?_⟩, ?_⟩
  · refine ⟨String.ofList (written target part.toList (toFives a.bytes)), ?_⟩
    exact toBech32_ok_iff.mpr ⟨readable, String.toList_ofList⟩
  · intro text made
    have read := ofBech32_of_spells (spells_of_toBech32 made)
    refine ⟨read, made, ?_⟩
    intro part' a' made'
    have read' := ofBech32_of_spells (spells_of_toBech32 made')
    rw [read] at read'
    obtain ⟨front, own⟩ := Prod.mk.inj (Except.ok.inj read')
    exact ⟨own.symm, front.symm⟩

theorem texts_of_addresses_capitals :
    Readable "A1B" ∧ toBech32 "A1B" zero = .ok "a1b1qqqqqqqqqqqqqqqqqqqqqqqqqqqqqqqq6n87c9" ∧
      toBech32 "a1b" zero = .ok "a1b1qqqqqqqqqqqqqqqqqqqqqqqqqqqqqqqq6n87c9" ∧
      (∃ text, toBech32 "A1B" zero = .ok text) ∧
      ofBech32 "a1b1qqqqqqqqqqqqqqqqqqqqqqqqqqqqqqqq6n87c9" = .ok ("A1B".toLower, zero) ∧
      "a1b".toLower = "A1B".toLower := by
  have readable : Readable "A1B" := by decide +kernel
  have made : toBech32 "A1B" zero = .ok "a1b1qqqqqqqqqqqqqqqqqqqqqqqqqqqqqqqq6n87c9" := by
    decide +kernel
  have made' : toBech32 "a1b" zero = .ok "a1b1qqqqqqqqqqqqqqqqqqqqqqqqqqqqqqqq6n87c9" := by
    decide +kernel
  obtain ⟨writable, reading⟩ := texts_of_addresses "A1B" zero
  obtain ⟨read, -, unique⟩ := reading _ made
  exact ⟨readable, made, made', writable.mpr readable, read, (unique _ _ made').2⟩

/--
A text is read as an address just if it says the groups of the address, or these and one more, under
either checksum, and keeps to one case.  The address can then be written behind the same prefix, and
what is written is the text in small letters just if there is no further group and the checksum is
the earlier one.  What is written is read in small letters and in capitals.
-/
theorem texts_read_as_addresses (text part : String) (a : Address) :
    (ofBech32 text = .ok (part, a) ↔ ∃ goal extra, (goal = target ∨ goal = targetM) ∧
      extra.length ≤ 1 ∧ Spells goal part (toFives a.bytes ++ extra) text) ∧
    (∀ goal extra, (goal = target ∨ goal = targetM) →
      Spells goal part (toFives a.bytes ++ extra) text →
      ∃ own, toBech32 part a = .ok own ∧ (own = text.toLower ↔ goal = target ∧ extra = [])) ∧
    ∀ own, toBech32 part a = .ok own →
      ofBech32 own = .ok (part.toLower, a) ∧ ofBech32 own.toUpper = .ok (part.toUpper, a) := by
  refine ⟨ofBech32_ok_iff, ?_, ?_⟩
  · intro goal extra known spelled
    have small : ∀ five ∈ toFives a.bytes, five < 32 := fun five held => toFives_lt held
    refine ⟨String.ofList (written target part.toList (toFives a.bytes)),
      toBech32_ok_iff.mpr ⟨spelled.readable, String.toList_ofList⟩, ?_⟩
    rw [← String.toList_inj, String.toList_ofList, spelled.letters,
      written_inj (room_of_target (.inl rfl)) (room_of_target known) small spelled.small,
      List.self_eq_append_right, eq_comm]
  · intro own made
    exact ⟨ofBech32_of_spells (spells_of_toBech32 made),
      ofBech32_of_spells (capitals_of_toBech32 made)⟩

theorem texts_read_as_addresses_capitals :
    Spells targetM "A1B" (toFives zero.bytes ++ [31]) "A1B1QQQQQQQQQQQQQQQQQQQQQQQQQQQQQQQQL58C8NT" ∧
      ofBech32 "A1B1QQQQQQQQQQQQQQQQQQQQQQQQQQQQQQQQL58C8NT" = .ok ("A1B", zero) ∧
      toBech32 "A1B" zero = .ok "a1b1qqqqqqqqqqqqqqqqqqqqqqqqqqqqqqqq6n87c9" ∧
      (∃ own, toBech32 "A1B" zero = .ok own ∧
        own ≠ "A1B1QQQQQQQQQQQQQQQQQQQQQQQQQQQQQQQQL58C8NT".toLower) ∧
      ofBech32 "a1b1qqqqqqqqqqqqqqqqqqqqqqqqqqqqqqqq6n87c9".toUpper = .ok ("A1B".toUpper, zero) := by
  have spelled : Spells targetM "A1B" (toFives zero.bytes ++ [31])
      "A1B1QQQQQQQQQQQQQQQQQQQQQQQQQQQQQQQQL58C8NT" :=
    ⟨by decide +kernel, by decide +kernel, by decide +kernel, by decide +kernel, by decide +kernel⟩
  have made : toBech32 "A1B" zero = .ok "a1b1qqqqqqqqqqqqqqqqqqqqqqqqqqqqqqqq6n87c9" := by
    decide +kernel
  obtain ⟨reading, writing, returning⟩ :=
    texts_read_as_addresses "A1B1QQQQQQQQQQQQQQQQQQQQQQQQQQQQQQQQL58C8NT" "A1B" zero
  obtain ⟨own, again, same⟩ := writing targetM [31] (.inr rfl) spelled
  have other : ¬ (targetM = target ∧ [31] = []) := by decide
  exact ⟨spelled, reading.mpr ⟨targetM, [31], .inr rfl, Nat.le_refl 1, spelled⟩, made,
    ⟨own, again, mt same.mp other⟩, (returning _ made).2⟩

/-- The later checksum is taken for the earlier one, and a group too many is passed over. -/
theorem other_spellings_are_read :
    ∃ a, toBech32 "evmos" a = .ok "evmos1tfd95kj6tfd95kj6tfd95kj6tfd95kj6ukepz8" ∧
      ofBech32 "evmos1tfd95kj6tfd95kj6tfd95kj6tfd95kj6f2fd89" = .ok ("evmos", a) ∧
      "evmos1tfd95kj6tfd95kj6tfd95kj6tfd95kj6f2fd89".toLower ≠
        "evmos1tfd95kj6tfd95kj6tfd95kj6tfd95kj6ukepz8" ∧
      ofBech32 "evmos1tfd95kj6tfd95kj6tfd95kj6tfd95kj6lc255g7" = .ok ("evmos", a) ∧
      "evmos1tfd95kj6tfd95kj6tfd95kj6tfd95kj6lc255g7".toLower ≠
        "evmos1tfd95kj6tfd95kj6tfd95kj6tfd95kj6ukepz8" :=
  ⟨⟨List.replicate 20 0x5A, rfl⟩, by decide +kernel, by decide +kernel, by decide +kernel,
    by decide +kernel, by decide +kernel⟩

end HardwareSigner.Address
