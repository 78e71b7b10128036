import HardwareSigner.Proofs.TypedData.Integers
/-!
Which texts are taken for integers.  Beside the numerals one would expect these are the same with
underscores put into their digits, and what is left of a numeral when it has no digit at all: the
empty text, a bare prefix, a bare sign.  The latter are taken for zero.
-/

namespace HardwareSigner.TypedData
open Text (Writes Grouped)
open Json (Node Shape)

/-- The digits of a number, of which there is at least one. -/
def Proper (base : Nat) (cs : List Char) (n : Nat) : Prop :=
  cs ≠ [] ∧ Writes base cs n

/-- Underscores make no difference, and nothing stands for zero. -/
def Lenient (base : Nat) (cs : List Char) (n : Nat) : Prop :=
  Proper base (cs.filter (· ≠ '_')) n ∨ (∀ c ∈ cs, c = '_') ∧ n = 0

section
variable {base n : Nat} {cs : List Char}

theorem grouped_eq_lenient : Grouped = Lenient := by
  funext base cs n
  apply propext
  have blank : cs.filter (· ≠ '_') = [] ↔ ∀ c ∈ cs, c = '_' := by
    simp only [List.filter_eq_nil_iff, decide_eq_true_eq, not_not]
  rw [Grouped, Lenient, Proper, ← blank]
  by_cases empty : cs.filter (· ≠ '_') = []
  · rw [empty, Text.writes_nil]
    simp only [ne_eq, not_true_eq_false, false_and, false_or, true_and]
  · simp only [ne_eq, empty, not_false_eq_true, true_and, false_and, or_false]

/-- Without underscores only the lack of digits is not what one would expect. -/
theorem lenient_iff_of_notMem (plain : '_' ∉ cs) :
    Lenient base cs n ↔ Proper base cs n ∨ cs = [] ∧ n = 0 := by
  have same : cs.filter (· ≠ '_') = cs := by
    refine List.filter_eq_self.mpr fun c here => decide_eq_true ?_
    rintro rfl
    exact plain here
  have blank : (∀ c ∈ cs, c = '_') ↔ cs = [] := by
    cases cs with
    | nil => simp only [List.not_mem_nil, false_implies, implies_true]
    | cons c cs =>
        simp only [reduceCtorEq, iff_false]
        intro all
        exact plain (all c List.mem_cons_self ▸ List.mem_cons_self)
  rw [Lenient, same, blank]

theorem numeral_lenient_iff (plain : '_' ∉ cs) {z : Int} :
    Numeral Lenient cs z ↔
      Numeral Proper cs z ∨ (cs = "".toList ∨ cs = "0x".toList) ∧ z = 0 := by
  constructor
  · rintro (written | @⟨rest, _, written⟩)
    · rcases (lenient_iff_of_notMem plain).mp written with proper | ⟨rfl, rfl⟩
      · exact .inl (.decimal proper)
      · exact .inr ⟨.inl rfl, rfl⟩
    · have plain : '_' ∉ rest := fun here => plain (List.mem_append_right ['0', 'x'] here)
      rcases (lenient_iff_of_notMem plain).mp written with proper | ⟨rfl, rfl⟩
      · exact .inl (.hexadecimal proper)
      · exact .inr ⟨.inr rfl, rfl⟩
  · rintro ((proper | @⟨rest, _, proper⟩) | ⟨rfl | rfl, rfl⟩)
    · exact .decimal ((lenient_iff_of_notMem plain).mpr (.inl proper))
    · have plain : '_' ∉ rest := fun here => plain (List.mem_append_right ['0', 'x'] here)
      exact .hexadecimal ((lenient_iff_of_notMem plain).mpr (.inl proper))
    · exact .decimal (n := 0) (.inr ⟨nofun, rfl⟩)
    · exact .hexadecimal (n := 0) (.inr ⟨List.forall_mem_nil _, rfl⟩)

theorem signedNumeral_lenient_iff (plain : '_' ∉ cs) {z : Int} :
    SignedNumeral Lenient cs z ↔ SignedNumeral Proper cs z ∨
      (cs = "".toList ∨ cs = "0x".toList ∨ cs = "-".toList ∨ cs = "-0x".toList) ∧ z = 0 := by
  constructor
  · rintro (written | @⟨rest, _, written⟩)
    · rcases (numeral_lenient_iff plain).mp written with proper | ⟨rfl | rfl, rfl⟩
      · exact .inl (.plain proper)
      · exact .inr ⟨.inl rfl, rfl⟩
      · exact .inr ⟨.inr (.inl rfl), rfl⟩
    · have plain : '_' ∉ rest := fun here => plain (List.mem_cons_of_mem _ here)
      rcases (numeral_lenient_iff plain).mp written with proper | ⟨rfl | rfl, rfl⟩
      · exact .inl (.minus proper)
      · exact .inr ⟨.inr (.inr (.inl rfl)), rfl⟩
      · exact .inr ⟨.inr (.inr (.inr rfl)), rfl⟩
  · rintro ((proper | @⟨rest, _, proper⟩) | ⟨rfl | rfl | rfl | rfl, rfl⟩)
    · exact .plain ((numeral_lenient_iff plain).mpr (.inl proper))
    · have plain : '_' ∉ rest := fun here => plain (List.mem_cons_of_mem _ here)
      exact .minus ((numeral_lenient_iff plain).mpr (.inl proper))
    · exact .plain ((numeral_lenient_iff plain).mpr (.inr ⟨.inl rfl, rfl⟩))
    · exact .plain ((numeral_lenient_iff plain).mpr (.inr ⟨.inr rfl, rfl⟩))
    · exact .minus ((numeral_lenient_iff List.not_mem_nil).mpr (.inr ⟨.inl rfl, rfl⟩))
    · exact .minus ((numeral_lenient_iff (by decide)).mpr (.inr ⟨.inr rfl, rfl⟩))

end

/-- A domain that is nothing but a chain id. -/
theorem chainId_ofText (s : String) (d : Domain) :
    Domain.ofText (Json.object [("chainId", .string s)]).render = .ok d ↔
      ∃ n : UInt64, Unsigned (.string s) n.toNat ∧ d = { Domain.empty with chainId := some n } := by
  have exact : (Json.object [("chainId", .string s)]).Integral := by
    refine ⟨nofun, ?_⟩
    rintro value (_ | ⟨_, ⟨⟩⟩)
    exact integral_string s
  have bare : Domain.shape.decoder Json.nestingLimit
      (.object [(some (Json.body "chainId"), .null)]) = .ok .empty := by
    rw [Shape.decoder, if_pos (by decide), Shape.readMembers_known (Json.text?_body _) rfl]
    rfl
  have given : (Node.string (Json.body s)).toJson? (Json.nestingLimit - 1) =
      some (.string s) := by
    rw [Node.toJson?, Json.text?_body, Option.map_some]
  have there : Json.string s ≠ .null := by
    intro same
    cases same
  have decoded : Json.decode Domain.shape.decoder
      (Bytes.ofString (Json.object [("chainId", .string s)]).render) =
        (chainIdDecoder (Json.nestingLimit - 1) (.string (Json.body s))).map
          fun id => { Domain.empty with chainId := id } := by
    rw [Json.render, Bytes.ofString_ofList, ← Json.bytes, Json.decode_bytes_eq _ exact]
    simp only [Json.toNode, Json.memberNodes]
    exact decoder_of_place (.member [] [] (Json.text?_body "chainId")) bare _
  rw [Domain.ofText, decoded]
  constructor
  · intro read
    split at read
    · rename_i made
      cases read
      obtain ⟨id, found, rfl⟩ := map_eq_ok made
      obtain ⟨n, taken, rfl⟩ := (chainIdDecoder_ok_iff given there).mp found
      exact ⟨n, taken, rfl⟩
    · cases read
  · rintro ⟨n, taken, rfl⟩
    rw [(chainIdDecoder_ok_iff given there).mpr ⟨n, taken, rfl⟩]
    rfl

theorem unsigned_string {s : String} {z : Int} :
    Unsigned (.string s) z ↔ Numeral Lenient s.toList z := by
  rw [← grouped_eq_lenient]
  exact ⟨fun | .text written => written, .text⟩

theorem signed_string {s : String} {z : Int} :
    Signed (.string s) z ↔ SignedNumeral Lenient s.toList z := by
  rw [← grouped_eq_lenient]
  exact ⟨fun | .text written => written, .text⟩

/-- The texts that a field or a chain id takes for integers, and the integers that they are taken
for.  Without underscores they are the numerals, and up to four texts that have no digit. -/
theorem integers_of_texts {bits : Nat} (width : ByteWidth bits) (td : TypedData) (s : String) :
    (td.types.contains ("uint" ++ toString bits) = false → ∀ w : Word,
      td.encodeField (.string s) ("uint" ++ toString bits) = .ok w ↔
        ∃ z, Numeral Lenient s.toList z ∧ 0 ≤ z ∧ z < 2 ^ bits ∧
          (w.toNat : Int) = z % 2 ^ 256) ∧
    (td.types.contains ("int" ++ toString bits) = false → ∀ w : Word,
      td.encodeField (.string s) ("int" ++ toString bits) = .ok w ↔
        ∃ z, SignedNumeral Lenient s.toList z ∧ -2 ^ (bits - 1) ≤ z ∧ z < 2 ^ (bits - 1) ∧
          (w.toNat : Int) = z % 2 ^ 256) ∧
    (∀ d, Domain.ofText (Json.object [("chainId", .string s)]).render = .ok d ↔
      ∃ n : UInt64, Numeral Lenient s.toList n.toNat ∧
        d = { Domain.empty with chainId := some n }) ∧
    ('_' ∉ s.toList → ∀ z,
      (Numeral Lenient s.toList z ↔
        Numeral Proper s.toList z ∨ (s = "" ∨ s = "0x") ∧ z = 0) ∧
      (SignedNumeral Lenient s.toList z ↔
        SignedNumeral Proper s.toList z ∨ (s = "" ∨ s = "0x" ∨ s = "-" ∨ s = "-0x") ∧ z = 0)) := by
  refine ⟨?_, ?_, ?_, ?_⟩
  · intro unknown w
    simp only [encodeField_uint_ok_iff width unknown, unsigned_string, eq_wordOfInt_iff]
  · intro unknown w
    simp only [encodeField_int_ok_iff width unknown, signed_string, eq_wordOfInt_iff]
  · intro d
    simp only [chainId_ofText, unsigned_string]
  · intro plain z
    simp only [← String.toList_inj]
    exact ⟨numeral_lenient_iff plain, signedNumeral_lenient_iff plain⟩

/-- A minus sign is nothing for fields without a sign, and zero for those with one. -/
theorem integers_of_texts_minus :
    let td : TypedData := ⟨.empty, .empty, "Tx", .null⟩
    (∀ w, td.encodeField (.string "-") ("uint" ++ toString 8) ≠ .ok w) ∧
    td.encodeField (.string "-") ("int" ++ toString 8) = .ok (.ofNat 0) ∧
    ∀ d, Domain.ofText (Json.object [("chainId", .string "-")]).render ≠ .ok d := by
  intro td
  have width : ByteWidth 8 := ⟨by decide, by decide, by decide⟩
  obtain ⟨uint, int, chain, texts⟩ := integers_of_texts width td "-"
  obtain ⟨plain, sign⟩ := texts (by decide) 0
  have zero : SignedNumeral Lenient "-".toList 0 := sign.mpr (.inr ⟨.inr (.inr (.inl rfl)), rfl⟩)
  have none (z : Int) : ¬ Numeral Lenient "-".toList z := by
    rw [← grouped_eq_lenient]
    exact fun written => written.notMem_minus (by decide)
  refine ⟨?_, ?_, ?_⟩
  · intro w encoded
    obtain ⟨z, written, -⟩ := (uint rfl w).mp encoded
    exact none z written
  · exact (int rfl _).mpr ⟨0, zero, by decide, by decide, by decide +kernel⟩
  · intro d read
    obtain ⟨n, written, -⟩ := (chain d).mp read
    exact none _ written

theorem Numeral.some_digit {cs : List Char} {z : Int} (written : Numeral Proper cs z) :
    cs ≠ [] ∧ cs ≠ ['0', 'x'] := by
  cases written with
  | decimal proper =>
      obtain ⟨some_char, written⟩ := proper
      have letter : 'x' ∉ cs := written.notMem (by decide) rfl
      refine ⟨some_char, ?_⟩
      rintro rfl
      exact letter (by decide)
  | hexadecimal proper =>
      refine ⟨List.cons_ne_nil _ _, fun same => proper.1 ?_⟩
      exact (List.cons.inj (List.cons.inj same).2).2

theorem Numeral.notMem_of_letter {cs : List Char} {z : Int} (written : Numeral Proper cs z)
    {c : Char} (letter : Text.digit? c = none) (other : c ∉ ['0', 'x']) : c ∉ cs :=
  written.notMem other fun _ _ _ most proper => proper.2.notMem most letter

/-- Texts that are no numerals are taken for integers, the empty one among them. -/
theorem malformed_numerals_are_accepted :
    let td : TypedData := ⟨.empty, .empty, "Tx", .null⟩
    (∀ s ∈ ["", "0x", "1_000"], (∃ w, td.encodeField (.string s) "uint256" = .ok w) ∧
      (∃ d, Domain.ofText (Json.object [("chainId", .string s)]).render = .ok d) ∧
      ∀ z, ¬ Numeral Proper s.toList z) ∧
    (∃ w, td.encodeField (.string "-") "int256" = .ok w) ∧
      ∀ z, ¬ SignedNumeral Proper "-".toList z := by
  intro td
  refine ⟨?_, exists_of_isOk (by decide +kernel), ?_⟩
  · intro s listed
    simp only [List.mem_cons, List.not_mem_nil, or_false] at listed
    rcases listed with rfl | rfl | rfl
    all_goals
      refine ⟨exists_of_isOk (by decide +kernel), exists_of_isOk (by decide +kernel), ?_⟩
      intro z written
      have plain := written.notMem_of_letter (c := '_') rfl (by decide)
      have some_digit := written.some_digit
      revert plain some_digit
      decide
  · intro z written
    generalize sign : "-".toList = cs at written
    cases written with
    | plain written =>
        have plain := written.notMem_of_letter (c := '-') rfl (by decide)
        rw [← sign] at plain
        exact plain (by decide)
    | minus written => exact written.some_digit.1 (List.cons.inj sign).2.symm

end HardwareSigner.TypedData
