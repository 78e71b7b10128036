import HardwareSigner.Json.Reader
import HardwareSigner.Proofs.Text.Utf8
/-! What is written between quotes is read back, character by character. -/

namespace HardwareSigner.Json

/-- The inside of a quoted text. -/
def body (s : String) : Bytes :=
  Bytes.ofChars (s.toList.flatMap escape)

/-- Bytes between quotes that are read as a whole and stand for others, whatever follows them. -/
structure Piece (piece meaning : Bytes) : Prop where
  read : ∀ tail, readBody? (piece ++ tail) = (readBody? tail).map fun r => (piece ++ r.1, r.2)
  unescape : ∀ tail, unescape? (piece ++ tail) = (unescape? tail).map (meaning ++ ·)

namespace Piece

theorem nil : Piece [] [] := by
  constructor
  · intro tail
    exact (Option.map_id' (x := readBody? tail)).symm
  · intro tail
    exact (Option.map_id' (x := unescape? tail)).symm

theorem append {p m p' m' : Bytes} (first : Piece p m) (second : Piece p' m') :
    Piece (p ++ p') (m ++ m') := by
  constructor
  · intro tail
    rw [List.append_assoc, first.read, second.read, Option.map_map]
    simp only [Function.comp_def, List.append_assoc]
  · intro tail
    rw [List.append_assoc, first.unescape, second.unescape, Option.map_map]
    simp only [Function.comp_def, List.append_assoc]

theorem byte {b : UInt8} (noControl : ¬b < 0x20) (noQuote : b ≠ 0x22) (noMark : b ≠ 0x5C) :
    Piece [b] [b] := by
  constructor
  · intro tail
    simp [readBody?, noControl, noMark]
  · intro tail
    simp [unescape?, noMark]

theorem bytes {bs : Bytes} (plain : ∀ b ∈ bs, ¬b < 0x20 ∧ b ≠ 0x22 ∧ b ≠ 0x5C) : Piece bs bs := by
  induction bs with
  | nil => exact nil
  | cons b bs ih =>
      obtain ⟨noControl, noQuote, noMark⟩ := plain b List.mem_cons_self
      have rest := ih fun b' later => plain b' (List.mem_cons_of_mem _ later)
      exact (byte noControl noQuote noMark).append rest

theorem mark {mark b : UInt8} (noUnit : mark ≠ 0x75) (known : escaped? mark = some b) :
    Piece [0x5C, mark] [b] := by
  constructor
  · intro tail
    simp [readBody?, noUnit, known]
  · intro tail
    simp [unescape?, noUnit, known]

theorem unit {a b c d : UInt8} {n : Nat} (known : codeUnit? a b c d = some n)
    (noLow : isLow n = false) (noHigh : isHigh n = false) :
    Piece [0x5C, 0x75, a, b, c, d] (String.utf8EncodeChar (Char.ofNat n)) := by
  constructor
  · intro tail
    simp [readBody?, known]
  · intro tail
    simp [unescape?, known, noLow, noHigh]

end Piece

theorem codeUnit?_control : ∀ n < 32,
    codeUnit? 0x30 0x30 (UInt8.ofNat (Nat.digitChar (n / 16)).toNat)
      (UInt8.ofNat (Nat.digitChar (n % 16)).toNat) = some n := by
  decide

theorem piece_control {c : Char} (control : c.toNat < 32) :
    Piece (Bytes.ofChars ['\\', 'u', '0', '0', Nat.digitChar (c.toNat / 16),
      Nat.digitChar (c.toNat % 16)]) (String.utf8EncodeChar c) := by
  have ascii : ∀ n < 16, (Nat.digitChar n).toNat < 128 := by decide
  rw [Bytes.ofChars_ascii]
  · have piece := Piece.unit (codeUnit?_control c.toNat control)
      (by simp [isLow]; omega) (by simp [isHigh]; omega)
    rw [Char.ofNat_toNat] at piece
    exact piece
  · intro c' held
    simp only [List.mem_cons, List.not_mem_nil, or_false] at held
    rcases held with rfl | rfl | rfl | rfl | rfl | rfl
    · decide
    · decide
    · decide
    · decide
    · exact ascii _ (by omega)
    · exact ascii _ (by omega)

theorem piece_char {c : Char} (noControl : ¬c.toNat < 32) (noQuote : c ≠ '"') (noMark : c ≠ '\\') :
    Piece (String.utf8EncodeChar c) (String.utf8EncodeChar c) := by
  refine Piece.bytes fun b held => ?_
  have differs : ∀ {c' : Char}, c ≠ c' → c.toNat ≠ c'.toNat := fun other same =>
    other (Char.toNat_inj.mp same)
  by_cases ascii : c.toNat < 128
  · rw [Bytes.utf8EncodeChar_ascii ascii, List.mem_singleton] at held
    have value : b.toNat = c.toNat := by
      rw [held, UInt8.toNat_ofNat', Nat.mod_eq_of_lt (by omega)]
    refine ⟨?_, ?_, ?_⟩
    · rw [UInt8.lt_iff_toNat_lt, value]
      exact noControl
    · rintro rfl
      exact differs noQuote value.symm
    · rintro rfl
      exact differs noMark value.symm
  · have high := Bytes.high_of_mem_utf8EncodeChar (Nat.le_of_not_lt ascii) held
    refine ⟨?_, ?_, ?_⟩
    · rw [UInt8.lt_iff_toNat_lt]
      exact Nat.not_lt.mpr (Nat.le_trans (by decide) high)
    · rintro rfl
      exact absurd high (by decide)
    · rintro rfl
      exact absurd high (by decide)

theorem piece_escape (c : Char) : Piece (Bytes.ofChars (escape c)) (String.utf8EncodeChar c) := by
  have named : ∀ {mark : Char} {b : UInt8}, mark.toNat < 128 → UInt8.ofNat mark.toNat ≠ 0x75 →
      escaped? (UInt8.ofNat mark.toNat) = some b → String.utf8EncodeChar c = [b] →
      Piece (Bytes.ofChars ['\\', mark]) (String.utf8EncodeChar c) := by
    intro mark b ascii noUnit known meaning
    rw [meaning, Bytes.ofChars_cons, Bytes.ofChars_cons, Bytes.utf8EncodeChar_ascii ascii]
    exact Piece.mark noUnit known
  have coded : ∀ n, c.toNat = n → n < 128 → String.utf8EncodeChar c = [UInt8.ofNat n] := by
    rintro n rfl ascii
    exact Bytes.utf8EncodeChar_ascii ascii
  rw [escape]
  split
  · exact named (by decide) (by decide) rfl (coded 0x22 (by subst c; rfl) (by decide))
  split
  · exact named (by decide) (by decide) rfl (coded 0x5C (by subst c; rfl) (by decide))
  split
  · exact named (by decide) (by decide) rfl (coded 8 ‹_› (by decide))
  split
  · exact named (by decide) (by decide) rfl (coded 12 ‹_› (by decide))
  split
  · exact named (by decide) (by decide) rfl (coded 10 (by subst c; rfl) (by decide))
  split
  · exact named (by decide) (by decide) rfl (coded 13 (by subst c; rfl) (by decide))
  split
  · exact named (by decide) (by decide) rfl (coded 9 (by subst c; rfl) (by decide))
  split
  · exact piece_control ‹_›
  · rw [Bytes.ofChars_cons, Bytes.ofChars, List.flatMap_nil, List.append_nil]
    exact piece_char ‹_› ‹_› ‹_›

theorem piece_text (cs : List Char) :
    Piece (Bytes.ofChars (cs.flatMap escape)) (Bytes.ofChars cs) := by
  induction cs with
  | nil => exact Piece.nil
  | cons c cs ih =>
      rw [List.flatMap_cons, Bytes.ofChars_append, Bytes.ofChars_cons]
      exact (piece_escape c).append ih

theorem readBody?_body (s : String) (rest : Bytes) :
    readBody? (body s ++ 0x22 :: rest) = some (body s, rest) := by
  rw [body, (piece_text s.toList).read, readBody?, Option.map_some, List.append_nil]

theorem text?_body (s : String) : text? (body s) = some s := by
  have meant := (piece_text s.toList).unescape []
  rw [List.append_nil, unescape?, Option.map_some, List.append_nil, ← Bytes.ofString_eq] at meant
  rw [text?, body, meant]
  exact Bytes.toString?_ofString s

end HardwareSigner.Json
