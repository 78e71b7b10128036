import HardwareSigner.Bytes
import Mathlib.Tactic.SplitIfs
/-! Texts as UTF-8: the bytes of their characters one after another, back, and in order. -/

namespace HardwareSigner

namespace Bytes

/-- The UTF-8 bytes of characters. -/
def ofChars (cs : List Char) : Bytes :=
  cs.flatMap String.utf8EncodeChar

theorem ofString_ofList (cs : List Char) : ofString (String.ofList cs) = ofChars cs := by
  rw [ofString, String.toUTF8, String.toByteArray_ofList, List.utf8Encode, List.data_toByteArray]
  rfl

theorem ofString_eq (s : String) : ofString s = ofChars s.toList := by
  rw [← ofString_ofList, String.ofList_toList]

theorem toString?_ofString (s : String) : toString? (ofString s) = some s := by
  have same : (⟨(ofString s).toArray⟩ : ByteArray) = s.toByteArray := rfl
  rw [toString?, same, String.fromUTF8?, dif_pos s.isValidUTF8]
  rfl

/-- Bytes are those of the text that they are read as. -/
theorem toString?_eq_some_iff {bs : Bytes} {s : String} :
    toString? bs = some s ↔ bs = ofString s := by
  constructor
  · intro read
    rw [toString?, String.fromUTF8?] at read
    split at read
    · cases read
      rfl
    · cases read
  · rintro rfl
    exact toString?_ofString s

theorem ofChars_append (cs cs' : List Char) : ofChars (cs ++ cs') = ofChars cs ++ ofChars cs' :=
  List.flatMap_append

theorem ofChars_cons (c : Char) (cs : List Char) :
    ofChars (c :: cs) = String.utf8EncodeChar c ++ ofChars cs :=
  List.flatMap_cons

theorem utf8EncodeChar_ascii {c : Char} (ascii : c.toNat < 128) :
    String.utf8EncodeChar c = [UInt8.ofNat c.toNat] := by
  rw [String.utf8EncodeChar]
  exact if_pos (Nat.le_of_lt_succ ascii)

theorem ofChars_ascii {cs : List Char} (ascii : ∀ c ∈ cs, c.toNat < 128) :
    ofChars cs = cs.map fun c => UInt8.ofNat c.toNat := by
  induction cs with
  | nil => rfl
  | cons c cs ih =>
      have first := ascii c List.mem_cons_self
      have rest := ih fun c' later => ascii c' (List.mem_cons_of_mem _ later)
      rw [ofChars_cons, utf8EncodeChar_ascii first, rest]
      rfl

theorem map_ofNat_ofChars {cs : List Char} (ascii : ∀ c ∈ cs, c.toNat < 128) :
    (ofChars cs).map (fun b => Char.ofNat b.toNat) = cs := by
  rw [ofChars_ascii ascii, List.map_map]
  refine (List.map_congr_left fun c held => ?_).trans (List.map_id cs)
  have small := ascii c held
  rw [Function.comp_apply, UInt8.toNat_ofNat', Nat.mod_eq_of_lt (by omega), Char.ofNat_toNat]
  rfl

theorem utf8ByteSize_of_ascii {s : String} (ascii : ∀ c ∈ s.toList, c.toNat < 128) :
    s.utf8ByteSize = s.toList.length := by
  have bytes := congrArg List.length (ofString_eq s)
  rw [ofChars_ascii ascii, List.length_map] at bytes
  exact bytes

/-- Outside of ASCII every byte has its highest bit set. -/
theorem high_of_mem_utf8EncodeChar {c : Char} (wide : 128 ≤ c.toNat) {b : UInt8}
    (held : b ∈ String.utf8EncodeChar c) : 128 ≤ b.toNat := by
  have notAscii : ¬c.val.toNat ≤ 127 := by
    have same : c.val.toNat = c.toNat := rfl
    omega
  simp only [String.utf8EncodeChar, if_neg notAscii] at held
  split at held
  · simp only [List.mem_cons, List.not_mem_nil, or_false] at held
    rcases held with rfl | rfl <;> rw [UInt8.toNat_ofNat'] <;> omega
  · split at held
    · simp only [List.mem_cons, List.not_mem_nil, or_false] at held
      rcases held with rfl | rfl | rfl <;> rw [UInt8.toNat_ofNat'] <;> omega
    · simp only [List.mem_cons, List.not_mem_nil, or_false] at held
      rcases held with rfl | rfl | rfl | rfl <;> rw [UInt8.toNat_ofNat'] <;> omega

theorem ascii_of_ofChars {cs : List Char} (low : ∀ b ∈ ofChars cs, b.toNat < 128) :
    ∀ c ∈ cs, c.toNat < 128 := by
  intro c held
  refine Nat.lt_of_not_le fun wide => ?_
  obtain ⟨b, bs, code⟩ := List.exists_cons_of_ne_nil (@String.utf8EncodeChar_ne_nil c)
  have first : b ∈ String.utf8EncodeChar c := by
    rw [code]
    exact List.mem_cons_self
  have high := high_of_mem_utf8EncodeChar wide first
  exact Nat.not_lt.mpr high (low b (List.mem_flatMap.mpr ⟨c, held, first⟩))

/-- Whatever follows, a smaller character comes first in UTF-8 too. -/
theorem utf8EncodeChar_lt {c d : Char} (smaller : c < d) (bs bs' : Bytes) :
    String.utf8EncodeChar c ++ bs < String.utf8EncodeChar d ++ bs' := by
  have less : c.val.toNat < d.val.toNat := smaller
  have bound : d.val.toNat < 1114112 := by
    rcases d.valid with low | high
    · exact Nat.lt_trans low (by decide)
    · exact high.2
  have nested (n : Nat) : n / 64 / 64 = n / 4096 ∧ n / 4096 / 64 = n / 262144 := by omega
  have digits := nested c.val.toNat
  have digits' := nested d.val.toNat
  -- A longer code starts with a greater byte; of codes as long as each other, the first bytes that
  -- differ are digits of the two characters.
  simp only [String.utf8EncodeChar]
  split_ifs <;>
    simp only [List.cons_append, List.nil_append, List.cons_lt_cons_iff, UInt8.lt_iff_toNat_lt,
      ← UInt8.toNat_inj, UInt8.toNat_ofNat'] <;>
    simp (disch := omega) only [Nat.mod_eq_of_lt] <;>
    omega

theorem ofChars_lt {cs ds : List Char} (smaller : cs < ds) : ofChars cs < ofChars ds := by
  induction smaller with
  | @nil d ds =>
      obtain ⟨b, bs, code⟩ := List.exists_cons_of_ne_nil (@String.utf8EncodeChar_ne_nil d)
      rw [ofChars_cons, code]
      exact List.nil_lt_cons _ _
  | rel less =>
      rw [ofChars_cons, ofChars_cons]
      exact utf8EncodeChar_lt less _ _
  | cons _ ih =>
      rw [ofChars_cons, ofChars_cons]
      exact List.append_left_lt ih

/-- The order of texts is the order of their bytes. -/
theorem ofString_lt {s t : String} (smaller : s < t) : ofString s < ofString t := by
  rw [ofString_eq, ofString_eq]
  exact ofChars_lt smaller

end Bytes

end HardwareSigner
