import HardwareSigner.Hex
import HardwareSigner.Proofs.Forall2
import HardwareSigner.Proofs.Text.LetterCase
import HardwareSigner.Proofs.Text.Numerals
import HardwareSigner.Proofs.Text.Utf8
/-!
Which texts are read as byte strings, and as which: two digits for every byte, in letters of either
case, behind a mark or not.
-/

namespace HardwareSigner.Hex

open Text (IsDigit)

theorem lowerDigit_eq : ∀ d < 16, lowerDigit d = d.digitChar := by decide

theorem not_isUpper_lowerDigit : ∀ d < 16, (lowerDigit d).isUpper = false := by decide

theorem toLower_upperDigit : ∀ d < 16, (upperDigit d).toLower = lowerDigit d := by decide

theorem upperDigit_eq : ∀ d < 16, upperDigit d = d.digitChar.toUpper := by decide

theorem toNat_digitChar_lt :
    ∀ d < 16, d.digitChar.toNat < 128 ∧ d.digitChar.toUpper.toNat < 128 := by
  decide

theorem isDigit_iff_toLower {c : Char} {d : Nat} (small : d < 16) :
    IsDigit 16 c d ↔ c.toLower = lowerDigit d := by
  rw [Text.toLower_eq_iff (not_isUpper_lowerDigit d small), lowerDigit_eq d small, IsDigit]
  exact and_iff_right small

theorem ascii_of_isDigit {c : Char} {d : Nat} (digit : IsDigit 16 c d) : c.toNat < 128 := by
  obtain ⟨small, rfl | rfl⟩ := digit
  · exact (toNat_digitChar_lt d small).1
  · exact (toNat_digitChar_lt d small).2

/-- The values of the digits of the bytes, two for every byte. -/
def halves (bs : Bytes) : List Nat :=
  bs.flatMap fun b => [b.toNat / 16, b.toNat % 16]

theorem halves_cons (b : UInt8) (bs : Bytes) :
    halves (b :: bs) = b.toNat / 16 :: b.toNat % 16 :: halves bs := by
  rw [halves, List.flatMap_cons]
  rfl

theorem halves_pair {high low : Nat} (first : high < 16) (second : low < 16) (bs : Bytes) :
    halves (UInt8.ofNat (16 * high + low) :: bs) = high :: low :: halves bs := by
  have byte : (UInt8.ofNat (16 * high + low)).toNat = 16 * high + low := by
    rw [UInt8.toNat_ofNat']
    omega
  have parts : (16 * high + low) / 16 = high ∧ (16 * high + low) % 16 = low := by omega
  rw [halves_cons, byte, parts.1, parts.2]

theorem length_halves (bs : Bytes) : (halves bs).length = 2 * bs.length := by
  induction bs with
  | nil => rfl
  | cons b bs ih =>
      rw [halves_cons, List.length_cons, List.length_cons, List.length_cons, ih]
      omega

theorem halves_lt {bs : Bytes} {d : Nat} (held : d ∈ halves bs) : d < 16 := by
  obtain ⟨b, -, half⟩ := List.mem_flatMap.mp held
  have byte : b.toNat < 256 := b.toNat_lt
  simp only [List.mem_cons, List.not_mem_nil, or_false] at half
  omega

/-- Any values below sixteen, two and two, are those of bytes. -/
theorem exists_halves {n : Nat} {ds : List Nat} (size : ds.length = 2 * n)
    (small : ∀ d ∈ ds, d < 16) : ∃ bs : Bytes, bs.length = n ∧ halves bs = ds := by
  induction n generalizing ds with
  | zero => exact ⟨[], rfl, (List.length_eq_zero_iff.mp size).symm⟩
  | succ n ih =>
      obtain ⟨high, ds, rfl⟩ := List.exists_cons_of_length_eq_add_one size
      obtain ⟨low, ds, rfl⟩ := List.exists_cons_of_length_eq_add_one (Nat.succ.inj size)
      simp only [List.forall_mem_cons] at small
      obtain ⟨first, second, others⟩ := small
      obtain ⟨bs, count, rest⟩ := ih (Nat.succ.inj (Nat.succ.inj size)) others
      refine ⟨UInt8.ofNat (16 * high + low) :: bs, congrArg Nat.succ count, ?_⟩
      rw [halves_pair first second, rest]

theorem digits_eq (digit : Nat → Char) (bs : Bytes) : digits digit bs = (halves bs).map digit := by
  rw [digits, halves, List.map_flatMap]
  rfl

theorem length_digits (digit : Nat → Char) (bs : Bytes) :
    (digits digit bs).length = 2 * bs.length := by
  rw [digits_eq, List.length_map, length_halves]

/-- Bytes as an operator reads them: a mark, and two digits for every byte with capital letters. -/
def inCapitals (bs : Bytes) : String :=
  "0x" ++ String.ofList
    (bs.flatMap fun b => [(b.toNat / 16).digitChar.toUpper, (b.toNat % 16).digitChar.toUpper])

theorem inCapitals_eq (bs : Bytes) : inCapitals bs = "0x" ++ encodeUpper bs := by
  rw [inCapitals, encodeUpper, digits]
  congr 2
  refine List.flatMap_congr fun b _ => ?_
  have byte : b.toNat < 256 := b.toNat_lt
  rw [upperDigit_eq _ (by omega), upperDigit_eq _ (by omega)]

/-- The characters are the digits of the bytes, in letters of either case. -/
def Says (cs : List Char) (bs : Bytes) : Prop :=
  cs.map Char.toLower = digits lowerDigit bs

theorem says_lower (bs : Bytes) : Says (digits lowerDigit bs) bs := by
  rw [Says, digits_eq, List.map_map]
  refine List.map_congr_left fun d held => ?_
  exact Text.toLower_eq_self_iff.mpr (not_isUpper_lowerDigit d (halves_lt held))

theorem says_upper (bs : Bytes) : Says (digits upperDigit bs) bs := by
  rw [Says, digits_eq, digits_eq, List.map_map]
  exact List.map_congr_left fun d held => toLower_upperDigit d (halves_lt held)

theorem Says.length {cs : List Char} {bs : Bytes} (said : Says cs bs) :
    cs.length = 2 * bs.length := by
  have size := congrArg List.length said
  rw [List.length_map, length_digits] at size
  exact size

theorem forall₂_isDigit_iff {cs : List Char} {ds : List Nat} (small : ∀ d ∈ ds, d < 16) :
    List.Forall₂ (IsDigit 16) cs ds ↔ cs.map Char.toLower = ds.map lowerDigit := by
  induction ds generalizing cs with
  | nil => rw [List.forall₂_nil_right_iff, List.map_nil, List.map_eq_nil_iff]
  | cons d ds ih =>
      obtain ⟨first, others⟩ := List.forall_mem_cons.mp small
      rw [List.forall₂_cons_right_iff, List.map_cons, List.map_eq_cons_iff]
      simp only [isDigit_iff_toLower first, ih others]
      constructor
      · rintro ⟨c, rest, digit, same, rfl⟩
        exact ⟨c, rest, rfl, digit, same⟩
      · rintro ⟨c, rest, rfl, digit, same⟩
        exact ⟨c, rest, digit, same, rfl⟩

theorem says_iff {cs : List Char} {bs : Bytes} :
    Says cs bs ↔ List.Forall₂ (IsDigit 16) cs (halves bs) := by
  rw [forall₂_isDigit_iff fun d => halves_lt, Says, digits_eq]

/-- Texts with an even number of digits, and no others, are the digits of some bytes. -/
theorem exists_says_iff {n : Nat} {cs : List Char} :
    (∃ bs : Bytes, bs.length = n ∧ Says cs bs) ↔
      cs.length = 2 * n ∧ ∀ c ∈ cs, ∃ d, IsDigit 16 c d := by
  constructor
  · rintro ⟨bs, rfl, said⟩
    refine ⟨said.length, fun c held => ?_⟩
    obtain ⟨d, -, digit⟩ := exists_of_forall₂ (says_iff.mp said) held
    exact ⟨d, digit⟩
  · rintro ⟨size, each⟩
    obtain ⟨ds, read⟩ := exists_forall₂ each
    have small : ∀ d ∈ ds, d < 16 := by
      intro d held
      obtain ⟨c, -, digit⟩ := exists_of_forall₂ read.flip held
      exact digit.1
    obtain ⟨bs, count, rfl⟩ := exists_halves (read.length_eq.symm.trans size) small
    exact ⟨bs, count, says_iff.mpr read⟩

theorem digit?_lt {b : UInt8} {d : Nat} (read : digit? b = some d) : d < 16 :=
  (Text.digit?_eq_some_iff.mp read).1

theorem decodeFrom_of_digits {text bs : Bytes}
    (read : List.Forall₂ (fun b d => digit? b = some d) text (halves bs)) (position : Nat) :
    decodeFrom position text = .ok bs := by
  induction bs generalizing text position with
  | nil =>
      cases read
      rfl
  | cons b bs ih =>
      have byte : UInt8.ofNat (16 * (b.toNat / 16) + b.toNat % 16) = b := by
        rw [Nat.div_add_mod, UInt8.ofNat_toNat]
      rw [halves_cons] at read
      cases read with
      | cons first others =>
          cases others with
          | cons second rest =>
              rw [decodeFrom]
              simp only [first, second, ih rest, byte]

/-- The position tells where a fault is, and has no part in what is read. -/
theorem digits_of_decodeFrom {position : Nat} {text bs : Bytes}
    (read : decodeFrom position text = .ok bs) :
    List.Forall₂ (fun b d => digit? b = some d) text (halves bs) := by
  fun_induction decodeFrom position text generalizing bs with
  | case1 =>
      cases read
      exact .nil
  | case2 | case3 | case4 | case6 => cases read
  | case5 position a b rest high low second first bs found ih =>
      cases read
      rw [halves_pair (digit?_lt first) (digit?_lt second)]
      exact .cons first (.cons second (ih found))

theorem decode_ok_iff {text bs : Bytes} :
    decode text = .ok bs ↔ List.Forall₂ (fun b d => digit? b = some d) text (halves bs) := by
  rw [decode]
  constructor
  · intro read
    split at read
    · cases read
    · exact digits_of_decodeFrom read
  · intro read
    have even : ¬text.length % 2 = 1 := by
      rw [read.length_eq, length_halves]
      omega
    rw [if_neg even]
    exact decodeFrom_of_digits read 0

theorem ascii_of_digit? {b : UInt8} {d : Nat} (read : digit? b = some d) : b.toNat < 128 := by
  have small := ascii_of_isDigit (Text.digit?_eq_some_iff.mp read)
  have byte : b.toNat < 256 := b.toNat_lt
  have valid : b.toNat.isValidChar := .inl (by omega)
  rw [Char.ofNat, dif_pos valid] at small
  exact small

/-- A byte outside of ASCII is no digit, so that bytes that are digits are characters. -/
theorem digits_ofChars_iff {cs : List Char} {ds : List Nat} :
    List.Forall₂ (fun b d => digit? b = some d) (Bytes.ofChars cs) ds ↔
      List.Forall₂ (IsDigit 16) cs ds := by
  have own (ascii : ∀ c ∈ cs, c.toNat < 128) :
      List.Forall₂ (fun b d => digit? b = some d) (Bytes.ofChars cs) ds ↔
        List.Forall₂ (IsDigit 16) cs ds := by
    have chars := List.forall₂_map_left_iff (R := IsDigit 16) (l := Bytes.ofChars cs) (u := ds)
      (f := fun b => Char.ofNat b.toNat)
    rw [Bytes.map_ofNat_ofChars ascii] at chars
    simp only [chars, digit?, Text.digit?_eq_some_iff]
  constructor
  · intro read
    refine (own (Bytes.ascii_of_ofChars fun b held => ?_)).mp read
    obtain ⟨d, -, digit⟩ := exists_of_forall₂ read held
    exact ascii_of_digit? digit
  · intro read
    refine (own fun c held => ?_).mpr read
    obtain ⟨d, -, digit⟩ := exists_of_forall₂ read held
    exact ascii_of_isDigit digit

theorem decode_ofList_iff {cs : List Char} {bs : Bytes} :
    decode (Bytes.ofString (String.ofList cs)) = .ok bs ↔ Says cs bs := by
  rw [Bytes.ofString_ofList, decode_ok_iff, digits_ofChars_iff, says_iff]

/-- A text that consists of the characters, or of a mark and them. -/
inductive Marked (cs : List Char) : (text : List Char) → Prop where
  | plain : Marked cs cs
  | marked : Marked cs ('0' :: 'x' :: cs)

theorem toList_mark (cs : List Char) : ("0x" ++ String.ofList cs).toList = '0' :: 'x' :: cs := by
  have mark : "0x".toList = ['0', 'x'] := rfl
  rw [String.toList_append, mark, String.toList_ofList, List.cons_append, List.singleton_append]

/-- No mark consists of digits, so that a text with digits behind a mark is taken for no other. -/
theorem Says.stripMark {cs text : List Char} {bs : Bytes} (said : Says cs bs)
    (front : Marked cs text) : stripMark text = cs := by
  cases front with
  | marked => rfl
  | plain =>
      unfold Hex.stripMark
      split
      · rename_i rest
        have held : 'x' ∈ '0' :: 'x' :: rest := List.mem_cons_of_mem _ List.mem_cons_self
        obtain ⟨d, -, digit⟩ := exists_of_forall₂ (says_iff.mp said) held
        cases Text.digit?_eq_some_iff.mpr digit
      · rfl

theorem marked_stripMark (text : List Char) : Marked (stripMark text) text := by
  unfold stripMark
  split
  · exact .marked
  · exact .plain

/-- The texts that are read as bytes are their digits, marked or not. -/
theorem decodeText_ok_iff {text : String} {bs : Bytes} :
    decodeText text = .ok bs ↔ ∃ cs, Marked cs text.toList ∧ Says cs bs := by
  rw [decodeText, decode_ofList_iff]
  constructor
  · intro said
    exact ⟨_, marked_stripMark text.toList, said⟩
  · rintro ⟨cs, front, said⟩
    rw [said.stripMark front]
    exact said

end HardwareSigner.Hex
