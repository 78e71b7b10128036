import HardwareSigner.Json.Reader
import HardwareSigner.Proofs.Text.Utf8
/-! Whole numbers of 64 bits are read as they were written, wherever no numeral goes on. -/

namespace HardwareSigner.Json

/-- The decimal digits of a number, highest first. -/
def digits (n : Nat) : List Nat :=
  (Nat.toDigits 10 n).map fun c => c.toNat - 48

theorem digits_zero : digits 0 = [0] := rfl

theorem digits_pos {n : Nat} (positive : 0 < n) : ∃ d ds, digits n = (d + 1) :: ds := by
  induction n using Nat.base_induction 10 (by decide) with
  | single m small =>
      obtain ⟨d, rfl⟩ := Nat.exists_eq_succ_of_ne_zero (Nat.ne_of_gt positive)
      refine ⟨d, [], ?_⟩
      rw [digits, Nat.toDigits_of_lt_base small, List.map_singleton,
        Nat.toNat_digitChar_sub_48_of_lt_ten small]
  | digit m k small above ih =>
      obtain ⟨d, ds, split⟩ := ih above
      refine ⟨d, ds ++ digits k, ?_⟩
      rw [digits, ← Nat.toDigits_append_toDigits (by decide) above small, List.map_append]
      exact congrArg (· ++ digits k) split

theorem le_ofDigitChars (cs : List Char) (n : Nat) : n ≤ Nat.ofDigitChars 10 cs n := by
  induction cs generalizing n with
  | nil => exact Nat.le_of_eq Nat.ofDigitChars_nil.symm
  | cons c cs ih =>
      rw [Nat.ofDigitChars_cons]
      have further := ih (10 * n + (c.toNat - '0'.toNat))
      omega

/-- Digits of a number that fits are all taken. -/
theorem gather_eq {cs : List Char} {n : Nat} (fits : Nat.ofDigitChars 10 cs n < 2 ^ 64) :
    gather n (cs.map fun c => c.toNat - 48) = (Nat.ofDigitChars 10 cs n, 0) := by
  induction cs generalizing n with
  | nil => rw [Nat.ofDigitChars_nil]; rfl
  | cons c cs ih =>
      have same : n * 10 + (c.toNat - 48) = 10 * n + (c.toNat - '0'.toNat) :=
        congrArg (· + (c.toNat - 48)) (Nat.mul_comm n 10)
      rw [Nat.ofDigitChars_cons] at fits ⊢
      have soFar := le_ofDigitChars cs (10 * n + (c.toNat - '0'.toNat))
      rw [List.map_cons, gather, same, if_pos (Nat.lt_of_le_of_lt soFar fits), ih fits]

theorem gather_digits {n : Nat} (fits : n < 2 ^ 64) : gather 0 (digits n) = (n, 0) := by
  have value : Nat.ofDigitChars 10 (Nat.toDigits 10 n) 0 = n :=
    Nat.ofDigitChars_toDigits (by decide) (by decide)
  rw [digits, gather_eq (by rw [value]; exact fits), value]

/-- A whole number as it is written. -/
def Numeral.ofInt (z : Int) : Numeral :=
  ⟨decide (z < 0), digits z.natAbs, [], none⟩

theorem toNumber?_ofInt {z : Int} (fits : -2 ^ 63 ≤ z ∧ z < 2 ^ 64) :
    (Numeral.ofInt z).toNumber? = some (.integer z fits) := by
  have gathered : gather 0 (Numeral.ofInt z).whole = (z.natAbs, 0) := gather_digits (by omega)
  have value : (if (Numeral.ofInt z).negative then -(z.natAbs : Int) else z.natAbs) = z := by
    simp only [Numeral.ofInt, decide_eq_true_eq]
    split <;> omega
  -- a minus sign stands before no zero
  have plain : ((Numeral.ofInt z).negative && z.natAbs == 0) = false := by
    simp only [Numeral.ofInt, Bool.and_eq_false_iff, decide_eq_false_iff_not, beq_eq_false_iff_ne]
    omega
  simp only [Numeral.toNumber?, gathered, value, dif_pos fits, plain]
  rfl

/-- No numeral goes on here. -/
def Ends (rest : Bytes) : Prop :=
  ∀ b ∈ rest.head?, isDigit b = false ∧ b ≠ 0x2E ∧ b ≠ 0x65 ∧ b ≠ 0x45

theorem ends_nil : Ends [] := nofun

theorem ends_cons {b : UInt8} (stop : isDigit b = false ∧ b ≠ 0x2E ∧ b ≠ 0x65 ∧ b ≠ 0x45)
    (rest : Bytes) : Ends (b :: rest) := by
  rintro b' ⟨⟩
  exact stop

def digitBytes (n : Nat) : Bytes :=
  Bytes.ofChars (Nat.toDigits 10 n)

theorem digitChar_range {n : Nat} {c : Char} (held : c ∈ Nat.toDigits 10 n) :
    48 ≤ c.toNat ∧ c.toNat ≤ 57 :=
  Char.isDigit_iff_toNat.mp (Nat.isDigit_of_mem_toDigits (by decide) (by decide) held)

theorem digitBytes_eq (n : Nat) :
    digitBytes n = (Nat.toDigits 10 n).map fun c => UInt8.ofNat c.toNat :=
  Bytes.ofChars_ascii fun _ held => Nat.lt_of_le_of_lt (digitChar_range held).2 (by decide)

theorem digitByte {n : Nat} {c : Char} (held : c ∈ Nat.toDigits 10 n) :
    isDigit (UInt8.ofNat c.toNat) = true ∧ (UInt8.ofNat c.toNat).toNat = c.toNat := by
  have range := digitChar_range held
  have value : (UInt8.ofNat c.toNat).toNat = c.toNat := by
    rw [UInt8.toNat_ofNat', Nat.mod_eq_of_lt (by omega)]
  refine ⟨?_, value⟩
  simp only [isDigit, Bool.and_eq_true, decide_eq_true_eq, UInt8.le_iff_toNat_le, value]
  exact range

theorem isDigit_of_mem {n : Nat} {b : UInt8} (held : b ∈ digitBytes n) : isDigit b = true := by
  rw [digitBytes_eq] at held
  obtain ⟨c, digit, rfl⟩ := List.mem_map.mp held
  exact (digitByte digit).1

theorem readDigits_digitBytes (n : Nat) {rest : Bytes} (ends : Ends rest) :
    readDigits (digitBytes n ++ rest) = (digits n, rest) := by
  have all : ∀ b ∈ digitBytes n, isDigit b = true := fun b => isDigit_of_mem
  have stop : rest.takeWhile isDigit = [] ∧ rest.dropWhile isDigit = rest := by
    cases rest with
    | nil => exact ⟨rfl, rfl⟩
    | cons b rest =>
        have noDigit := (ends b rfl).1
        exact ⟨List.takeWhile_cons_of_neg (by rw [noDigit]; decide),
          List.dropWhile_cons_of_neg (by rw [noDigit]; decide)⟩
  have values : (digitBytes n).map (fun b => b.toNat - 0x30) = digits n := by
    rw [digitBytes_eq, List.map_map, digits]
    refine List.map_congr_left fun c held => ?_
    exact congrArg (· - 48) (digitByte held).2
  rw [readDigits, List.takeWhile_append_of_pos all, List.dropWhile_append_of_pos all, stop.1,
    stop.2, List.append_nil, values]

theorem readFraction?_ends {rest : Bytes} (ends : Ends rest) :
    readFraction? rest = some ([], rest) := by
  cases rest with
  | nil => rfl
  | cons b rest =>
      have noPoint := (ends b rfl).2.1
      simp [readFraction?, noPoint]

theorem readExponent?_ends {rest : Bytes} (ends : Ends rest) :
    readExponent? rest = some (none, rest) := by
  cases rest with
  | nil => rfl
  | cons b rest =>
      obtain ⟨-, -, small, large⟩ := ends b rfl
      simp [readExponent?, small, large]

theorem readNumeral?_digitBytes (negative : Bool) (n : Nat) {rest : Bytes} (ends : Ends rest) :
    readNumeral? negative (digitBytes n ++ rest) = some (⟨negative, digits n, [], none⟩, rest) := by
  rw [readNumeral?, readDigits_digitBytes n ends]
  rcases Nat.eq_zero_or_pos n with rfl | positive
  · rw [digits_zero]
    simp only [readFraction?_ends ends, readExponent?_ends ends]
  · obtain ⟨d, ds, split⟩ := digits_pos positive
    rw [split]
    simp only [readFraction?_ends ends, readExponent?_ends ends]

theorem digitBytes_cons (n : Nat) : ∃ b tail, digitBytes n = b :: tail ∧ isDigit b = true := by
  cases written : digitBytes n with
  | nil =>
      rw [digitBytes_eq] at written
      exact absurd (List.map_eq_nil_iff.mp written) Nat.toDigits_ne_nil
  | cons b tail => exact ⟨b, tail, rfl, isDigit_of_mem (written ▸ List.mem_cons_self)⟩

/-- The bytes of a whole number. -/
def intBytes (z : Int) : Bytes :=
  if z < 0 then 0x2D :: digitBytes z.natAbs else digitBytes z.natAbs

theorem ofChars_integer {z : Int} (fits : -2 ^ 63 ≤ z ∧ z < 2 ^ 64) :
    Bytes.ofChars (Number.integer z fits).toChars = intBytes z := by
  rw [Number.toChars, Bytes.ofChars_append, intBytes]
  split
  · rfl
  · rfl

theorem ne_of_isDigit {b b' : UInt8} (digit : isDigit b = true) (other : isDigit b' = false) :
    b ≠ b' := by
  rintro rfl
  cases digit.symm.trans other

theorem readScalar_of_digit {b : UInt8} {tail rest : Bytes} {numeral : Numeral}
    (digit : isDigit b = true) (read : readNumeral? false (b :: tail) = some (numeral, rest)) :
    readScalar (b :: tail) = (.number numeral, some rest) := by
  have noMinus : ((b :: tail).head? == some 0x2D) = false :=
    beq_false_of_ne fun same => ne_of_isDigit digit (by decide) (Option.some.inj same)
  rw [readScalar]
  · simp only [noMinus, Bool.false_eq_true, if_false, read]
  · rintro _ ⟨⟩
    exact ne_of_isDigit digit (by decide) rfl
  · rintro _ ⟨⟩
    exact ne_of_isDigit digit (by decide) rfl
  · rintro _ ⟨⟩
    exact ne_of_isDigit digit (by decide) rfl
  · rintro _ ⟨⟩
    exact ne_of_isDigit digit (by decide) rfl

theorem readScalar_intBytes (z : Int) {rest : Bytes} (ends : Ends rest) :
    readScalar (intBytes z ++ rest) = (.number (.ofInt z), some rest) := by
  rw [intBytes, Numeral.ofInt]
  by_cases negative : z < 0
  · rw [if_pos negative, decide_eq_true negative, List.cons_append]
    have read := readNumeral?_digitBytes true z.natAbs ends
    simp [readScalar, read]
  · rw [if_neg negative, decide_eq_false negative]
    have read := readNumeral?_digitBytes false z.natAbs ends
    obtain ⟨b, tail, split, digit⟩ := digitBytes_cons z.natAbs
    rw [split, List.cons_append] at read ⊢
    exact readScalar_of_digit digit read

end HardwareSigner.Json
