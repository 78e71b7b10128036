import HardwareSigner.Text.Numeral
import Mathlib.Data.List.Forall2
import Mathlib.Data.Nat.Digits.Defs
import Mathlib.Tactic.IntervalCases
import Mathlib.Tactic.Ring
/-!
Which texts are read as numbers, and as which.  The numerals of messages are the digits of a number,
with underscores anywhere and none at all for zero; those of schemas are its decimal digits behind
any number of zeros and a plus sign.
-/

namespace HardwareSigner.Text

/-- The character stands for the digit `d`; letters may be of either case. -/
def IsDigit (base : Nat) (c : Char) (d : Nat) : Prop :=
  d < base ∧ (c = d.digitChar ∨ c = d.digitChar.toUpper)

theorem digit?_eq_some_iff {c : Char} {d : Nat} : digit? c = some d ↔ IsDigit 16 c d := by
  constructor
  · intro read
    have char : c = Char.ofNat c.toNat := (Char.ofNat_toNat c).symm
    simp only [digit?] at read
    split at read
    · obtain ⟨low, high⟩ := ‹48 ≤ c.toNat ∧ c.toNat ≤ 57›
      obtain rfl := Option.some.inj read
      generalize c.toNat = k at *
      subst char
      interval_cases k <;> exact ⟨by decide, .inl rfl⟩
    · split at read
      · obtain ⟨low, high⟩ := ‹97 ≤ c.toNat ∧ c.toNat ≤ 102›
        obtain rfl := Option.some.inj read
        generalize c.toNat = k at *
        subst char
        interval_cases k <;> exact ⟨by decide, .inl rfl⟩
      · split at read
        · obtain ⟨low, high⟩ := ‹65 ≤ c.toNat ∧ c.toNat ≤ 70›
          obtain rfl := Option.some.inj read
          generalize c.toNat = k at *
          subst char
          interval_cases k <;> exact ⟨by decide, .inr rfl⟩
        · cases read
  · rintro ⟨small, rfl | rfl⟩ <;> interval_cases d <;> rfl

theorem isDigit_iff {base : Nat} (most : base ≤ 16) {c : Char} {d : Nat} :
    IsDigit base c d ↔ digit? c = some d ∧ d < base := by
  rw [digit?_eq_some_iff, IsDigit, IsDigit]
  constructor
  · rintro ⟨small, char⟩
    exact ⟨⟨Nat.lt_of_lt_of_le small most, char⟩, small⟩
  · rintro ⟨⟨-, char⟩, small⟩
    exact ⟨small, char⟩

theorem IsDigit.unique {base : Nat} (most : base ≤ 16) {c : Char} {d e : Nat}
    (first : IsDigit base c d) (second : IsDigit base c e) : d = e := by
  have found := ((isDigit_iff most).mp first).1
  exact Option.some.inj (found.symm.trans ((isDigit_iff most).mp second).1)

/-- Decimal digits are no letters. -/
theorem IsDigit.decimal {c : Char} {d : Nat} (digit : IsDigit 10 c d) : c = d.digitChar := by
  obtain ⟨small, rfl | rfl⟩ := digit
  · rfl
  · interval_cases d <;> rfl

theorem isDigit_digitChar {d : Nat} (small : d < 10) : IsDigit 10 d.digitChar d :=
  ⟨small, .inl rfl⟩

/-- The characters are the digits of `n`, highest first. -/
def Writes (base : Nat) (cs : List Char) (n : Nat) : Prop :=
  ∃ ds, List.Forall₂ (IsDigit base) cs ds ∧ n = Nat.ofDigits base ds.reverse

section
variable {base bound : Nat}

theorem Writes.unique (most : base ≤ 16) {cs : List Char} {m n : Nat} (first : Writes base cs m)
    (second : Writes base cs n) : m = n := by
  obtain ⟨ds, each, rfl⟩ := first
  obtain ⟨es, each', rfl⟩ := second
  have unique : Relator.RightUnique (IsDigit base) := fun _ _ _ => IsDigit.unique most
  rw [List.right_unique_forall₂' unique each each']

theorem Writes.notMem (most : base ≤ 16) {cs : List Char} {n : Nat} (written : Writes base cs n)
    {c : Char} (letter : digit? c = none) : c ∉ cs := by
  intro here
  obtain ⟨ds, each, -⟩ := written
  obtain ⟨i, bound, rfl⟩ := List.getElem_of_mem here
  have digit := each.get bound (each.length_eq ▸ bound)
  rw [List.get_eq_getElem] at digit
  rw [((isDigit_iff most).mp digit).1] at letter
  cases letter

theorem writes_nil {n : Nat} : Writes base [] n ↔ n = 0 := by
  simp only [Writes, List.forall₂_nil_left_iff, exists_eq_left, List.reverse_nil, Nat.ofDigits_nil]

theorem digits?_cons_iff (most : base ≤ 16) {acc n : Nat} {c : Char} {cs : List Char} :
    digits? base bound acc (c :: cs) = some n ↔ ∃ d, IsDigit base c d ∧
      acc * base + d < bound ∧ digits? base bound (acc * base + d) cs = some n := by
  rw [digits?]
  cases found : digit? c with
  | none =>
      simp only [isDigit_iff most, found, reduceCtorEq, false_and, exists_false]
  | some d =>
      simp only [isDigit_iff most, found, Option.some.injEq, and_assoc, exists_eq_left']
      split
      · rename_i fits
        simp only [fits, true_and]
      · rename_i large
        simp only [reduceCtorEq, false_iff]
        exact fun h => large ⟨h.1, h.2.1⟩

/-- No number on the way is larger than the one at the end, so that only this has to be bounded. -/
theorem digits?_eq_some_iff (some_digit : 0 < base) (most : base ≤ 16) {acc n : Nat}
    (small : acc < bound) {cs : List Char} :
    digits? base bound acc cs = some n ↔ n < bound ∧ ∃ ds, List.Forall₂ (IsDigit base) cs ds ∧
      n = acc * base ^ cs.length + Nat.ofDigits base ds.reverse := by
  induction cs generalizing acc with
  | nil =>
      simp only [digits?, List.forall₂_nil_left_iff, exists_eq_left, List.length_nil, pow_zero,
        mul_one, List.reverse_nil, Nat.ofDigits_nil, add_zero, Option.some.injEq]
      constructor
      · rintro rfl
        exact ⟨small, rfl⟩
      · exact fun h => h.2.symm
  | cons c cs ih =>
      have value (d : Nat) (ds : List Nat) (size : ds.length = cs.length) :
          acc * base ^ (cs.length + 1) + Nat.ofDigits base (ds.reverse ++ [d]) =
            (acc * base + d) * base ^ cs.length + Nat.ofDigits base ds.reverse := by
        rw [Nat.ofDigits_append, List.length_reverse, size, Nat.ofDigits_singleton]
        ring
      rw [digits?_cons_iff most]
      constructor
      · rintro ⟨d, digit, fits, read⟩
        obtain ⟨least, ds, each, rfl⟩ := (ih fits).mp read
        refine ⟨least, d :: ds, .cons digit each, ?_⟩
        rw [List.reverse_cons, List.length_cons, value d ds each.length_eq.symm]
      · rintro ⟨least, _, ⟨⟩, same⟩
        rename_i d ds digit each
        rw [List.reverse_cons, List.length_cons, value d ds each.length_eq.symm] at same
        have power : 0 < base ^ cs.length := Nat.pow_pos some_digit
        have grown := Nat.le_mul_of_pos_right (acc * base + d) power
        have first : acc * base + d < bound := by omega
        exact ⟨d, digit, first, (ih first).mpr ⟨least, ds, each, same⟩⟩

end

/-- The digits of `n` with underscores between them; no digit at all means zero. -/
def Grouped (base : Nat) (cs : List Char) (n : Nat) : Prop :=
  Writes base (cs.filter (· ≠ '_')) n

theorem Grouped.notMem {base : Nat} (most : base ≤ 16) {cs : List Char} {n : Nat}
    (written : Grouped base cs n) {c : Char} (letter : digit? c = none) (other : c ≠ '_') :
    c ∉ cs := by
  intro here
  refine Writes.notMem most written letter (List.mem_filter.mpr ⟨here, ?_⟩)
  exact decide_eq_true other

/-- Decimal digits are not taken for a hexadecimal prefix. -/
theorem Grouped.unmarked {cs : List Char} {n : Nat} (written : Grouped 10 cs n)
    (rest : List Char) : cs ≠ '0' :: 'x' :: rest := by
  rintro rfl
  have here : 'x' ∈ '0' :: 'x' :: rest := List.mem_cons_of_mem _ List.mem_cons_self
  exact written.notMem (by decide) rfl (by decide) here

theorem grouped?_eq_some_iff {base : Nat} (some_digit : 0 < base) (most : base ≤ 16)
    {cs : List Char} {n : Nat} :
    grouped? base cs = some n ↔ Grouped base cs n ∧ n < 2 ^ 256 := by
  rw [grouped?, digits?_eq_some_iff some_digit most (Nat.two_pow_pos 256)]
  simp only [zero_mul, zero_add]
  exact and_comm

/-- A decimal number, before which zeros and one plus sign may stand. -/
inductive Padded (n : Nat) : List Char → Prop where
  | zeros (k : Nat) : Padded n (List.replicate k '0' ++ Nat.toDigits 10 n)
  | plus (k : Nat) : Padded n ('+' :: (List.replicate k '0' ++ Nat.toDigits 10 n))

theorem Padded.ne_nil {n : Nat} {cs : List Char} (padded : Padded n cs) : cs ≠ [] := by
  cases padded with
  | zeros k => exact List.append_ne_nil_of_right_ne_nil _ Nat.toDigits_ne_nil
  | plus k => exact List.cons_ne_nil _ _

theorem Padded.isDigit {n : Nat} {cs : List Char} (padded : Padded n cs) {c : Char}
    (here : c ∈ cs) : c = '+' ∨ c.isDigit = true := by
  have digit {k : Nat} (here : c ∈ List.replicate k '0' ++ Nat.toDigits 10 n) :
      c.isDigit = true := by
    rcases List.mem_append.mp here with zero | digit
    · rw [List.eq_of_mem_replicate zero]
      rfl
    · exact Nat.isDigit_of_mem_toDigits (by decide) (by decide) digit
  cases padded with
  | zeros k => exact .inr (digit here)
  | plus k => exact (List.mem_cons.mp here).imp_right digit

theorem Padded.notMem {n : Nat} {cs : List Char} (padded : Padded n cs) {c : Char}
    (bracket : c = '[' ∨ c = ']') : c ∉ cs := by
  intro here
  rcases padded.isDigit here with rfl | digit
  · revert bracket
    decide
  · rcases bracket with rfl | rfl <;> exact absurd digit (by decide)

section
variable {bound : Nat}

theorem toDigits_append_of_digits? {acc n : Nat} {cs : List Char} (positive : 0 < acc)
    (read : digits? 10 bound acc cs = some n) : Nat.toDigits 10 acc ++ cs = Nat.toDigits 10 n := by
  induction cs generalizing acc with
  | nil =>
      obtain rfl := Option.some.inj read
      exact List.append_nil _
  | cons c cs ih =>
      obtain ⟨d, digit, -, read⟩ := (digits?_cons_iff (by decide)).mp read
      have grown : 0 < acc * 10 + d := by omega
      have one : Nat.toDigits 10 d = [c] := by
        rw [Nat.toDigits_of_lt_base digit.1, digit.decimal]
      calc Nat.toDigits 10 acc ++ c :: cs
          = (Nat.toDigits 10 acc ++ Nat.toDigits 10 d) ++ cs := by
            rw [one, List.append_assoc, List.singleton_append]
        _ = Nat.toDigits 10 (10 * acc + d) ++ cs := by
            rw [Nat.toDigits_append_toDigits (by decide) positive digit.1]
        _ = Nat.toDigits 10 n := by
            rw [Nat.mul_comm, ih grown read]

theorem zeros_of_digits? {n : Nat} {cs : List Char} (some_char : cs ≠ [])
    (read : digits? 10 bound 0 cs = some n) :
    ∃ k, cs = List.replicate k '0' ++ Nat.toDigits 10 n := by
  induction cs with
  | nil => exact absurd rfl some_char
  | cons c cs ih =>
      obtain ⟨d, digit, -, rest⟩ := (digits?_cons_iff (by decide)).mp read
      rw [Nat.zero_mul, Nat.zero_add] at rest
      have char := digit.decimal
      rcases Nat.eq_zero_or_pos d with rfl | positive
      · by_cases last : cs = []
        · subst last
          obtain rfl := Option.some.inj rest
          exact ⟨0, by rw [char]; rfl⟩
        · obtain ⟨k, written⟩ := ih last rest
          exact ⟨k + 1, by rw [char, written]; rfl⟩
      · have whole := toDigits_append_of_digits? positive rest
        rw [Nat.toDigits_of_lt_base digit.1, ← char] at whole
        exact ⟨0, whole⟩

theorem digits?_append {base acc : Nat} (cs ds : List Char) :
    digits? base bound acc (cs ++ ds) =
      (digits? base bound acc cs).bind fun m => digits? base bound m ds := by
  induction cs generalizing acc with
  | nil => rfl
  | cons c cs ih =>
      rw [List.cons_append, digits?, digits?]
      split
      · split
        · exact ih
        · rfl
      · rfl

theorem digits?_singleton {acc d : Nat} (digit : d < 10) (fits : acc * 10 + d < bound) :
    digits? 10 bound acc [d.digitChar] = some (acc * 10 + d) :=
  (digits?_cons_iff (by decide)).mpr ⟨d, isDigit_digitChar digit, fits, rfl⟩

theorem digits?_toDigits {n : Nat} (fits : n < bound) :
    digits? 10 bound 0 (Nat.toDigits 10 n) = some n := by
  induction n using Nat.base_induction 10 (by decide) with
  | single d small =>
      rw [Nat.toDigits_of_lt_base small, digits?_singleton small (by omega)]
      exact congrArg some (by omega)
  | digit m d small above ih =>
      rw [← Nat.toDigits_append_toDigits (by decide) above small, digits?_append,
        ih (by omega), Nat.toDigits_of_lt_base small, Option.bind_some,
        digits?_singleton small (by omega), Nat.mul_comm]

theorem digits?_zeros (positive : 0 < bound) (k : Nat) (cs : List Char) :
    digits? 10 bound 0 (List.replicate k '0' ++ cs) = digits? 10 bound 0 cs := by
  induction k with
  | zero => rfl
  | succ k ih =>
      rw [List.replicate_succ, List.cons_append, ← ih]
      exact if_pos ⟨by decide, positive⟩

theorem decimal?_plus {cs : List Char} (some_char : cs ≠ []) :
    decimal? bound ('+' :: cs) = digits? 10 bound 0 cs := by
  cases cs with
  | nil => exact absurd rfl some_char
  | cons c cs => rfl

theorem decimal?_cons {c : Char} {cs : List Char} (other : c ≠ '+') :
    decimal? bound (c :: cs) = digits? 10 bound 0 (c :: cs) := by
  unfold decimal?
  split
  case h_1 same => cases same
  case h_2 same => exact absurd (List.cons.inj same).1 other
  case h_3 same => exact absurd (List.cons.inj same).1 other
  case h_4 => rfl

/-- The numbers of schemas are those below the bound, padded in front. -/
theorem decimal?_eq_some_iff (positive : 0 < bound) {n : Nat} {cs : List Char} :
    decimal? bound cs = some n ↔ Padded n cs ∧ n < bound := by
  constructor
  · intro read
    have padded {cs : List Char} (some_char : cs ≠ []) (read : digits? 10 bound 0 cs = some n) :
        n < bound ∧ ∃ k, cs = List.replicate k '0' ++ Nat.toDigits 10 n :=
      ⟨((digits?_eq_some_iff (by decide) (by decide) positive).mp read).1,
        zeros_of_digits? some_char read⟩
    cases cs with
    | nil => cases read
    | cons c cs =>
        by_cases sign : c = '+'
        · subst sign
          have some_char : cs ≠ [] := by
            rintro rfl
            cases read
          rw [decimal?_plus some_char] at read
          obtain ⟨fits, k, rfl⟩ := padded some_char read
          exact ⟨.plus k, fits⟩
        · rw [decimal?_cons sign] at read
          obtain ⟨fits, k, written⟩ := padded (List.cons_ne_nil c cs) read
          rw [written]
          exact ⟨.zeros k, fits⟩
  · rintro ⟨padded, fits⟩
    have value (k : Nat) :
        digits? 10 bound 0 (List.replicate k '0' ++ Nat.toDigits 10 n) = some n := by
      rw [digits?_zeros positive, digits?_toDigits fits]
    have some_char (k : Nat) : List.replicate k '0' ++ Nat.toDigits 10 n ≠ [] :=
      List.append_ne_nil_of_right_ne_nil _ Nat.toDigits_ne_nil
    cases padded with
    | plus k => rw [decimal?_plus (some_char k), value]
    | zeros k =>
        have read := value k
        cases written : List.replicate k '0' ++ Nat.toDigits 10 n with
        | nil => exact absurd written (some_char k)
        | cons c cs =>
            rw [written] at read
            obtain ⟨d, digit, -, -⟩ := (digits?_cons_iff (by decide)).mp read
            have plain : c ≠ '+' := by
              rintro rfl
              exact absurd ((isDigit_iff (by decide)).mp digit).1 nofun
            rw [decimal?_cons plain, read]

end

theorem Padded.unique {m n : Nat} {cs : List Char} (first : Padded m cs) (second : Padded n cs) :
    m = n := by
  have below : m < m + n + 1 ∧ n < m + n + 1 := by omega
  have read := (decimal?_eq_some_iff (Nat.succ_pos (m + n))).mpr ⟨first, below.1⟩
  have read' := (decimal?_eq_some_iff (Nat.succ_pos (m + n))).mpr ⟨second, below.2⟩
  exact Option.some.inj (read.symm.trans read')

/-- Padded numbers are those that have a digit, and digits only behind a plus sign. -/
theorem padded_iff {n : Nat} {cs : List Char} :
    Padded n cs ↔ ∃ sign digits, cs = sign ++ digits ∧ (sign = [] ∨ sign = ['+']) ∧
      digits ≠ [] ∧ Writes 10 digits n := by
  have read {ds : List Char} : digits? 10 (n + 1) 0 ds = some n ↔ Writes 10 ds n := by
    rw [digits?_eq_some_iff (by decide) (by decide) (Nat.succ_pos n), Writes]
    simp only [Nat.zero_mul, Nat.zero_add, Nat.lt_succ_self, true_and]
  constructor
  · have written (k : Nat) : Writes 10 (List.replicate k '0' ++ Nat.toDigits 10 n) n := by
      rw [← read, digits?_zeros (Nat.succ_pos n), digits?_toDigits (Nat.lt_succ_self n)]
    have some_digit (k : Nat) : List.replicate k '0' ++ Nat.toDigits 10 n ≠ [] :=
      List.append_ne_nil_of_right_ne_nil _ Nat.toDigits_ne_nil
    intro padded
    cases padded with
    | zeros k => exact ⟨[], _, rfl, .inl rfl, some_digit k, written k⟩
    | plus k => exact ⟨['+'], _, rfl, .inr rfl, some_digit k, written k⟩
  · rintro ⟨sign, digits, rfl, signed, some_digit, written⟩
    obtain ⟨k, rfl⟩ := zeros_of_digits? some_digit (read.mpr written)
    rcases signed with rfl | rfl
    · exact .zeros k
    · exact .plus k

end HardwareSigner.Text
