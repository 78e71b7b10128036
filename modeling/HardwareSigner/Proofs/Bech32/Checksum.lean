import HardwareSigner.Bech32
import Mathlib.Data.List.Basic
import Mathlib.Data.Nat.Bitwise
/-!
The checksum.  A step of the residue is linear in exclusive or, and six values that follow on nothing
else are the digits of their residue; so there is just one checksum for each residue that a text is
to have.
-/

namespace HardwareSigner.Bech32

theorem feedback_xor (gs : List Nat) (a b : Nat) :
    feedback (a ^^^ b) gs = feedback a gs ^^^ feedback b gs := by
  induction gs generalizing a b with
  | nil => exact (Nat.xor_self 0).symm
  | cons g gs ih =>
      have bit : (if (a ^^^ b) % 2 = 1 then g else 0) =
          (if a % 2 = 1 then g else 0) ^^^ (if b % 2 = 1 then g else 0) := by
        simp only [Nat.xor_mod_two_eq_one]
        by_cases odd : a % 2 = 1 <;> by_cases odd' : b % 2 = 1 <;>
          simp only [odd, odd', iff_self, iff_true, iff_false, not_true, not_false_iff, if_true,
            if_false, Nat.xor_self, Nat.xor_zero, Nat.zero_xor]
      rw [feedback, feedback, feedback, Nat.xor_div_two, ih, bit]
      ac_rfl

/-- A step is linear in the residue and the value together. -/
theorem step_xor (r s u v : Nat) : step (r ^^^ s) (u ^^^ v) = step r u ^^^ step s v := by
  simp only [step, Nat.xor_mod_two_pow, Nat.shiftLeft_xor_distrib, Nat.shiftRight_xor_distrib,
    feedback_xor]
  ac_rfl

/-- What values add to a residue, they add to the residue of as many zeros. -/
theorem foldl_step_xor (values : List Nat) (r s : Nat) :
    values.foldl step (r ^^^ s) =
      (List.replicate values.length 0).foldl step r ^^^ values.foldl step s := by
  induction values generalizing r s with
  | nil => rfl
  | cons v values ih =>
      have first : step (r ^^^ s) v = step r 0 ^^^ step s v := by
        rw [← step_xor, Nat.zero_xor]
      rw [List.foldl_cons, first, ih]
      rfl

theorem feedback_lt {top : Nat} {gs : List Nat} (small : ∀ g ∈ gs, g < 2 ^ 30) :
    feedback top gs < 2 ^ 30 := by
  induction gs generalizing top with
  | nil => exact Nat.two_pow_pos 30
  | cons g gs ih =>
      obtain ⟨first, others⟩ := List.forall_mem_cons.mp small
      refine Nat.xor_lt_two_pow ?_ (ih others)
      split
      · exact first
      · exact Nat.two_pow_pos 30

/-- A residue has thirty bits. -/
theorem step_lt (r : Nat) {v : Nat} (small : v < 32) : step r v < 2 ^ 30 := by
  have low : r % 2 ^ 25 < 2 ^ 25 := Nat.mod_lt _ (Nat.two_pow_pos 25)
  have shifted : (r % 2 ^ 25) <<< 5 < 2 ^ 30 := by
    rw [Nat.shiftLeft_eq]
    omega
  have value : v < 2 ^ 30 := by omega
  exact Nat.xor_lt_two_pow (Nat.xor_lt_two_pow shifted value) (feedback_lt (by decide))

/-- As long as nothing is pushed out, a step appends a digit. -/
theorem step_small {r v : Nat} (room : r < 2 ^ 25) (small : v < 32) : step r v = r * 32 + v := by
  have none : feedback (r >>> 25) generators = 0 := by
    rw [Nat.shiftRight_eq_div_pow, Nat.div_eq_of_lt room]
    rfl
  have above : (r <<< 5 ^^^ v) / 2 ^ 5 = r := by
    rw [← Nat.shiftRight_eq_div_pow, Nat.shiftRight_xor_distrib, Nat.shiftLeft_shiftRight,
      Nat.shiftRight_eq_div_pow, Nat.div_eq_of_lt small, Nat.xor_zero]
  have below : (r <<< 5 ^^^ v) % 2 ^ 5 = v := by
    rw [Nat.xor_mod_two_pow, Nat.shiftLeft_eq, Nat.mul_mod_left, Nat.zero_xor,
      Nat.mod_eq_of_lt small]
  have whole := Nat.div_add_mod (r <<< 5 ^^^ v) (2 ^ 5)
  rw [above, below] at whole
  rw [step, none, Nat.xor_zero, Nat.mod_eq_of_lt room, ← whole, Nat.mul_comm]

/-- Digits behind a number. -/
def packed (n : Nat) (values : List Nat) : Nat :=
  values.foldl (fun n v => n * 32 + v) n

/-- Values that do not fill the residue are its digits. -/
theorem foldl_step_small {values : List Nat} (small : ∀ v ∈ values, v < 32) {r places : Nat}
    (room : r < 32 ^ places) (fits : places + values.length ≤ checksumLength) :
    values.foldl step r = packed r values := by
  induction values generalizing r places with
  | nil => rfl
  | cons v values ih =>
      obtain ⟨first, others⟩ := List.forall_mem_cons.mp small
      rw [List.length_cons, checksumLength] at fits
      have short : r < 2 ^ 25 :=
        Nat.lt_of_lt_of_le room (Nat.pow_le_pow_right (by decide) (by omega : places ≤ 5))
      have grown : r * 32 + v < 32 ^ (places + 1) := by
        rw [Nat.pow_succ]
        omega
      rw [List.foldl_cons, step_small short first]
      exact ih others grown (by rw [checksumLength]; omega)

/-- The digits of a number of thirty bits. -/
def digitsOf (n : Nat) : List Nat :=
  (List.range checksumLength).map fun i => (n >>> (5 * (5 - i))) % 32

theorem length_digitsOf (n : Nat) : (digitsOf n).length = checksumLength := by
  rw [digitsOf, List.length_map, List.length_range]

theorem digitsOf_lt {n v : Nat} (held : v ∈ digitsOf n) : v < 32 := by
  obtain ⟨i, -, rfl⟩ := List.mem_map.mp held
  exact Nat.mod_lt _ (by decide)

theorem digitsOf_eq (n : Nat) : digitsOf n = [n / 2 ^ 25 % 32, n / 2 ^ 20 % 32, n / 2 ^ 15 % 32,
    n / 2 ^ 10 % 32, n / 2 ^ 5 % 32, n / 2 ^ 0 % 32] := by
  simp only [digitsOf, Nat.shiftRight_eq_div_pow]
  rfl

theorem packed_digitsOf {n : Nat} (small : n < 2 ^ 30) : packed 0 (digitsOf n) = n := by
  rw [digitsOf_eq]
  simp only [packed, List.foldl_cons, List.foldl_nil]
  omega

theorem digitsOf_packed {values : List Nat} (small : ∀ v ∈ values, v < 32)
    (six : values.length = checksumLength) : digitsOf (packed 0 values) = values := by
  match values, six with
  | [a, b, c, d, e, f], _ =>
    simp only [List.forall_mem_cons] at small
    obtain ⟨ha, hb, hc, hd, he, hf, -⟩ := small
    simp only [digitsOf_eq, packed, List.foldl_cons, List.foldl_nil, List.cons.injEq, and_true]
    omega

/-- The checksum that gives a text this residue. -/
def closing (goal : Nat) (values : List Nat) : List Nat :=
  digitsOf (residue (values ++ List.replicate checksumLength 0) ^^^ goal)

theorem checksum_eq (part : List Char) (fives : List Nat) :
    checksum part fives = closing target (expand part ++ fives) := rfl

theorem residue_zeros_lt (values : List Nat) :
    residue (values ++ List.replicate checksumLength 0) < 2 ^ 30 := by
  have last : values ++ List.replicate checksumLength 0 = values ++ List.replicate 5 0 ++ [0] := by
    rw [List.append_assoc]
    rfl
  rw [last, residue, List.foldl_concat]
  exact step_lt _ (by decide)

/-- Six values change the residue that zeros in their place give by the number that they write. -/
theorem residue_append {values sum : List Nat} (small : ∀ v ∈ sum, v < 32)
    (six : sum.length = checksumLength) :
    residue (values ++ sum) =
      residue (values ++ List.replicate checksumLength 0) ^^^ packed 0 sum := by
  have within : 0 + sum.length ≤ checksumLength := by rw [Nat.zero_add, six]
  have linear := foldl_step_xor sum (values.foldl step 1) 0
  rw [Nat.xor_zero, six, foldl_step_small small Nat.one_pos within] at linear
  rw [residue, List.foldl_append, linear, residue, List.foldl_append]

/-- For each residue there is just one checksum. -/
theorem residue_append_iff {values sum : List Nat} {goal : Nat} (room : goal < 2 ^ 30)
    (small : ∀ v ∈ sum, v < 32) (six : sum.length = checksumLength) :
    residue (values ++ sum) = goal ↔ sum = closing goal values := by
  have bound := residue_zeros_lt values
  rw [residue_append small six, closing]
  generalize residue (values ++ List.replicate checksumLength 0) = r at bound
  constructor
  · rintro rfl
    rw [← Nat.xor_assoc, Nat.xor_self, Nat.zero_xor, digitsOf_packed small six]
  · rintro rfl
    rw [packed_digitsOf (Nat.xor_lt_two_pow bound room), ← Nat.xor_assoc, Nat.xor_self,
      Nat.zero_xor]

theorem length_closing (goal : Nat) (values : List Nat) :
    (closing goal values).length = checksumLength :=
  length_digitsOf _

theorem closing_lt {goal : Nat} {values : List Nat} {v : Nat} (held : v ∈ closing goal values) :
    v < 32 :=
  digitsOf_lt held

/-- Checksums for different residues are different. -/
theorem closing_injective {goal goal' : Nat} (room : goal < 2 ^ 30) (room' : goal' < 2 ^ 30)
    {values : List Nat} (same : closing goal values = closing goal' values) : goal = goal' := by
  have small : ∀ v ∈ closing goal values, v < 32 := fun v held => closing_lt held
  have six := length_closing goal values
  have first := (residue_append_iff room small six).mpr rfl
  exact first.symm.trans ((residue_append_iff room' small six).mpr same)

end HardwareSigner.Bech32
