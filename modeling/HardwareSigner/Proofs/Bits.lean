import HardwareSigner.Bytes
import Mathlib.Algebra.Order.Ring.Nat
import Mathlib.Data.List.Basic
import Mathlib.Data.List.Induction
import Mathlib.Tactic.Ring
/-!
Bits and numbers, and lists that are cut into blocks: numbers of a fixed width are their bits, and
blocks of one size are what they were put together from.
-/

namespace HardwareSigner

@[simp] theorem length_bitsOf (width k : Nat) : (bitsOf width k).length = width := by
  rw [bitsOf, List.length_map, List.length_range]

theorem bitsOf_succ (width k : Nat) : bitsOf (width + 1) k = k.testBit width :: bitsOf width k := by
  rw [bitsOf, List.range_succ_eq_map, List.map_cons, List.map_map, bitsOf]
  congr 1
  refine List.map_congr_left fun i _ => ?_
  rw [Function.comp_apply]
  congr 1
  omega

/-- A fold over the bits of a number goes through all numbers that its first bits write. -/
theorem foldl_bitsOf {α : Type} {R : Nat → α → Prop} {f : α → Bool → α}
    (step : ∀ n a b, R n a → R (2 * n + b.toNat) (f a b)) (width k : Nat) {n : Nat} {a : α}
    (start : R n a) : R (n * 2 ^ width + k % 2 ^ width) ((bitsOf width k).foldl f a) := by
  induction width generalizing n a with
  | zero =>
      rw [Nat.pow_zero, Nat.mod_one, Nat.mul_one, Nat.add_zero]
      exact start
  | succ width ih =>
      have further := ih (step n a (k.testBit width) start)
      have written : (2 * n + (k.testBit width).toNat) * 2 ^ width + k % 2 ^ width =
          n * 2 ^ (width + 1) + k % 2 ^ (width + 1) := by
        rw [Nat.toNat_testBit, Nat.mod_pow_succ, Nat.pow_succ]
        ring
      rw [written] at further
      rw [bitsOf_succ, List.foldl_cons]
      exact further

/-- The bits of a number that has no more of them give the number back. -/
theorem ofBits_bitsOf {width k : Nat} (fits : k < 2 ^ width) : ofBits (bitsOf width k) = k := by
  have through := foldl_bitsOf (R := Eq) (f := fun n b => 2 * n + b.toNat)
    (fun n a b same => by rw [same]) width k rfl (n := 0)
  rw [Nat.zero_mul, Nat.zero_add, Nat.mod_eq_of_lt fits] at through
  exact through.symm

theorem ofBits_concat (bits : List Bool) (b : Bool) :
    ofBits (bits ++ [b]) = 2 * ofBits bits + b.toNat := by
  rw [ofBits, List.foldl_concat, ofBits]

theorem ofBits_lt (bits : List Bool) : ofBits bits < 2 ^ bits.length := by
  induction bits using List.reverseRecOn with
  | nil => exact Nat.one_pos
  | append_singleton bits b ih =>
      have bit := b.toNat_le
      rw [ofBits_concat, List.length_append, List.length_singleton, Nat.pow_succ]
      omega

theorem bitsOf_concat (width n : Nat) (b : Bool) :
    bitsOf (width + 1) (2 * n + b.toNat) = bitsOf width n ++ [b] := by
  have half : (2 * n + b.toNat) / 2 = n := by
    have bit := b.toNat_le
    omega
  have last : (2 * n + b.toNat).testBit 0 = b := by
    rw [Nat.testBit_zero, Nat.mul_add_mod]
    cases b <;> rfl
  have above : (List.range width).map (fun i => (2 * n + b.toNat).testBit (width - i)) =
      bitsOf width n := by
    refine List.map_congr_left fun i within => ?_
    have next : width - i = width - 1 - i + 1 := by
      have small := List.mem_range.mp within
      omega
    rw [next, Nat.testBit_succ, half]
  rw [bitsOf, List.range_succ, List.map_append, Nat.add_sub_cancel, above, List.map_singleton,
    Nat.sub_self, last]

theorem bitsOf_ofBits {width : Nat} {bits : List Bool} (size : bits.length = width) :
    bitsOf width (ofBits bits) = bits := by
  induction bits using List.reverseRecOn generalizing width with
  | nil =>
      subst size
      rfl
  | append_singleton bits b ih =>
      rw [List.length_append, List.length_singleton] at size
      subst size
      rw [ofBits_concat, bitsOf_concat, ih rfl]

section
variable {α β : Type} {size : Nat}

theorem length_firstBlocks (count : Nat) (xs : List α) :
    (firstBlocks size count xs).length = count := by
  induction count generalizing xs with
  | zero => rfl
  | succ count ih => rw [firstBlocks, List.length_cons, ih]

theorem length_of_mem_firstBlocks {count : Nat} {xs block : List α}
    (enough : size * count ≤ xs.length) (held : block ∈ firstBlocks size count xs) :
    block.length = size := by
  induction count generalizing xs with
  | zero => cases held
  | succ count ih =>
      rw [Nat.mul_succ] at enough
      rcases List.mem_cons.mp held with rfl | later
      · exact List.length_take_of_le (by omega)
      · refine ih ?_ later
        rw [List.length_drop]
        omega

/-- Blocks end to end are the beginning of the list that was cut into them. -/
theorem flatten_firstBlocks (count : Nat) (xs : List α) :
    (firstBlocks size count xs).flatten = xs.take (size * count) := by
  induction count generalizing xs with
  | zero => rw [Nat.mul_zero, List.take_zero, firstBlocks, List.flatten_nil]
  | succ count ih =>
      rw [firstBlocks, List.flatten_cons, ih, Nat.mul_succ, Nat.add_comm, List.take_add]

/-- Lists of one size, put end to end, are cut into what they were; what follows is not looked
at. -/
theorem firstBlocks_flatMap {f : β → List α} {ys : List β} (each : ∀ y ∈ ys, (f y).length = size)
    (rest : List α) : firstBlocks size ys.length (ys.flatMap f ++ rest) = ys.map f := by
  induction ys with
  | nil => rfl
  | cons y ys ih =>
      obtain ⟨first, others⟩ := List.forall_mem_cons.mp each
      rw [List.length_cons, firstBlocks, List.flatMap_cons, List.append_assoc,
        List.take_left' first, List.drop_left' first, ih others, List.map_cons]

end

end HardwareSigner
