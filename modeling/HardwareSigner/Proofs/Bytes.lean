import HardwareSigner.Bytes
import Mathlib.Algebra.Order.Ring.Nat
import Mathlib.Tactic.Ring
/-! Byte strings give their numbers back, and words standing one after another can be told apart. -/

namespace HardwareSigner

namespace Bytes

theorem foldl_eq (bs : Bytes) (n : Nat) :
    bs.foldl (fun n b => n * 256 + b.toNat) n = n * 256 ^ bs.length + toNat bs := by
  induction bs generalizing n with
  | nil => simp only [toNat, List.foldl_nil, List.length_nil, pow_zero, mul_one, add_zero]
  | cons b bs ih =>
      simp only [toNat, List.foldl_cons, List.length_cons]
      rw [ih, ih (0 * 256 + b.toNat)]
      ring

theorem toNat_cons (b : UInt8) (bs : Bytes) :
    toNat (b :: bs) = b.toNat * 256 ^ bs.length + toNat bs := by
  have split := foldl_eq bs (0 * 256 + b.toNat)
  rw [zero_mul, zero_add] at split
  simpa only [toNat, List.foldl_cons, zero_mul, zero_add] using split

/-- Only the lowest bytes of a number are written. -/
theorem toNat_ofNat (n x : Nat) : toNat (ofNat n x) = x % 256 ^ n := by
  induction n with
  | zero => exact (Nat.mod_one x).symm
  | succ n ih =>
      have byte : (UInt8.ofNat (x / 256 ^ n)).toNat = x / 256 ^ n % 256 := UInt8.toNat_ofNat'
      rw [ofNat, toNat_cons, ih, length_ofNat, byte, Nat.mod_pow_succ, Nat.add_comm, Nat.mul_comm]

theorem toNat_lt (bs : Bytes) : toNat bs < 256 ^ bs.length := by
  induction bs with
  | nil => exact Nat.one_pos
  | cons b bs ih =>
      have byte : b.toNat < 256 := b.toNat_lt
      calc toNat (b :: bs) = b.toNat * 256 ^ bs.length + toNat bs := toNat_cons b bs
        _ < (b.toNat + 1) * 256 ^ bs.length := by
          rw [Nat.succ_mul]
          exact Nat.add_lt_add_left ih _
        _ ≤ 256 * 256 ^ bs.length := Nat.mul_le_mul_right _ byte
        _ = 256 ^ (b :: bs).length := by
          rw [List.length_cons, pow_succ, Nat.mul_comm]

/-- Byte strings of one length are told apart by their numbers. -/
theorem toNat_injective {bs cs : Bytes} (size : bs.length = cs.length)
    (same : toNat bs = toNat cs) : bs = cs := by
  induction bs generalizing cs with
  | nil => exact (List.length_eq_zero_iff.mp size.symm).symm
  | cons b bs ih =>
      cases cs with
      | nil => cases size
      | cons c cs =>
          have rest : bs.length = cs.length := Nat.succ.inj size
          have power : 0 < 256 ^ cs.length := Nat.pow_pos (by decide)
          have low : toNat bs / 256 ^ cs.length = 0 := Nat.div_eq_of_lt (rest ▸ toNat_lt bs)
          have low' : toNat cs / 256 ^ cs.length = 0 := Nat.div_eq_of_lt (toNat_lt cs)
          rw [toNat_cons, toNat_cons, rest, Nat.add_comm, Nat.add_comm (c.toNat * _)] at same
          have first := congrArg (· / 256 ^ cs.length) same
          simp only [Nat.add_mul_div_right _ _ power, low, low', zero_add] at first
          rw [first] at same
          rw [UInt8.toNat_inj.mp first, ih rest (Nat.add_right_cancel same)]

theorem ofNat_toNat {bs : Bytes} {n : Nat} (size : bs.length = n) : ofNat n (toNat bs) = bs := by
  subst size
  refine toNat_injective (length_ofNat _ _) ?_
  rw [toNat_ofNat, Nat.mod_eq_of_lt (toNat_lt bs)]

end Bytes

namespace Word

theorem ext {v w : Word} (same : v.bytes = w.bytes) : v = w := by
  cases v
  cases w
  cases same
  rfl

theorem toNat_ofNat (x : Nat) : (ofNat x).toNat = x % 2 ^ 256 := by
  rw [toNat, ofNat, Bytes.toNat_ofNat]

theorem toNat_injective {v w : Word} (same : v.toNat = w.toNat) : v = w :=
  ext (Bytes.toNat_injective (v.size.trans w.size.symm) same)

end Word

end HardwareSigner
