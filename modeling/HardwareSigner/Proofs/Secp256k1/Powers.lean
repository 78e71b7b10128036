import HardwareSigner.Proofs.Bits
import HardwareSigner.Secp256k1.Curve
import Mathlib.Data.ZMod.Basic
import Mathlib.FieldTheory.Finite.Basic
import Mathlib.Tactic.Ring
/-! Powers and inverses taken by repeated squaring, as elements of the residue ring. -/

namespace HardwareSigner

namespace Secp256k1

theorem powMod_lt {m : Nat} (positive : 0 < m) (base exponent : Nat) :
    powMod m base exponent < m := by
  refine foldl_bitsOf (R := fun _ acc => acc < m) ?_ 256 exponent (n := 0) (Nat.mod_lt 1 positive)
  intro n acc bit _
  cases bit
  · exact Nat.mod_lt _ positive
  · exact Nat.mod_lt _ positive

theorem cast_powMod (m base exponent : Nat) :
    ((powMod m base exponent : Nat) : ZMod m) = (base : ZMod m) ^ (exponent % 2 ^ 256) := by
  have run := foldl_bitsOf (R := fun n acc => ((acc : Nat) : ZMod m) = (base : ZMod m) ^ n)
    (f := fun acc bit =>
      let square := acc * acc % m
      if bit then square * base % m else square) ?_ 256 exponent (n := 0) (a := 1 % m) ?_
  · rw [Nat.zero_mul, Nat.zero_add] at run
    exact run
  · intro n acc bit power
    cases bit
    · simp only [Bool.false_eq_true, if_false, ZMod.natCast_mod, Nat.cast_mul, power,
        Bool.toNat_false, Nat.add_zero]
      ring
    · simp only [if_true, ZMod.natCast_mod, Nat.cast_mul, power, Bool.toNat_true]
      ring
  · rw [ZMod.natCast_mod, Nat.cast_one, pow_zero]

theorem cast_invMod {m : Nat} [Fact m.Prime] (odd : 2 < m) (small : m < 2 ^ 256) (a : Nat) :
    ((invMod m a : Nat) : ZMod m) = (a : ZMod m)⁻¹ := by
  rw [invMod, cast_powMod, Nat.mod_eq_of_lt (by omega)]
  by_cases zero : (a : ZMod m) = 0
  · rw [zero, inv_zero, zero_pow (by omega)]
  · apply eq_inv_of_mul_eq_one_left
    have exponent : m - 2 + 1 = m - 1 := by omega
    rw [← pow_succ, exponent]
    exact ZMod.pow_card_sub_one_eq_one zero

end Secp256k1

end HardwareSigner
