import HardwareSigner.Proofs.Secp256k1.Group
import HardwareSigner.Secp256k1.Key
import Mathlib.GroupTheory.OrderOfElement
/-!
The multiples of the base point, which are the public keys, and the two points over an abscissa.
-/

namespace HardwareSigner.Secp256k1
open WeierstrassCurve.Affine (Point)

theorem equation_of_onCurve {q : Secp256k1.Point} (on : q.onCurve = true) :
    curve.Equation (q.x : Coordinate) (q.y : Coordinate) := by
  simp only [Secp256k1.Point.onCurve, Bool.and_eq_true, beq_iff_eq] at on
  have same := congrArg (Nat.cast : Nat → Coordinate) on.2
  simp only [ZMod.natCast_mod, Nat.cast_add, Nat.cast_mul, Nat.cast_ofNat] at same
  rw [curve_equation_iff]
  linear_combination same

theorem base_on : basePoint.onCurve = true := by decide +kernel

/-- The base point as an element of the group. -/
def base : curve.Point :=
  .some _ _ (curve_nonsingular (equation_of_onCurve base_on))

theorem coordinates_base : coordinates base = basePoint := by
  have x_lt : basePoint.x < prime := by decide
  have y_lt : basePoint.y < prime := by decide
  show Secp256k1.Point.mk (basePoint.x : Coordinate).val (basePoint.y : Coordinate).val = basePoint
  rw [ZMod.val_cast_of_lt x_lt, ZMod.val_cast_of_lt y_lt]

theorem base_ne_zero : base ≠ 0 := nofun

theorem mul_base {k : Nat} (small : k < 2 ^ 256) :
    (Jacobian.mul k (.ofPoint basePoint)).Reduced ∧
      (Jacobian.mul k (.ofPoint basePoint)).Represents (k • base) := by
  obtain ⟨reduced, stands⟩ := Jacobian.ofPoint_represents base_ne_zero
  rw [coordinates_base] at reduced stands
  have product := Jacobian.mul_represents reduced stands k
  rw [Nat.mod_eq_of_lt small] at product
  exact product

/-- The multiples of the base point come round after `order` of them, and not earlier. -/
theorem addOrderOf_base : addOrderOf base = order := by
  have round : (Jacobian.mul order (.ofPoint basePoint)).z = 0 := by decide +kernel
  obtain ⟨-, stands⟩ := mul_base order_lt
  exact addOrderOf_eq_prime ((Jacobian.eq_zero_of_represents stands).mp round) base_ne_zero

theorem nsmul_base_eq_iff {m n : Nat} : m • base = n • base ↔ (m : ZMod order) = n := by
  rw [nsmul_eq_nsmul_iff_modEq, addOrderOf_base, ZMod.natCast_eq_natCast_iff]

theorem nsmul_base_eq_zero_iff {n : Nat} : n • base = 0 ↔ order ∣ n := by
  rw [← addOrderOf_base, addOrderOf_dvd_iff_nsmul_eq_zero]

theorem publicKey_point (key : SecretKey) :
    key.publicKey.point = coordinates (key.scalar • base) := by
  obtain ⟨reduced, stands⟩ := mul_base (Nat.lt_trans key.lt order_lt)
  exact Jacobian.toPoint_represents reduced stands

/-- The point in the other half of the curve. -/
theorem neg_nsmul_base {k : Nat} (small : k ≤ order) : (order - k) • base = -(k • base) := by
  have round : order • base = 0 := nsmul_base_eq_zero_iff.mpr (Nat.dvd_refl order)
  apply eq_neg_of_add_eq_zero_left
  rw [← add_nsmul, Nat.sub_add_cancel small]
  exact round

/-- A multiple of the base point that is not the identity is no point of order two either. -/
theorem exists_nsmul_base {k : Nat} (pos : 0 < k) (small : k < order) :
    ∃ x y, ∃ on : curve.Nonsingular x y, k • base = .some x y on ∧ y ≠ 0 := by
  have off : ¬ order ∣ k := Nat.not_dvd_of_pos_of_lt pos small
  cases point : k • base with
  | zero => exact absurd (nsmul_base_eq_zero_iff.mp point) off
  | some x y on =>
      refine ⟨x, y, on, rfl, ?_⟩
      intro flat
      have twice : (2 * k) • base = 0 := by
        rw [two_mul, add_nsmul, point]
        exact Point.add_self_of_Y_eq (by rw [negY_eq, flat, neg_zero])
      have even := (Nat.Prime.dvd_mul Fact.out).mp (nsmul_base_eq_zero_iff.mp twice)
      exact even.elim (Nat.not_dvd_of_pos_of_lt (by decide) (by decide)) off

theorem parity_sub {y : Nat} (small : y < prime) :
    ((prime - y) % 2 == 1) = !(y % 2 == 1) := by
  have odd : prime % 2 = 1 := by decide
  by_cases even : y % 2 = 0
  · have other : (prime - y) % 2 = 1 := by omega
    rw [even, other]
    rfl
  · have own : y % 2 = 1 := by omega
    have other : (prime - y) % 2 = 0 := by omega
    rw [own, other]
    rfl

theorem val_neg {y : Coordinate} (up : y ≠ 0) : (-y).val = prime - y.val := by
  rw [ZMod.neg_val, if_neg up]

/-- The square root that is taken is one of both ordinates. -/
theorem powMod_root {x y : Coordinate} (on : curve.Equation x y) :
    let root := powMod prime ((x.val * x.val % prime * x.val + 7) % prime) ((prime + 1) / 4)
    root * root % prime = (x.val * x.val % prime * x.val + 7) % prime ∧
      (root = y.val ∨ root = (-y).val) := by
  intro root
  have square : (((x.val * x.val % prime * x.val + 7) % prime : Nat) : Coordinate) = y ^ 2 := by
    rw [curve_equation_iff.mp on]
    simp only [ZMod.natCast_mod, Nat.cast_add, Nat.cast_mul, ZMod.natCast_zmod_val, Nat.cast_ofNat]
    ring
  have quarter : (prime + 1) / 4 < 2 ^ 256 := by decide
  have power : (root : Coordinate) = (y ^ 2) ^ ((prime + 1) / 4) := by
    rw [cast_powMod, Nat.mod_eq_of_lt quarter, square]
  have fermat : y ^ (prime + 1) = y ^ 2 := by
    have pow_card := ZMod.pow_card (p := prime) y
    rw [pow_succ, pow_card, ← pow_two]
  have squares : (root : Coordinate) * root = y * y := by
    have whole : 2 * ((prime + 1) / 4) + 2 * ((prime + 1) / 4) = prime + 1 := by decide
    rw [power, ← pow_mul, ← pow_add, whole, fermat, pow_two]
  have root_lt : root < prime := powMod_lt prime_pos _ _
  constructor
  · refine (cast_inj (Nat.mod_lt _ prime_pos) (Nat.mod_lt _ prime_pos)).mp ?_
    rw [square, ZMod.natCast_mod, Nat.cast_mul, squares, pow_two]
  · rcases mul_self_eq_mul_self_iff.mp squares with same | opposite
    · exact .inl (eq_val root_lt same)
    · exact .inr (eq_val root_lt opposite)

/-- Of both points over an abscissa the one with the asked parity is found. -/
theorem lift?_val {x y : Coordinate} (on : curve.Equation x y) (up : y ≠ 0) (odd : Bool) :
    Secp256k1.Point.lift? x.val odd =
      some ⟨x.val, if (y.val % 2 == 1) == odd then y.val else (-y).val⟩ := by
  obtain ⟨squares, root⟩ := powMod_root on
  have parity := parity_sub (ZMod.val_lt y)
  rw [← val_neg up] at parity
  simp only [Secp256k1.Point.lift?, if_pos (ZMod.val_lt x), if_pos squares]
  rcases root with same | opposite
  · rw [same, val_neg up]
  · rw [opposite, parity]
    have back : prime - (-y).val = y.val := by
      rw [val_neg up, Nat.sub_sub_self (Nat.le_of_lt (ZMod.val_lt y))]
    rw [back]
    cases y.val % 2 == 1 <;> cases odd <;> rfl

end HardwareSigner.Secp256k1
