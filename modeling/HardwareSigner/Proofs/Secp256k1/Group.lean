import HardwareSigner.Proofs.Secp256k1.Primes
import Mathlib.AlgebraicGeometry.EllipticCurve.Affine.Point
import Mathlib.Tactic.FieldSimp
import Mathlib.Tactic.LinearCombination
/-!
The formulas for triples of coordinates add points of the curve `y² = x³ + 7`, whose points are
known to be a group.
-/

namespace HardwareSigner.Secp256k1

abbrev Coordinate := ZMod prime

def curve : WeierstrassCurve.Affine Coordinate := ⟨0, 0, 0, 0, 7⟩

theorem prime_pos : 0 < prime := by decide

theorem one_lt : 1 < prime := by decide

theorem natCast_ne_zero {n : Nat} (positive : 0 < n) (small : n < prime) :
    (n : Coordinate) ≠ 0 := by
  rw [Ne, ZMod.natCast_eq_zero_iff]
  exact Nat.not_dvd_of_pos_of_lt positive small

theorem curve_equation_iff {x y : Coordinate} : curve.Equation x y ↔ y ^ 2 = x ^ 3 + 7 := by
  rw [WeierstrassCurve.Affine.equation_iff]
  simp only [curve, zero_mul, add_zero]

theorem curve_nonsingular {x y : Coordinate} (on : curve.Equation x y) : curve.Nonsingular x y := by
  refine (curve.equation_iff_nonsingular_of_Δ_ne_zero ?_).mp on
  have value : curve.Δ = -((16 * 27 * 49 : Nat) : Coordinate) := by
    simp only [WeierstrassCurve.Δ, WeierstrassCurve.b₂, WeierstrassCurve.b₄, WeierstrassCurve.b₆,
      WeierstrassCurve.b₈, curve]
    push_cast
    ring
  rw [value, neg_ne_zero]
  exact natCast_ne_zero (by decide) (by decide)

theorem negY_eq (x y : Coordinate) : curve.negY x y = -y := by
  simp only [WeierstrassCurve.Affine.negY, curve, zero_mul, sub_zero]

theorem sub_lt (a b : Nat) : sub a b < prime :=
  Nat.mod_lt _ prime_pos

theorem cast_sub (a : Nat) {b : Nat} (small : b < prime) :
    ((sub a b : Nat) : Coordinate) = a - b := by
  rw [sub, ZMod.natCast_mod, Nat.cast_sub (by omega), Nat.cast_add, ZMod.natCast_self, add_zero]

theorem cast_inj {a b : Nat} (ha : a < prime) (hb : b < prime) :
    (a : Coordinate) = b ↔ a = b := by
  rw [ZMod.natCast_eq_natCast_iff, Nat.ModEq, Nat.mod_eq_of_lt ha, Nat.mod_eq_of_lt hb]

theorem two_ne_zero : (2 : Coordinate) ≠ 0 := by
  have two : ((2 : Nat) : Coordinate) ≠ 0 := natCast_ne_zero (by decide) (by decide)
  exact_mod_cast two

section
open WeierstrassCurve.Affine (Point)
variable {x y x₁ y₁ x₂ y₂ : Coordinate}

/-- The tangent at a point that is not its own negative. -/
theorem double_point (on : curve.Nonsingular x y) (steep : y ≠ 0) :
    ∃ l x' y', ∃ on' : curve.Nonsingular x' y',
      Point.some x y on + Point.some x y on = .some x' y' on' ∧
      l * (2 * y) = 3 * x ^ 2 ∧ x' = l ^ 2 - 2 * x ∧ y' = -(l * (x' - x) + y) := by
  have other : y ≠ curve.negY x y := by
    rw [negY_eq]
    intro same
    have twice : 2 * y = 0 := by linear_combination same
    exact (mul_eq_zero.mp twice).elim two_ne_zero steep
  refine ⟨curve.slope x x y y, _, _, _, Point.add_self_of_Y_ne other, ?_, ?_, ?_⟩
  · have den : y - -y = 2 * y := by ring
    rw [WeierstrassCurve.Affine.slope_of_Y_ne rfl other, negY_eq, den,
      div_mul_cancel₀ _ (mul_ne_zero two_ne_zero steep)]
    simp only [curve]
    ring
  · simp only [WeierstrassCurve.Affine.addX, curve]
    ring
  · simp only [WeierstrassCurve.Affine.addY, WeierstrassCurve.Affine.negAddY, negY_eq]

/-- The chord through points one of which is not above the other. -/
theorem add_points (on₁ : curve.Nonsingular x₁ y₁) (on₂ : curve.Nonsingular x₂ y₂)
    (slanted : x₁ ≠ x₂) :
    ∃ l x' y', ∃ on' : curve.Nonsingular x' y',
      Point.some x₁ y₁ on₁ + Point.some x₂ y₂ on₂ = .some x' y' on' ∧
      l * (x₁ - x₂) = y₁ - y₂ ∧ x' = l ^ 2 - x₁ - x₂ ∧ y' = -(l * (x' - x₁) + y₁) := by
  refine ⟨curve.slope x₁ x₂ y₁ y₂, _, _, _, Point.add_of_X_ne slanted, ?_, ?_, ?_⟩
  · rw [WeierstrassCurve.Affine.slope_of_X_ne slanted, div_mul_cancel₀ _ (sub_ne_zero.mpr slanted)]
  · simp only [WeierstrassCurve.Affine.addX, curve]
    ring
  · simp only [WeierstrassCurve.Affine.addY, WeierstrassCurve.Affine.negAddY, negY_eq]

theorem opposite (on₁ : curve.Nonsingular x y₁) (on₂ : curve.Nonsingular x y₂) (other : y₁ ≠ y₂) :
    y₁ = -y₂ := by
  have first := curve_equation_iff.mp on₁.left
  have second := curve_equation_iff.mp on₂.left
  have product : (y₁ - y₂) * (y₁ + y₂) = 0 := by linear_combination first - second
  exact eq_neg_of_add_eq_zero_left ((mul_eq_zero.mp product).resolve_left (sub_ne_zero.mpr other))

end

namespace Jacobian

structure Reduced (q : Jacobian) : Prop where
  x : q.x < prime
  y : q.y < prime
  z : q.z < prime

/-- The triple stands for the point. -/
inductive Represents (q : Jacobian) : curve.Point → Prop where
  | identity (zero : q.z = 0) : Represents q .zero
  | plane {x y : Coordinate} (on : curve.Nonsingular x y) (z_ne : q.z ≠ 0)
      (abscissa : (q.x : Coordinate) = x * q.z ^ 2) (ordinate : (q.y : Coordinate) = y * q.z ^ 3) :
      Represents q (.some x y on)

theorem cast_double (q : Jacobian) :
    (q.double.x : Coordinate) = 9 * q.x ^ 4 - 8 * q.x * q.y ^ 2 ∧
      (q.double.y : Coordinate) =
        3 * q.x ^ 2 * (4 * q.x * q.y ^ 2 - q.double.x) - 8 * q.y ^ 4 ∧
      (q.double.z : Coordinate) = 2 * q.y * q.z := by
  have mod_lt : ∀ n, n % prime < prime := fun n => Nat.mod_lt n prime_pos
  refine ⟨?_, ?_, ?_⟩
  · simp only [double, cast_sub _ (mod_lt _), ZMod.natCast_mod, Nat.cast_mul, Nat.cast_ofNat]
    ring
  · simp only [double, cast_sub _ (mod_lt _), cast_sub _ (sub_lt _ _), ZMod.natCast_mod,
      Nat.cast_mul, Nat.cast_ofNat]
    ring
  · simp only [double, ZMod.natCast_mod, Nat.cast_mul, Nat.cast_ofNat]

theorem reduced_double (q : Jacobian) : q.double.Reduced :=
  ⟨sub_lt _ _, sub_lt _ _, Nat.mod_lt _ prime_pos⟩

theorem cast_z_ne_zero {q : Jacobian} (reduced : q.Reduced) (plane : q.z ≠ 0) :
    (q.z : Coordinate) ≠ 0 :=
  natCast_ne_zero (Nat.pos_of_ne_zero plane) reduced.z

theorem z_ne_zero_of_cast {q : Jacobian} (plane : (q.z : Coordinate) ≠ 0) : q.z ≠ 0 := by
  intro zero
  rw [zero, Nat.cast_zero] at plane
  exact plane rfl

theorem double_represents {q : Jacobian} {P : curve.Point} (reduced : q.Reduced)
    (stands : q.Represents P) : q.double.Represents (P + P) := by
  obtain ⟨x', y', z'⟩ := cast_double q
  cases stands with
  | identity zero =>
      refine .identity ?_
      simp only [double, zero, mul_zero, Nat.zero_mod]
  | @plane x y on plane abscissa ordinate =>
      have z_ne := cast_z_ne_zero reduced plane
      by_cases flat : y = 0
      · rw [WeierstrassCurve.Affine.Point.add_self_of_Y_eq (by rw [negY_eq, flat, neg_zero])]
        refine .identity ?_
        rw [flat, zero_mul] at ordinate
        rw [ordinate, mul_zero, zero_mul, ← Nat.cast_zero] at z'
        exact (cast_inj (reduced_double q).z prime_pos).mp z'
      · obtain ⟨l, x₃, y₃, on₃, sum, slope, x₃_eq, y₃_eq⟩ := double_point on flat
        rw [abscissa, ordinate] at x'
        rw [abscissa, ordinate] at y'
        rw [ordinate] at z'
        have abscissa' : (q.double.x : Coordinate) = x₃ * q.double.z ^ 2 := by
          rw [x', z', x₃_eq]
          linear_combination -(q.z : Coordinate) ^ 8 * (l * (2 * y) + 3 * x ^ 2) * slope
        rw [sum]
        refine .plane on₃ (z_ne_zero_of_cast ?_) abscissa' ?_
        · rw [z']
          exact mul_ne_zero (mul_ne_zero two_ne_zero (mul_ne_zero flat (pow_ne_zero 3 z_ne))) z_ne
        · rw [y', abscissa', z', y₃_eq]
          linear_combination 4 * (q.z : Coordinate) ^ 12 * y ^ 2 * (x₃ - x) * slope

/-- The abscissa of the first of two points over their common denominator. -/
def scaledX (q r : Jacobian) : Nat := q.x * (r.z * r.z % prime) % prime

def scaledY (q r : Jacobian) : Nat := q.y * (r.z * r.z % prime) % prime * r.z % prime

theorem scaledX_lt (q r : Jacobian) : scaledX q r < prime := Nat.mod_lt _ prime_pos

theorem scaledY_lt (q r : Jacobian) : scaledY q r < prime := Nat.mod_lt _ prime_pos

theorem add_same {q r : Jacobian} (hq : q.z ≠ 0) (hr : r.z ≠ 0)
    (upright : scaledX q r = scaledX r q) :
    q.add r = if scaledY q r = scaledY r q then q.double else identity := by
  rw [add, if_neg hq, if_neg hr]
  exact if_pos upright

theorem cast_add_other {q r : Jacobian} (hq : q.z ≠ 0) (hr : r.z ≠ 0)
    (slanted : scaledX q r ≠ scaledX r q) :
    ∃ h d : Coordinate, h = scaledX r q - scaledX q r ∧ d = scaledY r q - scaledY q r ∧
      ((q.add r).x : Coordinate) = d ^ 2 - h ^ 3 - 2 * (scaledX q r * h ^ 2) ∧
      ((q.add r).y : Coordinate) =
        d * (scaledX q r * h ^ 2 - (q.add r).x) - scaledY q r * h ^ 3 ∧
      ((q.add r).z : Coordinate) = q.z * r.z * h ∧ (q.add r).Reduced := by
  have mod_lt : ∀ n, n % prime < prime := fun n => Nat.mod_lt n prime_pos
  have parts : ∃ h d, h = sub (scaledX r q) (scaledX q r) ∧ d = sub (scaledY r q) (scaledY q r) ∧
      q.add r =
        let x := sub (sub (d * d % prime) (h * h % prime * h % prime))
          (2 * (scaledX q r * (h * h % prime) % prime) % prime)
        ⟨x, sub (d * sub (scaledX q r * (h * h % prime) % prime) x % prime)
          (scaledY q r * (h * h % prime * h % prime) % prime), q.z * r.z % prime * h % prime⟩ := by
    refine ⟨_, _, rfl, rfl, ?_⟩
    rw [add, if_neg hq, if_neg hr]
    exact if_neg slanted
  obtain ⟨h, d, h_eq, d_eq, sum⟩ := parts
  refine ⟨h, d, ?_, ?_, ?_, ?_, ?_, ?_⟩
  · rw [h_eq, cast_sub _ (scaledX_lt q r)]
  · rw [d_eq, cast_sub _ (scaledY_lt q r)]
  · rw [sum]
    simp only [cast_sub _ (mod_lt _), ZMod.natCast_mod, Nat.cast_mul, Nat.cast_ofNat]
    ring
  · rw [sum]
    simp only [cast_sub _ (mod_lt _), cast_sub _ (sub_lt _ _), ZMod.natCast_mod, Nat.cast_mul,
      Nat.cast_ofNat]
    ring
  · rw [sum]
    simp only [ZMod.natCast_mod, Nat.cast_mul]
  · rw [sum]
    exact ⟨sub_lt _ _, sub_lt _ _, mod_lt _⟩

theorem reduced_add {q r : Jacobian} (hq : q.Reduced) (hr : r.Reduced) : (q.add r).Reduced := by
  by_cases qz : q.z = 0
  · rw [add, if_pos qz]
    exact hr
  by_cases rz : r.z = 0
  · rw [add, if_neg qz, if_pos rz]
    exact hq
  by_cases upright : scaledX q r = scaledX r q
  · rw [add_same qz rz upright]
    split
    · exact reduced_double q
    · exact ⟨by decide, by decide, by decide⟩
  · obtain ⟨_, _, _, _, _, _, _, reduced⟩ := cast_add_other qz rz upright
    exact reduced

theorem cast_scaled {q r : Jacobian} {x y : Coordinate}
    (abscissa : (q.x : Coordinate) = x * q.z ^ 2) (ordinate : (q.y : Coordinate) = y * q.z ^ 3) :
    (scaledX q r : Coordinate) = x * (q.z * r.z) ^ 2 ∧
      (scaledY q r : Coordinate) = y * (q.z * r.z) ^ 3 := by
  constructor
  · simp only [scaledX, ZMod.natCast_mod, Nat.cast_mul, abscissa]
    ring
  · simp only [scaledY, ZMod.natCast_mod, Nat.cast_mul, ordinate]
    ring

theorem add_represents {q r : Jacobian} {P Q : curve.Point} (hq : q.Reduced) (hr : r.Reduced)
    (first : q.Represents P) (second : r.Represents Q) : (q.add r).Represents (P + Q) := by
  cases first with
  | identity zero =>
      rw [add, if_pos zero]
      exact second
  | @plane x y on qz qx qy =>
      cases second with
      | identity zero =>
          rw [add, if_neg qz, if_pos zero]
          exact .plane on qz qx qy
      | @plane x₂ y₂ on₂ rz rx ry =>
          have w_ne : (q.z * r.z : Coordinate) ≠ 0 :=
            mul_ne_zero (cast_z_ne_zero hq qz) (cast_z_ne_zero hr rz)
          have commutes : (r.z * q.z : Coordinate) = q.z * r.z := mul_comm _ _
          obtain ⟨u, s⟩ := cast_scaled (r := r) qx qy
          obtain ⟨v, t⟩ := cast_scaled (r := q) rx ry
          rw [commutes] at v t
          have upright_iff : scaledX q r = scaledX r q ↔ x = x₂ := by
            rw [← cast_inj (scaledX_lt q r) (scaledX_lt r q), u, v]
            exact mul_left_inj' (pow_ne_zero 2 w_ne)
          have same_iff : scaledY q r = scaledY r q ↔ y = y₂ := by
            rw [← cast_inj (scaledY_lt q r) (scaledY_lt r q), s, t]
            exact mul_left_inj' (pow_ne_zero 3 w_ne)
          by_cases upright : x = x₂
          · subst upright
            rw [add_same qz rz (upright_iff.mpr rfl)]
            by_cases same : y = y₂
            · subst same
              rw [if_pos (same_iff.mpr rfl)]
              exact double_represents hq (.plane on qz qx qy)
            · rw [if_neg (mt same_iff.mp same), WeierstrassCurve.Affine.Point.add_of_Y_eq rfl
                (by rw [negY_eq]; exact opposite on on₂ same)]
              exact .identity rfl
          · obtain ⟨l, x₃, y₃, on₃, sum, slope, x₃_eq, y₃_eq⟩ := add_points on on₂ upright
            obtain ⟨h, d, h_eq, d_eq, x', y', z', -⟩ :=
              cast_add_other qz rz (mt upright_iff.mp upright)
            rw [u, v] at h_eq
            rw [s, t] at d_eq
            have abscissa : ((q.add r).x : Coordinate) = x₃ * (q.add r).z ^ 2 := by
              rw [x', z', u, x₃_eq, h_eq, d_eq]
              linear_combination (q.z * r.z : Coordinate) ^ 6 *
                (-(l * (x - x₂)) - (y - y₂)) * slope
            rw [sum]
            refine .plane on₃ (z_ne_zero_of_cast ?_) abscissa ?_
            · rw [z', h_eq, ← sub_mul]
              exact mul_ne_zero w_ne (mul_ne_zero (sub_ne_zero.mpr (Ne.symm upright))
                (pow_ne_zero 2 w_ne))
            · rw [y', abscissa, z', u, s, y₃_eq, h_eq, d_eq]
              linear_combination (q.z * r.z : Coordinate) ^ 9 * (x - x₂) ^ 2 * (x - x₃) * slope

theorem step_represents {q acc : Jacobian} {P : curve.Point} {n : Nat} (reduced : q.Reduced)
    (stands : q.Represents P) (before : acc.Reduced ∧ acc.Represents (n • P)) (bit : Bool) :
    (if bit then add (double acc) q else double acc).Reduced ∧
      (if bit then add (double acc) q else double acc).Represents ((2 * n + bit.toNat) • P) := by
  obtain ⟨accReduced, accStands⟩ := before
  have doubled := double_represents accReduced accStands
  rw [← two_nsmul, ← mul_nsmul] at doubled
  cases bit with
  | false =>
      simp only [Bool.false_eq_true, if_false, Bool.toNat_false, Nat.add_zero]
      rw [Nat.mul_comm 2 n]
      exact ⟨reduced_double acc, doubled⟩
  | true =>
      have sum := add_represents (reduced_double acc) reduced doubled stands
      rw [← succ_nsmul] at sum
      simp only [if_true, Bool.toNat_true]
      rw [Nat.mul_comm 2 n]
      exact ⟨reduced_add (reduced_double acc) reduced, sum⟩

theorem mul_represents {q : Jacobian} {P : curve.Point} (reduced : q.Reduced)
    (stands : q.Represents P) (k : Nat) :
    (mul k q).Reduced ∧ (mul k q).Represents ((k % 2 ^ 256) • P) := by
  let R (n : Nat) (acc : Jacobian) := acc.Reduced ∧ acc.Represents (n • P)
  have start : R 0 identity := by
    refine ⟨⟨by decide, by decide, by decide⟩, ?_⟩
    rw [zero_nsmul]
    exact .identity rfl
  have run : R (0 * 2 ^ 256 + k % 2 ^ 256) (mul k q) :=
    foldl_bitsOf (R := R) (fun n acc bit before => step_represents reduced stands before bit) 256 k
      start
  rw [Nat.zero_mul, Nat.zero_add] at run
  exact run

theorem eq_zero_of_represents {q : Jacobian} {P : curve.Point} (stands : q.Represents P) :
    q.z = 0 ↔ P = 0 := by
  cases stands with
  | identity zero => exact iff_of_true zero rfl
  | plane on z_ne => exact iff_of_false z_ne nofun

end Jacobian

/-- The plane coordinates of a point; the identity has none. -/
def coordinates : curve.Point → Point
  | .zero => ⟨0, 0⟩
  | .some x y _ => ⟨x.val, y.val⟩

theorem eq_val {n : Nat} {x : Coordinate} (small : n < prime) (same : (n : Coordinate) = x) :
    n = x.val := by
  rw [← same, ZMod.val_cast_of_lt small]

namespace Jacobian

theorem toPoint_represents {q : Jacobian} {P : curve.Point} (reduced : q.Reduced)
    (stands : q.Represents P) : q.toPoint = coordinates P := by
  have inverse : ((invMod prime q.z : Nat) : Coordinate) = (q.z : Coordinate)⁻¹ :=
    cast_invMod (by decide) (by decide) q.z
  have mod_lt : ∀ n, n % prime < prime := fun n => Nat.mod_lt n prime_pos
  have eq_of_cast : ∀ {x y : Coordinate}, (q.toPoint.x : Coordinate) = x →
      (q.toPoint.y : Coordinate) = y → q.toPoint = ⟨x.val, y.val⟩ := by
    rintro x y abscissa ordinate
    have left : q.toPoint.x = x.val := eq_val (mod_lt _) abscissa
    have right : q.toPoint.y = y.val := eq_val (mod_lt _) ordinate
    rw [← left, ← right]
  cases stands with
  | identity zero =>
      rw [zero, Nat.cast_zero, inv_zero] at inverse
      have origin : q.toPoint = ⟨(0 : Coordinate).val, (0 : Coordinate).val⟩ := by
        apply eq_of_cast
        · simp only [toPoint, zero, ZMod.natCast_mod, Nat.cast_mul, inverse, mul_zero]
        · simp only [toPoint, zero, ZMod.natCast_mod, Nat.cast_mul, inverse, mul_zero]
      rw [ZMod.val_zero] at origin
      exact origin
  | @plane x y on plane abscissa ordinate =>
      have z_ne := cast_z_ne_zero reduced plane
      refine eq_of_cast ?_ ?_
      · simp only [toPoint, ZMod.natCast_mod, Nat.cast_mul, inverse, abscissa]
        field_simp
      · simp only [toPoint, ZMod.natCast_mod, Nat.cast_mul, inverse, ordinate]
        field_simp

theorem ofPoint_represents {P : curve.Point} (plane : P ≠ 0) :
    (ofPoint (coordinates P)).Reduced ∧ (ofPoint (coordinates P)).Represents P := by
  cases P with
  | zero => exact absurd rfl plane
  | some x y on =>
      refine ⟨⟨ZMod.val_lt x, ZMod.val_lt y, one_lt⟩, .plane on Nat.one_ne_zero ?_ ?_⟩
      · simp only [ofPoint, coordinates, ZMod.natCast_zmod_val, Nat.cast_one, one_pow, mul_one]
      · simp only [ofPoint, coordinates, ZMod.natCast_zmod_val, Nat.cast_one, one_pow, mul_one]

end Jacobian

end HardwareSigner.Secp256k1
