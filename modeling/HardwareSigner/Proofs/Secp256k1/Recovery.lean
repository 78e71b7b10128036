import HardwareSigner.Proofs.Bytes
import HardwareSigner.Proofs.Secp256k1.Base
import HardwareSigner.Secp256k1.Ecdsa
/-! A signature and the hash it is over give the signer's key back. -/

namespace HardwareSigner
open Secp256k1

namespace Ecdsa

/-- The mark of the point that the first number of a signature came from. -/
def recoveryId (odd large : Bool) : UInt8 :=
  (if odd then 1 else 0) + (if large then 2 else 0)

theorem recoveryId_reads (odd large : Bool) :
    (recoveryId odd large % 2 == 1) = odd ∧ (recoveryId odd large ≥ 2 ↔ large = true) ∧
      ¬ recoveryId odd large > 3 ∧
      normalizeRecoveryId (recoveryId odd large) = recoveryId odd large := by
  cases odd <;> cases large <;> decide

theorem sign_ok {key : SecretKey} {hash : Word} {bs : Bytes} (signed : sign key hash = .ok bs) :
    ∃ (k : SecretKey) (r s : Nat), r = k.publicKey.point.x % order ∧
      s = invMod order k.scalar * ((hash.toNat + r * key.scalar) % order) % order ∧
      r ≠ 0 ∧ s ≠ 0 ∧
      bs = Bytes.ofNat 32 r ++ Bytes.ofNat 32 (if s > order / 2 then order - s else s) ++
        [recoveryId ((k.publicKey.point.y % 2 == 1) != decide (s > order / 2))
          (decide (k.publicKey.point.x ≥ order))] := by
  rw [sign] at signed
  cases drawn : nonce? key hash with
  | none =>
      rw [drawn, Option.elim_none] at signed
      cases signed
  | some k =>
      rw [drawn, Option.elim_some] at signed
      unfold signWith at signed
      dsimp only at signed
      refine ⟨k, _, _, rfl, rfl, ?_⟩
      -- the rest is the same for any numbers in the places of these
      generalize invMod order k.scalar * ((hash.toNat + k.publicKey.point.x % order * key.scalar) %
        order) % order = s at signed ⊢
      generalize k.publicKey.point = point at signed ⊢
      by_cases unusable : point.x % order = 0 ∨ s = 0
      · rw [if_pos unusable] at signed
        cases signed
      · rw [if_neg unusable] at signed
        obtain ⟨r_ne, s_ne⟩ := not_or.mp unusable
        refine ⟨r_ne, s_ne, ?_⟩
        rw [← Except.ok.inj signed, recoveryId]
        simp only [decide_eq_true_eq]

abbrev Scalar := ZMod order

theorem scalar_ne_zero {n : Nat} (pos : n ≠ 0) (small : n < order) : (n : Scalar) ≠ 0 := by
  rw [Ne, ZMod.natCast_eq_zero_iff]
  exact Nat.not_dvd_of_pos_of_lt (Nat.pos_of_ne_zero pos) small

theorem cast_inverse (n : Nat) : ((invMod order n : Nat) : Scalar) = (n : Scalar)⁻¹ :=
  cast_invMod (by decide) order_lt n

theorem mod_lt_order (n : Nat) : n % order < order := Nat.mod_lt n order_pos

/-- What a scalar, its point and a signature have to do with each other for the key to come out. -/
theorem keyFrom?_eq {hash : Word} {r s d k : Nat} (r_ne : (r : Scalar) ≠ 0)
    (d_pos : 0 < d) (d_lt : d < order) (k_pos : 0 < k) (k_lt : k < order)
    (balance : (s : Scalar) * k = hash.toNat + r * d) :
    keyFrom? hash r s (coordinates (k • base)) = some ⟨coordinates (d • base)⟩ := by
  have below : ∀ n, n % order < 2 ^ 256 := fun n => Nat.lt_trans (mod_lt_order n) order_lt
  obtain ⟨_, _, _, k_point, -⟩ := exists_nsmul_base k_pos k_lt
  obtain ⟨_, _, _, d_point, -⟩ := exists_nsmul_base d_pos d_lt
  have k_ne : k • base ≠ 0 := by
    rw [k_point]
    exact nofun
  have d_ne : d • base ≠ 0 := by
    rw [d_point]
    exact nofun
  have inverse : (r : Scalar)⁻¹ * r = 1 := inv_mul_cancel₀ r_ne
  let u := invMod order r * (order - hash.toNat % order) % order
  let v := invMod order r * s % order
  have u_cast : (u : Scalar) = (r : Scalar)⁻¹ * -hash.toNat := by
    simp only [u, ZMod.natCast_mod, Nat.cast_mul, cast_inverse,
      Nat.cast_sub (Nat.le_of_lt (mod_lt_order hash.toNat)), ZMod.natCast_self, zero_sub]
  have v_cast : (v : Scalar) = (r : Scalar)⁻¹ * s := by
    simp only [v, ZMod.natCast_mod, Nat.cast_mul, cast_inverse]
  have multiple : u • base + v • k • base = d • base := by
    rw [← mul_nsmul', ← add_nsmul, nsmul_base_eq_iff, Nat.cast_add, Nat.cast_mul, u_cast, v_cast]
    linear_combination (r : Scalar)⁻¹ * balance + (d : Scalar) * inverse
  obtain ⟨reduced, stands⟩ := Jacobian.ofPoint_represents k_ne
  obtain ⟨uReduced, uStands⟩ := mul_base (below (invMod order r * (order - hash.toNat % order)))
  obtain ⟨vReduced, vStands⟩ := Jacobian.mul_represents reduced stands v
  have sum := Jacobian.add_represents uReduced vReduced uStands vStands
  rw [Nat.mod_eq_of_lt (below (invMod order r * s)), multiple] at sum
  have sumReduced := Jacobian.reduced_add uReduced vReduced
  have plane := mt (Jacobian.eq_zero_of_represents sum).mp d_ne
  rw [← Jacobian.toPoint_represents sumReduced sum]
  exact if_neg plane

/-- Of the point that a scalar gave, the first number and the id keep enough to find it again. -/
theorem lift?_recoveryId {x y : Coordinate} (on : curve.Equation x y) (up : y ≠ 0) (high : Bool) :
    let id := recoveryId ((y.val % 2 == 1) != high) (decide (x.val ≥ order))
    Point.lift? (if id ≥ 2 then x.val % order + order else x.val % order) (id % 2 == 1) =
      some ⟨x.val, if high then (-y).val else y.val⟩ := by
  intro id
  obtain ⟨odd, large, -, -⟩ := recoveryId_reads ((y.val % 2 == 1) != high) (decide (x.val ≥ order))
  have x_lt := ZMod.val_lt x
  have less_twice : prime < 2 * order := by decide
  have abscissa : (if id ≥ 2 then x.val % order + order else x.val % order) = x.val := by
    by_cases above : x.val ≥ order
    · rw [if_pos (large.mpr (decide_eq_true above)), Nat.mod_eq_sub_mod above,
        Nat.mod_eq_of_lt (by omega), Nat.sub_add_cancel above]
    · rw [if_neg (mt large.mp (by rw [decide_eq_false above]; decide)),
        Nat.mod_eq_of_lt (Nat.lt_of_not_le above)]
  rw [abscissa, odd, lift?_val on up]
  cases y.val % 2 == 1 <;> cases high <;> rfl

theorem recoverFrom?_signature {key k : SecretKey} {hash : Word} {r s : Nat}
    (r_eq : r = k.publicKey.point.x % order)
    (s_eq : s = invMod order k.scalar * ((hash.toNat + r * key.scalar) % order) % order)
    (r_ne : r ≠ 0) :
    recoverFrom? hash r (if s > order / 2 then order - s else s)
      (recoveryId ((k.publicKey.point.y % 2 == 1) != decide (s > order / 2))
        (decide (k.publicKey.point.x ≥ order))) = some key.publicKey := by
  obtain ⟨x, y, on, k_point, up⟩ := exists_nsmul_base k.pos k.lt
  have point : k.publicKey.point = ⟨x.val, y.val⟩ := by
    rw [publicKey_point, k_point]
    rfl
  have r_lt : r < order := r_eq ▸ mod_lt_order _
  have s_lt : s < order := s_eq ▸ mod_lt_order _
  have k_inverse : (k.scalar : Scalar)⁻¹ * k.scalar = 1 :=
    inv_mul_cancel₀ (scalar_ne_zero (Nat.ne_of_gt k.pos) k.lt)
  have balance : (s : Scalar) * k.scalar = hash.toNat + r * key.scalar := by
    rw [s_eq]
    simp only [ZMod.natCast_mod, Nat.cast_mul, Nat.cast_add, cast_inverse]
    linear_combination ((hash.toNat : Scalar) + r * key.scalar) * k_inverse
  have found := lift?_recoveryId on.left up (decide (s > order / 2))
  rw [point] at r_eq ⊢
  dsimp only at found ⊢
  rw [← r_eq] at found
  have key_point : key.publicKey = ⟨coordinates (key.scalar • base)⟩ :=
    congrArg PublicKey.mk (publicKey_point key)
  rw [recoverFrom?, found, Option.bind_some, key_point]
  by_cases high : s > order / 2
  · have low : ¬ order - s > order / 2 := by omega
    have mirrored : coordinates ((order - k.scalar) • base) = ⟨x.val, (-y).val⟩ := by
      rw [neg_nsmul_base (Nat.le_of_lt k.lt), k_point, WeierstrassCurve.Affine.Point.neg_some]
      simp only [coordinates, negY_eq]
    have k_pos : 0 < order - k.scalar := Nat.sub_pos_of_lt k.lt
    have k_lt : order - k.scalar < order := Nat.sub_lt order_pos k.pos
    rw [if_pos high, if_neg low, decide_eq_true high, if_pos rfl, ← mirrored]
    refine keyFrom?_eq (scalar_ne_zero r_ne r_lt) key.pos key.lt k_pos k_lt ?_
    rw [Nat.cast_sub (Nat.le_of_lt s_lt), Nat.cast_sub (Nat.le_of_lt k.lt), ZMod.natCast_self]
    linear_combination balance
  · have upright : coordinates (k.scalar • base) = ⟨x.val, y.val⟩ := by
      rw [k_point]
      rfl
    rw [if_neg high, if_neg high, decide_eq_false high, if_neg Bool.false_ne_true, ← upright]
    exact keyFrom?_eq (scalar_ne_zero r_ne r_lt) key.pos key.lt k.pos k.lt balance

theorem recover_parts {hash : Word} {r s : Nat} {id : UInt8} {key : PublicKey}
    (r_ne : r ≠ 0) (r_lt : r < order) (s_ne : s ≠ 0) (s_lt : s < order) (known : ¬ id > 3)
    (plain : normalizeRecoveryId id = id) (found : recoverFrom? hash r s id = some key) :
    recover hash (Bytes.ofNat 32 r ++ Bytes.ofNat 32 s ++ [id]) = .ok key := by
  have fits : ∀ n, n < order → Bytes.toNat (Bytes.ofNat 32 n) = n := by
    intro n small
    rw [Bytes.toNat_ofNat, Nat.mod_eq_of_lt (Nat.lt_trans small order_lt)]
  have length : (Bytes.ofNat 32 r ++ Bytes.ofNat 32 s ++ [id]).length = 65 := by
    simp only [List.length_append, Bytes.length_ofNat, List.length_singleton]
  have first : (Bytes.ofNat 32 r ++ Bytes.ofNat 32 s ++ [id]).take 32 = Bytes.ofNat 32 r := by
    rw [List.append_assoc, List.take_left' (Bytes.length_ofNat 32 r)]
  have second : ((Bytes.ofNat 32 r ++ Bytes.ofNat 32 s ++ [id]).drop 32).take 32 =
      Bytes.ofNat 32 s := by
    rw [List.append_assoc, List.drop_left' (Bytes.length_ofNat 32 r),
      List.take_left' (Bytes.length_ofNat 32 s)]
  have last : (Bytes.ofNat 32 r ++ Bytes.ofNat 32 s ++ [id]).getD 64 0 = id := by
    have pair : (Bytes.ofNat 32 r ++ Bytes.ofNat 32 s).length = 64 := by
      simp only [List.length_append, Bytes.length_ofNat]
    rw [List.getD_eq_getElem?_getD, List.getElem?_append_right (Nat.le_of_eq pair), pair]
    rfl
  have inRange : ¬ (r = 0 ∨ order ≤ r ∨ s = 0 ∨ order ≤ s) := by omega
  rw [recover, if_neg (not_not_intro length), first, second, last]
  simp only [fits r r_lt, fits s s_lt, if_neg inRange, plain, if_neg known, found, Option.elim_some]

/-- Whatever is signed, the key of the signer can be told from the signature and the hash. -/
theorem recover_sign {key : SecretKey} {hash : Word} {bs : Bytes}
    (signed : sign key hash = .ok bs) : recover hash bs = .ok key.publicKey := by
  obtain ⟨k, r, s, r_eq, s_eq, r_ne, s_ne, rfl⟩ := sign_ok signed
  have found : recoverFrom? hash r _ _ = some key.publicKey := recoverFrom?_signature r_eq s_eq r_ne
  obtain ⟨-, -, known, plain⟩ := recoveryId_reads
    ((k.publicKey.point.y % 2 == 1) != decide (s > order / 2))
    (decide (k.publicKey.point.x ≥ order))
  have r_lt : r < order := r_eq ▸ mod_lt_order _
  have s_lt : s < order := s_eq ▸ mod_lt_order _
  refine recover_parts r_ne r_lt ?_ ?_ known plain found
  · split
    · omega
    · exact s_ne
  · split
    · omega
    · exact s_lt

end Ecdsa

end HardwareSigner
