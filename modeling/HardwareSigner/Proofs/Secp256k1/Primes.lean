import HardwareSigner.Proofs.Secp256k1.Powers
import Mathlib.Data.List.Prime
import Mathlib.NumberTheory.LucasPrimality
import Mathlib.Tactic.NormNum.Prime
/-!
The field prime and the order of the group are prime.  Every number in a certificate comes with a
base whose powers tell that the unit group is cyclic of full order, and with the prime factors of
its predecessor; these are certified before it.
-/

namespace HardwareSigner.Secp256k1

structure Certificate where
  number : Nat
  base : Nat
  /-- The factors of the predecessor, as often as they occur. -/
  factors : List Nat

/-- Lucas's test, with the factors taken to be prime. -/
def Certificate.passes (c : Certificate) : Bool :=
  1 < c.number && c.number < 2 ^ 256 && c.factors.prod == c.number - 1 &&
    powMod c.number c.base (c.number - 1) == 1 &&
    c.factors.all fun q => powMod c.number c.base ((c.number - 1) / q) != 1

/-- Every certificate passes, and its factors stand in front of it. -/
def certified : (known : List Nat) → List Certificate → Bool
  | _, [] => true
  | known, c :: rest =>
    c.passes && c.factors.all known.contains && certified (c.number :: known) rest

theorem pow_eq_one_iff {m base exponent : Nat} (above : 1 < m) (below : exponent < 2 ^ 256) :
    (base : ZMod m) ^ exponent = 1 ↔ powMod m base exponent = 1 := by
  have power := cast_powMod m base exponent
  rw [Nat.mod_eq_of_lt below] at power
  rw [← power, ← Nat.cast_one, ZMod.natCast_eq_natCast_iff, Nat.ModEq, Nat.mod_eq_of_lt above,
    Nat.mod_eq_of_lt (powMod_lt (Nat.lt_of_succ_lt above) base exponent)]

theorem Certificate.prime {c : Certificate} (passes : c.passes = true)
    (primes : ∀ q ∈ c.factors, q.Prime) : c.number.Prime := by
  simp only [Certificate.passes, Bool.and_eq_true, decide_eq_true_eq, beq_iff_eq,
    List.all_eq_true, bne_iff_ne] at passes
  obtain ⟨⟨⟨⟨above, below⟩, product⟩, full⟩, proper⟩ := passes
  apply lucas_primality c.number (c.base : ZMod c.number)
  · exact (pow_eq_one_iff above (by omega)).mpr full
  · intro q prime divides
    rw [← product] at divides
    obtain ⟨factor, known, divides⟩ := (Nat.Prime.prime prime).dvd_prod_iff.mp divides
    cases (Nat.prime_dvd_prime_iff_eq prime (primes factor known)).mp divides
    have less : (c.number - 1) / q ≤ c.number - 1 := Nat.div_le_self _ _
    exact mt (pow_eq_one_iff above (by omega)).mp (proper q known)

theorem prime_of_certified {known : List Nat} {certificates : List Certificate}
    (primes : ∀ q ∈ known, q.Prime) (checked : certified known certificates = true) :
    ∀ c ∈ certificates, c.number.Prime := by
  induction certificates generalizing known with
  | nil => nofun
  | cons c rest ih =>
      simp only [certified, Bool.and_eq_true, List.all_eq_true, List.contains_iff_mem] at checked
      obtain ⟨⟨passes, factors⟩, others⟩ := checked
      have first : c.number.Prime := c.prime passes fun q held => primes q (factors q held)
      intro c' held
      cases held with
      | head => exact first
      | tail _ later => exact ih (List.forall_mem_cons.mpr ⟨first, primes⟩) others c' later

def smallPrimes : List Nat :=
  [2, 3, 5, 7, 11, 17, 29, 31, 41, 53, 59, 97, 109, 149, 293, 461, 631, 797, 971, 1373, 1627, 1871,
    2011, 2621, 2657, 4051, 4423, 5323, 7723, 9349, 13441, 16699, 20113, 24809, 28181, 41201, 85831,
    96557, 120233, 305873]

def certificates : List Certificate :=
  [⟨13331831, 13, [2, 5, 971, 1373]⟩,
   ⟨173378833005251801, 6, [2, 2, 2, 5, 5, 2621, 24809, 13331831]⟩,
   ⟨22149492674086928081353, 5, [2, 2, 2, 3, 5323, 173378833005251801]⟩,
   ⟨132896956044521568488119, 6, [2, 3, 22149492674086928081353]⟩,
   ⟨1206781, 10, [2, 2, 3, 5, 20113]⟩,
   ⟨7240687, 3, [2, 3, 1206781]⟩,
   ⟨107590001, 3, [2, 2, 2, 2, 5, 5, 5, 5, 7, 29, 53]⟩,
   ⟨255515944373312847190720520512484175977, 3,
    [2, 2, 2, 7, 7, 11, 1627, 2657, 4423, 41201, 96557, 7240687, 107590001]⟩,
   ⟨205115282021455665897114700593932402728804164701536103180137503955397371, 10,
    [2, 3, 5, 29, 29, 31, 7723, 132896956044521568488119,
     255515944373312847190720520512484175977]⟩,
   ⟨prime, 3,
    [2, 3, 7, 13441, 205115282021455665897114700593932402728804164701536103180137503955397371]⟩,
   ⟨4681609, 23, [2, 2, 2, 3, 97, 2011]⟩,
   ⟨107361793816595537, 3, [2, 2, 2, 2, 16699, 85831, 4681609]⟩,
   ⟨44706919, 6, [2, 3, 797, 9349]⟩,
   ⟨174723607534414371449, 3, [2, 2, 2, 17, 59, 4051, 120233, 44706919]⟩,
   ⟨545358713, 5, [2, 2, 2, 41, 59, 28181]⟩,
   ⟨1627771, 3, [2, 3, 5, 29, 1871]⟩,
   ⟨297159362677, 2, [2, 2, 3, 3, 11, 461, 1627771]⟩,
   ⟨29047611873442575647497758179, 2, [2, 293, 305873, 545358713, 297159362677]⟩,
   ⟨341948486974166000522343609283189, 2, [2, 2, 3, 3, 3, 109, 29047611873442575647497758179]⟩,
   ⟨order, 7,
    [2, 2, 2, 2, 2, 2, 3, 149, 631, 107361793816595537, 174723607534414371449,
     341948486974166000522343609283189]⟩]

theorem prime_of_mem_smallPrimes : ∀ q ∈ smallPrimes, q.Prime := by
  norm_num [smallPrimes]

theorem prime_of_certificate {p : Nat} (held : p ∈ certificates.map Certificate.number) :
    p.Prime := by
  obtain ⟨c, listed, rfl⟩ := List.mem_map.mp held
  exact prime_of_certified prime_of_mem_smallPrimes (by decide +kernel) c listed

instance : Fact prime.Prime :=
  ⟨prime_of_certificate (by decide +kernel)⟩

instance : Fact order.Prime :=
  ⟨prime_of_certificate (by decide +kernel)⟩

end HardwareSigner.Secp256k1
