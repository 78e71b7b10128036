import HardwareSigner.Bytes
/-! The curve `y² = x³ + 7` over a 256-bit prime field, its group law and its base point. -/

namespace HardwareSigner.Secp256k1

/-- The field prime. -/
def prime : Nat := 0xFFFFFFFFFFFFFFFFFFFFFFFFFFFFFFFFFFFFFFFFFFFFFFFFFFFFFFFEFFFFFC2F

/-- The order of the group of points. -/
def order : Nat := 0xFFFFFFFFFFFFFFFFFFFFFFFFFFFFFFFEBAAEDCE6AF48A03BBFD25E8CD0364141

theorem order_pos : 0 < order := by decide

theorem order_lt : order < 2 ^ 256 := by decide

/-- A power modulo `m`, for an exponent below `2 ^ 256`. -/
def powMod (m base exponent : Nat) : Nat :=
  (bitsOf 256 exponent).foldl (fun acc bit =>
    let square := acc * acc % m
    if bit then square * base % m else square) (1 % m)

/-- The inverse modulo a prime `m`; zero is sent to itself. -/
def invMod (m a : Nat) : Nat :=
  powMod m a (m - 2)

def sub (a b : Nat) : Nat := (a + prime - b) % prime

/-- A point in plane coordinates. -/
structure Point where
  x : Nat
  y : Nat
  deriving DecidableEq

def Point.onCurve (q : Point) : Bool :=
  q.x < prime && q.y < prime && q.y * q.y % prime == (q.x * q.x % prime * q.x + 7) % prime

/-- The point with a given abscissa whose ordinate is odd or even as asked. -/
def Point.lift? (x : Nat) (odd : Bool) : Option Point :=
  if x < prime then
    let square := (x * x % prime * x + 7) % prime
    let root := powMod prime square ((prime + 1) / 4)
    if root * root % prime = square then
      some ⟨x, if (root % 2 == 1) == odd then root else prime - root⟩
    else none
  else none

/-- The point `(x / z², y / z³)`, or the identity when `z` is zero. -/
structure Jacobian where
  x : Nat
  y : Nat
  z : Nat

namespace Jacobian

def identity : Jacobian := ⟨1, 1, 0⟩

def ofPoint (q : Point) : Jacobian := ⟨q.x, q.y, 1⟩

def double (q : Jacobian) : Jacobian :=
  let yy := q.y * q.y % prime
  let s := 4 * q.x * yy % prime
  let m := 3 * q.x * q.x % prime
  let x := sub (m * m % prime) (2 * s % prime)
  ⟨x, sub (m * sub s x % prime) (8 * yy * yy % prime), 2 * q.y * q.z % prime⟩

def add (q r : Jacobian) : Jacobian :=
  if q.z = 0 then r
  else if r.z = 0 then q
  else
    let qq := q.z * q.z % prime
    let rr := r.z * r.z % prime
    let u := q.x * rr % prime
    let v := r.x * qq % prime
    let s := q.y * rr % prime * r.z % prime
    let t := r.y * qq % prime * q.z % prime
    if u = v then if s = t then double q else identity
    else
      let h := sub v u
      let hh := h * h % prime
      let hhh := hh * h % prime
      let w := u * hh % prime
      let d := sub t s
      let x := sub (sub (d * d % prime) hhh) (2 * w % prime)
      ⟨x, sub (d * sub w x % prime) (s * hhh % prime), q.z * r.z % prime * h % prime⟩

def mul (k : Nat) (q : Jacobian) : Jacobian :=
  (bitsOf 256 k).foldl (fun acc bit => if bit then add (double acc) q else double acc) identity

/-- Plane coordinates; the identity has none and is sent to `(0, 0)`, off the curve. -/
def toPoint (q : Jacobian) : Point :=
  let inverse := invMod prime q.z
  let square := inverse * inverse % prime
  ⟨q.x * square % prime, q.y * square % prime * inverse % prime⟩

end Jacobian

def basePoint : Point :=
  ⟨0x79BE667EF9DCBBAC55A06295CE870B07029BFCDB2DCE28D959F2815B16F81798,
   0x483ADA7726A3C4655DA4FBFC0E1108A8FD17B448A68554199C47D08FFB10D4B8⟩

end HardwareSigner.Secp256k1
