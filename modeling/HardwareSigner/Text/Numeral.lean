import HardwareSigner.Power
/-! Numbers written with digits, in the two forms that schemas and messages use. -/

namespace HardwareSigner.Text

/-- The value of a digit below sixteen, of either case. -/
def digit? (c : Char) : Option Nat :=
  let n := c.toNat
  if 48 ≤ n ∧ n ≤ 57 then some (n - 48)
  else if 97 ≤ n ∧ n ≤ 102 then some (n - 87)
  else if 65 ≤ n ∧ n ≤ 70 then some (n - 55)
  else none

/-- Appends the digits of `cs` to the number `acc`; each must be below `base`, and every number on
the way below `bound`. -/
def digits? (base bound : Nat) : (acc : Nat) → List Char → Option Nat
  | acc, [] => some acc
  | acc, c :: cs =>
    match digit? c with
    | some d =>
      if d < base ∧ acc * base + d < bound then digits? base bound (acc * base + d) cs else none
    | none => none

/-- Decimal digits, at least one, after an optional plus sign. -/
def decimal? (bound : Nat) : List Char → Option Nat
  | [] => none
  | ['+'] => none
  | '+' :: cs => digits? 10 bound 0 cs
  | cs => digits? 10 bound 0 cs

/-- Digits between which underscores may stand; no digit at all means zero. -/
def grouped? (base : Nat) (cs : List Char) : Option Nat :=
  digits? base (2 ^ 256) 0 (cs.filter (· ≠ '_'))

/-- The `width` lowest digits of `n` in lower case. -/
def hexDigits : (width : Nat) → (n : Nat) → List Char
  | 0, _ => []
  | width + 1, n => hexDigits width (n / 16) ++ [Nat.digitChar (n % 16)]

/-- A fixed number of hexadecimal digits behind a `0x`. -/
def hexMarked (width n : Nat) : String :=
  String.ofList ('0' :: 'x' :: hexDigits width n)

/-- Hexadecimal digits without leading zeros. -/
def hexPlain (n : Nat) : List Char :=
  Nat.toDigits 16 n

end HardwareSigner.Text
