import HardwareSigner.Power
/-! Byte strings and their big-endian reading as numbers. -/

namespace HardwareSigner

abbrev Bytes := List UInt8

/-- The first `count` blocks of `size` elements each. -/
def firstBlocks {α : Type} (size : Nat) : (count : Nat) → List α → List (List α)
  | 0, _ => []
  | count + 1, xs => xs.take size :: firstBlocks size count (xs.drop size)

/-- Consecutive blocks of `size` elements; a shorter remainder is dropped. -/
def blocks {α : Type} (size : Nat) (xs : List α) : List (List α) :=
  firstBlocks size (xs.length / size) xs

/-- The lowest `width` bits of `x`, highest first. -/
def bitsOf (width x : Nat) : List Bool :=
  (List.range width).map fun i => x.testBit (width - 1 - i)

/-- The number written by the bits, highest first. -/
def ofBits (bits : List Bool) : Nat :=
  bits.foldl (fun n b => 2 * n + b.toNat) 0

namespace Bytes

/-- The `n` lowest bytes of `x`, highest first. -/
def ofNat : (n : Nat) → (x : Nat) → Bytes
  | 0, _ => []
  | n + 1, x => UInt8.ofNat (x / 256 ^ n) :: ofNat n x

/-- The number written by the bytes, highest first. -/
def toNat (bs : Bytes) : Nat :=
  bs.foldl (fun n b => n * 256 + b.toNat) 0

/-- The UTF-8 bytes of a text. -/
def ofString (s : String) : Bytes :=
  s.toUTF8.data.toList

/-- The text whose UTF-8 bytes these are. -/
def toString? (bs : Bytes) : Option String :=
  String.fromUTF8? ⟨bs.toArray⟩

@[simp] theorem length_ofNat (n x : Nat) : (ofNat n x).length = n := by
  induction n with
  | zero => rfl
  | succ n ih => simp [ofNat, ih]

end Bytes

/-- Thirty-two bytes: a hash, a word of encoded data, a chain code. -/
structure Word where
  bytes : Bytes
  size : bytes.length = 32
  deriving DecidableEq

namespace Word

/-- The big-endian word of `x`, reduced modulo `2 ^ 256`. -/
def ofNat (x : Nat) : Word :=
  ⟨Bytes.ofNat 32 x, by simp⟩

def toNat (w : Word) : Nat :=
  Bytes.toNat w.bytes

/-- At most thirty-two bytes with zero bytes put after them; longer strings are cut. -/
def padRight (bs : Bytes) : Word :=
  ⟨(bs ++ List.replicate 32 0).take 32, by simp⟩

def ofBytes? (bs : Bytes) : Option Word :=
  if h : bs.length = 32 then some ⟨bs, h⟩ else none

instance : Inhabited Word := ⟨ofNat 0⟩

end Word

end HardwareSigner
