import HardwareSigner.Bech32
import HardwareSigner.Proofs.Bits
/-!
Bytes in groups of five bits.  The groups give the bytes back, and groups that hold a whole number of
bytes are those of their bytes, with nothing behind them.
-/

namespace HardwareSigner.Bech32

/-- The bits of bytes end to end. -/
def byteBits (bs : Bytes) : List Bool :=
  bs.flatMap fun b => bitsOf 8 b.toNat

/-- The bits of groups end to end. -/
def fiveBits (fives : List Nat) : List Bool :=
  fives.flatMap (bitsOf 5)

theorem length_byteBits (bs : Bytes) : (byteBits bs).length = 8 * bs.length := by
  induction bs with
  | nil => rfl
  | cons b bs ih =>
      rw [byteBits] at ih
      rw [byteBits, List.flatMap_cons, List.length_append, length_bitsOf, ih, List.length_cons]
      omega

theorem length_fiveBits (fives : List Nat) : (fiveBits fives).length = 5 * fives.length := by
  induction fives with
  | nil => rfl
  | cons five fives ih =>
      rw [fiveBits] at ih
      rw [fiveBits, List.flatMap_cons, List.length_append, length_bitsOf, ih, List.length_cons]
      omega

theorem fiveBits_take {fives : List Nat} {count : Nat} (within : count ≤ fives.length) :
    fiveBits (fives.take count) = (fiveBits fives).take (5 * count) := by
  have front : (fiveBits (fives.take count)).length = 5 * count := by
    rw [length_fiveBits, List.length_take_of_le within]
  have split : fiveBits fives = fiveBits (fives.take count) ++ fiveBits (fives.drop count) := by
    rw [fiveBits, fiveBits, fiveBits, ← List.flatMap_append, List.take_append_drop]
  rw [split, List.take_left' front]

/-- The zeros that fill up the last group. -/
def filling (bs : Bytes) : List Bool :=
  List.replicate ((5 - (byteBits bs).length % 5) % 5) false

theorem toFives_eq (bs : Bytes) :
    toFives bs = (blocks 5 (byteBits bs ++ filling bs)).map ofBits := rfl

/-- Blocks as numbers, and these as bits again, are what was cut into blocks. -/
theorem flatMap_bitsOf_firstBlocks {size count : Nat} {bits : List Bool}
    (enough : size * count ≤ bits.length) :
    ((firstBlocks size count bits).map ofBits).flatMap (bitsOf size) = bits.take (size * count) := by
  have back (block : List Bool) (held : block ∈ firstBlocks size count bits) :
      bitsOf size (ofBits block) = block :=
    bitsOf_ofBits (length_of_mem_firstBlocks enough held)
  rw [List.flatMap_map, List.flatMap_congr back, List.flatMap_id', flatten_firstBlocks]

theorem ofFives_eq (fives : List Nat) :
    ofFives fives = (blocks 8 (fiveBits fives)).map fun bits => UInt8.ofNat (ofBits bits) := rfl

theorem length_ofFives (fives : List Nat) : (ofFives fives).length = 5 * fives.length / 8 := by
  rw [ofFives_eq, List.length_map, blocks, length_firstBlocks, length_fiveBits]

theorem length_toFives (bs : Bytes) : (toFives bs).length = (8 * bs.length + 4) / 5 := by
  rw [toFives_eq, List.length_map, blocks, length_firstBlocks, List.length_append, filling,
    List.length_replicate, length_byteBits]
  omega

theorem toFives_lt {bs : Bytes} {five : Nat} (held : five ∈ toFives bs) : five < 32 := by
  obtain ⟨block, cut, rfl⟩ := List.mem_map.mp held
  have five : block.length = 5 := length_of_mem_firstBlocks (Nat.mul_div_le _ 5) cut
  exact Nat.lt_of_lt_of_eq (ofBits_lt block) (congrArg (2 ^ ·) five)

/-- The groups hold the bits of the bytes, and zeros. -/
theorem fiveBits_toFives (bs : Bytes) :
    fiveBits (toFives bs) = byteBits bs ++ filling bs := by
  have whole : 5 * ((byteBits bs ++ filling bs).length / 5) = (byteBits bs ++ filling bs).length := by
    rw [List.length_append, filling, List.length_replicate, length_byteBits]
    omega
  rw [fiveBits, toFives_eq, blocks, flatMap_bitsOf_firstBlocks whole.le, whole, List.take_length]

/-- Groups give the bytes back. -/
theorem ofFives_toFives (bs : Bytes) : ofFives (toFives bs) = bs := by
  have count : (byteBits bs ++ filling bs).length / 8 = bs.length := by
    rw [List.length_append, filling, List.length_replicate, length_byteBits]
    omega
  have cut : firstBlocks 8 bs.length (byteBits bs ++ filling bs) =
      bs.map fun b => bitsOf 8 b.toNat :=
    firstBlocks_flatMap (fun b _ => length_bitsOf 8 b.toNat) (filling bs)
  have byte (b : UInt8) : UInt8.ofNat (ofBits (bitsOf 8 b.toNat)) = b := by
    rw [ofBits_bitsOf b.toNat_lt, UInt8.ofNat_toNat]
  rw [ofFives_eq, fiveBits_toFives, blocks, count, cut, List.map_map]
  exact (List.map_congr_left fun b _ => byte b).trans (List.map_id' bs)

/-- The bits of the bytes that groups are read as are the first of the groups' own. -/
theorem byteBits_ofFives (fives : List Nat) :
    byteBits (ofFives fives) = (fiveBits fives).take (8 * (ofFives fives).length) := by
  have enough : 8 * (ofFives fives).length ≤ (fiveBits fives).length := by
    rw [length_ofFives, length_fiveBits]
    exact Nat.mul_div_le _ 8
  have cut : blocks 8 (fiveBits fives) =
      firstBlocks 8 (ofFives fives).length (fiveBits fives) := by
    rw [blocks, length_fiveBits, length_ofFives]
  have byte (block : List Bool)
      (held : block ∈ firstBlocks 8 (ofFives fives).length (fiveBits fives)) :
      bitsOf 8 (UInt8.ofNat (ofBits block)).toNat = bitsOf 8 (ofBits block) := by
    have small : ofBits block < 2 ^ 8 := length_of_mem_firstBlocks enough held ▸ ofBits_lt block
    rw [UInt8.toNat_ofNat_of_lt' small]
  rw [← flatMap_bitsOf_firstBlocks enough, List.flatMap_map, ← List.flatMap_congr byte, ← cut,
    byteBits, ofFives_eq, List.flatMap_map]

/-- The first groups, if they hold just the bytes that all are read as, are the groups of these
bytes. -/
theorem toFives_ofFives {fives : List Nat} (small : ∀ five ∈ fives, five < 32) {count : Nat}
    (whole : 8 * (ofFives fives).length = 5 * count) :
    toFives (ofFives fives) = fives.take count := by
  have within : count ≤ fives.length := by
    rw [length_ofFives] at whole
    omega
  have bits : byteBits (ofFives fives) = fiveBits (fives.take count) := by
    rw [byteBits_ofFives, whole, fiveBits_take within]
  have size : (byteBits (ofFives fives)).length = 5 * count := by rw [length_byteBits, whole]
  have none : filling (ofFives fives) = [] := by
    rw [filling, size, Nat.mul_mod_right]
    rfl
  have groups : (fiveBits (fives.take count) ++ []).length / 5 = (fives.take count).length := by
    rw [List.append_nil, length_fiveBits, Nat.mul_div_cancel_left _ (by decide)]
  have back (five : Nat) (held : five ∈ fives.take count) : ofBits (bitsOf 5 five) = five :=
    ofBits_bitsOf (small five (List.mem_of_mem_take held))
  have cut : blocks 5 (fiveBits (fives.take count) ++ []) = (fives.take count).map (bitsOf 5) := by
    rw [blocks, groups]
    exact firstBlocks_flatMap (fun five _ => length_bitsOf 5 five) []
  rw [toFives_eq, none, bits, cut, List.map_map]
  exact (List.map_congr_left back).trans (List.map_id' _)

end HardwareSigner.Bech32
