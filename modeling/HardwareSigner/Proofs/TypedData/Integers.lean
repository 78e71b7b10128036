import HardwareSigner.Proofs.Bytes
import HardwareSigner.Proofs.TypedData.AcceptedTypes
import HardwareSigner.Proofs.TypedData.ChainIds
import HardwareSigner.Proofs.TypedData.RoundTrip
/-!
Which integer a value stands for, and what becomes of it.  A field takes the integers of its range
as they are and refuses all others; so does a chain id.  The texts that are taken for integers are
the numerals with underscores anywhere, and those without any digit.
-/

namespace HardwareSigner.TypedData
open Text (Grouped)
open Json (Node Shape)

/-- Texts for natural numbers, for a way to write the digits of each base. -/
inductive Numeral (digits : (base : Nat) → List Char → Nat → Prop) : List Char → Int → Prop where
  | decimal {cs n} : digits 10 cs n → Numeral digits cs n
  | hexadecimal {cs n} : digits 16 cs n → Numeral digits ('0' :: 'x' :: cs) n

inductive SignedNumeral (digits : (base : Nat) → List Char → Nat → Prop) :
    List Char → Int → Prop where
  | plain {cs z} : Numeral digits cs z → SignedNumeral digits cs z
  | minus {cs z} : Numeral digits cs z → SignedNumeral digits ('-' :: cs) (-z)

/-- The integer that a value stands for: a whole number, or a text that is read as one. -/
inductive IntegerOf (reads : List Char → Int → Prop) : Json → Int → Prop where
  | number (z fits) : IntegerOf reads (.number (.integer z fits)) z
  | text {s z} : reads s.toList z → IntegerOf reads (.string s) z

def Unsigned : Json → Int → Prop := IntegerOf (Numeral Grouped)

def Signed : Json → Int → Prop := IntegerOf (SignedNumeral Grouped)

/-- Values are taken for their integers, if these are in the range, and for nothing else.  The
integer can be had back from the word. -/
structure Exact (encode : Json → Except Error Word) (Value : Json → Int → Prop) (low high : Int)
    (decode : Word → Int) : Prop where
  value : ∀ v y z, Value v y → Value v z → y = z
  accepted : ∀ v, (∃ w, encode v = .ok w) ↔ ∃ z, Value v z ∧ low ≤ z ∧ z < high
  word : ∀ v w z, encode v = .ok w → Value v z →
    (w.toNat : Int) = z % 2 ^ 256 ∧ decode w = z
  same : ∀ v v' z, Value v z → Value v' z → ∀ w, encode v = .ok w ↔ encode v' = .ok w

section
variable {n : Nat} {cs : List Char}

theorem numeral_hexadecimal (cs : List Char) {n : Nat} :
    numeral ('0' :: 'x' :: cs) = .ok n ↔ Text.grouped? 16 cs = some n := by
  rw [numeral]
  cases Text.grouped? 16 cs <;> simp

theorem numeral_decimal (plain : ∀ rest, cs ≠ '0' :: 'x' :: rest) :
    numeral cs = .ok n ↔ Text.grouped? 10 cs = some n := by
  unfold numeral
  split
  · exact absurd rfl (plain _)
  · cases Text.grouped? 10 cs <;> simp

theorem numeral_ok_iff : numeral cs = .ok n ↔ Numeral Grouped cs n ∧ n < 2 ^ 256 := by
  constructor
  · intro read
    by_cases marked : ∃ rest, cs = '0' :: 'x' :: rest
    · obtain ⟨rest, rfl⟩ := marked
      rw [numeral_hexadecimal, Text.grouped?_eq_some_iff (by decide) (by decide)] at read
      exact ⟨.hexadecimal read.1, read.2⟩
    · rw [numeral_decimal (not_exists.mp marked),
        Text.grouped?_eq_some_iff (by decide) (by decide)] at read
      exact ⟨.decimal read.1, read.2⟩
  · rintro ⟨written, fits⟩
    generalize value : (n : Int) = z at written
    cases written with
    | hexadecimal written =>
        obtain rfl := Int.ofNat_inj.mp value
        rw [numeral_hexadecimal, Text.grouped?_eq_some_iff (by decide) (by decide)]
        exact ⟨written, fits⟩
    | decimal written =>
        obtain rfl := Int.ofNat_inj.mp value
        rw [numeral_decimal written.unmarked, Text.grouped?_eq_some_iff (by decide) (by decide)]
        exact ⟨written, fits⟩

theorem Numeral.notMem {digits : (base : Nat) → List Char → Nat → Prop} {c : Char} {z : Int}
    (written : Numeral digits cs z) (other : c ∉ ['0', 'x'])
    (absent : ∀ base cs n, base ≤ 16 → digits base cs n → c ∉ cs) : c ∉ cs := by
  cases written with
  | decimal written => exact absent 10 cs _ (by decide) written
  | @hexadecimal rest n written =>
      have after := absent 16 rest n (by decide) written
      exact fun here => (List.mem_append.mp here).elim other after

theorem Numeral.notMem_minus {z : Int} (written : Numeral Grouped cs z) : '-' ∉ cs :=
  written.notMem (by decide) fun _ _ _ most grouped => grouped.notMem most rfl (by decide)

theorem Numeral.nonneg {z : Int} (written : Numeral Grouped cs z) : 0 ≤ z := by
  cases written <;> exact Int.natCast_nonneg _

theorem Numeral.unique {y z : Int} (first : Numeral Grouped cs y) (second : Numeral Grouped cs z) :
    y = z := by
  cases first with
  | decimal written =>
      cases second with
      | decimal written' => rw [written.unique (by decide) written']
      | hexadecimal _ => exact absurd rfl (written.unmarked _)
  | hexadecimal written =>
      cases second with
      | decimal written' => exact absurd rfl (written'.unmarked _)
      | hexadecimal written' => rw [written.unique (by decide) written']

theorem SignedNumeral.unique {y z : Int} (first : SignedNumeral Grouped cs y)
    (second : SignedNumeral Grouped cs z) : y = z := by
  cases first with
  | plain written =>
      cases second with
      | plain written' => exact written.unique written'
      | minus _ => exact absurd List.mem_cons_self written.notMem_minus
  | minus written =>
      cases second with
      | plain written' => exact absurd List.mem_cons_self written'.notMem_minus
      | minus written' => rw [written.unique written']

theorem IntegerOf.unique {reads : List Char → Int → Prop} {value : Json} {y z : Int}
    (first : IntegerOf reads value y) (second : IntegerOf reads value z)
    (unique : ∀ cs y z, reads cs y → reads cs z → y = z) : y = z := by
  cases first with
  | number y fits =>
      cases second
      rfl
  | text written =>
      cases second with
      | text written' => exact unique _ _ _ written written'

theorem Unsigned.unique {value : Json} {y z : Int} (first : Unsigned value y)
    (second : Unsigned value z) : y = z :=
  IntegerOf.unique first second fun _ _ _ => Numeral.unique

theorem Signed.unique {value : Json} {y z : Int} (first : Signed value y)
    (second : Signed value z) : y = z :=
  IntegerOf.unique first second fun _ _ _ => SignedNumeral.unique

end

theorem natural_ok_iff {value : Json} {n : Nat} :
    natural value = .ok n ↔ Unsigned value n ∧ n < 2 ^ 256 := by
  cases value with
  | string s =>
      rw [natural, numeral_ok_iff]
      constructor
      · rintro ⟨written, fits⟩
        exact ⟨.text written, fits⟩
      · rintro ⟨_ | written, fits⟩
        exact ⟨written, fits⟩
  | number x =>
      cases x with
      | integer z fits =>
          rw [natural]
          constructor
          · intro read
            split at read
            · cases read
              have whole : ((z.toNat : Nat) : Int) = z := Int.toNat_of_nonneg ‹0 ≤ z›
              rw [whole]
              exact ⟨.number z fits, by omega⟩
            · cases read
          · rintro ⟨⟨⟩, -⟩
            rw [if_pos (Int.natCast_nonneg n), Int.toNat_natCast]
      | double x =>
          constructor
          · intro read
            cases read
          · rintro ⟨⟨⟩, -⟩
  | null | bool | array | object =>
      constructor
      · intro read
        cases read
      · rintro ⟨⟨⟩, -⟩

theorem signed_minus {s : String} {cs : List Char} (marked : s.toList = '-' :: cs) :
    signed (.string s) = (numeral cs).map fun n : Nat => -(n : Int) := by
  simp only [signed, marked]
  cases numeral cs <;> rfl

theorem signed_plain {s : String} (unmarked : ∀ cs, s.toList ≠ '-' :: cs) :
    signed (.string s) = (numeral s.toList).map fun n : Nat => (n : Int) := by
  simp only [signed]
  cases numeral s.toList <;> rfl

theorem signed_string_ok_iff {s : String} {z : Int} :
    signed (.string s) = .ok z ↔ SignedNumeral Grouped s.toList z ∧ z.natAbs < 2 ^ 256 := by
  constructor
  · intro read
    by_cases marked : ∃ cs, s.toList = '-' :: cs
    · obtain ⟨cs, marked⟩ := marked
      rw [signed_minus marked] at read
      obtain ⟨n, found, rfl⟩ := map_eq_ok read
      obtain ⟨written, fits⟩ := numeral_ok_iff.mp found
      rw [Int.natAbs_neg, Int.natAbs_natCast, marked]
      exact ⟨.minus written, fits⟩
    · rw [signed_plain (not_exists.mp marked)] at read
      obtain ⟨n, found, rfl⟩ := map_eq_ok read
      obtain ⟨written, fits⟩ := numeral_ok_iff.mp found
      exact ⟨.plain written, fits⟩
  · rintro ⟨written, fits⟩
    generalize chars : s.toList = cs at written
    cases written with
    | plain written =>
        obtain ⟨n, rfl⟩ := Int.eq_ofNat_of_zero_le written.nonneg
        have found := numeral_ok_iff.mpr ⟨written, fits⟩
        -- no numeral begins with a minus sign, so that the other case is not tried
        have plain : ∀ rest, s.toList ≠ '-' :: rest := by
          rintro rest same
          rw [← chars, same] at written
          exact written.notMem_minus List.mem_cons_self
        rw [signed_plain plain, chars, found, Except.map]
    | minus written =>
        obtain ⟨n, rfl⟩ := Int.eq_ofNat_of_zero_le written.nonneg
        rw [Int.natAbs_neg] at fits
        rw [signed_minus chars, numeral_ok_iff.mpr ⟨written, fits⟩, Except.map]

theorem signed_ok_iff {value : Json} {z : Int} :
    signed value = .ok z ↔ Signed value z ∧ z.natAbs < 2 ^ 256 := by
  cases value with
  | string s =>
      rw [signed_string_ok_iff]
      constructor
      · rintro ⟨written, fits⟩
        exact ⟨.text written, fits⟩
      · rintro ⟨_ | written, fits⟩
        exact ⟨written, fits⟩
  | number x =>
      cases x with
      | integer y fits =>
          constructor
          · intro read
            cases read
            exact ⟨.number z fits, by omega⟩
          · rintro ⟨⟨⟩, -⟩
            rfl
      | double x =>
          constructor
          · intro read
            cases read
          · rintro ⟨⟨⟩, -⟩
  | null | bool | array | object =>
      constructor
      · intro read
        cases read
      · rintro ⟨⟨⟩, -⟩

theorem toNat_wordOfInt (z : Int) : ((wordOfInt z).toNat : Int) = z % 2 ^ 256 := by
  have least : 0 ≤ z % 2 ^ 256 := Int.emod_nonneg z (by decide)
  have most : z % 2 ^ 256 < 2 ^ 256 := Int.emod_lt_of_pos z (by decide)
  rw [wordOfInt, Word.toNat_ofNat, Nat.mod_eq_of_lt (by omega), Int.toNat_of_nonneg least]

theorem eq_wordOfInt_iff {w : Word} {z : Int} :
    w = wordOfInt z ↔ (w.toNat : Int) = z % 2 ^ 256 := by
  rw [← toNat_wordOfInt, Int.ofNat_inj]
  exact ⟨congrArg Word.toNat, Word.toNat_injective⟩

theorem wordOfInt_natCast (n : Nat) : wordOfInt n = .ofNat n := by
  rw [eq_comm, eq_wordOfInt_iff, Word.toNat_ofNat]
  omega

theorem exact_of_ok_iff {encode : Json → Except Error Word} {Value : Json → Int → Prop}
    {low high : Int} {decode : Word → Int} (value : ∀ v y z, Value v y → Value v z → y = z)
    (ok_iff : ∀ v w, encode v = .ok w ↔ ∃ z, Value v z ∧ low ≤ z ∧ z < high ∧ w = wordOfInt z)
    (decoded : ∀ z, low ≤ z → z < high → decode (wordOfInt z) = z) :
    Exact encode Value low high decode where
  value := value
  accepted := by
    intro v
    constructor
    · rintro ⟨w, encoded⟩
      obtain ⟨z, found, least, most, -⟩ := (ok_iff v w).mp encoded
      exact ⟨z, found, least, most⟩
    · rintro ⟨z, found, least, most⟩
      exact ⟨_, (ok_iff v _).mpr ⟨z, found, least, most, rfl⟩⟩
  word := by
    intro v w z encoded found
    obtain ⟨y, found', least, most, rfl⟩ := (ok_iff v w).mp encoded
    obtain rfl := value v y z found' found
    exact ⟨toNat_wordOfInt y, decoded y least most⟩
  same := by
    have carry {v v' : Json} {z : Int} {w : Word} (found : Value v z) (found' : Value v' z)
        (encoded : encode v = .ok w) : encode v' = .ok w := by
      obtain ⟨y, found'', least, most, rfl⟩ := (ok_iff v w).mp encoded
      obtain rfl := value v y z found'' found
      exact (ok_iff v' _).mpr ⟨y, found', least, most, rfl⟩
    exact fun v v' z found found' w => ⟨carry found found', carry found' found⟩

section
variable {bits : Nat} {type : String} {value : Json} {w : Word}

theorem encode_uint_ok_iff (most : bits ≤ 256) :
    (AtomType.uint bits).encode type value = .ok w ↔
      ∃ z, Unsigned value z ∧ 0 ≤ z ∧ z < 2 ^ bits ∧ w = wordOfInt z := by
  rw [AtomType.encode]
  constructor
  · intro encoded
    split at encoded
    · cases encoded
    rename_i n read
    split at encoded
    · rename_i fits
      cases encoded
      refine ⟨n, (natural_ok_iff.mp read).1, Int.natCast_nonneg n, ?_, (wordOfInt_natCast n).symm⟩
      exact_mod_cast fits
    · cases encoded
  · rintro ⟨z, found, least, below, rfl⟩
    obtain ⟨n, rfl⟩ := Int.eq_ofNat_of_zero_le least
    have fits : n < 2 ^ bits := by exact_mod_cast below
    have wide : 2 ^ bits ≤ 2 ^ 256 := Nat.pow_le_pow_right (by decide) most
    rw [natural_ok_iff.mpr ⟨found, Nat.lt_of_lt_of_le fits wide⟩, wordOfInt_natCast]
    exact if_pos fits

theorem half_le {bits : Nat} (most : bits ≤ 256) : (2 : Int) ^ (bits - 1) ≤ 2 ^ 255 :=
  pow_le_pow_right₀ (by decide) (by omega)

theorem encode_int_ok_iff (most : bits ≤ 256) :
    (AtomType.int bits).encode type value = .ok w ↔
      ∃ z, Signed value z ∧ -2 ^ (bits - 1) ≤ z ∧ z < 2 ^ (bits - 1) ∧ w = wordOfInt z := by
  rw [AtomType.encode]
  constructor
  · intro encoded
    split at encoded
    · cases encoded
    rename_i z read
    split at encoded
    · rename_i fits
      cases encoded
      exact ⟨z, (signed_ok_iff.mp read).1, fits.1, fits.2, rfl⟩
    · cases encoded
  · rintro ⟨z, found, least, fits, rfl⟩
    have half := half_le most
    rw [signed_ok_iff.mpr ⟨found, by omega⟩]
    exact if_pos ⟨least, fits⟩

end

section
variable {td : TypedData} {bits : Nat}

theorem encodeField_atom {atom : AtomType} {type : String} (named : AtomName Text.Padded atom type)
    (unknown : td.types.contains type = false) (value : Json) :
    td.encodeField value type = atom.encode type value := by
  rw [encodeField_eq, words.readValue_atom td named.single unknown, atomType_of_atomName named]
  rfl

theorem encodeField_uint_ok_iff (width : ByteWidth bits)
    (unknown : td.types.contains ("uint" ++ toString bits) = false) {value : Json} {w : Word} :
    td.encodeField value ("uint" ++ toString bits) = .ok w ↔
      ∃ z, Unsigned value z ∧ 0 ≤ z ∧ z < 2 ^ bits ∧ w = wordOfInt z := by
  have named : AtomName Text.Padded (.uint bits) ("uint" ++ toString bits) :=
    .uint (padded_of_decimal rfl) width
  rw [encodeField_atom named unknown, encode_uint_ok_iff width.2.1]

theorem encodeField_int_ok_iff (width : ByteWidth bits)
    (unknown : td.types.contains ("int" ++ toString bits) = false) {value : Json} {w : Word} :
    td.encodeField value ("int" ++ toString bits) = .ok w ↔
      ∃ z, Signed value z ∧ -2 ^ (bits - 1) ≤ z ∧ z < 2 ^ (bits - 1) ∧ w = wordOfInt z := by
  have named : AtomName Text.Padded (.int bits) ("int" ++ toString bits) :=
    .int (padded_of_decimal rfl) width
  rw [encodeField_atom named unknown, encode_int_ok_iff width.2.1]

theorem exact_uint (width : ByteWidth bits)
    (unknown : td.types.contains ("uint" ++ toString bits) = false) :
    Exact (td.encodeField · ("uint" ++ toString bits)) Unsigned 0 (2 ^ bits)
      fun w => w.toNat := by
  refine exact_of_ok_iff (fun _ _ _ => Unsigned.unique)
    (fun _ _ => encodeField_uint_ok_iff width unknown) ?_
  intro z least fits
  have wide : (2 : Int) ^ bits ≤ 2 ^ 256 := pow_le_pow_right₀ (by decide) width.2.1
  rw [toNat_wordOfInt, Int.emod_eq_of_lt least (Int.lt_of_lt_of_le fits wide)]

theorem exact_int (width : ByteWidth bits)
    (unknown : td.types.contains ("int" ++ toString bits) = false) :
    Exact (td.encodeField · ("int" ++ toString bits)) Signed (-2 ^ (bits - 1)) (2 ^ (bits - 1))
      fun w => Int.bmod w.toNat (2 ^ 256) := by
  refine exact_of_ok_iff (fun _ _ _ => Signed.unique)
    (fun _ _ => encodeField_int_ok_iff width unknown) ?_
  intro z least fits
  have half := half_le width.2.1
  have whole : ((2 ^ 256 : Nat) : Int) = 2 ^ 256 := by decide
  rw [toNat_wordOfInt, ← whole, Int.emod_bmod]
  exact Int.bmod_eq_of_le (by omega) (by omega)

theorem chainIdDecoder_eq {depth : Nat} {node : Node} {value : Json}
    (given : node.toJson? depth = some value) (there : value ≠ .null) :
    chainIdDecoder depth node =
      ((natural value).mapError fun fault => .refused (.typedData fault)).bind fun n =>
        if n < 2 ^ 64 then .ok (some (UInt64.ofNat n)) else .error (.refused .chainId) := by
  rw [chainIdDecoder, Json.Decoder.value, given]
  cases value with
  | null => exact absurd rfl there
  | string s =>
      simp only
      cases natural (.string s) <;> rfl
  | number x =>
      simp only
      cases natural (.number x) <;> rfl
  | bool | array | object => rfl

theorem chainIdDecoder_ok_iff {depth : Nat} {node : Node} {value : Json}
    (given : node.toJson? depth = some value) (there : value ≠ .null) {id : Option UInt64} :
    chainIdDecoder depth node = .ok id ↔
      ∃ n : UInt64, Unsigned value n.toNat ∧ id = some n := by
  rw [chainIdDecoder_eq given there]
  constructor
  · intro found
    cases whole : natural value with
    | error fault =>
        rw [whole] at found
        cases found
    | ok n =>
        rw [whole, Except.mapError, Except.bind] at found
        split at found
        · rename_i fits
          cases found
          refine ⟨.ofNat n, ?_, rfl⟩
          rw [UInt64.toNat_ofNat_of_lt' fits]
          exact (natural_ok_iff.mp whole).1
        · cases found
  · rintro ⟨n, taken, rfl⟩
    have fits : n.toNat < 2 ^ 64 := n.toNat_lt
    rw [natural_ok_iff.mpr ⟨taken, by omega⟩, Except.mapError, Except.bind, if_pos fits,
      UInt64.ofNat_toNat]

end

/-- Integers of every form are taken for what they are, or refused.  A field takes those of its
width, with or without a sign, and a word has the integer back; where a domain is read without a
chain id, it is read with one of sixty-four bits, and no other, and holds it. -/
theorem integers_are_exact {bits : Nat} (width : ByteWidth bits) (td : TypedData) :
    (td.types.contains ("uint" ++ toString bits) = false →
      Exact (td.encodeField · ("uint" ++ toString bits)) Unsigned 0 (2 ^ bits)
        fun w => w.toNat) ∧
    (td.types.contains ("int" ++ toString bits) = false →
      Exact (td.encodeField · ("int" ++ toString bits)) Signed (-2 ^ (bits - 1)) (2 ^ (bits - 1))
        fun w => Int.bmod w.toNat (2 ^ 256)) ∧
    ∀ depth document d, ChainIdPlace document →
      Domain.shape.decoder depth (document .null) = .ok d →
      ∀ node value, node.toJson? (depth - 1) = some value → value ≠ .null →
        ((∃ d', Domain.shape.decoder depth (document node) = .ok d') ↔
          ∃ z, Unsigned value z ∧ 0 ≤ z ∧ z < 2 ^ 64) ∧
        ∀ d' z, Domain.shape.decoder depth (document node) = .ok d' → Unsigned value z →
          ∃ n : UInt64, (n.toNat : Int) = z ∧ d' = { d with chainId := some n } := by
  refine ⟨exact_uint width, exact_int width, ?_⟩
  intro depth document d place accepted node value given there
  rw [decoder_of_place place accepted]
  constructor
  · constructor
    · rintro ⟨d', read⟩
      obtain ⟨id, found, rfl⟩ := map_eq_ok read
      obtain ⟨n, taken, rfl⟩ := (chainIdDecoder_ok_iff given there).mp found
      have fits := n.toNat_lt
      exact ⟨n.toNat, taken, Int.natCast_nonneg _, by omega⟩
    · rintro ⟨z, taken, least, most⟩
      obtain ⟨n, rfl⟩ := Int.eq_ofNat_of_zero_le least
      have fits : n < 2 ^ 64 := by omega
      have whole : (UInt64.ofNat n).toNat = n := UInt64.toNat_ofNat_of_lt' fits
      have found := (chainIdDecoder_ok_iff given there).mpr ⟨.ofNat n, whole.symm ▸ taken, rfl⟩
      rw [found]
      exact ⟨_, rfl⟩
  · intro d' z read taken
    obtain ⟨id, found, rfl⟩ := map_eq_ok read
    obtain ⟨n, taken', rfl⟩ := (chainIdDecoder_ok_iff given there).mp found
    exact ⟨n, taken'.unique taken, rfl⟩

/-- A byte written in two ways, the least signed byte and what is one more than the largest, and the
chain id of a domain. -/
theorem integers_are_exact_byte :
    let td : TypedData := ⟨.empty, .empty, "Tx", .null⟩
    let document (node : Node) : Node :=
      .object [(some (Json.body "name"), .string (Json.body "Evmos")),
        (some (Json.body "chainId"), node)]
    (∃ w, td.encodeField (.string "0xf_F") ("uint" ++ toString 8) = .ok w ∧
      td.encodeField (.ofNat 255) ("uint" ++ toString 8) = .ok w ∧ w.toNat = 255) ∧
    (∃ w, td.encodeField (.string "-128") ("int" ++ toString 8) = .ok w ∧
      Int.bmod w.toNat (2 ^ 256) = -128) ∧
    (¬ ∃ w, td.encodeField (.string "128") ("int" ++ toString 8) = .ok w) ∧
    ∃ d, Domain.shape.decoder 128 (document (.string (Json.body "0x2329"))) = .ok d ∧
      d.chainId = some 9001 := by
  intro td document
  have width : ByteWidth 8 := ⟨by decide, by decide, by decide⟩
  obtain ⟨uint, int, chain⟩ := integers_are_exact width td
  have hexadecimal : Unsigned (.string "0xf_F") 255 :=
    (natural_ok_iff.mp (by decide +kernel : natural (.string "0xf_F") = .ok 255)).1
  have decimal : Unsigned (.ofNat 255) 255 := .number 255 _
  have least : Signed (.string "-128") (-128) :=
    (signed_ok_iff.mp (by decide +kernel : signed (.string "-128") = .ok (-128))).1
  have above : Signed (.string "128") 128 :=
    (signed_ok_iff.mp (by decide +kernel : signed (.string "128") = .ok 128)).1
  refine ⟨?_, ?_, ?_, ?_⟩
  · obtain ⟨-, accepted, word, same⟩ := uint rfl
    obtain ⟨w, encoded⟩ := (accepted _).mpr ⟨255, hexadecimal, by decide, by decide⟩
    exact ⟨w, encoded, (same _ _ _ hexadecimal decimal w).mp encoded,
      Int.ofNat_inj.mp (word _ _ _ encoded hexadecimal).2⟩
  · obtain ⟨-, accepted, word, -⟩ := int rfl
    obtain ⟨w, encoded⟩ := (accepted _).mpr ⟨-128, least, by decide, by decide⟩
    exact ⟨w, encoded, (word _ _ _ encoded least).2⟩
  · obtain ⟨value, accepted, -, -⟩ := int rfl
    intro encoded
    obtain ⟨z, found, -, fits⟩ := (accepted _).mp encoded
    obtain rfl := value _ _ _ found above
    exact absurd fits (by decide)
  · have place : ChainIdPlace document :=
      .member [(some (Json.body "name"), .string (Json.body "Evmos"))] [] (Json.text?_body _)
    obtain ⟨d, open_⟩ : ∃ d, Domain.shape.decoder 128 (document .null) = .ok d :=
      exists_of_isOk (by decide +kernel)
    have given : (Node.string (Json.body "0x2329")).toJson? 127 = some (.string "0x2329") := by
      rw [Node.toJson?, Json.text?_body, Option.map_some]
    have id : Unsigned (.string "0x2329") 9001 :=
      (natural_ok_iff.mp (by decide +kernel : natural (.string "0x2329") = .ok 9001)).1
    obtain ⟨accepted, held⟩ := chain 128 document d place open_ _ _ given nofun
    obtain ⟨d', read⟩ := accepted.mpr ⟨9001, id, by decide, by decide⟩
    obtain ⟨n, whole, rfl⟩ := held d' 9001 read id
    refine ⟨_, read, congrArg some (UInt64.toNat_inj.mp ?_)⟩
    exact Int.ofNat_inj.mp whole

end HardwareSigner.TypedData
