import HardwareSigner.Proofs.TypedData.Integers
/-!
The values of atomic types, and the errors for what is none of them.  A text that is not hexadecimal
has an error of its own where bytes are asked for; as an address it is invalid data like all else.
-/

namespace HardwareSigner.TypedData

/-- The values of an atomic type. -/
inductive AtomType.Admits : AtomType → Json → Prop where
  | string (s) : Admits .string (.string s)
  | bytes {s bs} : Hex.decodeText s = .ok bs → Admits .bytes (.string s)
  | bool (b) : Admits .bool (.bool b)
  | truth {s} : s = "true" ∨ s = "false" → Admits .bool (.string s)
  | address {s bs} : Hex.decodeText s = .ok bs → bs.length = 20 → Admits .address (.string s)
  | fixedBytes {size s bs} : Hex.decodeText s = .ok bs → bs.length ≤ size →
      Admits (.fixedBytes size) (.string s)
  | uint {bits value z} : Unsigned value z → 0 ≤ z → z < 2 ^ bits → Admits (.uint bits) value
  | int {bits value z} : Signed value z → -2 ^ (bits - 1) ≤ z → z < 2 ^ (bits - 1) →
      Admits (.int bits) value

/-- A text that is not hexadecimal, where bytes are asked for. -/
inductive AtomType.Garbled : AtomType → Json → Hex.Fault → Prop where
  | bytes {s fault} : Hex.decodeText s = .error fault → Garbled .bytes (.string s) fault
  | fixedBytes {size s fault} : Hex.decodeText s = .error fault →
      Garbled (.fixedBytes size) (.string s) fault

/-- Invalid data, or hexadecimal with one of the faults that there are. -/
inductive Refusal (garbled : Hex.Fault → Prop) : Error → Prop where
  | invalid (detail) : Refusal garbled (.invalidTypedData detail)
  | garbled {fault} : garbled fault → Refusal garbled (.badHex fault)

theorem Refusal.mono {garbled garbled' : Hex.Fault → Prop} {e : Error}
    (refusal : Refusal garbled e) (le : ∀ fault, garbled fault → garbled' fault) :
    Refusal garbled' e := by
  cases refusal with
  | invalid detail => exact .invalid detail
  | garbled bad => exact .garbled (le _ bad)

/-- A word for a value of the type, and an error for any other. -/
inductive Outcome (atom : AtomType) (value : Json) : Except Error Word → Prop where
  | word {w} : atom.Admits value → Outcome atom value (.ok w)
  | refusal {e} : Refusal (atom.Garbled value) e → Outcome atom value (.error e)

namespace AtomType
variable {atom : AtomType} {type : String} {value : Json}

theorem width_le {bits : Nat} (named : atomType type = .ok (.uint bits) ∨
    atomType type = .ok (.int bits)) : bits ≤ 256 := by
  rcases named with named | named
  · cases atomName_of_atomType named with
    | wideUint => exact Nat.le_refl 256
    | uint _ width => exact width.2.1
  · cases atomName_of_atomType named with
    | wideInt => exact Nat.le_refl 256
    | int _ width => exact width.2.1

theorem encode_admits (named : atomType type = .ok atom) (admits : atom.Admits value) :
    ∃ w, atom.encode type value = .ok w := by
  cases admits with
  | string | bool => exact ⟨_, rfl⟩
  | bytes read =>
      simp only [encode, text, hexBytes, read]
      exact ⟨_, rfl⟩
  | truth either =>
      rcases either with rfl | rfl
      · exact ⟨_, rfl⟩
      · exact ⟨_, rfl⟩
  | address read size =>
      simp only [encode, text, Address.ofHex, read, dif_pos size]
      exact ⟨_, rfl⟩
  | fixedBytes read size =>
      simp only [encode, text, hexBytes, read, if_neg (Nat.not_lt_of_le size)]
      exact ⟨_, rfl⟩
  | uint found least most =>
      exact ⟨_, (encode_uint_ok_iff (width_le (.inl named))).mpr ⟨_, found, least, most, rfl⟩⟩
  | int found least most =>
      exact ⟨_, (encode_int_ok_iff (width_le (.inr named))).mpr ⟨_, found, least, most, rfl⟩⟩

theorem encode_garbled {fault : Hex.Fault} (garbled : atom.Garbled value fault) :
    atom.encode type value = .error (.badHex fault) := by
  cases garbled with
  | bytes unread => simp only [encode, text, hexBytes, unread, Except.map]
  | fixedBytes unread => simp only [encode, text, hexBytes, unread]

theorem encode_integer_error {e : Error} {bits : Nat}
    (integer : atom = .uint bits ∨ atom = .int bits)
    (refused : atom.encode type value = .error e) : ∃ detail, e = .invalidTypedData detail := by
  rcases integer with rfl | rfl
  all_goals
    simp only [encode] at refused
    split at refused
    · cases refused
      exact ⟨_, rfl⟩
    · split at refused
      · cases refused
      · cases refused
        exact ⟨_, rfl⟩

theorem encode_outcome (named : atomType type = .ok atom) (value : Json) :
    Outcome atom value (atom.encode type value) := by
  cases atom with
  | string =>
      cases value with
      | string s => exact .word (.string s)
      | null | bool | number | array | object => exact .refusal (.invalid _)
  | bytes =>
      cases value with
      | string s =>
          simp only [encode, text, hexBytes]
          cases read : Hex.decodeText s with
          | error fault => exact .refusal (.garbled (.bytes read))
          | ok bs => exact .word (.bytes read)
      | null | bool | number | array | object => exact .refusal (.invalid _)
  | bool =>
      cases value with
      | bool b => exact .word (.bool b)
      | string s =>
          by_cases yes : s = "true"
          · simp only [encode, truth, if_pos yes]
            exact .word (.truth (.inl yes))
          · by_cases no : s = "false"
            · simp only [encode, truth, if_neg yes, if_pos no]
              exact .word (.truth (.inr no))
            · simp only [encode, truth, if_neg yes, if_neg no]
              exact .refusal (.invalid _)
      | null | number | array | object => exact .refusal (.invalid _)
  | address =>
      cases value with
      | string s =>
          simp only [encode, text, Address.ofHex]
          cases read : Hex.decodeText s with
          | error fault => exact .refusal (.invalid _)
          | ok bs =>
              by_cases size : bs.length = 20
              · simp only [dif_pos size]
                exact .word (.address read size)
              · simp only [dif_neg size]
                exact .refusal (.invalid _)
      | null | bool | number | array | object => exact .refusal (.invalid _)
  | fixedBytes size =>
      cases value with
      | string s =>
          simp only [encode, text, hexBytes]
          cases read : Hex.decodeText s with
          | error fault => exact .refusal (.garbled (.fixedBytes read))
          | ok bs =>
              by_cases long : size < bs.length
              · simp only [if_pos long]
                exact .refusal (.invalid _)
              · simp only [if_neg long]
                exact .word (.fixedBytes read (Nat.le_of_not_lt long))
      | null | bool | number | array | object => exact .refusal (.invalid _)
  | uint bits =>
      cases encoded : (AtomType.uint bits).encode type value with
      | ok w =>
          obtain ⟨z, found, least, most, -⟩ :=
            (encode_uint_ok_iff (width_le (.inl named))).mp encoded
          exact .word (.uint found least most)
      | error e =>
          obtain ⟨detail, rfl⟩ := encode_integer_error (.inl rfl) encoded
          exact .refusal (.invalid detail)
  | int bits =>
      cases encoded : (AtomType.int bits).encode type value with
      | ok w =>
          obtain ⟨z, found, least, most, -⟩ :=
            (encode_int_ok_iff (width_le (.inr named))).mp encoded
          exact .word (.int found least most)
      | error e =>
          obtain ⟨detail, rfl⟩ := encode_integer_error (.inr rfl) encoded
          exact .refusal (.invalid detail)

theorem admits_of_encode {w : Word} (named : atomType type = .ok atom)
    (encoded : atom.encode type value = .ok w) : atom.Admits value := by
  have outcome := encode_outcome named value
  rw [encoded] at outcome
  cases outcome with
  | word admits => exact admits

theorem refusal_of_encode {e : Error} (named : atomType type = .ok atom)
    (refused : atom.encode type value = .error e) : Refusal (atom.Garbled value) e := by
  have outcome := encode_outcome named value
  rw [refused] at outcome
  cases outcome with
  | refusal refusal => exact refusal

end AtomType

end HardwareSigner.TypedData
