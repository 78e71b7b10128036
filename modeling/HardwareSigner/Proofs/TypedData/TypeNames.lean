import HardwareSigner.Proofs.Text.Numerals
import HardwareSigner.Proofs.TypedData.Reading
import Mathlib.Data.List.TakeWhile
/-!
The types that are read off their names.  Every number in a name, the length of an array or the
width of an atom, may have zeros and a plus sign in front; apart from this the names are those of
the standard.
-/

namespace HardwareSigner.TypedData
open Text (Padded)

/-- Widths of integers in bits: whole bytes, thirty-two at most. -/
def ByteWidth (bits : Nat) : Prop :=
  0 < bits ∧ bits ≤ 256 ∧ 8 ∣ bits

/-- The names of atomic types, for a way to write numbers. -/
inductive AtomName (number : Nat → List Char → Prop) : AtomType → String → Prop where
  | string : AtomName number .string "string"
  | bytes : AtomName number .bytes "bytes"
  | bool : AtomName number .bool "bool"
  | address : AtomName number .address "address"
  | fixedBytes {size cs} : number size cs → 0 < size → size ≤ 32 →
      AtomName number (.fixedBytes size) ("bytes" ++ String.ofList cs)
  | wideUint : AtomName number (.uint 256) "uint"
  | wideInt : AtomName number (.int 256) "int"
  | uint {bits cs} : number bits cs → ByteWidth bits →
      AtomName number (.uint bits) ("uint" ++ String.ofList cs)
  | int {bits cs} : number bits cs → ByteWidth bits →
      AtomName number (.int bits) ("int" ++ String.ofList cs)

/-- The array types over a base: suffixes `[]` and `[n]`, for a way to write numbers. -/
inductive Suffixed (number : Nat → List Char → Prop) (base : String) : String → Prop where
  | base : Suffixed number base base
  | list {item} : Suffixed number base item → Suffixed number base (item ++ "[]")
  | vector {item n cs} : Suffixed number base item → number n cs →
      Suffixed number base (item ++ "[" ++ String.ofList cs ++ "]")

theorem eq_append_ofList {text : String} (stem : String) {cs : List Char}
    (written : text.toList = stem.toList ++ cs) : text = stem ++ String.ofList cs := by
  rw [← String.toList_inj, String.toList_append, String.toList_ofList, written]

theorem toList_append_ofList (stem : String) (cs : List Char) :
    (stem ++ String.ofList cs).toList = stem.toList ++ cs := by
  rw [String.toList_append, String.toList_ofList]

section
variable {type : String}

theorem suffix_ok_iff {cs : List Char} {n : Nat} :
    suffix type cs = .ok n ↔ cs = [] ∧ n = 256 ∨ Padded n cs ∧ n < 2 ^ 64 := by
  cases cs with
  | nil =>
      simp only [suffix, Except.ok.injEq, true_and]
      constructor
      · exact fun same => .inl same.symm
      · rintro (same | ⟨padded, -⟩)
        · exact same.symm
        · exact absurd rfl padded.ne_nil
  | cons c cs =>
      rw [← Text.decimal?_eq_some_iff (Nat.two_pow_pos 64)]
      simp only [suffix]
      cases Text.decimal? (2 ^ 64) (c :: cs) with
      | none => simp only [reduceCtorEq, false_and, or_self]
      | some m => simp only [Except.ok.injEq, Option.some.injEq, reduceCtorEq, false_and, false_or]

theorem width_ok_iff {cs : List Char} {bits : Nat} :
    width type cs = .ok bits ↔ (cs = [] ∧ bits = 256 ∨ Padded bits cs) ∧ ByteWidth bits := by
  have whole (n : Nat) : ¬ (n = 0 ∨ 256 < n ∨ n % 8 ≠ 0) ↔ ByteWidth n := by
    rw [ByteWidth, Nat.dvd_iff_mod_eq_zero]
    omega
  have read : width type cs = .ok bits ↔ suffix type cs = .ok bits ∧ ByteWidth bits := by
    rw [width]
    cases suffix type cs with
    | error fault => simp only [reduceCtorEq, false_and]
    | ok n =>
        simp only [Except.ok.injEq]
        split
        · rename_i bad
          simp only [reduceCtorEq, false_iff, not_and]
          rintro rfl sound
          exact (whole n).mpr sound bad
        · rename_i good
          rw [Except.ok.injEq]
          exact ⟨fun same => ⟨same, same ▸ (whole n).mp good⟩, And.left⟩
  rw [read, suffix_ok_iff]
  constructor
  · rintro ⟨unmarked | ⟨padded, -⟩, sound⟩
    · exact ⟨.inl unmarked, sound⟩
    · exact ⟨.inr padded, sound⟩
  · rintro ⟨unmarked | padded, sound⟩
    · exact ⟨.inl unmarked, sound⟩
    · exact ⟨.inr ⟨padded, Nat.lt_of_le_of_lt sound.2.1 (by decide)⟩, sound⟩

theorem atomType_bytes {c : Char} {cs : List Char}
    (written : type.toList = 'b' :: 'y' :: 't' :: 'e' :: 's' :: c :: cs) :
    atomType type = match suffix type (c :: cs) with
      | .error fault => .error fault
      | .ok size =>
        if size = 0 ∨ 32 < size then .error (.badWidth type) else .ok (.fixedBytes size) := by
  cases read : suffix type (c :: cs) <;> simp only [atomType, written, read]

theorem atomType_uint {cs : List Char} (written : type.toList = 'u' :: 'i' :: 'n' :: 't' :: cs) :
    atomType type = (width type cs).map .uint := by
  simp only [atomType, written]

theorem atomType_int {cs : List Char} (written : type.toList = 'i' :: 'n' :: 't' :: cs) :
    atomType type = (width type cs).map .int := by
  simp only [atomType, written]

theorem atomName_of_atomType {atom : AtomType} (found : atomType type = .ok atom) :
    AtomName Padded atom type := by
  unfold atomType at found
  split at found
  case h_1 written =>
      cases found
      rw [show type = "string" from String.toList_inj.mp written]
      exact .string
  case h_2 written =>
      cases found
      rw [show type = "bytes" from String.toList_inj.mp written]
      exact .bytes
  case h_3 written =>
      cases found
      rw [show type = "bool" from String.toList_inj.mp written]
      exact .bool
  case h_4 written =>
      cases found
      rw [show type = "address" from String.toList_inj.mp written]
      exact .address
  case h_5 cs other written =>
      split at found
      · cases found
      · rename_i size read
        split at found
        · cases found
        · cases found
          rename_i sound
          rw [eq_append_ofList "bytes" written]
          rcases suffix_ok_iff.mp read with ⟨rfl, -⟩ | ⟨padded, -⟩
          · exact absurd rfl other
          · exact .fixedBytes padded (by omega) (by omega)
  case h_6 cs written =>
      obtain ⟨bits, read, rfl⟩ := map_eq_ok found
      obtain ⟨⟨rfl, rfl⟩ | padded, sound⟩ := width_ok_iff.mp read
      · rw [show type = "uint" from String.toList_inj.mp written]
        exact .wideUint
      · rw [eq_append_ofList "uint" written]
        exact .uint padded sound
  case h_7 cs written =>
      obtain ⟨bits, read, rfl⟩ := map_eq_ok found
      obtain ⟨⟨rfl, rfl⟩ | padded, sound⟩ := width_ok_iff.mp read
      · rw [show type = "int" from String.toList_inj.mp written]
        exact .wideInt
      · rw [eq_append_ofList "int" written]
        exact .int padded sound
  case h_8 => cases found

theorem atomType_of_atomName {atom : AtomType} (named : AtomName Padded atom type) :
    atomType type = .ok atom := by
  cases named with
  | string | bytes | bool | address | wideUint | wideInt => rfl
  | @fixedBytes size cs padded least most =>
      have read : suffix ("bytes" ++ String.ofList cs) cs = .ok size :=
        suffix_ok_iff.mpr (.inr ⟨padded, Nat.lt_of_le_of_lt most (by decide)⟩)
      cases cs with
      | nil => exact absurd rfl padded.ne_nil
      | cons c cs =>
          rw [atomType_bytes (toList_append_ofList "bytes" (c :: cs)), read]
          exact if_neg (by omega)
  | @uint bits cs padded sound =>
      have read : width ("uint" ++ String.ofList cs) cs = .ok bits :=
        width_ok_iff.mpr ⟨.inr padded, sound⟩
      exact (atomType_uint (toList_append_ofList "uint" cs)).trans (congrArg _ read)
  | @int bits cs padded sound =>
      have read : width ("int" ++ String.ofList cs) cs = .ok bits :=
        width_ok_iff.mpr ⟨.inr padded, sound⟩
      exact (atomType_int (toList_append_ofList "int" cs)).trans (congrArg _ read)

theorem atomType_ok_iff {atom : AtomType} :
    atomType type = .ok atom ↔ AtomName Padded atom type :=
  ⟨atomName_of_atomType, atomType_of_atomName⟩

/-- What the brackets of an array type say of the number of items. -/
def readCount (type : String) (count : List Char) : Except Fault (Option Nat) :=
  if count.isEmpty then .ok none
  else
    match Text.decimal? (2 ^ 64) count with
    | some n => .ok (some n)
    | none => .error (.badArrayLength type)

/-- A type that ends with a bracket is split at the last one that opens. -/
theorem arrayType_of_brackets {item : String} {count : List Char} (plain : '[' ∉ count)
    (written : type.toList = item.toList ++ '[' :: (count ++ [']'])) :
    arrayType type = (readCount type count).map fun length => some ⟨item, length⟩ := by
  have reversed : type.toList.reverse = ']' :: (count.reverse ++ '[' :: item.toList.reverse) := by
    rw [written]
    simp only [List.reverse_append, List.reverse_cons, List.append_assoc, List.reverse_nil,
      List.nil_append, List.cons_append]
  have inside : (count.reverse ++ '[' :: item.toList.reverse).takeWhile (· ≠ '[') =
      count.reverse := by
    have all : ∀ c ∈ count.reverse, decide (c ≠ '[') = true := by
      intro c here
      rw [decide_eq_true_eq]
      rintro rfl
      exact plain (List.mem_reverse.mp here)
    rw [List.takeWhile_append_of_pos all]
    exact List.append_nil _
  rw [arrayType, reversed]
  simp only [inside, List.drop_left, List.reverse_reverse, String.ofList_toList,
    List.isEmpty_reverse, readCount]
  split
  · rfl
  · cases Text.decimal? (2 ^ 64) count <;> rfl

/-- Any other type with a bracket at its end is none. -/
theorem arrayType_of_notMem {inner : List Char} (plain : '[' ∉ inner)
    (written : type.toList = inner ++ [']']) :
    arrayType type = .error (.badArrayType type) := by
  have reversed : type.toList.reverse = ']' :: inner.reverse := by
    rw [written, List.reverse_append]
    rfl
  have inside : inner.reverse.takeWhile (· ≠ '[') = inner.reverse := by
    rw [List.takeWhile_eq_self_iff]
    intro c here
    rw [decide_eq_true_eq]
    rintro rfl
    exact plain (List.mem_reverse.mp here)
  rw [arrayType, reversed]
  simp only [inside, List.drop_length]

theorem arrayType_of_getLast? (other : type.toList.getLast? ≠ some ']') :
    arrayType type = .ok none := by
  rw [arrayType]
  split
  · rename_i closed
    rw [← List.head?_reverse, closed] at other
    exact absurd rfl other
  · rfl

/-- The number of items that is written between brackets. -/
inductive Count (number : Nat → List Char → Prop) : Option Nat → List Char → Prop where
  | any : Count number none []
  | exact {n cs} : number n cs → Count number (some n) cs

theorem readCount_ok_iff {count : List Char} {length : Option Nat} :
    readCount type count = .ok length ↔
      Count (fun n cs => Padded n cs ∧ n < 2 ^ 64) length count := by
  constructor
  · intro read
    rw [readCount] at read
    split at read
    · rename_i empty
      cases read
      rw [List.isEmpty_iff.mp empty]
      exact .any
    · split at read
      · rename_i n number
        cases read
        exact .exact ((Text.decimal?_eq_some_iff (Nat.two_pow_pos 64)).mp number)
      · cases read
  · intro counted
    cases counted with
    | any => rfl
    | exact number =>
        have some_char : count.isEmpty = false := by
          rw [List.isEmpty_eq_false_iff]
          exact number.1.ne_nil
        rw [readCount, some_char, (Text.decimal?_eq_some_iff (Nat.two_pow_pos 64)).mpr number]
        rfl

theorem Count.plain {length : Option Nat} {count : List Char}
    (counted : Count (fun n cs => Padded n cs ∧ n < 2 ^ 64) length count) : '[' ∉ count := by
  cases counted with
  | any => exact List.not_mem_nil
  | exact number => exact number.1.notMem (.inl rfl)

/-- A type is split at the last opening bracket if it ends with a closing one. -/
theorem arrayType_some_iff {array : ArrayType} :
    arrayType type = .ok (some array) ↔
      ∃ count, type.toList = array.item.toList ++ '[' :: (count ++ [']']) ∧
        Count (fun n cs => Padded n cs ∧ n < 2 ^ 64) array.length count := by
  constructor
  · intro kind
    by_cases closed : type.toList.getLast? = some ']'
    · obtain ⟨inner, written⟩ := List.getLast?_eq_some_iff.mp closed
      by_cases bracket : '[' ∈ inner
      · obtain ⟨front, back, split, plain⟩ :=
          List.eq_append_cons_of_mem (List.mem_reverse.mpr bracket)
        have parts := congrArg List.reverse split
        simp only [List.reverse_reverse, List.reverse_append, List.reverse_cons,
          List.append_assoc, List.singleton_append] at parts
        have apart : type.toList =
            (String.ofList back.reverse).toList ++ '[' :: (front.reverse ++ [']']) := by
          rw [written, parts, String.toList_ofList, List.append_assoc, List.cons_append]
        rw [arrayType_of_brackets (mt List.mem_reverse.mp plain) apart] at kind
        obtain ⟨length, read, same⟩ := map_eq_ok kind
        obtain rfl := Option.some.inj same
        exact ⟨front.reverse, apart, readCount_ok_iff.mp read⟩
      · rw [arrayType_of_notMem bracket written] at kind
        cases kind
    · rw [arrayType_of_getLast? closed] at kind
      cases kind
  · rintro ⟨count, written, counted⟩
    rw [arrayType_of_brackets counted.plain written, readCount_ok_iff.mpr counted]
    rfl

/-- What stands in the name of an atom stands in a number or in one of six words. -/
theorem AtomName.notMem_of {number : Nat → List Char → Prop} {c : Char}
    (plain : ∀ n cs, number n cs → c ∉ cs)
    (other : ∀ stem ∈ ["string", "bytes", "bool", "address", "uint", "int"], c ∉ stem.toList)
    {atom : AtomType} (named : AtomName number atom type) : c ∉ type.toList := by
  have behind {n : Nat} {cs : List Char} (written : number n cs) (stem : String)
      (known : stem ∈ ["string", "bytes", "bool", "address", "uint", "int"]) :
      c ∉ (stem ++ String.ofList cs).toList := by
    rw [toList_append_ofList, List.mem_append, not_or]
    exact ⟨other stem known, plain n cs written⟩
  cases named with
  | fixedBytes written _ _ => exact behind written "bytes" (by decide)
  | uint written _ => exact behind written "uint" (by decide)
  | int written _ => exact behind written "int" (by decide)
  | string => exact other "string" (by decide)
  | bytes => exact other "bytes" (by decide)
  | bool => exact other "bool" (by decide)
  | address => exact other "address" (by decide)
  | wideUint => exact other "uint" (by decide)
  | wideInt => exact other "int" (by decide)

theorem AtomName.notMem {atom : AtomType} (named : AtomName Padded atom type) {c : Char}
    (bracket : c = '[' ∨ c = ']') : c ∉ type.toList := by
  refine named.notMem_of ?_ ?_
  · exact fun n cs padded => padded.notMem bracket
  · rcases bracket with rfl | rfl <;> decide

/-- No atom looks like an array. -/
theorem AtomName.single {atom : AtomType} (named : AtomName Padded atom type) :
    arrayType type = .ok none :=
  arrayType_of_getLast? fun closed =>
    named.notMem (.inr rfl) (List.mem_of_getLast? closed)

end

end HardwareSigner.TypedData
