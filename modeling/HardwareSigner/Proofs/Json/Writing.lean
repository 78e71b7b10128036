import HardwareSigner.Proofs.Json.Induction
import HardwareSigner.Proofs.Json.Quoting
import HardwareSigner.Proofs.Json.WholeNumbers
/-!
The text of a value is read as one tree, with nothing left over.  Floating-point numbers are left
out: nothing is said here about the digits that they are written with.
-/

namespace HardwareSigner.Json

/-- No part of the value is a floating-point number. -/
inductive Integral : Json → Prop where
  | intro {value : Json} (whole : ∀ x, value ≠ .number (.double x))
      (children : ∀ child ∈ value.children, Integral child) : Integral value

mutual

/-- The tree that the text of a value is read as. -/
def toNode : Json → Node
  | .null => .null
  | .bool b => .bool b
  | .number n => (readScalar (Bytes.ofChars n.toChars)).1
  | .string s => .string (body s)
  | .array items => .array (itemNodes items)
  | .object members => .object (memberNodes members)

def itemNodes : List Json → List Node
  | [] => []
  | item :: rest => item.toNode :: itemNodes rest

def memberNodes : List (String × Json) → List (Option Bytes × Node)
  | [] => []
  | (name, value) :: rest => (some (body name), value.toNode) :: memberNodes rest

end

theorem toNode_integer {z : Int} (fits : -2 ^ 63 ≤ z ∧ z < 2 ^ 64) :
    toNode (.number (.integer z fits)) = .number (.ofInt z) := by
  have read := readScalar_intBytes z ends_nil
  rw [List.append_nil, ← ofChars_integer fits] at read
  rw [toNode, read]

/-- The text of a value. -/
def bytes (value : Json) : Bytes :=
  Bytes.ofChars value.toChars

/-- A member's name with its colon. -/
def nameBytes (name : String) : Bytes :=
  0x22 :: (body name ++ [0x22, 0x3A])

/-- What follows an item: the other items, each behind a comma, and the closing bracket. -/
def itemTail : List Json → Bytes
  | [] => [0x5D]
  | item :: rest => 0x2C :: (item.bytes ++ itemTail rest)

def memberTail : List (String × Json) → Bytes
  | [] => [0x7D]
  | (name, value) :: rest => 0x2C :: (nameBytes name ++ value.bytes ++ memberTail rest)

theorem ofChars_quote (s : String) : Bytes.ofChars (quote s) = 0x22 :: (body s ++ [0x22]) := by
  rw [quote, List.cons_append, Bytes.ofChars_cons, Bytes.ofChars_append]
  rfl

theorem ofChars_named (name : String) (cs : List Char) :
    Bytes.ofChars (quote name ++ ':' :: cs) = nameBytes name ++ Bytes.ofChars cs := by
  rw [Bytes.ofChars_append, ofChars_quote, Bytes.ofChars_cons, nameBytes, List.cons_append,
    List.cons_append, List.append_assoc, List.append_assoc]
  rfl

theorem ofChars_itemChars (item : Json) (rest : List Json) :
    Bytes.ofChars (itemChars (item :: rest)) = item.bytes ++ itemTail rest := by
  induction rest generalizing item with
  | nil =>
      rw [itemChars, Bytes.ofChars_append]
      rfl
  | cons next rest ih =>
      rw [itemChars, Bytes.ofChars_append, Bytes.ofChars_cons, ih]
      · rfl
      · intro same
        cases same

theorem ofChars_memberChars (name : String) (value : Json) (rest : List (String × Json)) :
    Bytes.ofChars (memberChars ((name, value) :: rest)) =
      nameBytes name ++ value.bytes ++ memberTail rest := by
  induction rest generalizing name value with
  | nil =>
      rw [memberChars, List.append_assoc, List.cons_append, ofChars_named, Bytes.ofChars_append,
        List.append_assoc]
      rfl
  | cons next rest ih =>
      rw [memberChars, List.append_assoc, List.cons_append, ofChars_named, Bytes.ofChars_append,
        Bytes.ofChars_cons, ih, List.append_assoc, List.append_assoc]
      · rw [memberTail, List.append_assoc]
        rfl
      · intro same
        cases same

theorem skipSpace_cons {b : UInt8} (solid : isSpace b = false) (tail : Bytes) :
    skipSpace (b :: tail) = b :: tail :=
  List.dropWhile_cons_of_neg (by rw [solid]; decide)

/-- Wherever no numeral goes on, the text is read as this tree and no further. -/
structure Reads (text : Bytes) (node : Node) : Prop where
  start : ∃ b tail, text = b :: tail ∧ isSpace b = false ∧ b ≠ 0x5D
  read : ∀ {fuel : Nat} {rest : Bytes}, text.length ≤ fuel → Ends rest →
    readValue fuel (text ++ rest) = (node, some rest)

theorem reads_scalar {b : UInt8} {tail : Bytes} {node : Node}
    (solid : isSpace b = false ∧ b ≠ 0x5D) (noArray : b ≠ 0x5B) (noObject : b ≠ 0x7B)
    (read : ∀ rest, Ends rest → readScalar (b :: tail ++ rest) = (node, some rest)) :
    Reads (b :: tail) node := by
  refine ⟨⟨b, tail, rfl, solid⟩, ?_⟩
  intro fuel rest enough ends
  obtain ⟨fuel, rfl⟩ := Nat.exists_eq_succ_of_ne_zero (Nat.ne_of_gt
    (Nat.lt_of_lt_of_le (Nat.zero_lt_succ tail.length) enough))
  have found := read rest ends
  rw [List.cons_append] at found ⊢
  rw [readValue, skipSpace_cons solid.1]
  simp [noArray, noObject, found]

theorem reads_integer (z : Int) : Reads (intBytes z) (.number (.ofInt z)) := by
  have read : ∀ rest, Ends rest →
      readScalar (intBytes z ++ rest) = (.number (.ofInt z), some rest) :=
    fun rest => readScalar_intBytes z
  rw [intBytes] at read ⊢
  split at read
  · rw [if_pos ‹_›]
    exact reads_scalar (by decide) (by decide) (by decide) read
  · obtain ⟨b, tail, split, digit⟩ := digitBytes_cons z.natAbs
    rw [if_neg ‹_›]
    rw [split] at read ⊢
    have differs : ∀ b', isDigit b' = false → b ≠ b' := fun _ => ne_of_isDigit digit
    have noSpace : isSpace b = false := by
      simp [isSpace, differs 0x20 (by decide), differs 0x09 (by decide), differs 0x0A (by decide),
        differs 0x0D (by decide)]
    exact reads_scalar ⟨noSpace, differs _ (by decide)⟩ (differs _ (by decide))
      (differs _ (by decide)) read

theorem reads_string (s : String) : Reads (0x22 :: (body s ++ [0x22])) (.string (body s)) := by
  refine reads_scalar (by decide) (by decide) (by decide) ?_
  intro rest ends
  have split : body s ++ [0x22] ++ rest = body s ++ 0x22 :: rest := by
    rw [List.append_assoc]
    rfl
  rw [List.cons_append, split, readScalar, readBody?_body]

theorem reads_word {b : UInt8} {word : Bytes} {node : Node}
    (solid : isSpace b = false ∧ b ≠ 0x5D) (noArray : b ≠ 0x5B) (noObject : b ≠ 0x7B)
    (scalar : ∀ rest, readScalar (b :: rest) = readWord (b :: word) node (b :: rest)) :
    Reads (b :: word) node := by
  refine reads_scalar solid noArray noObject ?_
  intro rest ends
  have fits : (b :: word).isPrefixOf (b :: word ++ rest) = true :=
    List.isPrefixOf_iff_prefix.mpr (List.prefix_append _ _)
  rw [List.cons_append, scalar, ← List.cons_append, readWord, if_pos fits,
    List.drop_left]

theorem ends_itemTail (items : List Json) (rest : Bytes) : Ends (itemTail items ++ rest) := by
  cases items with
  | nil => exact ends_cons (by decide) rest
  | cons item items => exact ends_cons (by decide) _

theorem ends_memberTail (members : List (String × Json)) (rest : Bytes) :
    Ends (memberTail members ++ rest) := by
  cases members with
  | nil => exact ends_cons (by decide) rest
  | cons member members => exact ends_cons (by decide) _

section
variable {fuel : Nat} {rest : Bytes}

theorem itemTail_pos (items : List Json) : 0 < (itemTail items).length := by
  cases items with
  | nil => exact Nat.zero_lt_one
  | cons item items => exact Nat.zero_lt_succ _

theorem memberTail_pos (members : List (String × Json)) : 0 < (memberTail members).length := by
  cases members with
  | nil => exact Nat.zero_lt_one
  | cons member members => exact Nat.zero_lt_succ _

theorem readItems_first {item : Json} (reads : Reads item.bytes item.toNode) (items : List Json)
    (enough : item.bytes.length ≤ fuel) :
    readItems (fuel + 1) true (item.bytes ++ (itemTail items ++ rest)) =
      (item.toNode :: (readItems fuel false (itemTail items ++ rest)).1,
        (readItems fuel false (itemTail items ++ rest)).2) := by
  have found := reads.read enough (ends_itemTail items rest)
  obtain ⟨b, tail, split, solid, noEnd⟩ := reads.start
  rw [split, List.cons_append] at found ⊢
  rw [readItems, skipSpace_cons solid]
  simp [noEnd, found]

theorem readItems_next {item : Json} (reads : Reads item.bytes item.toNode) (items : List Json)
    (enough : item.bytes.length ≤ fuel) :
    readItems (fuel + 1) false (0x2C :: (item.bytes ++ (itemTail items ++ rest))) =
      (item.toNode :: (readItems fuel false (itemTail items ++ rest)).1,
        (readItems fuel false (itemTail items ++ rest)).2) := by
  have found := reads.read enough (ends_itemTail items rest)
  rw [readItems, skipSpace_cons (by decide)]
  simp [found]

theorem readItems_itemTail {items : List Json}
    (each : ∀ item ∈ items, Reads item.bytes item.toNode)
    (enough : (itemTail items).length ≤ fuel) :
    readItems fuel false (itemTail items ++ rest) = (itemNodes items, some rest) := by
  induction items generalizing fuel with
  | nil =>
      obtain ⟨fuel, rfl⟩ := Nat.exists_eq_succ_of_ne_zero (Nat.ne_of_gt enough)
      rfl
  | cons item items ih =>
      rw [itemTail, List.length_cons, List.length_append] at enough
      obtain ⟨fuel, rfl⟩ := Nat.exists_eq_succ_of_ne_zero (n := fuel) (by omega)
      have others : readItems fuel false (itemTail items ++ rest) = (itemNodes items, some rest) :=
        ih (fun other later => each other (List.mem_cons_of_mem _ later)) (by omega)
      rw [itemTail, List.cons_append, List.append_assoc,
        readItems_next (each item List.mem_cons_self) items (by omega), others]
      rfl

theorem readItems_itemChars {items : List Json}
    (each : ∀ item ∈ items, Reads item.bytes item.toNode)
    (enough : (Bytes.ofChars (itemChars items)).length ≤ fuel) :
    readItems fuel true (Bytes.ofChars (itemChars items) ++ rest) =
      (itemNodes items, some rest) := by
  cases items with
  | nil =>
      obtain ⟨fuel, rfl⟩ := Nat.exists_eq_succ_of_ne_zero (Nat.ne_of_gt enough)
      rfl
  | cons item items =>
      rw [ofChars_itemChars] at enough ⊢
      rw [List.length_append] at enough
      have tail := itemTail_pos items
      obtain ⟨b, text, split, -⟩ := (each item List.mem_cons_self).start
      have head : 0 < item.bytes.length := split ▸ Nat.zero_lt_succ text.length
      obtain ⟨fuel, rfl⟩ := Nat.exists_eq_succ_of_ne_zero (n := fuel) (by omega)
      have others : readItems fuel false (itemTail items ++ rest) = (itemNodes items, some rest) :=
        readItems_itemTail (fun other later => each other (List.mem_cons_of_mem _ later)) (by omega)
      rw [List.append_assoc, readItems_first (each item List.mem_cons_self) items (by omega),
        others]
      rfl

theorem readName_nameBytes (name : String) (rest : Bytes) :
    readName (nameBytes name ++ rest) = (some (body name), some rest) := by
  have split : nameBytes name ++ rest = 0x22 :: (body name ++ 0x22 :: 0x3A :: rest) := by
    rw [nameBytes, List.cons_append, List.append_assoc]
    rfl
  rw [split, readName, skipSpace_cons (by decide)]
  simp only [readBody?_body, skipSpace_cons (b := 0x3A) (by decide)]

theorem readMembers_first {name : String} {value : Json} (reads : Reads value.bytes value.toNode)
    (members : List (String × Json)) (enough : value.bytes.length ≤ fuel) :
    readMembers (fuel + 1) true (nameBytes name ++ (value.bytes ++ (memberTail members ++ rest))) =
      ((some (body name), value.toNode) :: (readMembers fuel false (memberTail members ++ rest)).1,
        (readMembers fuel false (memberTail members ++ rest)).2) := by
  have named := readName_nameBytes name (value.bytes ++ (memberTail members ++ rest))
  have found := reads.read enough (ends_memberTail members rest)
  obtain ⟨tail, split⟩ : ∃ tail, nameBytes name ++ (value.bytes ++ (memberTail members ++ rest)) =
      0x22 :: tail := ⟨_, rfl⟩
  rw [split] at named ⊢
  rw [readMembers, skipSpace_cons (by decide)]
  simp [named, found]

theorem readMembers_next {name : String} {value : Json} (reads : Reads value.bytes value.toNode)
    (members : List (String × Json)) (enough : value.bytes.length ≤ fuel) :
    readMembers (fuel + 1) false
        (0x2C :: (nameBytes name ++ (value.bytes ++ (memberTail members ++ rest)))) =
      ((some (body name), value.toNode) :: (readMembers fuel false (memberTail members ++ rest)).1,
        (readMembers fuel false (memberTail members ++ rest)).2) := by
  have named := readName_nameBytes name (value.bytes ++ (memberTail members ++ rest))
  have found := reads.read enough (ends_memberTail members rest)
  rw [readMembers, skipSpace_cons (by decide)]
  simp [named, found]

theorem readMembers_memberTail {members : List (String × Json)}
    (each : ∀ value ∈ members.map Prod.snd, Reads value.bytes value.toNode)
    (enough : (memberTail members).length ≤ fuel) :
    readMembers fuel false (memberTail members ++ rest) = (memberNodes members, some rest) := by
  induction members generalizing fuel with
  | nil =>
      obtain ⟨fuel, rfl⟩ := Nat.exists_eq_succ_of_ne_zero (Nat.ne_of_gt enough)
      rfl
  | cons member members ih =>
      obtain ⟨name, value⟩ := member
      rw [memberTail, List.length_cons, List.length_append, List.length_append] at enough
      obtain ⟨fuel, rfl⟩ := Nat.exists_eq_succ_of_ne_zero (n := fuel) (by omega)
      have others : readMembers fuel false (memberTail members ++ rest) =
          (memberNodes members, some rest) :=
        ih (fun other later => each other (List.mem_cons_of_mem _ later)) (by omega)
      rw [memberTail, List.cons_append, List.append_assoc, List.append_assoc,
        readMembers_next (each value List.mem_cons_self) members (by omega), others]
      rfl

theorem readMembers_memberChars {members : List (String × Json)}
    (each : ∀ value ∈ members.map Prod.snd, Reads value.bytes value.toNode)
    (enough : (Bytes.ofChars (memberChars members)).length ≤ fuel) :
    readMembers fuel true (Bytes.ofChars (memberChars members) ++ rest) =
      (memberNodes members, some rest) := by
  cases members with
  | nil =>
      obtain ⟨fuel, rfl⟩ := Nat.exists_eq_succ_of_ne_zero (Nat.ne_of_gt enough)
      rfl
  | cons member members =>
      obtain ⟨name, value⟩ := member
      rw [ofChars_memberChars] at enough ⊢
      rw [List.length_append, List.length_append] at enough
      have tail := memberTail_pos members
      have head : 0 < (nameBytes name).length := Nat.zero_lt_succ _
      obtain ⟨fuel, rfl⟩ := Nat.exists_eq_succ_of_ne_zero (n := fuel) (by omega)
      have others : readMembers fuel false (memberTail members ++ rest) =
          (memberNodes members, some rest) :=
        readMembers_memberTail (fun other later => each other (List.mem_cons_of_mem _ later))
          (by omega)
      rw [List.append_assoc, List.append_assoc,
        readMembers_first (each value List.mem_cons_self) members (by omega), others]
      rfl

end

theorem reads_array {items : List Json} (each : ∀ item ∈ items, Reads item.bytes item.toNode) :
    Reads (Json.array items).bytes (Json.array items).toNode := by
  have text : (Json.array items).bytes = 0x5B :: Bytes.ofChars (itemChars items) := by
    rw [bytes, toChars]
    rfl
  rw [text]
  refine ⟨⟨_, _, rfl, by decide, by decide⟩, ?_⟩
  intro fuel rest enough ends
  obtain ⟨fuel, rfl⟩ := Nat.exists_eq_succ_of_ne_zero
    (Nat.ne_of_gt (Nat.lt_of_lt_of_le (Nat.zero_lt_succ _) enough))
  have found : readItems fuel true (Bytes.ofChars (itemChars items) ++ rest) =
      (itemNodes items, some rest) := readItems_itemChars each (Nat.le_of_succ_le_succ enough)
  rw [List.cons_append, readValue, skipSpace_cons (by decide), toNode]
  simp only [found]

theorem reads_object {members : List (String × Json)}
    (each : ∀ value ∈ members.map Prod.snd, Reads value.bytes value.toNode) :
    Reads (Json.object members).bytes (Json.object members).toNode := by
  have text : (Json.object members).bytes = 0x7B :: Bytes.ofChars (memberChars members) := by
    rw [bytes, toChars]
    rfl
  rw [text]
  refine ⟨⟨_, _, rfl, by decide, by decide⟩, ?_⟩
  intro fuel rest enough ends
  obtain ⟨fuel, rfl⟩ := Nat.exists_eq_succ_of_ne_zero
    (Nat.ne_of_gt (Nat.lt_of_lt_of_le (Nat.zero_lt_succ _) enough))
  have found : readMembers fuel true (Bytes.ofChars (memberChars members) ++ rest) =
      (memberNodes members, some rest) :=
    readMembers_memberChars each (Nat.le_of_succ_le_succ enough)
  rw [List.cons_append, readValue, skipSpace_cons (by decide), toNode]
  simp only [found]

/-- The text of a value without floating-point numbers is read as its tree. -/
theorem reads_bytes {value : Json} (exact : value.Integral) : Reads value.bytes value.toNode := by
  induction exact with
  | @intro value whole _ each =>
      cases value with
      | null => exact reads_word (by decide) (by decide) (by decide) fun _ => rfl
      | bool b =>
          cases b with
          | true => exact reads_word (by decide) (by decide) (by decide) fun _ => rfl
          | false => exact reads_word (by decide) (by decide) (by decide) fun _ => rfl
      | number n =>
          cases n with
          | integer z fits =>
              rw [toNode_integer, bytes, toChars, ofChars_integer]
              exact reads_integer z
          | double x => exact absurd rfl (whole x)
      | string s =>
          rw [bytes, toChars, toNode, ofChars_quote]
          exact reads_string s
      | array items => exact reads_array each
      | object members => exact reads_object each

theorem ofBytes_bytes {value : Json} (exact : value.Integral) :
    Document.ofBytes value.bytes = ⟨value.toNode, true⟩ := by
  have found : readValue (2 * value.bytes.length + 2) (value.bytes ++ []) =
      (value.toNode, some []) := (reads_bytes exact).read (by omega) ends_nil
  rw [List.append_nil] at found
  rw [Document.ofBytes, found]
  rfl

end HardwareSigner.Json
