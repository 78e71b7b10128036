import HardwareSigner.Proofs.Json.Values
import Mathlib.Data.List.Pairwise
/-!
Records that are read without their text.  A record is described by its parts: where each is kept,
how it is decoded and how it is read from a value.  What the decoder makes of a tree is then what
these readings find in the value of the tree.
-/

namespace HardwareSigner.Json
variable {ρ σ α β : Type}

/-- What stands under a name in an object, or at a place in an array. -/
def component? (place : Nat) (name : String) : Json → Option Json
  | .object members => members.lookup name
  | .array items => items[place]?
  | _ => none

/-- An object, or an array that has no item beyond the last component. -/
def isRecord (size : Nat) : Json → Bool
  | .object _ => true
  | .array items => items.length ≤ size
  | _ => false

/-- A component, which may be missing but must be readable if it is there. -/
def part? (read : Json → Option β) (place : Nat) (name : String) (value : Json) :
    Option (Option β) :=
  match value.component? place name with
  | none => some none
  | some component => (read component).map some

theorem part?_eq_some_iff {read : Json → Option β} {place : Nat} {name : String} {value : Json}
    {o : Option β} : part? read place name value = some o ↔
      (value.component? place name).map read = o.map some := by
  rw [part?]
  cases value.component? place name with
  | none =>
      cases o <;>
        simp only [Option.map_none, Option.map_some, Option.some.injEq, reduceCtorEq]
  | some component =>
      simp only [Option.map_some]
      cases read component <;> cases o <;>
        simp only [Option.map_none, Option.map_some, Option.some.injEq, reduceCtorEq]

/-- One component of a record that is being read into `σ`. -/
structure Part (ρ σ : Type) where
  {β : Type}
  name : String
  get : σ → Option β
  set : β → σ → σ
  decoder : Decoder ρ β
  read : Json → Option β

namespace Part

def slot (p : Part ρ σ) : Slot ρ σ :=
  .of p.name p.get p.set p.decoder

/-- What is set is what is got, and the decoder takes what can be read. -/
structure Lawful (p : Part ρ σ) : Prop where
  own (x : p.β) (s : σ) : p.get (p.set x s) = some x
  reads : p.decoder.Reads p.read

/-- Neither part touches the other one. -/
structure Apart (p q : Part ρ σ) : Prop where
  names : p.name ≠ q.name
  left (x : q.β) (s : σ) : p.get (q.set x s) = p.get s
  right (x : p.β) (s : σ) : q.get (p.set x s) = q.get s

theorem Apart.symm {p q : Part ρ σ} (apart : p.Apart q) : q.Apart p :=
  ⟨apart.names.symm, apart.right, apart.left⟩

theorem apart_of_ne {parts : List (Part ρ σ)} (apart : parts.Pairwise Apart) {p q : Part ρ σ}
    (held : p ∈ parts) (held' : q ∈ parts) (other : p ≠ q) : p.Apart q :=
  have : Std.Symm (Apart (ρ := ρ) (σ := σ)) := ⟨fun _ _ => Apart.symm⟩
  apart.forall held held' other

theorem exists_of_known {parts : List (Part ρ σ)} {key : String} {slot : Slot ρ σ}
    (known : (parts.map Part.slot).find? (·.name = key) = some slot) :
    ∃ p ∈ parts, p.slot = slot ∧ p.name = key := by
  have name := List.find?_some known
  obtain ⟨p, held, rfl⟩ := List.mem_map.mp (List.mem_of_find?_eq_some known)
  exact ⟨p, held, rfl, of_decide_eq_true name⟩

end Part

/-- The components of a value, in the order of the parts. -/
def Holds (value : Json) (s : σ) : (place : Nat) → List (Part ρ σ) → Prop
  | _, [] => True
  | place, p :: parts =>
    part? p.read place p.name value = some (p.get s) ∧ Holds value s (place + 1) parts

section
variable {value : Json} {s s' : σ} {place : Nat} {parts : List (Part ρ σ)}

theorem Holds.unique (first : Holds value s place parts) (second : Holds value s' place parts) :
    ∀ p ∈ parts, p.get s = p.get s' := by
  induction parts generalizing place with
  | nil => exact nofun
  | cons p parts ih =>
      obtain ⟨here, later⟩ := first
      obtain ⟨here', later'⟩ := second
      exact List.forall_mem_cons.mpr
        ⟨Option.some.inj (here.symm.trans here'), ih later later'⟩

theorem holds_of_forall
    (each : ∀ p ∈ parts, ∀ place, part? p.read place p.name value = some (p.get s)) :
    Holds value s place parts := by
  induction parts generalizing place with
  | nil => trivial
  | cons p parts ih =>
      obtain ⟨here, later⟩ := List.forall_mem_cons.mp each
      exact ⟨here place, ih later⟩

theorem Holds.part (holds : Holds value s place parts) {p : Part ρ σ} (held : p ∈ parts) :
    ∃ place, part? p.read place p.name value = some (p.get s) := by
  induction parts generalizing place with
  | nil => cases held
  | cons q parts ih =>
      rcases List.mem_cons.mp held with rfl | later
      · exact ⟨place, holds.1⟩
      · exact ih holds.2 later

end

namespace Shape

/-- A record whose components are these parts, and nothing besides. -/
structure Described (shape : Shape ρ σ α) (parts : List (Part ρ σ)) : Prop where
  slots : shape.slots = parts.map Part.slot
  lawful : ∀ p ∈ parts, p.Lawful
  apart : parts.Pairwise Part.Apart
  unset : ∀ p ∈ parts, p.get shape.start = none
  ext {s s' : σ} : (∀ p ∈ parts, p.get s = p.get s') → s = s'
  settled {missing missing' : String → Fault ρ} {s : σ} {x : α} :
    shape.finish missing s = .ok x → shape.finish missing' s = .ok x

section
variable {depth : Nat} {parts : List (Part ρ σ)}

theorem get_of_fill {p q : Part ρ σ} (apart : p.Apart q) {node : Node} {set : σ → σ}
    (filled : q.slot.fill depth node = .ok set) (s : σ) : p.get (set s) = p.get s := by
  obtain ⟨x, -, rfl⟩ := fill_of filled
  exact apart.left x s

theorem getElem?_next {whole values : List Json} {place : Nat}
    (tail : ∀ i, whole[place + i]? = values[i]?) (i : Nat) :
    whole[place + 1 + i]? = values.tail[i]? := by
  rw [List.getElem?_tail, ← tail, Nat.add_assoc, Nat.add_comm 1]

/-- The items of an array fill the parts that stand at their places. -/
theorem readItems_holds (lawful : ∀ p ∈ parts, p.Lawful) (apart : parts.Pairwise Part.Apart)
    {nodes : List Node} {values whole : List Json} {s s' : σ} {place : Nat}
    (valued : List.Forall₂ (fun node value => node.toJson? depth = some value) nodes values)
    (tail : ∀ i, whole[place + i]? = values[i]?) (unset : ∀ p ∈ parts, p.get s = none)
    (read : readItems depth (parts.map Part.slot) nodes s = .ok s') :
    values.length ≤ parts.length ∧ Holds (.array whole) s' place parts := by
  induction parts generalizing nodes values place s with
  | nil =>
      cases valued with
      | nil => exact ⟨Nat.le_refl 0, trivial⟩
      | cons head rest => cases read
  | cons p parts ih =>
      obtain ⟨here, later⟩ := List.forall_mem_cons.mp lawful
      obtain ⟨first, apart⟩ := List.pairwise_cons.mp apart
      obtain ⟨empty, unset⟩ := List.forall_mem_cons.mp unset
      cases valued with
      | nil =>
          cases read
          have others := ih later apart .nil (getElem?_next tail) unset (by rw [readItems])
          refine ⟨Nat.zero_le _, part?_eq_some_iff.mpr ?_, others.2⟩
          rw [component?, empty]
          exact congrArg (Option.map p.read) (tail 0)
      | @cons node value nodes values head rest =>
          rw [List.map_cons, readItems] at read
          split at read
          · cases read
          rename_i set filled
          obtain ⟨x, taken, rfl⟩ := fill_of filled
          have kept : p.get s' = some x := by
            refine readItems_keeps (P := fun s => p.get s = some x) ?_ read (here.own x s)
            intro slot known node set filled s before
            obtain ⟨q, held, rfl⟩ := List.mem_map.mp known
            exact (get_of_fill (first q held) filled s).trans before
          have others := ih later apart rest (getElem?_next tail)
            (fun q held => ((first q held).right x s).trans (unset q held)) read
          refine ⟨Nat.succ_le_succ others.1, part?_eq_some_iff.mpr ?_, others.2⟩
          have found : whole[place]? = some value := tail 0
          rw [component?, found, kept, Option.map_some, Option.map_some,
            here.reads.sound head taken]

/-- The members of an object fill the parts of their names; `t` has the members read so far. -/
theorem readMembers_holds (lawful : ∀ p ∈ parts, p.Lawful) (apart : parts.Pairwise Part.Apart)
    {p : Part ρ σ} (held : p ∈ parts) {nodes : List (Option Bytes × Node)}
    {members : List (String × Json)} (valued : List.Forall₂ (Node.Member depth) nodes members)
    {t : Table Json} {s s' : σ} (before : (t.get? p.name).map p.read = (p.get s).map some)
    (read : readMembers (parts.map Part.slot) depth nodes s = .ok s') :
    ((members.foldl (fun t e => t.insert e.1 e.2) t).get? p.name).map p.read =
      (p.get s').map some := by
  induction valued generalizing t s with
  | nil =>
      cases read
      exact before
  | @cons node member nodes members head rest ih =>
      obtain ⟨named, valued⟩ := head
      rw [readMembers, named] at read
      simp only at read
      rw [List.foldl_cons]
      split at read
      · rename_i unknown
        split at read
        · refine ih ?_ read
          have other : p.name ≠ member.1 := by
            have passed := List.find?_eq_none.mp unknown p.slot (List.mem_map_of_mem held)
            exact of_decide_eq_false (Bool.eq_false_iff.mpr passed)
          rw [Table.get?_insert, if_neg other, before]
        · cases read
      rename_i slot known
      obtain ⟨q, held', rfl, name⟩ := Part.exists_of_known known
      split at read
      · cases read
      split at read
      · cases read
      rename_i set filled
      obtain ⟨x, taken, rfl⟩ := fill_of filled
      refine ih ?_ read
      rw [Table.get?_insert]
      by_cases same : p = q
      · obtain rfl := same
        rw [if_pos name, (lawful p held).own, Option.map_some, Option.map_some,
          (lawful p held).reads.sound valued taken]
      · have away := Part.apart_of_ne apart held held' same
        have other : p.name ≠ member.1 := fun same => away.names (same.trans name.symm)
        rw [if_neg other, away.left, before]

theorem readItems_complete (lawful : ∀ p ∈ parts, p.Lawful) {nodes : List Node}
    {values whole : List Json} {s₀ : σ} {place : Nat}
    (valued : List.Forall₂ (fun node value => node.toJson? depth = some value) nodes values)
    (distinct : ∀ node ∈ nodes, node.Distinct) (tail : ∀ i, whole[place + i]? = values[i]?)
    (short : values.length ≤ parts.length) (holds : Holds (.array whole) s₀ place parts) (s : σ) :
    ∃ s', readItems depth (parts.map Part.slot) nodes s = .ok s' := by
  induction parts generalizing nodes values place s with
  | nil =>
      cases valued with
      | nil => exact ⟨s, rfl⟩
      | cons head rest => cases short
  | cons p parts ih =>
      cases valued with
      | nil => exact ⟨s, rfl⟩
      | @cons node value nodes values head rest =>
          obtain ⟨here, later⟩ := holds
          have found : whole[place]? = some value := tail 0
          rw [part?_eq_some_iff, component?, found, Option.map_some] at here
          obtain ⟨x, -, readable⟩ := Option.map_eq_some_iff.mp here.symm
          obtain ⟨y, taken⟩ := (lawful p List.mem_cons_self).reads.complete head
            (distinct node List.mem_cons_self) readable.symm
          obtain ⟨s', filled⟩ := ih (fun q held => lawful q (List.mem_cons_of_mem _ held)) rest
            (fun other held => distinct other (List.mem_cons_of_mem _ held)) (getElem?_next tail)
            (Nat.le_of_succ_le_succ short) later (p.set y s)
          refine ⟨s', ?_⟩
          rw [List.map_cons, readItems, Part.slot, Slot.of]
          simp only [taken]
          exact filled

theorem readMembers_complete (apart : parts.Pairwise Part.Apart)
    {nodes : List (Option Bytes × Node)} {members : List (String × Json)}
    (valued : List.Forall₂ (Node.Member depth) nodes members)
    (names : (members.map Prod.fst).Nodup)
    (each : ∀ p ∈ parts, ∀ node ∈ nodes, node.1.bind text? = some p.name →
      ∃ x, p.decoder depth node.2 = .ok x) {s : σ}
    (unset : ∀ p ∈ parts, p.name ∈ members.map Prod.fst → p.get s = none) :
    ∃ s', readMembers (parts.map Part.slot) depth nodes s = .ok s' := by
  induction valued generalizing s with
  | nil => exact ⟨s, rfl⟩
  | @cons node member nodes members head rest ih =>
      obtain ⟨named, valued⟩ := head
      obtain ⟨new, names⟩ := List.nodup_cons.mp names
      have later (s : σ) := ih (s := s) names
        fun p held other one => each p held other (List.mem_cons_of_mem _ one)
      rw [readMembers, named]
      simp only
      cases known : (parts.map Part.slot).find? (·.name = member.1) with
      | none =>
          rw [if_pos (Node.isWhole_of_toJson? valued)]
          exact later s fun p held one => unset p held (List.mem_cons_of_mem _ one)
      | some slot =>
          obtain ⟨p, held, rfl, name⟩ := Part.exists_of_known known
          have empty : p.get s = none := unset p held (name ▸ List.mem_cons_self)
          obtain ⟨x, taken⟩ := each p held node List.mem_cons_self (named.trans (name ▸ rfl))
          obtain ⟨s', filled⟩ := later (p.set x s) fun q held' one => by
            have other : q ≠ p := by
              rintro rfl
              exact new (name ▸ one)
            rw [(Part.apart_of_ne apart held' held other).left]
            exact unset q held' (List.mem_cons_of_mem _ one)
          refine ⟨s', ?_⟩
          simp only [Part.slot, Slot.of, empty, taken, Option.isSome_none, Bool.false_eq_true,
            if_false]
          exact filled

end

section
variable {shape : Shape ρ σ α} {parts : List (Part ρ σ)} {depth : Nat} {node : Node} {value : Json}

theorem Described.holds (described : shape.Described parts) {s : σ}
    (valued : node.toJson? depth = some value) (fills : shape.Fills depth node s) :
    value.isRecord parts.length = true ∧ Holds value s 0 parts := by
  obtain ⟨slots, lawful, apart, unset, -, -⟩ := described
  cases Node.valued_of_toJson? valued with
  | object room members =>
      cases fills with
      | object _ filled =>
          rw [slots] at filled
          refine ⟨rfl, holds_of_forall fun p held place => part?_eq_some_iff.mpr ?_⟩
          refine readMembers_holds lawful apart held members (t := .empty) ?_ filled
          rw [unset p held]
          rfl
  | @array _ values room items =>
      cases fills with
      | array _ filled =>
          rw [slots] at filled
          have whole (i : Nat) : values[0 + i]? = values[i]? := by rw [Nat.zero_add]
          have holds := readItems_holds lawful apart items whole unset filled
          exact ⟨decide_eq_true holds.1, holds.2⟩
  | null | bool | number | string => cases fills

theorem Described.fills (described : shape.Described parts) {s₀ : σ}
    (valued : node.toJson? depth = some value) (distinct : node.Distinct)
    (record : value.isRecord parts.length = true) (holds : Holds value s₀ 0 parts) :
    ∃ s, shape.Fills depth node s := by
  obtain ⟨slots, lawful, apart, unset, -, -⟩ := described
  cases Node.valued_of_toJson? valued with
  | @object nodes members room both =>
      have names := distinct.names_nodup both
      have each : ∀ p ∈ parts, ∀ node ∈ nodes, node.1.bind text? = some p.name →
          ∃ x, p.decoder (depth - 1) node.2 = .ok x := by
        intro p held node one named
        obtain ⟨⟨_, component⟩, given, named', valued⟩ := exists_of_forall₂ both one
        cases named.symm.trans named'
        obtain ⟨place, found⟩ := holds.part held
        have here : (Table.ofList members).entries.lookup p.name = some component :=
          Table.get?_ofList names given
        rw [part?_eq_some_iff, component?, here, Option.map_some] at found
        obtain ⟨x, -, readable⟩ := Option.map_eq_some_iff.mp found.symm
        exact (lawful p held).reads.complete valued
          (distinct.child (List.mem_map_of_mem one)) readable.symm
      obtain ⟨s, filled⟩ := readMembers_complete apart both names each
        fun p held _ => unset p held
      exact ⟨s, .object room (slots ▸ filled)⟩
  | @array _ values room items =>
      have whole (i : Nat) : values[0 + i]? = values[i]? := by rw [Nat.zero_add]
      obtain ⟨s, filled⟩ := readItems_complete lawful items (fun _ => distinct.child) whole
        (of_decide_eq_true record) holds shape.start
      exact ⟨s, .array room (slots ▸ filled)⟩
  | null | bool | number | string => cases record

/-- A record that is described by its parts is read from values as it is decoded from trees. -/
theorem Described.reads (described : shape.Described parts) {read : Json → Option α}
    (spec : ∀ value x, read value = some x ↔ value.isRecord parts.length = true ∧
      ∃ s, Holds value s 0 parts ∧ ∃ missing, shape.finish missing s = .ok x) :
    shape.decoder.Reads read where
  sound {depth node value x} valued taken := by
    obtain ⟨s, fills, finished⟩ := fills_of_decoder taken
    obtain ⟨record, holds⟩ := described.holds valued fills
    exact (spec value x).mpr ⟨record, s, holds, finished⟩
  complete {depth node value x} valued distinct found := by
    obtain ⟨record, s₀, holds, missing, made⟩ := (spec value x).mp found
    obtain ⟨s, fills⟩ := described.fills valued distinct record holds
    obtain rfl := described.ext ((described.holds valued fills).2.unique holds)
    obtain ⟨missing', same⟩ := decoder_of_fills fills
    exact ⟨x, same.trans (described.settled made)⟩

end

end Shape

end HardwareSigner.Json
