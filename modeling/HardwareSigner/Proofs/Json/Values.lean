import HardwareSigner.Proofs.Forall2
import HardwareSigner.Proofs.Json.Decoding
import Mathlib.Data.List.Nodup
/-!
Values that are read without their text.  In memory an object has every name once, and no order of
its own.  A decoder agrees with a reading of such values if it takes from a tree what the reading
takes from the value of that tree.
-/

namespace HardwareSigner

section
variable {ι α β : Type}

theorem mapM_eq_some_iff {f : ι → Option α} {is : List ι} {as : List α} :
    is.mapM f = some as ↔ List.Forall₂ (fun i a => f i = some a) is as := by
  induction is generalizing as with
  | nil =>
      rw [List.mapM_nil, List.forall₂_nil_left_iff]
      exact ⟨fun same => (Option.some.inj same).symm, fun same => congrArg some same.symm⟩
  | cons i is ih =>
      rw [List.mapM_cons, List.forall₂_cons_left_iff]
      constructor
      · intro made
        obtain ⟨a, head, made⟩ := Option.bind_eq_some_iff.mp made
        obtain ⟨as, rest, made⟩ := Option.bind_eq_some_iff.mp made
        cases made
        exact ⟨a, as, head, ih.mp rest, rfl⟩
      · rintro ⟨a, as, head, rest, rfl⟩
        rw [head, ih.mpr rest]
        rfl

/-- Entries that belong together are put in together. -/
theorem forall₂_insertEntry {A : α → β → Prop} {key : String} {a : α} {b : β}
    {es : List (String × α)} {fs : List (String × β)} (new : A a b)
    (both : List.Forall₂ (fun e f => e.1 = f.1 ∧ A e.2 f.2) es fs) :
    List.Forall₂ (fun e f => e.1 = f.1 ∧ A e.2 f.2) (insertEntry key a es)
      (insertEntry key b fs) := by
  induction both with
  | nil => exact .cons ⟨rfl, new⟩ .nil
  | @cons e f es fs head rest ih =>
      obtain ⟨same, old⟩ := head
      obtain ⟨name, a'⟩ := e
      obtain ⟨_, b'⟩ := f
      obtain rfl : name = _ := same
      simp only [insertEntry]
      split
      · exact .cons ⟨rfl, new⟩ (.cons ⟨rfl, old⟩ rest)
      · split
        · exact .cons ⟨rfl, new⟩ rest
        · exact .cons ⟨rfl, old⟩ ih

theorem sorted_of_forall₂ {es : List (String × α)} {fs : List (String × β)} (sorted : Sorted es)
    (names : List.Forall₂ (fun e f => e.1 = f.1) es fs) : Sorted fs := by
  have same : es.map Prod.fst = fs.map Prod.fst := by
    clear sorted
    induction names with
    | nil => rfl
    | cons head _ ih => rw [List.map_cons, List.map_cons, head, ih]
  have ordered : (es.map Prod.fst).Pairwise (· < ·) := List.pairwise_map.mpr sorted
  exact List.pairwise_map.mp (same ▸ ordered)

end

namespace Json

namespace Node
variable {depth : Nat}

/-- The items of an array, or the trees of an object's members. -/
def children : Node → List Node
  | .array items => items
  | .object members => members.map Prod.snd
  | _ => []

/-- No object in the tree has two members of one name. -/
inductive Distinct : Node → Prop where
  | intro {node : Node}
      (names : ∀ members, node = .object members → (members.map fun m => m.1.bind text?).Nodup)
      (children : ∀ child ∈ node.children, Distinct child) : Distinct node

/-- The name and the value of a member. -/
def Member (depth : Nat) (node : Option Bytes × Node) (member : String × Json) : Prop :=
  node.1.bind text? = some member.1 ∧ node.2.toJson? depth = some member.2

theorem toItems?_eq_some_iff {nodes : List Node} {values : List Json} :
    toItems? depth nodes = some values ↔
      List.Forall₂ (fun node value => node.toJson? depth = some value) nodes values := by
  induction nodes generalizing values with
  | nil =>
      rw [toItems?, List.forall₂_nil_left_iff]
      exact ⟨fun same => (Option.some.inj same).symm, fun same => congrArg some same.symm⟩
  | cons node nodes ih =>
      rw [toItems?, List.forall₂_cons_left_iff]
      constructor
      · intro read
        split at read
        · rename_i value values head rest
          cases read
          exact ⟨value, values, head, ih.mp rest, rfl⟩
        · cases read
      · rintro ⟨value, values, head, rest, rfl⟩
        simp only [head, ih.mpr rest]

theorem toMembers?_eq_some_iff {nodes : List (Option Bytes × Node)}
    {members : List (String × Json)} :
    toMembers? depth nodes = some members ↔ List.Forall₂ (Member depth) nodes members := by
  induction nodes generalizing members with
  | nil =>
      rw [toMembers?, List.forall₂_nil_left_iff]
      exact ⟨fun same => (Option.some.inj same).symm, fun same => congrArg some same.symm⟩
  | cons node nodes ih =>
      rw [toMembers?, List.forall₂_cons_left_iff]
      constructor
      · intro read
        split at read
        · rename_i key value members named head rest
          cases read
          exact ⟨(key, value), members, ⟨named, head⟩, ih.mp rest, rfl⟩
        · cases read
      · rintro ⟨⟨key, value⟩, members, ⟨named, head⟩, rest, rfl⟩
        simp only [named, head, ih.mpr rest]

/-- The ways in which a tree comes to its value. -/
inductive Valued (depth : Nat) : Node → Json → Prop where
  | null : Valued depth .null .null
  | bool (b : Bool) : Valued depth (.bool b) (.bool b)
  | number {n : Numeral} {x : Number} : n.toNumber? = some x → Valued depth (.number n) (.number x)
  | string {body : Bytes} {s : String} : text? body = some s →
      Valued depth (.string body) (.string s)
  | array {nodes : List Node} {values : List Json} : 1 < depth →
      List.Forall₂ (fun node value => node.toJson? (depth - 1) = some value) nodes values →
      Valued depth (.array nodes) (.array values)
  | object {nodes : List (Option Bytes × Node)} {members : List (String × Json)} : 1 < depth →
      List.Forall₂ (Member (depth - 1)) nodes members →
      Valued depth (.object nodes) (.object (Table.ofList members).entries)

theorem valued_of_toJson? {node : Node} {value : Json}
    (read : node.toJson? depth = some value) : Valued depth node value := by
  cases node with
  | null =>
      cases read
      exact .null
  | broken => cases read
  | bool b =>
      cases read
      exact .bool b
  | number n =>
      obtain ⟨_, whole, rfl⟩ := Option.map_eq_some_iff.mp read
      exact .number whole
  | string body =>
      obtain ⟨_, plain, rfl⟩ := Option.map_eq_some_iff.mp read
      exact .string plain
  | array nodes =>
      rw [toJson?] at read
      split at read
      · obtain ⟨_, items, rfl⟩ := Option.map_eq_some_iff.mp read
        exact .array ‹_› (toItems?_eq_some_iff.mp items)
      · cases read
  | object nodes =>
      rw [toJson?] at read
      split at read
      · obtain ⟨_, members, rfl⟩ := Option.map_eq_some_iff.mp read
        exact .object ‹_› (toMembers?_eq_some_iff.mp members)
      · cases read

theorem Valued.null_iff {node : Node} {value : Json} (valued : Valued depth node value) :
    node = .null ↔ value = .null := by
  cases valued with
  | null => exact iff_of_true rfl rfl
  | bool | number | string | array | object => simp only [reduceCtorEq]

mutual

theorem isWhole_of_toJson? : ∀ {depth : Nat} {node : Node} {value : Json},
    node.toJson? depth = some value → node.isWhole = true
  | _, .broken, _, read => nomatch read
  | _, .null, _, _ => rfl
  | _, .bool _, _, _ => rfl
  | _, .number _, _, _ => rfl
  | _, .string _, _, _ => rfl
  | depth, .array nodes, _, read => by
      rw [toJson?] at read
      split at read
      · obtain ⟨_, items, -⟩ := Option.map_eq_some_iff.mp read
        exact areWhole_of_toItems? items
      · cases read
  | depth, .object nodes, _, read => by
      rw [toJson?] at read
      split at read
      · obtain ⟨_, members, -⟩ := Option.map_eq_some_iff.mp read
        exact membersWhole_of_toMembers? members
      · cases read

theorem areWhole_of_toItems? : ∀ {depth : Nat} {nodes : List Node} {values : List Json},
    toItems? depth nodes = some values → areWhole nodes = true
  | _, [], _, _ => rfl
  | depth, node :: nodes, _, read => by
      rw [toItems?] at read
      split at read
      · rename_i head rest
        rw [areWhole, isWhole_of_toJson? head, areWhole_of_toItems? rest, Bool.and_self]
      · cases read

theorem membersWhole_of_toMembers? : ∀ {depth : Nat} {nodes : List (Option Bytes × Node)}
    {members : List (String × Json)}, toMembers? depth nodes = some members →
      membersWhole nodes = true
  | _, [], _, _ => rfl
  | depth, (name, node) :: nodes, _, read => by
      rw [toMembers?] at read
      split at read
      · rename_i head rest
        rw [membersWhole, isWhole_of_toJson? head, membersWhole_of_toMembers? rest, Bool.and_self]
      · cases read

end

/-- The names of an object's members, if no two are the same. -/
theorem Distinct.names_nodup {nodes : List (Option Bytes × Node)} {members : List (String × Json)}
    (distinct : Distinct (.object nodes)) (both : List.Forall₂ (Member depth) nodes members) :
    (members.map Prod.fst).Nodup := by
  have same : (nodes.map fun m => m.1.bind text?) = (members.map Prod.fst).map some := by
    clear distinct
    induction both with
    | nil => rfl
    | cons head _ ih => rw [List.map_cons, List.map_cons, List.map_cons, head.1, ih]
  obtain ⟨names, -⟩ := distinct
  exact List.Nodup.of_map some (same ▸ names nodes rfl)

theorem Distinct.child {node child : Node} (distinct : Distinct node)
    (held : child ∈ node.children) : Distinct child := by
  obtain ⟨-, children⟩ := distinct
  exact children child held

end Node

section
variable {ρ α : Type}

/-- A decoder takes from a tree just what can be read from its value, unless an object in the tree
has a name twice: then it may take nothing. -/
structure Decoder.Reads (d : Decoder ρ α) (read : Json → Option α) : Prop where
  sound {depth : Nat} {node : Node} {value : Json} {x : α} : node.toJson? depth = some value →
    d depth node = .ok x → read value = some x
  complete {depth : Nat} {node : Node} {value : Json} {x : α} : node.toJson? depth = some value →
    node.Distinct → read value = some x → ∃ y, d depth node = .ok y

/-- A value, or `null` for none. -/
def optional? (read : Json → Option α) : Json → Option (Option α)
  | .null => some none
  | value => (read value).map some

/-- Items that can all be read. -/
def list? (read : Json → Option α) : Json → Option (List α)
  | .array items => items.mapM read
  | _ => none

/-- Members that can all be read. -/
def table? (read : Json → Option α) : Json → Option (Table α)
  | .object members => (members.mapM fun m => (read m.2).map (m.1, ·)).map .ofList
  | _ => none

namespace Decoder
variable {d : Decoder ρ α} {read : Json → Option α}

theorem Reads.ok_iff (reads : d.Reads read) {depth : Nat} {node : Node} {value : Json}
    (valued : node.toJson? depth = some value) (distinct : node.Distinct) {x : α} :
    d depth node = .ok x ↔ read value = some x := by
  refine ⟨reads.sound valued, fun found => ?_⟩
  obtain ⟨y, taken⟩ := reads.complete valued distinct found
  cases found.symm.trans (reads.sound valued taken)
  exact taken

theorem value_reads : (value : Decoder ρ Json).Reads some where
  sound valued taken := by
    rw [value, valued] at taken
    cases taken
    rfl
  complete valued _ _ := by
    rw [value, valued]
    exact ⟨_, rfl⟩

theorem string_reads : (string : Decoder ρ String).Reads toString? where
  sound valued taken := by
    cases Node.valued_of_toJson? valued with
    | string plain =>
        rw [string, plain] at taken
        cases taken
        rfl
    | null | bool | number | array | object => cases taken
  complete valued _ found := by
    cases Node.valued_of_toJson? valued with
    | string plain =>
        rw [string, plain]
        exact ⟨_, rfl⟩
    | null | bool | number | array | object => cases found

theorem optional_of_ne_null {node : Node} (other : node ≠ .null) (depth : Nat) :
    optional d depth node = (d depth node).map some := by
  cases node with
  | null => exact absurd rfl other
  | _ => rfl

theorem optional?_of_ne_null {value : Json} (other : value ≠ .null) :
    optional? read value = (read value).map some := by
  cases value with
  | null => exact absurd rfl other
  | _ => rfl

theorem optional_reads (reads : d.Reads read) : (optional d).Reads (optional? read) where
  sound {depth node value x} valued taken := by
    have same := (Node.valued_of_toJson? valued).null_iff
    by_cases missing : value = .null
    · obtain rfl := same.mpr missing
      obtain rfl := missing
      cases taken
      rfl
    · rw [optional_of_ne_null (mt same.mp missing)] at taken
      rw [optional?_of_ne_null missing]
      cases inner : d depth node with
      | error fault =>
          rw [inner] at taken
          cases taken
      | ok y =>
          rw [inner] at taken
          cases taken
          rw [reads.sound valued inner]
          rfl
  complete {depth node value x} valued distinct found := by
    have same := (Node.valued_of_toJson? valued).null_iff
    by_cases missing : value = .null
    · obtain rfl := same.mpr missing
      exact ⟨none, rfl⟩
    · rw [optional?_of_ne_null missing] at found
      obtain ⟨y, inner, -⟩ := Option.map_eq_some_iff.mp found
      obtain ⟨y, taken⟩ := reads.complete valued distinct inner
      rw [optional_of_ne_null (mt same.mp missing), taken]
      exact ⟨some y, rfl⟩

theorem items_ok_iff {depth : Nat} {nodes : List Node} {xs : List α} :
    items d depth nodes = .ok xs ↔ List.Forall₂ (fun node x => d depth node = .ok x) nodes xs := by
  induction nodes generalizing xs with
  | nil =>
      rw [items, List.forall₂_nil_left_iff]
      exact ⟨fun same => (Except.ok.inj same).symm, fun same => congrArg Except.ok same.symm⟩
  | cons node nodes ih =>
      rw [items, List.forall₂_cons_left_iff]
      constructor
      · intro taken
        cases head : d depth node with
        | error fault =>
            rw [head] at taken
            cases taken
        | ok x =>
            cases rest : items d depth nodes with
            | error fault =>
                rw [head, rest] at taken
                cases taken
            | ok xs =>
                rw [head, rest] at taken
                cases taken
                exact ⟨x, xs, rfl, ih.mp rest, rfl⟩
      · rintro ⟨x, xs, head, rest, rfl⟩
        rw [head, ih.mpr rest]
        rfl

theorem list_reads (reads : d.Reads read) : (list d).Reads (list? read) where
  sound {depth node value xs} valued taken := by
    cases Node.valued_of_toJson? valued with
    | array room items =>
        rw [list, if_pos room, items_ok_iff] at taken
        refine mapM_eq_some_iff.mpr (forall₂_of_both items taken ?_)
        exact fun node value x _ valued taken => reads.sound valued taken
    | null | bool | number | string | object => cases taken
  complete {depth node value xs} valued distinct found := by
    cases Node.valued_of_toJson? valued with
    | array room items =>
        have taken := forall₂_of_both items.flip (mapM_eq_some_iff.mp found)
          (C := fun node x => d (depth - 1) node = .ok x) fun value node x held valued found =>
            (reads.ok_iff valued (distinct.child held)).mpr found
        rw [list, if_pos room, items_ok_iff.mpr taken]
        exact ⟨xs, rfl⟩
    | null | bool | number | string | object => cases found

/-- Entries of a table, each read from the value of its name. -/
def Entries (read : Json → Option α) (t : Table Json) (u : Table α) : Prop :=
  List.Forall₂ (fun e f => e.1 = f.1 ∧ read e.2 = some f.2) t.entries u.entries

theorem table?_eq_some_iff {t : Table Json} {u : Table α} :
    table? read (.object t.entries) = some u ↔ Entries read t u := by
  have each (m : String × Json) (e : String × α) :
      (read m.2).map (m.1, ·) = some e ↔ m.1 = e.1 ∧ read m.2 = some e.2 := by
    rw [Option.map_eq_some_iff]
    constructor
    · rintro ⟨x, found, rfl⟩
      exact ⟨rfl, found⟩
    · rintro ⟨same, found⟩
      exact ⟨e.2, found, Prod.ext same rfl⟩
  rw [table?, Option.map_eq_some_iff]
  constructor
  · rintro ⟨entries, made, rfl⟩
    have both := (mapM_eq_some_iff.mp made).imp fun m e => (each m e).mp
    rw [Entries, Table.entries_ofList (sorted_of_forall₂ t.sorted (both.imp fun _ _ => And.left))]
    exact both
  · intro both
    have made := mapM_eq_some_iff.mpr (both.imp fun m e => (each m e).mpr)
    exact ⟨u.entries, made, u.ofList_entries⟩

/-- Entries go into both tables alike, whatever the order and with repetitions. -/
theorem entries_sound (reads : d.Reads read) {depth : Nat} {nodes : List (Option Bytes × Node)}
    {members : List (String × Json)} (valued : List.Forall₂ (Node.Member depth) nodes members)
    {t : Table Json} {u u' : Table α} (before : Entries read t u)
    (taken : entries d depth nodes u = .ok u') :
    Entries read (members.foldl (fun t e => t.insert e.1 e.2) t) u' := by
  induction valued generalizing t u with
  | nil =>
      cases taken
      exact before
  | @cons node member nodes members head rest ih =>
      obtain ⟨named, valued⟩ := head
      rw [entries, named] at taken
      simp only at taken
      split at taken
      · cases taken
      · rename_i x found
        have after : Entries read (t.insert member.1 member.2) (u.insert member.1 x) :=
          forall₂_insertEntry (A := fun value x => read value = some x)
            (reads.sound valued found) before
        exact ih after taken

theorem entries_complete {depth : Nat} {nodes : List (Option Bytes × Node)}
    {members : List (String × Json)} (valued : List.Forall₂ (Node.Member depth) nodes members)
    (each : ∀ node ∈ nodes, ∃ x, d depth node.2 = .ok x) (u : Table α) :
    ∃ u', entries d depth nodes u = .ok u' := by
  induction valued generalizing u with
  | nil => exact ⟨u, rfl⟩
  | @cons node member nodes members head rest ih =>
      obtain ⟨x, found⟩ := each node List.mem_cons_self
      obtain ⟨u', taken⟩ := ih (fun other later => each other (List.mem_cons_of_mem _ later))
        (u.insert member.1 x)
      refine ⟨u', ?_⟩
      rw [entries, head.1]
      simp only [found, taken]

theorem table_reads (reads : d.Reads read) : (table d).Reads (table? read) where
  sound {depth node value u} valued taken := by
    cases Node.valued_of_toJson? valued with
    | object room members =>
        rw [table, if_pos room] at taken
        have none : Entries read .empty .empty := .nil
        exact table?_eq_some_iff.mpr (entries_sound reads members none taken)
    | null | bool | number | string | array => cases taken
  complete {depth node value u} valued distinct found := by
    cases Node.valued_of_toJson? valued with
    | @object nodes members room both =>
        rw [table, if_pos room]
        refine entries_complete both (fun node held => ?_) .empty
        obtain ⟨member, given, -, inner⟩ := exists_of_forall₂ both held
        -- No later member has this name, so this one's value is in the table.
        have kept := Table.mem_entries_iff.mpr
          (Table.get?_ofList (distinct.names_nodup both) given)
        obtain ⟨e, -, -, found⟩ := exists_of_forall₂ (table?_eq_some_iff.mp found) kept
        exact reads.complete inner (distinct.child (List.mem_map_of_mem held)) found
    | null | bool | number | string | array => cases found

end Decoder

end

end Json

end HardwareSigner
