import HardwareSigner.Table
import Mathlib.Data.List.Pairwise
import Mathlib.Data.List.Perm.Subperm
/-! What tables hold after insertions, and that they hold every key once. -/

namespace HardwareSigner
variable {α : Type}

theorem lookup_cons_if (key : String) (value : α) (entries : List (String × α)) (k : String) :
    ((key, value) :: entries).lookup k = if k = key then some value else entries.lookup k := by
  by_cases here : k = key
  · rw [if_pos here, here, List.lookup_cons_self]
  · rw [if_neg here, List.lookup_cons, beq_false_of_ne here]

theorem lookup_insertEntry (key : String) (value : α) (entries : List (String × α)) (k : String) :
    (insertEntry key value entries).lookup k =
      if k = key then some value else entries.lookup k := by
  induction entries with
  | nil => exact lookup_cons_if key value [] k
  | cons entry rest ih =>
      obtain ⟨key', value'⟩ := entry
      simp only [insertEntry]
      split
      · exact lookup_cons_if key value _ k
      · split
        · rename_i same
          rw [lookup_cons_if, lookup_cons_if, same]
          by_cases here : k = key' <;> simp only [here, if_true, if_false]
        · rename_i other
          rw [lookup_cons_if, lookup_cons_if, ih]
          by_cases here : k = key
          · subst here
            rw [if_neg other, if_pos rfl, if_pos rfl]
          · rw [if_neg here, if_neg here]

theorem mem_keys_iff_lookup {entries : List (String × α)} {key : String} :
    key ∈ entries.map Prod.fst ↔ ∃ value, entries.lookup key = some value := by
  induction entries with
  | nil => simp only [List.map_nil, List.not_mem_nil, List.lookup_nil, reduceCtorEq, exists_false]
  | cons entry rest ih =>
      obtain ⟨key', value'⟩ := entry
      rw [lookup_cons_if, List.map_cons, List.mem_cons, ih]
      by_cases here : key = key'
      · rw [if_pos here]
        exact iff_of_true (.inl here) ⟨value', rfl⟩
      · rw [if_neg here]
        exact or_iff_right here

/-- A key behind all others goes to the end. -/
theorem insertEntry_last {entries : List (String × α)} {key : String} (value : α)
    (behind : ∀ e ∈ entries, e.1 < key) :
    insertEntry key value entries = entries ++ [(key, value)] := by
  induction entries with
  | nil => rfl
  | cons entry rest ih =>
      have smaller : entry.1 < key := behind entry List.mem_cons_self
      have later := ih fun e held => behind e (List.mem_cons_of_mem _ held)
      rw [insertEntry, if_neg (String.lt_asymm smaller), if_neg (String.ne_of_lt smaller).symm,
        later]
      rfl

namespace Table

theorem get?_insert (t : Table α) (key : String) (value : α) (k : String) :
    (t.insert key value).get? k = if k = key then some value else t.get? k :=
  lookup_insertEntry key value t.entries k

theorem mem_keys_iff {t : Table α} {key : String} :
    key ∈ t.keys ↔ ∃ value, t.get? key = some value :=
  mem_keys_iff_lookup

/-- Every entry is the one that its key finds. -/
theorem mem_entries_iff {t : Table α} {key : String} {value : α} :
    (key, value) ∈ t.entries ↔ t.get? key = some value := by
  rw [get?, List.lookup_eq_some_iff]
  constructor
  · intro held
    obtain ⟨before, after, split⟩ := List.append_of_mem held
    have sorted := t.sorted
    rw [Sorted, split, List.pairwise_append] at sorted
    refine ⟨before, after, split, ?_⟩
    intro e earlier
    have smaller := sorted.2.2 e earlier (key, value) List.mem_cons_self
    exact bne_iff_ne.mpr (String.ne_of_lt smaller).symm
  · rintro ⟨before, after, split, -⟩
    rw [split]
    exact List.mem_append_right _ List.mem_cons_self

theorem keys_nodup (t : Table α) : t.keys.Nodup := by
  refine List.pairwise_map.mpr (t.sorted.imp ?_)
  intro a b smaller same
  rw [same] at smaller
  exact String.lt_irrefl b.1 smaller

/-- A table made of names alone holds what each name determines. -/
theorem get?_ofList_map (names : List String) (f : String → α) (k : String) :
    (ofList (names.map fun name => (name, f name))).get? k =
      if k ∈ names then some (f k) else none := by
  have general : ∀ (names : List String) (t : Table α),
      ((names.map fun name => (name, f name)).foldl (fun t e => t.insert e.1 e.2) t).get? k =
        if k ∈ names then some (f k) else t.get? k := by
    intro names
    induction names with
    | nil => intro t; simp only [List.map_nil, List.foldl_nil, List.not_mem_nil, if_false]
    | cons name rest ih =>
        intro t
        rw [List.map_cons, List.foldl_cons, ih, get?_insert]
        by_cases later : k ∈ rest
        · rw [if_pos later, if_pos (List.mem_cons_of_mem _ later)]
        · by_cases here : k = name
          · subst here
            rw [if_neg later, if_pos rfl, if_pos List.mem_cons_self]
          · rw [if_neg later, if_neg here, if_neg]
            exact fun held => (List.mem_cons.mp held).elim here later
  exact general names empty

theorem mem_keys_ofList_map {names : List String} {f : String → α} {k : String} :
    k ∈ (ofList (names.map fun name => (name, f name))).keys ↔ k ∈ names := by
  rw [mem_keys_iff, get?_ofList_map]
  by_cases here : k ∈ names
  · rw [if_pos here]
    exact iff_of_true ⟨f k, rfl⟩ here
  · rw [if_neg here]
    exact iff_of_false (fun ⟨_, found⟩ => nomatch found) here

theorem mem_ofList {entries : List (String × α)} {e : String × α}
    (held : e ∈ (ofList entries).entries) : e ∈ entries := by
  have general : ∀ (entries : List (String × α)) (t : Table α),
      e ∈ (entries.foldl (fun t e => t.insert e.1 e.2) t).entries →
        e ∈ t.entries ∨ e ∈ entries := by
    intro entries
    induction entries with
    | nil => intro t held; exact .inl held
    | cons entry rest ih =>
        intro t held
        rcases ih _ held with inTable | later
        · rcases mem_insertEntry inTable with rfl | old
          · exact .inr List.mem_cons_self
          · exact .inl old
        · exact .inr (List.mem_cons_of_mem _ later)
  exact (general entries empty held).resolve_left List.not_mem_nil

/-- Entries that come in order stay as they come. -/
theorem entries_ofList {entries : List (String × α)} (sorted : Sorted entries) :
    (ofList entries).entries = entries := by
  have general : ∀ (entries : List (String × α)) (t : Table α), Sorted (t.entries ++ entries) →
      (entries.foldl (fun t e => t.insert e.1 e.2) t).entries = t.entries ++ entries := by
    intro entries
    induction entries with
    | nil => intro t _; exact (List.append_nil _).symm
    | cons entry rest ih =>
        intro t sorted
        have placed : (t.insert entry.1 entry.2).entries = t.entries ++ [entry] :=
          insertEntry_last _ fun e held =>
            (List.pairwise_append.mp sorted).2.2 e held entry List.mem_cons_self
        have shifted : (t.insert entry.1 entry.2).entries ++ rest = t.entries ++ entry :: rest := by
          rw [placed, List.append_assoc]
          rfl
        rw [List.foldl_cons, ih, shifted]
        rw [shifted]
        exact sorted
  exact general entries empty sorted

theorem ofList_entries (t : Table α) : ofList t.entries = t := by
  have same := entries_ofList t.sorted
  cases t
  exact Table.mk.injEq .. ▸ same

/-- Entries with keys of their own are all found. -/
theorem get?_ofList {entries : List (String × α)} (distinct : (entries.map Prod.fst).Nodup)
    {key : String} {value : α} (held : (key, value) ∈ entries) :
    (ofList entries).get? key = some value := by
  have general : ∀ (entries : List (String × α)) (t : Table α), (entries.map Prod.fst).Nodup →
      (key ∉ entries.map Prod.fst → (entries.foldl (fun t e => t.insert e.1 e.2) t).get? key =
        t.get? key) ∧
      ((key, value) ∈ entries → (entries.foldl (fun t e => t.insert e.1 e.2) t).get? key =
        some value) := by
    intro entries
    induction entries with
    | nil => intro t _; exact ⟨fun _ => rfl, nofun⟩
    | cons entry rest ih =>
        intro t distinct
        obtain ⟨new, distinct⟩ := List.nodup_cons.mp distinct
        obtain ⟨absent, found⟩ := ih (t.insert entry.1 entry.2) distinct
        constructor
        · intro other
          obtain ⟨other, later⟩ := not_or.mp (mt List.mem_cons.mpr other)
          exact (absent later).trans ((get?_insert t _ _ key).trans (if_neg other))
        · intro held
          rcases List.mem_cons.mp held with rfl | later
          · exact (absent new).trans ((get?_insert t _ _ key).trans (if_pos rfl))
          · exact found later
  exact (general entries empty distinct).2 held

theorem length_ofList_le (entries : List (String × α)) :
    (ofList entries).entries.length ≤ entries.length := by
  have within : (ofList entries).keys ⊆ entries.map Prod.fst := by
    intro key held
    obtain ⟨e, inTable, rfl⟩ := List.mem_map.mp held
    exact List.mem_map_of_mem (mem_ofList inTable)
  have bound := ((keys_nodup _).subperm within).length_le
  rw [keys, List.length_map, List.length_map] at bound
  exact bound

end Table

end HardwareSigner
