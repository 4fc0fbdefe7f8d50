import Mathlib.Tactic
import Mathlib.Data.List.AList
import Mathlib.Data.Finset.Card

/-!
# Relational tables

Two shapes of table cover a small state store. A `RowTable` assigns primary keys
by counting: rows are appended and rewritten but never deleted, so the key of a
row is its position. A table with a unique key is Mathlib's `AList`; this file
adds the counting facts a `SELECT COUNT` over such a table needs.
-/

universe u v

/-- Rows under an autoincrement primary key: the key of a row is its position. -/
structure RowTable (α : Type u) where
  rows : List α
deriving DecidableEq, Repr

namespace RowTable

variable {α : Type u}

/-- The table without rows. -/
def empty : RowTable α := ⟨[]⟩

/-- The key the next inserted row receives. -/
def nextId (table : RowTable α) : ℕ := table.rows.length

/-- The row stored under a key. -/
def get? (table : RowTable α) (id : ℕ) : Option α := table.rows[id]?

/-- Append a row. -/
def insert (table : RowTable α) (row : α) : RowTable α := ⟨table.rows ++ [row]⟩

/-- Rewrite the row stored under a key. -/
def update (table : RowTable α) (id : ℕ) (change : α → α) : RowTable α :=
  ⟨table.rows.modify id change⟩

/-- The sum of a weight over all rows. -/
def total (table : RowTable α) (weight : α → ℤ) : ℤ := (table.rows.map weight).sum

/-- The keys of the rows satisfying a predicate, in insertion order. -/
def select (table : RowTable α) (keep : α → Bool) : List ℕ :=
  (List.range table.nextId).filter fun id => (table.get? id).any keep

@[simp]
theorem nextId_insert (table : RowTable α) (row : α) :
    (table.insert row).nextId = table.nextId + 1 := by
  simp [nextId, insert]

@[simp]
theorem nextId_update (table : RowTable α) (id : ℕ) (change : α → α) :
    (table.update id change).nextId = table.nextId := by
  simp [nextId, update]

theorem lt_nextId_of_get? {table : RowTable α} {id : ℕ} {row : α}
    (found : table.get? id = some row) : id < table.nextId :=
  (List.getElem?_eq_some_iff.mp found).1

theorem get?_eq_none_of_le {table : RowTable α} {id : ℕ} (beyond : table.nextId ≤ id) :
    table.get? id = none :=
  List.getElem?_eq_none beyond

@[simp]
theorem get?_nextId (table : RowTable α) : table.get? table.nextId = none :=
  get?_eq_none_of_le le_rfl

@[simp]
theorem get?_insert_nextId (table : RowTable α) (row : α) :
    (table.insert row).get? table.nextId = some row := by
  simp [get?, insert, nextId]

theorem get?_insert_of_ne {table : RowTable α} {row : α} {id : ℕ} (ne : id ≠ table.nextId) :
    (table.insert row).get? id = table.get? id := by
  rcases lt_or_gt_of_ne ne with below | beyond
  · exact List.getElem?_append_left below
  · rw [get?_eq_none_of_le (by simp only [nextId_insert]; omega),
      get?_eq_none_of_le (le_of_lt beyond)]

theorem get?_insert (table : RowTable α) (row : α) (id : ℕ) :
    (table.insert row).get? id = if id = table.nextId then some row else table.get? id := by
  split_ifs with same
  · subst id
    exact get?_insert_nextId table row
  · exact get?_insert_of_ne same

theorem get?_update (table : RowTable α) (key : ℕ) (change : α → α) (id : ℕ) :
    (table.update key change).get? id =
      if id = key then (table.get? id).map change else table.get? id := by
  simp only [get?, update, List.getElem?_modify]
  split_ifs with changed same same <;> simp_all

@[simp]
theorem get?_update_self (table : RowTable α) (id : ℕ) (change : α → α) :
    (table.update id change).get? id = (table.get? id).map change := by
  simp [get?_update]

theorem get?_update_of_ne {table : RowTable α} {key id : ℕ} {change : α → α} (ne : id ≠ key) :
    (table.update key change).get? id = table.get? id := by
  simp [get?_update, ne]

@[simp]
theorem mem_select {table : RowTable α} {keep : α → Bool} {id : ℕ} :
    id ∈ table.select keep ↔ ∃ row, table.get? id = some row ∧ keep row = true := by
  simp only [select, List.mem_filter, List.mem_range, Option.any_eq_true]
  constructor
  · rintro ⟨_, row, found, kept⟩
    exact ⟨row, found, kept⟩
  · rintro ⟨row, found, kept⟩
    exact ⟨lt_nextId_of_get? found, row, found, kept⟩

theorem nodup_select (table : RowTable α) (keep : α → Bool) : (table.select keep).Nodup :=
  List.nodup_range.filter _

/-- The rows satisfying a predicate with their keys, in insertion order. -/
def selectRows (table : RowTable α) (keep : α → Bool) : List (ℕ × α) :=
  (table.select keep).filterMap fun id => (table.get? id).map (id, ·)

@[simp]
theorem map_fst_selectRows (table : RowTable α) (keep : α → Bool) :
    (table.selectRows keep).map Prod.fst = table.select keep := by
  have found : ∀ id ∈ table.select keep,
      ((table.get? id).map (id, ·)).map Prod.fst = some id := by
    intro id mem
    rcases mem_select.mp mem with ⟨row, stored, _⟩
    rw [stored]
    rfl
  rw [selectRows, List.map_filterMap, List.filterMap_congr found, List.filterMap_some]

/-- A table is what it stores under its keys. -/
theorem ext_get? {table table' : RowTable α} (same : ∀ id, table.get? id = table'.get? id) :
    table = table' := by
  rcases table with ⟨rows⟩
  rcases table' with ⟨rows'⟩
  exact congrArg _ (List.ext_getElem? same)

theorem total_insert (table : RowTable α) (row : α) (weight : α → ℤ) :
    (table.insert row).total weight = table.total weight + weight row := by
  simp [total, insert]

/-- Rewriting one row changes a total by what it changes of that row's weight. -/
theorem total_update {table : RowTable α} {id : ℕ} {row : α} (found : table.get? id = some row)
    (change : α → α) (weight : α → ℤ) :
    (table.update id change).total weight =
      table.total weight + (weight (change row) - weight row) := by
  rcases table with ⟨rows⟩
  simp only [get?, total, update] at found ⊢
  induction rows generalizing id with
  | nil => simp at found
  | cons head rest ih =>
      cases id with
      | zero =>
          simp only [List.getElem?_cons_zero, Option.some.injEq] at found
          subst head
          simp only [List.modify_zero_cons, List.map_cons, List.sum_cons]
          ring
      | succ id =>
          simp only [List.getElem?_cons_succ] at found
          simp only [List.modify_succ_cons, List.map_cons, List.sum_cons, ih found]
          ring

/-- A total over a table of which one row has changed. -/
theorem total_changed {table table' : RowTable α} {id : ℕ} {row row' : α}
    (found : table.get? id = some row) (found' : table'.get? id = some row')
    (others : ∀ other, other ≠ id → table'.get? other = table.get? other) (weight : α → ℤ) :
    table'.total weight = table.total weight + (weight row' - weight row) := by
  have updated : table' = table.update id fun _ => row' := by
    refine ext_get? fun other => ?_
    by_cases same : other = id
    · subst other
      simp [found, found']
    · rw [others other same, get?_update_of_ne same]
  rw [updated, total_update found]

/-- A total over a table that has one more row. -/
theorem total_added {table table' : RowTable α} {row : α}
    (rows : ∀ id, table'.get? id = if id = table.nextId then some row else table.get? id)
    (weight : α → ℤ) : table'.total weight = table.total weight + weight row := by
  have inserted : table' = table.insert row :=
    ext_get? fun id => (rows id).trans (get?_insert table row id).symm
  rw [inserted, total_insert]

/-- A total whose weight has changed on one row only. -/
theorem total_reweighed {table : RowTable α} {id : ℕ} {row : α} (found : table.get? id = some row)
    {weight weight' : α → ℤ}
    (others : ∀ other row', other ≠ id → table.get? other = some row' →
      weight' row' = weight row') :
    table.total weight' = table.total weight + (weight' row - weight row) := by
  rcases table with ⟨rows⟩
  simp only [get?, total] at found others ⊢
  induction rows generalizing id with
  | nil => simp at found
  | cons head rest ih =>
      cases id with
      | zero =>
          simp only [List.getElem?_cons_zero, Option.some.injEq] at found
          subst head
          have sameRest : rest.map weight' = rest.map weight :=
            List.map_congr_left fun row' mem => by
              rcases List.getElem?_of_mem mem with ⟨other, foundOther⟩
              exact others (other + 1) row' (by omega) (by simpa using foundOther)
          simp only [List.map_cons, List.sum_cons, sameRest]
          ring
      | succ id =>
          simp only [List.getElem?_cons_succ] at found
          have sameHead := others 0 head (by omega) (by simp)
          have restEq := ih found fun other row' ne foundOther =>
            others (other + 1) row' (by omega) (by simpa using foundOther)
          simp only [List.map_cons, List.sum_cons, sameHead, restEq]
          ring

/-- A total whose weight reads only what two tables agree on. -/
theorem total_of_map {β : Type v} {table table' : RowTable α} {view : α → β}
    (same : ∀ id, (table'.get? id).map view = (table.get? id).map view) (weight : β → ℤ) :
    (table'.total fun row => weight (view row)) = table.total fun row => weight (view row) := by
  have rows : table'.rows.map view = table.rows.map view :=
    List.ext_getElem? fun id => by simpa [get?] using same id
  simpa only [total, List.map_map, Function.comp_def] using
    congrArg (fun views => (views.map weight).sum) rows

theorem total_congr {table : RowTable α} {weight weight' : α → ℤ}
    (same : ∀ id row, table.get? id = some row → weight row = weight' row) :
    table.total weight = table.total weight' := by
  refine congrArg List.sum (List.map_congr_left fun row mem => ?_)
  rcases List.getElem?_of_mem mem with ⟨id, found⟩
  exact same id row found

/-! ### Unique columns -/

section Unique

variable {κ : Type v} {key : α → κ} {table : RowTable α} {id : ℕ} {row : α}

/-- No two rows have the same value in a column. -/
def Unique (key : α → κ) (table : RowTable α) : Prop := table.rows.Pairwise (key · ≠ key ·)

instance [DecidableEq κ] : Decidable (Unique key table) :=
  inferInstanceAs (Decidable (table.rows.Pairwise (key · ≠ key ·)))

theorem unique_iff : Unique key table ↔ ∀ id id' row row', table.get? id = some row →
    table.get? id' = some row' → key row = key row' → id = id' := by
  rw [Unique, List.pairwise_iff_getElem]
  constructor
  · intro apart id id' row row' found found' same
    rcases List.getElem?_eq_some_iff.mp found with ⟨within, rfl⟩
    rcases List.getElem?_eq_some_iff.mp found' with ⟨within', rfl⟩
    rcases lt_trichotomy id id' with below | rfl | above
    · exact absurd same (apart id id' within within' below)
    · rfl
    · exact absurd same.symm (apart id' id within' within above)
  · intro unique i j withinI withinJ below same
    exact below.ne (unique i j _ _ (List.getElem?_eq_getElem withinI)
      (List.getElem?_eq_getElem withinJ) same)

/-- At most one row has a given value in a unique column. -/
theorem length_select_le_one [DecidableEq κ] (unique : Unique key table) (value : κ) :
    (table.select fun row => key row = value).length ≤ 1 := by
  have distinct := table.nodup_select fun row => key row = value
  have found : ∀ id ∈ table.select fun row => key row = value,
      ∃ row, table.get? id = some row ∧ key row = value := fun id mem => by
    simpa using mem_select.mp mem
  rcases selected : table.select fun row => key row = value with _ | ⟨first, _ | ⟨second, rest⟩⟩
  · exact Nat.zero_le 1
  · exact le_rfl
  · rw [selected] at distinct found
    rcases found first (by simp) with ⟨row, foundRow, same⟩
    rcases found second (by simp) with ⟨row', foundRow', same'⟩
    have sameId := unique_iff.mp unique _ _ _ _ foundRow foundRow' (same.trans same'.symm)
    rw [List.nodup_cons] at distinct
    exact absurd (sameId ▸ List.mem_cons_self) distinct.1

/-- Appending a row keeps a column unique exactly when its value is new. -/
theorem unique_insert (row : α) (unique : Unique key table) : Unique key (table.insert row) ↔
    ∀ id other, table.get? id = some other → key other ≠ key row := by
  rw [Unique, insert, List.pairwise_append]
  constructor
  · rintro ⟨_, _, apart⟩ id other found
    exact apart other (List.mem_of_getElem? found) row List.mem_cons_self
  · intro apart
    refine ⟨unique, List.pairwise_singleton _ _, fun other mem last lastMem => ?_⟩
    rw [List.mem_singleton] at lastMem
    subst last
    rcases List.getElem?_of_mem mem with ⟨id, found⟩
    exact apart id other found

/-- Rewriting a row keeps a column unique exactly when no other row has its new value. -/
theorem unique_update (unique : Unique key table) (found : table.get? id = some row)
    (change : α → α) : Unique key (table.update id change) ↔
      ∀ id' other, id' ≠ id → table.get? id' = some other → key other ≠ key (change row) := by
  rw [unique_iff]
  constructor
  · intro after id' other ne found' same
    refine ne (after id' id other (change row) ?_ ?_ same)
    · rwa [get?_update_of_ne ne]
    · rw [get?_update_self, found, Option.map_some]
  · intro apart i j rowI rowJ foundI foundJ same
    rw [get?_update] at foundI foundJ
    split_ifs at foundI foundJ with isI isJ isJ
    · rw [isI, isJ]
    · rw [isI, found, Option.map_some, Option.some.injEq] at foundI
      exact absurd same.symm (foundI ▸ apart j rowJ isJ foundJ)
    · rw [isJ, found, Option.map_some, Option.some.injEq] at foundJ
      exact absurd same (foundJ ▸ apart i rowI isI foundI)
    · exact unique_iff.mp unique i j rowI rowJ foundI foundJ same

/-- Looking a value up in a column finds a row that has it, unless no row has it. -/
theorem head?_select_cases [DecidableEq κ] (table : RowTable α) (key : α → κ) (value : κ) :
    (∃ id row, table.get? id = some row ∧ key row = value ∧
      (table.select fun row => key row = value).head? = some id) ∨
    (∀ id row, table.get? id = some row → key row ≠ value) ∧
      (table.select fun row => key row = value).head? = none := by
  rcases first : (table.select fun row => key row = value).head? with _ | id
  · refine .inr ⟨fun id row found same => ?_, rfl⟩
    rw [List.head?_eq_none_iff, List.eq_nil_iff_forall_not_mem] at first
    exact first id (mem_select.mpr ⟨row, found, decide_eq_true same⟩)
  · rcases mem_select.mp (List.mem_of_head? first) with ⟨row, found, same⟩
    exact .inl ⟨id, row, found, of_decide_eq_true same, rfl⟩

end Unique

end RowTable

namespace AList

variable {κ : Type u} {α : Type v} [DecidableEq κ]

/-- The keys of the entries satisfying a predicate. -/
def keysWhere (table : AList fun _ : κ => α) (keep : κ → α → Bool) : Finset κ :=
  ((table.entries.filter fun entry => keep entry.1 entry.2).map Sigma.fst).toFinset

theorem mem_keysWhere {table : AList fun _ : κ => α} {keep : κ → α → Bool} {key : κ} :
    key ∈ table.keysWhere keep ↔ ∃ value, table.lookup key = some value ∧ keep key value = true := by
  simp only [keysWhere, List.mem_toFinset, List.mem_map, List.mem_filter]
  constructor
  · rintro ⟨⟨_, value⟩, ⟨present, kept⟩, rfl⟩
    exact ⟨value, mem_lookup_iff.mpr present, kept⟩
  · rintro ⟨value, found, kept⟩
    exact ⟨⟨key, value⟩, ⟨mem_lookup_iff.mp found, kept⟩, rfl⟩

/-- Keys are unique, so counting entries counts keys. -/
theorem card_keysWhere (table : AList fun _ : κ => α) (keep : κ → α → Bool) :
    (table.keysWhere keep).card =
      (table.entries.filter fun entry => keep entry.1 entry.2).length := by
  have distinct :
      ((table.entries.filter fun entry => keep entry.1 entry.2).map Sigma.fst).Nodup :=
    (List.filter_sublist.map Sigma.fst).nodup table.nodupKeys
  rw [keysWhere, List.toFinset_card_of_nodup distinct, List.length_map]

/-- The sum of a weight over all entries. -/
def total {R : Type*} [AddCommMonoid R] (table : AList fun _ : κ => α) (weight : κ → α → R) : R :=
  (table.entries.map fun entry => weight entry.1 entry.2).sum

theorem sum_kerase {R : Type*} [AddCommMonoid R] (entries : List (Sigma fun _ : κ => α)) (key : κ)
    (weight : κ → α → R) :
    ((entries.kerase key).map fun entry => weight entry.1 entry.2).sum +
      ((entries.dlookup key).map (weight key)).getD 0 =
        (entries.map fun entry => weight entry.1 entry.2).sum := by
  induction entries with
  | nil => simp
  | cons entry rest ih =>
      rcases entry with ⟨head, value⟩
      by_cases same : head = key
      · subst head
        simp [add_comm]
      · rw [List.kerase_cons_ne (Ne.symm same), List.dlookup_cons_ne _ _ (Ne.symm same)]
        simp only [List.map_cons, List.sum_cons, add_assoc, ih]

/-- Storing a value replaces the weight of the value before. -/
theorem total_insert {R : Type*} [AddCommGroup R] (table : AList fun _ : κ => α) (key : κ)
    (value : α) (weight : κ → α → R) :
    (table.insert key value).total weight =
      table.total weight + (weight key value - ((table.lookup key).map (weight key)).getD 0) := by
  have erased := sum_kerase table.entries key weight
  simp only [total, entries_insert, List.map_cons, List.sum_cons, lookup, ← erased]
  abel

end AList
