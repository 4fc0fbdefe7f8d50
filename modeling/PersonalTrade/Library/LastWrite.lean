import Mathlib.Data.List.Defs
import Mathlib.Data.Finset.Card

/-!
# Last write wins

Entries that carry their key are written one after the other, and the last entry under a
key stands for it. `overlay` writes entries over a map. A list `Represents` a map when it
holds exactly the entries of the map, which is what a store keeps of its history.
-/

universe u v

namespace LastWrite

variable {α : Type u} {κ : Type v} [DecidableEq κ] {key : α → κ}

/-- The last entry under a key. -/
def lastWith (key : α → κ) (entries : List α) (k : κ) : Option α :=
  entries.findRev? fun entry => key entry = k

@[simp]
theorem lastWith_nil (k : κ) : lastWith key [] k = none := rfl

theorem lastWith_cons (entry : α) (entries : List α) (k : κ) :
    lastWith key (entry :: entries) k =
      (lastWith key entries k).or (if key entry = k then some entry else none) := by
  simp only [lastWith, List.findRev?]
  cases entries.findRev? _ with
  | some later => rfl
  | none => by_cases same : key entry = k <;> simp [same]

theorem lastWith_append (earlier later : List α) (k : κ) :
    lastWith key (earlier ++ later) k = (lastWith key later k).or (lastWith key earlier k) := by
  induction earlier with
  | nil => simp
  | cons entry entries ih => rw [List.cons_append, lastWith_cons, lastWith_cons, ih, Option.or_assoc]

theorem mem_of_lastWith {entries : List α} {k : κ} {entry : α}
    (last : lastWith key entries k = some entry) : entry ∈ entries ∧ key entry = k := by
  induction entries with
  | nil => cases last
  | cons first entries ih =>
      rw [lastWith_cons, Option.or_eq_some_iff] at last
      rcases last with later | ⟨_, own⟩
      · exact ⟨List.mem_cons_of_mem _ (ih later).1, (ih later).2⟩
      · split_ifs at own with same
        cases own
        exact ⟨List.mem_cons_self, same⟩

theorem lastWith_eq_none {entries : List α} {k : κ} :
    lastWith key entries k = none ↔ ∀ entry ∈ entries, key entry ≠ k := by
  induction entries with
  | nil => simp
  | cons entry entries ih =>
      rw [lastWith_cons, Option.or_eq_none_iff, ih, List.forall_mem_cons]
      by_cases same : key entry = k <;> simp [same]

/-- Entries under other keys do not matter. -/
theorem lastWith_filter {keep : α → Bool} {entries : List α} {k : κ}
    (kept : ∀ entry ∈ entries, key entry = k → keep entry = true) :
    lastWith key (entries.filter keep) k = lastWith key entries k := by
  induction entries with
  | nil => rfl
  | cons entry entries ih =>
      have rest := ih fun other mem => kept other (List.mem_cons_of_mem _ mem)
      rw [List.filter_cons]
      split_ifs with keeps
      · rw [lastWith_cons, lastWith_cons, rest]
      · have other : key entry ≠ k := fun same => keeps (kept entry List.mem_cons_self same)
        rw [rest, lastWith_cons, if_neg other, Option.or_none]

/-- Under distinct keys every entry is the last one under its key. -/
theorem lastWith_eq_some {entries : List α} (distinct : entries.Pairwise (key · ≠ key ·)) {k : κ}
    {entry : α} : lastWith key entries k = some entry ↔ entry ∈ entries ∧ key entry = k := by
  refine ⟨mem_of_lastWith, ?_⟩
  rintro ⟨mem, rfl⟩
  induction entries with
  | nil => cases mem
  | cons first entries ih =>
      rw [List.pairwise_cons] at distinct
      rw [lastWith_cons]
      rcases List.mem_cons.mp mem with rfl | later
      · rw [lastWith_eq_none.mpr fun other mem => (distinct.1 other mem).symm, if_pos rfl]
        rfl
      · rw [ih distinct.2 later]
        rfl

/-- Entries that agree under each key are the last ones under their keys. -/
theorem lastWith_eq_some_of_agree {entries : List α}
    (agree : ∀ one ∈ entries, ∀ other ∈ entries, key one = key other → one = other) {k : κ}
    {entry : α} : lastWith key entries k = some entry ↔ entry ∈ entries ∧ key entry = k := by
  refine ⟨mem_of_lastWith, ?_⟩
  rintro ⟨mem, rfl⟩
  rcases last : lastWith key entries (key entry) with _ | latest
  · exact absurd rfl (lastWith_eq_none.mp last entry mem)
  · have own := mem_of_lastWith last
    rw [agree latest own.1 entry mem own.2]

/-- Of entries that are written in batches, the last one under a key is in the last batch that has
the key. -/
theorem lastWith_flatMap {β : Type*} {batches : List β} {entriesOf : β → List α} {k : κ}
    {entry : α} : lastWith key (batches.flatMap entriesOf) k = some entry ↔
      ∃ earlier batch later, batches = earlier ++ batch :: later ∧
        lastWith key (entriesOf batch) k = some entry ∧
        ∀ next ∈ later, lastWith key (entriesOf next) k = none := by
  induction batches with
  | nil => simp
  | cons first batches ih =>
      rw [List.flatMap_cons, lastWith_append, Option.or_eq_some_iff, ih, lastWith_eq_none]
      constructor
      · rintro (⟨earlier, batch, later, rfl, last, after⟩ | ⟨none, last⟩)
        · exact ⟨first :: earlier, batch, later, rfl, last, after⟩
        · refine ⟨[], first, batches, rfl, last, fun next mem => ?_⟩
          rw [lastWith_eq_none]
          intro other otherMem
          exact none other (List.mem_flatMap.mpr ⟨next, mem, otherMem⟩)
      · rintro ⟨_ | ⟨_, earlier⟩, batch, later, split, last, after⟩
        · rcases List.cons.inj split with ⟨rfl, rfl⟩
          refine .inr ⟨fun other mem => ?_, last⟩
          rcases List.mem_flatMap.mp mem with ⟨next, nextMem, otherMem⟩
          exact lastWith_eq_none.mp (after next nextMem) other otherMem
        · rcases List.cons.inj split with ⟨rfl, rfl⟩
          exact .inl ⟨earlier, batch, later, rfl, last, after⟩

/-- Dropping the entries with a later one under their key keeps the last ones. -/
theorem mem_pwFilter {entries : List α} {entry : α} :
    entry ∈ entries.pwFilter (key · ≠ key ·) ↔ lastWith key entries (key entry) = some entry := by
  induction entries generalizing entry with
  | nil => simp
  | cons first entries ih =>
      rw [lastWith_cons]
      have unseen : (∀ other ∈ entries.pwFilter (key · ≠ key ·), key first ≠ key other) ↔
          lastWith key entries (key first) = none := by
        rw [lastWith_eq_none]
        constructor
        · intro apart other mem same
          rcases last : lastWith key entries (key first) with _ | later
          · exact lastWith_eq_none.mp last other mem same
          · have own := (mem_of_lastWith last).2
            exact apart later (ih.mpr (own ▸ last)) own.symm
        · intro apart other mem same
          exact apart other ((List.pwFilter_sublist _).mem mem) same.symm
      by_cases shadowed : lastWith key entries (key first) = none
      · rw [List.pwFilter_cons_of_pos (unseen.mpr shadowed), List.mem_cons, ih]
        by_cases same : entry = first
        · simp [same, shadowed]
        · have other : ¬ first = entry := fun eq => same eq.symm
          by_cases sameKey : key first = key entry
          · simp [same, other, ← sameKey, shadowed]
          · simp [same, sameKey]
      · rw [List.pwFilter_cons_of_neg (mt unseen.mp shadowed), ih]
        by_cases sameKey : key first = key entry
        · rcases Option.ne_none_iff_exists'.mp shadowed with ⟨later, last⟩
          rw [← sameKey, last, Option.some_or]
        · rw [if_neg sameKey, Option.or_none]

/-- The map after the entries are written. -/
def overlay (key : α → κ) (map : κ → Option α) (entries : List α) : κ → Option α :=
  fun k => (lastWith key entries k).or (map k)

theorem overlay_append (map : κ → Option α) (earlier later : List α) :
    overlay key map (earlier ++ later) = overlay key (overlay key map earlier) later := by
  funext k
  simp only [overlay, lastWith_append, Option.or_assoc]

/-- Writing into nothing. -/
theorem overlay_none (entries : List α) :
    overlay key (fun _ => none) entries = lastWith key entries := by
  funext k
  exact Option.or_none

/-- The list holds exactly the entries of the map. -/
def Represents (key : α → κ) (entries : List α) (map : κ → Option α) : Prop :=
  ∀ entry, entry ∈ entries ↔ map (key entry) = some entry

/-- A list of distinct keys that represents the last writes has as many entries as keys were
written. -/
theorem Represents.length_eq {entries written : List α}
    (distinct : entries.Pairwise (key · ≠ key ·))
    (represents : Represents key entries (lastWith key written)) :
    entries.length = (written.map key).toFinset.card := by
  have keys : (entries.map key).Nodup := List.pairwise_map.mpr distinct
  rw [← List.length_map key, ← List.toFinset_card_of_nodup keys]
  congr 1
  ext k
  simp only [List.mem_toFinset, List.mem_map]
  constructor
  · rintro ⟨entry, mem, rfl⟩
    exact ⟨entry, (mem_of_lastWith ((represents entry).mp mem)).1, rfl⟩
  · rintro ⟨entry, mem, rfl⟩
    rcases last : lastWith key written (key entry) with _ | latest
    · exact absurd rfl (lastWith_eq_none.mp last entry mem)
    · have own := (mem_of_lastWith last).2
      exact ⟨latest, (represents latest).mpr (own.symm ▸ last), own⟩

end LastWrite
