import Mathlib.Data.List.ReduceOption
import Mathlib.Data.List.Sort
import Mathlib.Tactic
import PersonalTrade.Library.LastWrite

/-!
# Columns with gaps

A column has an entry for each time of an ascending index, and a `none` where nothing was observed.
Filling it forwards and then backwards leaves at each time the latest observation so far, and the
first one before that.
-/

universe u v w

variable {α : Type u} {β : Type w} {ι : Type v}

/-- A gap takes the entry before it, and the first gaps take a given one. -/
def fillFrom : Option α → List (Option α) → List (Option α)
  | _, [] => []
  | last, entry :: rest => entry.or last :: fillFrom (entry.or last) rest

/-- A gap takes the entry before it. -/
def ffill (column : List (Option α)) : List (Option α) := fillFrom none column

/-- A gap takes the entry after it. -/
def bfill : List (Option α) → List (Option α)
  | [] => []
  | entry :: rest => entry.or (bfill rest).head?.join :: bfill rest

/-- Nothing is left to fill backwards after an entry. -/
theorem bfill_fillFrom (last : α) (column : List (Option α)) :
    bfill (fillFrom (some last) column) = fillFrom (some last) column := by
  induction column generalizing last with
  | nil => rfl
  | cons entry rest ih => cases entry <;> simp [fillFrom, bfill, ih]

theorem head?_fillFrom (column : List (Option α)) :
    (fillFrom column.reduceOption.head? column).head?.join = column.reduceOption.head? := by
  rcases column with _ | ⟨_ | entry, rest⟩
  · rfl
  · simp [fillFrom]
  · simp [fillFrom]

theorem bfill_ffill (column : List (Option α)) :
    bfill (ffill column) = fillFrom column.reduceOption.head? column := by
  induction column with
  | nil => rfl
  | cons entry rest ih =>
      cases entry with
      | none =>
          rw [ffill] at ih
          simp only [ffill, fillFrom, bfill, Option.none_or, List.reduceOption_cons_of_none]
          rw [ih, head?_fillFrom]
      | some entry => simp [ffill, fillFrom, bfill, bfill_fillFrom]

/-! ## Columns over an index -/

variable [LinearOrder ι] {index : List ι}

/-- At each time stands the last entry up to it. -/
theorem fillFrom_map (ascending : index.Pairwise (· < ·)) (last : Option α)
    (entry : ι → Option α) : fillFrom last (index.map entry) = index.map fun time =>
      ((index.filter (· ≤ time)).filterMap entry).getLast?.or last := by
  induction index generalizing last with
  | nil => rfl
  | cons first rest ih =>
      have later : ∀ time ∈ rest, first < time := fun _ => List.rel_of_pairwise_cons ascending
      have none_before : rest.filter (· ≤ first) = [] := by
        apply List.filter_eq_nil_iff.mpr
        intro time mem
        simpa using later time mem
      rw [List.map_cons, fillFrom, ih ascending.of_cons, List.map_cons,
        List.filter_cons_of_pos (by simp), none_before]
      congr 1
      · cases own : entry first <;> simp [own]
      · apply List.map_congr_left
        intro time mem
        rw [List.filter_cons_of_pos (by simpa using (later time mem).le), List.filterMap_cons]
        cases entry first with
        | none => simp
        | some value => simp [List.getLast?_cons, Option.or_some]

open LastWrite in
/-- The index meets the observations in their order. -/
theorem filterMap_lastWith {key : α → ι} {observations : List α}
    (ascending : index.Pairwise (· < ·)) (observed : observations.Pairwise (key · < key ·))
    (covered : ∀ entry ∈ observations, key entry ∈ index) :
    index.filterMap (lastWith key observations) = observations := by
  have last : ∀ {time entry}, lastWith key observations time = some entry ↔
      entry ∈ observations ∧ key entry = time := lastWith_eq_some (observed.imp ne_of_lt)
  have sorted : (index.filterMap (lastWith key observations)).Pairwise (key · < key ·) := by
    apply ascending.filterMap
    intro time time' earlier entry at_time entry' at_time'
    rwa [(last.mp at_time).2, (last.mp at_time').2]
  apply sorted.eq_of_mem_iff observed
  intro entry
  rw [List.mem_filterMap]
  constructor
  · rintro ⟨time, _, at_time⟩
    exact (last.mp at_time).1
  · intro mem
    exact ⟨key entry, covered entry mem, last.mpr ⟨mem, rfl⟩⟩

open LastWrite in
/-- A column of observations filled in both directions. -/
theorem bfill_ffill_observations {key : α → ι} {observations : List α}
    (ascending : index.Pairwise (· < ·)) (observed : observations.Pairwise (key · < key ·))
    (covered : ∀ entry ∈ observations, key entry ∈ index) (value : α → β) :
    bfill (ffill (index.map fun time => (lastWith key observations time).map value)) =
      index.map fun time =>
        ((observations.filter (key · ≤ time)).getLast?.or observations.head?).map value := by
  have found := filterMap_lastWith ascending observed covered
  have first : (index.map fun time => (lastWith key observations time).map value).reduceOption.head? =
      observations.head?.map value := by
    rw [List.reduceOption, List.filterMap_map]
    change (index.filterMap fun time => (lastWith key observations time).map value).head? = _
    rw [← List.map_filterMap, found, List.head?_map]
  rw [bfill_ffill, first, fillFrom_map ascending]
  apply List.map_congr_left
  intro time _
  have upTo : (index.filter (· ≤ time)).filterMap (lastWith key observations) =
      observations.filter (key · ≤ time) := by
    calc
      _ = (index.filterMap (lastWith key observations)).filter (key · ≤ time) := by
        rw [List.filterMap_filter, List.filter_filterMap]
        apply List.filterMap_congr
        intro other _
        cases last : lastWith key observations other with
        | none => simp
        | some entry => simp [Option.filter, (mem_of_lastWith last).2]
      _ = _ := by rw [found]
  rw [← List.map_filterMap, upTo, List.getLast?_map, Option.map_or]
