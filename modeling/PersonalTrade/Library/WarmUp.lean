import PersonalTrade.Library.Scan

/-!
# Series with a warm-up

A series warms up when its entries are missing for a while and available from then on.
The lag of a series computed from others follows from their lags, and looking back
over its available entries is the same before and after dropping the missing ones.
-/

universe u

variable {α β γ : Type u}

/-- The entries of a series are available from a lag on. -/
def WarmsUp (lag : ℕ) (series : List (Option α)) : Prop :=
  ∀ i < series.length, (series[i]?.join).isSome ↔ lag ≤ i

namespace WarmsUp

variable {lag : ℕ} {series : List (Option α)}

theorem nil (lag : ℕ) : WarmsUp lag ([] : List (Option α)) := fun _ within => absurd within (by simp)

theorem cons_zero {entry : Option α} :
    WarmsUp 0 (entry :: series) ↔ entry.isSome ∧ WarmsUp 0 series := by
  constructor
  · intro warms
    refine ⟨by simpa using warms 0, fun i within => ?_⟩
    simpa using warms (i + 1) (by simpa using within)
  · rintro ⟨available, warms⟩ i within
    cases i with
    | zero => simpa using available
    | succ i => simpa using warms i (by simpa using within)

theorem cons_succ {entry : Option α} :
    WarmsUp (lag + 1) (entry :: series) ↔ entry = none ∧ WarmsUp lag series := by
  constructor
  · intro warms
    refine ⟨by simpa using warms 0, fun i within => ?_⟩
    simpa using warms (i + 1) (by simpa using within)
  · rintro ⟨rfl, warms⟩ i within
    cases i with
    | zero => simp
    | succ i => simpa using warms i (by simpa using within)

/-- A per-prefix series that is available once enough entries have been seen. -/
theorem perPrefix {period : ℕ} {value : List α → Option β} (positive : 0 < period)
    (available : ∀ seen, (value seen).isSome ↔ period ≤ seen.length) (entries : List α) :
    WarmsUp (period - 1) (perPrefix value entries) := by
  intro i within
  rw [length_perPrefix] at within
  rw [getElem?_perPrefix value within, Option.join_some, available, List.length_take,
    Nat.min_eq_left (Nat.succ_le_of_lt within)]
  omega

theorem rolling {period : ℕ} (positive : 0 < period) (aggregate : List α → β)
    (entries : List α) : WarmsUp (period - 1) (rolling period aggregate entries) := by
  apply perPrefix positive
  intro seen
  split_ifs with early
  · simp [early]
  · simp [not_lt.mp early]

theorem seeded {period : ℕ} (positive : 0 < period) (seed : List α → β) (combine : β → α → β)
    (entries : List α) : WarmsUp (period - 1) (seeded period seed combine entries) := by
  rw [seeded_eq_perPrefix positive]
  apply perPrefix positive
  intro seen
  rw [Option.isSome_iff_ne_none, ne_eq, seededValue_eq_none, not_lt]

theorem take (warms : WarmsUp lag series) (count : ℕ) : WarmsUp lag (series.take count) := by
  intro i within
  rw [List.length_take, lt_min_iff] at within
  rw [List.getElem?_take_of_lt within.1]
  exact warms i within.2

/-- Values computed from the available entries are available with them. -/
theorem map (warms : WarmsUp lag series) (f : α → β) : WarmsUp lag (series.map (Option.map f)) := by
  intro i within
  rw [List.length_map] at within
  rw [← warms i within, List.getElem?_map]
  cases series[i]? with
  | none => rfl
  | some entry => cases entry <;> rfl

/-- A value that needs two series is available with the later one. -/
theorem zipWith {lag' : ℕ} {series' : List (Option β)} (warms : WarmsUp lag series)
    (warms' : WarmsUp lag' series') (op : α → β → γ) :
    WarmsUp (max lag lag') (List.zipWith (Option.map₂ op) series series') := by
  intro i within
  rw [List.length_zipWith, lt_min_iff] at within
  rw [max_le_iff, ← warms i within.1, ← warms' i within.2, List.getElem?_zipWith,
    List.getElem?_eq_getElem within.1, List.getElem?_eq_getElem within.2]
  cases series[i] <;> cases series'[i] <;> simp

/-- A series over the available entries of another adds its lag. -/
theorem onAvailable {lag' : ℕ} {values : List (Option β)} (warms : WarmsUp lag series)
    (warms' : WarmsUp lag' values) (length : values.length = series.reduceOption.length) :
    WarmsUp (lag + lag') (onAvailable series values) := by
  induction series generalizing lag lag' values with
  | nil => exact .nil _
  | cons entry series ih =>
      cases lag with
      | succ lag =>
          rcases cons_succ.mp warms with ⟨rfl, rest⟩
          have shorter : values.length = series.reduceOption.length := by
            rwa [List.reduceOption_cons_of_none] at length
          have later := ih rest warms' shorter
          rw [show lag + 1 + lag' = lag + lag' + 1 by omega]
          exact cons_succ.mpr ⟨rfl, later⟩
      | zero =>
          rcases cons_zero.mp warms with ⟨available, rest⟩
          rcases Option.isSome_iff_exists.mp available with ⟨value, rfl⟩
          rw [List.reduceOption_cons_of_some, List.length_cons] at length
          cases values with
          | nil => cases length
          | cons first values =>
              have shorter : values.length = series.reduceOption.length := by
                simpa using length
              rw [Nat.zero_add] at *
              cases lag' with
              | zero =>
                  rcases cons_zero.mp warms' with ⟨firstAvailable, rest'⟩
                  have later := ih rest rest' shorter
                  exact cons_zero.mpr ⟨firstAvailable, later⟩
              | succ lag' =>
                  rcases cons_succ.mp warms' with ⟨rfl, rest'⟩
                  have later := ih rest rest' shorter
                  rw [Nat.zero_add] at later
                  exact cons_succ.mpr ⟨rfl, later⟩

/-- Dropping entries before or after the missing ones. -/
theorem reduceOption_drop (warms : WarmsUp lag series) (count : ℕ) :
    (series.drop count).reduceOption = series.reduceOption.drop (count - lag) := by
  induction series generalizing lag count with
  | nil => simp
  | cons entry series ih =>
      cases count with
      | zero => simp
      | succ count =>
          cases lag with
          | zero =>
              rcases cons_zero.mp warms with ⟨available, rest⟩
              rcases Option.isSome_iff_exists.mp available with ⟨value, rfl⟩
              rw [List.drop_succ_cons, ih rest, List.reduceOption_cons_of_some]
              rfl
          | succ lag =>
              rcases cons_succ.mp warms with ⟨rfl, rest⟩
              rw [List.drop_succ_cons, ih rest, List.reduceOption_cons_of_none,
                Nat.succ_sub_succ]

theorem length_reduceOption (warms : WarmsUp lag series) :
    series.reduceOption.length = series.length - lag := by
  induction series generalizing lag with
  | nil => simp
  | cons entry series ih =>
      cases lag with
      | zero =>
          rcases cons_zero.mp warms with ⟨available, rest⟩
          rcases Option.isSome_iff_exists.mp available with ⟨value, rfl⟩
          rw [List.reduceOption_cons_of_some, List.length_cons, ih rest]
          rfl
      | succ lag =>
          rcases cons_succ.mp warms with ⟨rfl, rest⟩
          rw [List.reduceOption_cons_of_none, ih rest, List.length_cons, Nat.succ_sub_succ]

/-- The last entries, without the missing ones, are the last available entries. -/
theorem reduceOption_rtake (warms : WarmsUp lag series) (count : ℕ) :
    (series.rtake count).reduceOption = series.reduceOption.rtake count := by
  rw [List.rtake, warms.reduceOption_drop, List.rtake, warms.length_reduceOption,
    Nat.sub_right_comm]

end WarmsUp
