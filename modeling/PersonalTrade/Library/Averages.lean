import Mathlib.Algebra.Order.BigOperators.Group.List
import PersonalTrade.Library.Scan

/-!
# Averages

A number lies in the hull of others if it lies between any bounds of them. Weighted means and
mixtures stay in the hull of what they average, and so do the values of a seeded recursion that
mixes each entry into the value before it.
-/

universe u v w

/-- Between any bounds of the numbers. -/
def InHull {F : Type u} [LE F] (numbers : List F) (value : F) : Prop :=
  ∀ lower upper, (∀ number ∈ numbers, lower ≤ number ∧ number ≤ upper) →
    lower ≤ value ∧ value ≤ upper

section Order

variable {F : Type u} [LE F] {numbers others : List F} {value : F}

theorem InHull.mono (within : InHull numbers value) (subset : ∀ number ∈ numbers, number ∈ others) :
    InHull others value :=
  fun lower upper bounds => within lower upper fun number mem => bounds number (subset number mem)

theorem InHull.of_mem (mem : value ∈ numbers) : InHull numbers value :=
  fun _ _ bounds => bounds value mem

end Order

section Hull

variable {F : Type u} [Field F] [LinearOrder F] [IsStrictOrderedRing F] {numbers : List F}

/-- A mixture of two numbers of the hull. -/
theorem InHull.mix {first second weight : F} (left : InHull numbers first)
    (right : InHull numbers second) (nonneg : 0 ≤ weight) (le_one : weight ≤ 1) :
    InHull numbers (weight * first + (1 - weight) * second) := by
  intro lower upper bounds
  rcases left lower upper bounds with ⟨lowerFirst, upperFirst⟩
  rcases right lower upper bounds with ⟨lowerSecond, upperSecond⟩
  have rest : 0 ≤ 1 - weight := sub_nonneg.mpr le_one
  constructor
  · calc lower = weight * lower + (1 - weight) * lower := by ring
      _ ≤ weight * first + (1 - weight) * second :=
        add_le_add (mul_le_mul_of_nonneg_left lowerFirst nonneg)
          (mul_le_mul_of_nonneg_left lowerSecond rest)
  · calc weight * first + (1 - weight) * second ≤ weight * upper + (1 - weight) * upper :=
        add_le_add (mul_le_mul_of_nonneg_left upperFirst nonneg)
          (mul_le_mul_of_nonneg_left upperSecond rest)
      _ = upper := by ring

/-- A weighted mean. -/
theorem InHull.weightedMean {α : Type v} {items : List α} (value weight : α → F)
    (inner : ∀ item ∈ items, InHull numbers (value item))
    (nonneg : ∀ item ∈ items, 0 ≤ weight item) (some : (items.map weight).sum ≠ 0) :
    InHull numbers ((items.map fun item => value item * weight item).sum /
      (items.map weight).sum) := by
  intro lower upper bounds
  have positive : 0 < (items.map weight).sum := by
    apply lt_of_le_of_ne (List.sum_nonneg _) some.symm
    intro number mem
    rcases List.mem_map.mp mem with ⟨item, member, rfl⟩
    exact nonneg item member
  have scaled (bound : F) : bound * (items.map weight).sum =
      (items.map fun item => bound * weight item).sum := (List.sum_map_mul_left ..).symm
  rw [le_div_iff₀ positive, div_le_iff₀ positive, scaled, scaled]
  constructor
  · apply List.sum_le_sum
    intro item mem
    exact mul_le_mul_of_nonneg_right (inner item mem lower upper bounds).1 (nonneg item mem)
  · apply List.sum_le_sum
    intro item mem
    exact mul_le_mul_of_nonneg_right (inner item mem lower upper bounds).2 (nonneg item mem)

end Hull

/-! ## Windows and recursions -/

section Series

variable {α β : Type w} {period i : ℕ} {series : List α} {value : β}

/-- The values of a window are aggregates of full windows. -/
theorem rolling_eq_some {aggregate : List α → β}
    (shown : (rolling period aggregate series)[i]? = some (some value)) :
    ((series.take (i + 1)).rtake period).length = period ∧
      value = aggregate ((series.take (i + 1)).rtake period) := by
  have within : i < series.length := by
    rcases List.getElem?_eq_some_iff.mp shown with ⟨within, _⟩
    rwa [rolling, length_perPrefix] at within
  rw [rolling, getElem?_perPrefix _ within, Option.some.injEq] at shown
  split_ifs at shown with early
  rw [length_rtake, min_eq_left (not_lt.mp early)]
  exact ⟨rfl, (Option.some.inj shown).symm⟩

/-- What holds of the seeds of full windows and is kept by every combination holds of the values,
by what was read up to them. -/
theorem seeded_of_getElem? {seed : List α → β} {combine : β → α → β} (positive : 0 < period)
    (fine : α → Prop) {good : β → Prop}
    (seeds : ∀ entries, entries.length = period → (∀ entry ∈ entries, fine entry) →
      good (seed entries))
    (combines : ∀ value entry, good value → fine entry → good (combine value entry))
    (read : ∀ entry ∈ series.take (i + 1), fine entry)
    (shown : (seeded period seed combine series)[i]? = some (some value)) : good value := by
  have within : i < series.length := by
    rcases List.getElem?_eq_some_iff.mp shown with ⟨within, _⟩
    rwa [length_seeded positive] at within
  rw [seeded_eq_perPrefix positive, getElem?_perPrefix _ within, Option.some.injEq,
    seededValue] at shown
  split_ifs at shown with early
  rw [← Option.some.inj shown]
  apply List.foldlRecOn
  · apply seeds
    · rw [List.length_take, min_eq_left (not_lt.mp early)]
    · exact fun entry taken => read entry (List.mem_of_mem_take taken)
  · intro before kept entry later
    exact combines before entry kept (read entry (List.mem_of_mem_drop later))

/-- The entries put back are those of the shorter series. -/
theorem mem_of_mem_onAvailable {line : List (Option α)} {values : List (Option β)}
    (mem : some value ∈ onAvailable line values) : some value ∈ values := by
  induction line generalizing values with
  | nil => cases mem
  | cons entry line ih =>
      cases entry with
      | none =>
          rw [onAvailable, List.mem_cons] at mem
          exact ih (mem.resolve_left (Option.some_ne_none value))
      | some entry =>
          cases values with
          | nil =>
              rw [onAvailable, List.mem_cons] at mem
              exact ih (mem.resolve_left (Option.some_ne_none value))
          | cons first values =>
              rw [onAvailable, List.mem_cons] at mem
              rw [List.mem_cons]
              exact mem.imp_right ih

/-- A value of a causal series belongs to the series of what was read up to it. -/
theorem Causal.mem_prefix {transform : List α → List β} (causal : Causal transform)
    (shown : (transform series)[i]? = some value) : value ∈ transform (series.take (i + 1)) := by
  rw [← causal.take, List.mem_iff_getElem?]
  exact ⟨i, (List.getElem?_take_of_lt (Nat.lt_succ_self i)).trans shown⟩

end Series
