import Mathlib.Order.Bounds.Basic
import Mathlib.Tactic

/-!
# Declines of a series

How far a series of positive values falls, as a part of the value that it falls from. The
greatest decline that ends at an entry starts at the greatest entry so far, so that one pass over
the series finds the greatest of all.
-/

universe u

variable {𝕜 : Type u} [Field 𝕜]

/-- The fall from one value to another, as a part of the first one. -/
def decline (high low : 𝕜) : 𝕜 := (high - low) / high

/-- The falls from an entry of a series to an entry that is not before it. -/
def declines (series : List 𝕜) : Set 𝕜 :=
  {fall | ∃ (i j : ℕ) (high low : 𝕜), i ≤ j ∧ series[i]? = some high ∧ series[j]? = some low ∧
    fall = decline high low}

theorem decline_self (value : 𝕜) : decline value value = 0 := by simp [decline]

theorem declines_singleton (value : 𝕜) : declines [value] = {0} := by
  ext fall
  simp only [declines, Set.mem_ofPred_eq, Set.mem_singleton_iff]
  constructor
  · rintro ⟨i, j, high, low, _, atHigh, atLow, rfl⟩
    rw [List.getElem?_singleton, Option.ite_none_right_eq_some, Option.some.injEq] at atHigh atLow
    rw [← atHigh.2, ← atLow.2, decline_self]
  · rintro rfl
    exact ⟨0, 0, value, value, le_rfl, rfl, rfl, (decline_self value).symm⟩

/-- The last entry adds the falls to it. -/
theorem declines_concat (series : List 𝕜) (last : 𝕜) : declines (series ++ [last]) =
    declines series ∪ (decline · last) '' {high | high ∈ series ++ [last]} := by
  ext fall
  constructor
  · rintro ⟨i, j, high, low, ordered, atHigh, atLow, rfl⟩
    rcases Nat.lt_trichotomy j series.length with earlier | rfl | beyond
    · rw [List.getElem?_append_left (ordered.trans_lt earlier)] at atHigh
      rw [List.getElem?_append_left earlier] at atLow
      exact .inl ⟨i, j, high, low, ordered, atHigh, atLow, rfl⟩
    · rw [List.getElem?_concat_length, Option.some.injEq] at atLow
      exact .inr ⟨high, List.mem_of_getElem? atHigh, by rw [atLow]⟩
    · rw [List.getElem?_eq_none (by simpa using beyond)] at atLow
      cases atLow
  · rintro (⟨i, j, high, low, ordered, atHigh, atLow, rfl⟩ | ⟨high, mem, rfl⟩)
    · have within := (List.getElem?_eq_some_iff.mp atLow).1
      exact ⟨i, j, high, low, ordered,
        by rw [List.getElem?_append_left (ordered.trans_lt within), atHigh],
        by rw [List.getElem?_append_left within, atLow], rfl⟩
    · rcases List.mem_iff_getElem?.mp mem with ⟨i, atHigh⟩
      have within := (List.getElem?_eq_some_iff.mp atHigh).1
      rw [List.length_append, List.length_singleton] at within
      exact ⟨i, series.length, high, last, Nat.lt_succ_iff.mp within, atHigh,
        List.getElem?_concat_length, rfl⟩

variable [LinearOrder 𝕜]

theorem nonneg_of_isGreatest {series : List 𝕜} {worst : 𝕜} (nonempty : series ≠ [])
    (greatest : IsGreatest (declines series) worst) : 0 ≤ worst := by
  rcases List.exists_cons_of_ne_nil nonempty with ⟨first, rest, rfl⟩
  exact greatest.2 ⟨0, 0, first, first, le_rfl, rfl, rfl, (decline_self first).symm⟩

variable [IsStrictOrderedRing 𝕜]

theorem decline_lt_one {high low : 𝕜} (highPos : 0 < high) (lowPos : 0 < low) :
    decline high low < 1 := by
  rw [decline, div_lt_one highPos]
  exact sub_lt_self high lowPos

/-- The fall to a value is deeper from a greater value. -/
theorem decline_mono {high higher low : 𝕜} (highPos : 0 < high) (lowPos : 0 < low)
    (ordered : high ≤ higher) : decline high low ≤ decline higher low := by
  have higherPos := highPos.trans_le ordered
  rw [decline, decline, sub_div, sub_div, div_self highPos.ne', div_self higherPos.ne']
  exact sub_le_sub_left (div_le_div_of_nonneg_left lowPos.le highPos ordered) 1

/-- A fall to the last entry starts at the peak, if it is the deepest one. -/
theorem isGreatest_falls {series : List 𝕜} {peak last : 𝕜} (positive : ∀ value ∈ series, 0 < value)
    (lastPos : 0 < last) (greatest : IsGreatest {value | value ∈ series} peak) :
    IsGreatest ((decline · last) '' {high | high ∈ series}) (decline peak last) := by
  refine ⟨⟨peak, greatest.1, rfl⟩, ?_⟩
  rintro _ ⟨high, mem, rfl⟩
  exact decline_mono (positive high mem) lastPos (greatest.2 mem)

theorem lt_one_of_isGreatest {series : List 𝕜} {worst : 𝕜} (positive : ∀ value ∈ series, 0 < value)
    (greatest : IsGreatest (declines series) worst) : worst < 1 := by
  rcases greatest.1 with ⟨i, j, high, low, _, atHigh, atLow, rfl⟩
  exact decline_lt_one (positive high (List.mem_of_getElem? atHigh))
    (positive low (List.mem_of_getElem? atLow))
