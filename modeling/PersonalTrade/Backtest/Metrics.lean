import PersonalTrade.Backtest.Engine
import PersonalTrade.Library.Decline

/-!
# Drawdown

`max_drawdown` of `backtest/metrics.py` over exact rationals, which walks through an equity
series once and keeps the peak and the deepest decline so far. On positive values it is the
greatest of all declines from a point to one that is not before it (`maxDrawdown_isGreatest`).
-/

namespace PersonalTrade

abbrev EquitySeries := List (ℤ × ℚ)

/-- The values of a series. -/
def EquitySeries.values (series : EquitySeries) : List ℚ := series.map Prod.snd

/-- One turn of the loop of `max_drawdown`, on the peak and the worst decline so far. -/
def drawdownTurn (before : ℚ × ℚ) (point : ℤ × ℚ) : ℚ × ℚ :=
  let peak := max before.1 point.2
  (peak, if 0 < peak then max before.2 ((peak - point.2) / peak) else before.2)

/-- `max_drawdown`. -/
def maxDrawdown : EquitySeries → ℚ
  | [] => 0
  | first :: rest => ((first :: rest).foldl drawdownTurn (first.2, 0)).2

/-- What the loop knows of the values that it has seen. -/
structure DrawdownOf (seen : List ℚ) (peak worst : ℚ) : Prop where
  peak : IsGreatest {value | value ∈ seen} peak
  worst : IsGreatest (declines seen) worst

theorem DrawdownOf.singleton (value : ℚ) : DrawdownOf [value] value 0 where
  peak := by simp
  worst := by
    rw [declines_singleton]
    exact isGreatest_singleton

/-- One turn keeps the peak and the worst decline those of what has been seen. -/
theorem DrawdownOf.turn {seen : List ℚ} {before : ℚ × ℚ} {point : ℤ × ℚ}
    (known : DrawdownOf seen before.1 before.2)
    (positive : ∀ value ∈ seen ++ [point.2], 0 < value) :
    DrawdownOf (seen ++ [point.2]) (drawdownTurn before point).1
      (drawdownTurn before point).2 := by
  have members : {value | value ∈ seen ++ [point.2]} = {value | value ∈ seen} ∪ {point.2} := by
    ext value
    simp [or_comm]
  have greatest : IsGreatest {value | value ∈ seen ++ [point.2]} (max before.1 point.2) := by
    rw [members]
    exact known.peak.union isGreatest_singleton
  have peakPos : 0 < max before.1 point.2 := positive _ greatest.1
  refine ⟨greatest, ?_⟩
  simp only [drawdownTurn]
  rw [if_pos peakPos, declines_concat]
  exact known.worst.union (isGreatest_falls positive (positive _ (by simp)) greatest)

/-- The loop over the points that are left. -/
theorem DrawdownOf.run {seen : List ℚ} {before : ℚ × ℚ} {points : EquitySeries}
    (known : DrawdownOf seen before.1 before.2)
    (positive : ∀ value ∈ seen ++ points.values, 0 < value) :
    DrawdownOf (seen ++ points.values) (points.foldl drawdownTurn before).1
      (points.foldl drawdownTurn before).2 := by
  induction points generalizing seen before with
  | nil => simpa [EquitySeries.values] using known
  | cons point points ih =>
      have split : seen ++ EquitySeries.values (point :: points) =
          (seen ++ [point.2]) ++ EquitySeries.values points := by
        simp [EquitySeries.values]
      rw [split] at positive ⊢
      exact ih (known.turn fun value mem => positive value (List.mem_append_left _ mem)) positive

/-- The first turn compares the first point with itself. -/
theorem drawdownTurn_first (point : ℤ × ℚ) : drawdownTurn (point.2, 0) point = (point.2, 0) := by
  simp [drawdownTurn]

theorem maxDrawdown_isGreatest (series : EquitySeries)
    (positive : ∀ point ∈ series, 0 < point.2) :
    maxDrawdown [] = 0 ∧
      (series ≠ [] → IsGreatest (declines series.values) (maxDrawdown series)) ∧
      0 ≤ maxDrawdown series ∧ maxDrawdown series < 1 := by
  rcases series with _ | ⟨first, rest⟩
  · simp [maxDrawdown]
  · have valuesPos : ∀ value ∈ EquitySeries.values (first :: rest), 0 < value := by
      intro value mem
      rcases List.mem_map.mp mem with ⟨point, pointMem, rfl⟩
      exact positive point pointMem
    have start : DrawdownOf [first.2] (first.2, (0 : ℚ)).1 (first.2, (0 : ℚ)).2 :=
      .singleton first.2
    have known := start.run valuesPos
    have greatest : IsGreatest (declines (EquitySeries.values (first :: rest)))
        (maxDrawdown (first :: rest)) := by
      rw [maxDrawdown, List.foldl_cons, drawdownTurn_first]
      exact known.worst
    exact ⟨rfl, fun _ => greatest, nonneg_of_isGreatest (List.cons_ne_nil _ _) greatest,
      lt_one_of_isGreatest valuesPos greatest⟩

/-- A rise, a fall by a quarter of the peak and a recovery. -/
def quarterFall : EquitySeries := [(0, 100), (1, 120), (2, 90), (3, 110)]

theorem maxDrawdown_isGreatest_sample :
    IsGreatest (declines quarterFall.values) (maxDrawdown quarterFall) ∧
      maxDrawdown quarterFall = 1 / 4 := by
  have positive : ∀ point ∈ quarterFall, 0 < point.2 := by decide +kernel
  exact ⟨(maxDrawdown_isGreatest quarterFall positive).2.1 (by decide), by decide +kernel⟩

end PersonalTrade
