import PersonalTrade.Indicators.Causality

/-!
# Sides of the supertrend line

The line of `supertrend` is the lower band while the trend is up and the upper band while it is
down. The bands ratchet apart from each other, and a gap can leave the lower band above the upper
one. A reversal takes the line from one band to the other; it ends on the wrong side of the close
exactly when the close lies between bands that have crossed (`supertrend_sides_iff`).
-/

namespace PersonalTrade

/-- The close lies within the candle. -/
def CandleRow.Encloses (candle : CandleRow) : Prop :=
  candle.low ≤ candle.close ∧ candle.close ≤ candle.high

/-- A line below the close in an upward trend, and above it in a downward one. -/
def OnItsSide (direction : ℤ) (line close : ℚ) : Prop :=
  (direction = 1 → line ≤ close) ∧ (direction = -1 → close ≤ line)

/-- The close lies between bands that have crossed. -/
def SupertrendBands.CrossAround (bands : SupertrendBands) (close : ℚ) : Prop :=
  bands.finalUpper < close ∧ close < bands.finalLower

/-! ## The average true range -/

theorem trueRangeOf_nonneg (prevClose : Option ℚ) {high low : ℚ} (ordered : low ≤ high) :
    0 ≤ trueRangeOf prevClose high low := by
  cases prevClose with
  | none => exact sub_nonneg.mpr ordered
  | some prevClose =>
      exact (sub_nonneg.mpr ordered).trans ((le_max_left _ _).trans (le_max_left _ _))

theorem mean_nonneg {values : List ℚ} (nonneg : ∀ value ∈ values, 0 ≤ value) : 0 ≤ mean values :=
  div_nonneg (List.sum_nonneg nonneg) (Nat.cast_nonneg _)

theorem wilder_nonneg {period : ℕ} (positive : 0 < period) {before value : ℚ}
    (beforeNonneg : 0 ≤ before) (valueNonneg : 0 ≤ value) : 0 ≤ wilder period before value := by
  have weight : (0 : ℚ) ≤ period - 1 := by
    rw [sub_nonneg]
    exact_mod_cast positive
  exact div_nonneg (add_nonneg (mul_nonneg beforeNonneg weight) valueNonneg) (Nat.cast_nonneg _)

theorem atrSeries_nonneg {period : ℕ} (positive : 0 < period) {frame : List CandleRow}
    (ordered : ∀ candle ∈ frame, candle.Encloses) {value : ℚ}
    (mem : some value ∈ atrSeries period frame) : 0 ≤ value := by
  have ranges : ∀ range ∈ trueRange frame, 0 ≤ range := by
    intro range rangeMem
    rcases List.mem_iff_getElem?.mp rangeMem with ⟨i, at_index⟩
    rw [trueRange, List.getElem?_zipWith_eq_some] at at_index
    rcases at_index with ⟨prevClose, candle, _, here, rfl⟩
    have encloses := ordered candle (List.mem_of_getElem? here)
    exact trueRangeOf_nonneg prevClose (encloses.1.trans encloses.2)
  refine seeded_forall positive ?_ ?_ ranges mem
  · exact fun ranges => mean_nonneg
  · exact fun before range beforeNonneg => wilder_nonneg positive beforeNonneg

/-! ## One candle -/

namespace SupertrendBands

variable {bands : SupertrendBands} {close : ℚ}

theorem onItsSide_up (up : bands.direction = 1) :
    OnItsSide bands.direction bands.value close ↔ bands.finalLower ≤ close := by
  simp [OnItsSide, value, up]

theorem onItsSide_down (down : bands.direction = -1) :
    OnItsSide bands.direction bands.value close ↔ close ≤ bands.finalUpper := by
  simp [OnItsSide, value, down]

end SupertrendBands

section Candle

variable {multiplier atrValue : ℚ} {candle : CandleRow}

/-- The first line is on its side, and the first bands have not crossed. -/
theorem supertrendStart_sides (positive : 0 ≤ multiplier) (atrNonneg : 0 ≤ atrValue) :
    OnItsSide (supertrendStart multiplier candle atrValue).direction
        (supertrendStart multiplier candle atrValue).value candle.close ∧
      ¬ (supertrendStart multiplier candle atrValue).CrossAround candle.close := by
  have band : 0 ≤ multiplier * atrValue := mul_nonneg positive atrNonneg
  constructor
  · by_cases up : midPrice candle < candle.close
    · rw [SupertrendBands.onItsSide_up (if_pos up)]
      exact (sub_le_self _ band).trans up.le
    · rw [SupertrendBands.onItsSide_down (if_neg up)]
      exact (not_lt.mp up).trans (le_add_of_nonneg_right band)
  · intro crossed
    have apart : midPrice candle + multiplier * atrValue <
        midPrice candle - multiplier * atrValue := crossed.1.trans crossed.2
    linarith

/-- A later line is on the wrong side exactly between bands that have crossed. -/
theorem supertrendStep_sides_iff (before : SupertrendBands) (prevClose : ℚ) :
    let bands := supertrendStep multiplier before prevClose candle atrValue
    OnItsSide bands.direction bands.value candle.close ↔ ¬ bands.CrossAround candle.close := by
  intro bands
  have direction : bands.direction =
      if before.direction = -1 then if bands.finalUpper < candle.close then 1 else -1
      else if candle.close < bands.finalLower then -1 else 1 := rfl
  rw [SupertrendBands.CrossAround]
  split_ifs at direction with down breaksUp breaksDown
  · rw [SupertrendBands.onItsSide_up direction, not_and, not_lt]
    exact ⟨fun below _ => below, fun below => below breaksUp⟩
  · rw [SupertrendBands.onItsSide_down direction]
    exact iff_of_true (not_lt.mp breaksUp) fun crossed => breaksUp crossed.1
  · rw [SupertrendBands.onItsSide_down direction, not_and', not_lt]
    exact ⟨fun above _ => above, fun above => above breaksDown⟩
  · rw [SupertrendBands.onItsSide_up direction]
    exact iff_of_true (not_lt.mp breaksDown) fun crossed => breaksDown crossed.2

end Candle

/-! ## A series -/

/-- The bands of a candle are the first ones or follow from those before. -/
theorem supertrendBands_cases {period : ℕ} {multiplier : ℚ} {frame : List CandleRow} {i : ℕ}
    {candle : CandleRow} {bands : SupertrendBands} (here : frame[i]? = some candle)
    (computed : (supertrendBands period multiplier frame)[i]? = some (some bands)) :
    ∃ atrValue, some atrValue ∈ atrSeries period frame ∧
      (bands = supertrendStart multiplier candle atrValue ∨ ∃ before prevClose,
        bands = supertrendStep multiplier before prevClose candle atrValue) := by
  have within : i < (frame.zip (atrSeries period frame)).length := by
    have inBands := (List.getElem?_eq_some_iff.mp computed).1
    rwa [supertrendBands, length_outputs] at inBands
  rcases row : (frame.zip (atrSeries period frame))[i] with ⟨candle', atrValue⟩
  have at_index := List.getElem?_eq_getElem within
  rw [row] at at_index
  rcases List.getElem?_zip_eq_some.mp at_index with ⟨here', atrHere⟩
  have own : candle = candle' := Option.some.inj (here.symm.trans here')
  subst own
  rw [supertrendBands, getElem?_outputs _ _ at_index, Option.some.injEq] at computed
  generalize finalState (supertrendTurn multiplier) (none, 0) _ = state at computed
  rcases state with ⟨_ | before, prevClose⟩ <;> rcases atrValue with _ | atrValue <;>
    simp only [supertrendTurn, reduceCtorEq, Option.some.injEq] at computed
  · exact ⟨atrValue, List.mem_of_getElem? atrHere, .inl computed.symm⟩
  · exact ⟨atrValue, List.mem_of_getElem? atrHere, .inr ⟨before, prevClose, computed.symm⟩⟩

/-- At every candle with a line, the line is on its side of the close unless the close lies between
bands that have crossed. -/
theorem supertrend_sides_iff {frame : List CandleRow}
    (ordered : ∀ candle ∈ frame, candle.Encloses) {period : ℤ} (valid : 1 ≤ period)
    {multiplier : ℚ} (positive : 0 < multiplier) :
    ∃ result, supertrend frame period multiplier = .ok result ∧
      ∀ (i : ℕ) (candle : CandleRow) (line : ℚ) (direction : ℤ), frame[i]? = some candle →
        result.supertrend[i]? = some (some line) → result.direction[i]? = some direction →
        ∃ bands : SupertrendBands,
          (supertrendBands period.toNat multiplier frame)[i]? = some (some bands) ∧
          (OnItsSide direction line candle.close ↔ ¬ bands.CrossAround candle.close) := by
  refine ⟨_, supertrend_eq_ok.mpr ⟨valid, rfl⟩, ?_⟩
  intro i candle line direction here atLine atDirection
  simp only [List.getElem?_map, Option.map_eq_some_iff] at atLine atDirection
  rcases atLine with ⟨entry, computed, bands, rfl, rfl⟩
  rcases atDirection with ⟨entry', computed', rfl⟩
  rw [computed, Option.some.injEq] at computed'
  subst entry'
  refine ⟨bands, computed, ?_⟩
  rcases supertrendBands_cases here computed with ⟨atrValue, mem, rfl | ⟨before, prevClose, rfl⟩⟩
  · have periodPos : 0 < period.toNat := by omega
    have sides := @supertrendStart_sides multiplier atrValue candle positive.le
      (atrSeries_nonneg periodPos ordered mem)
    exact iff_of_true sides.1 sides.2
  · exact supertrendStep_sides_iff before prevClose

/-- Ten candles at one price, and a gap upwards that closes at its low. -/
def gapUp : List CandleRow :=
  (List.range 10).map (fun day => ⟨day, 100, 100, 100, 100, 1, 0⟩) ++
    [⟨10, 110, 110, 101, 101, 1, 0⟩]

theorem gapUp_encloses : ∀ candle ∈ gapUp, candle.Encloses := by
  unfold CandleRow.Encloses
  decide +kernel

theorem supertrend_sides_iff_sample :
    ∃ result, supertrend gapUp = .ok result ∧
      ∀ (i : ℕ) (candle : CandleRow) (line : ℚ) (direction : ℤ), gapUp[i]? = some candle →
        result.supertrend[i]? = some (some line) → result.direction[i]? = some direction →
        ∃ bands : SupertrendBands, (supertrendBands 10 3 gapUp)[i]? = some (some bands) ∧
          (OnItsSide direction line candle.close ↔ ¬ bands.CrossAround candle.close) :=
  supertrend_sides_iff gapUp_encloses (by decide) (by decide)

/-- The trend turns up over an upper band of 100, and the line stands at 102.5 over the close. -/
theorem gapUp_wrong_side :
    (∀ candle ∈ gapUp, candle.Encloses) ∧
      (supertrend gapUp).toOption.map (fun result =>
          (result.supertrend[10]?, result.direction[10]?)) =
        some (some (some (205 / 2)), some 1) ∧
      gapUp[10]?.map CandleRow.close = some 101 ∧ ¬ OnItsSide 1 (205 / 2) 101 := by
  refine ⟨gapUp_encloses, by decide +kernel, by decide +kernel, ?_⟩
  intro sides
  have below := sides.1 rfl
  norm_num at below

end PersonalTrade
