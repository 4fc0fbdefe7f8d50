import PersonalTrade.Indicators.Batch
import PersonalTrade.Library.Equivariance

/-!
# Prices in another unit of money

A frame can be quoted in another unit of money, say in paise. Averages of closes and of ranges are
then in that unit too, and a relative strength stays as it is.
-/

namespace PersonalTrade

/-- A candle in a unit of which `rate` make one old unit. -/
def CandleRow.inUnit (rate : ℚ) (candle : CandleRow) : CandleRow :=
  { candle with
    openPrice := rate * candle.openPrice
    high := rate * candle.high
    low := rate * candle.low
    close := rate * candle.close }

variable {rate : ℚ}

theorem closes_inUnit (candles : List CandleRow) :
    (candles.map (CandleRow.inUnit rate)).map CandleRow.close =
      (candles.map CandleRow.close).map (rate * ·) := by
  simp [CandleRow.inUnit]

/-! ## Averages -/

theorem sum_map_mul (rate : ℚ) (values : List ℚ) :
    (values.map (rate * ·)).sum = rate * values.sum := by
  rw [List.sum_map_mul_left, List.map_id']

theorem mean_map_mul (rate : ℚ) (values : List ℚ) :
    mean (values.map (rate * ·)) = rate * mean values := by
  rw [mean, mean, List.length_map, sum_map_mul, mul_div_assoc]

theorem emaStep_mul (period : ℕ) (before value : ℚ) :
    emaStep period (rate * before) (rate * value) = rate * emaStep period before value := by
  rw [emaStep, emaStep]
  ring

theorem wilder_mul (period : ℕ) (before value : ℚ) :
    wilder period (rate * before) (rate * value) = rate * wilder period before value := by
  rw [wilder, wilder]
  ring

theorem rolling_mean_mul (period : ℕ) (values : List ℚ) :
    rolling period mean (values.map (rate * ·)) =
      (rolling period mean values).map (Option.map (rate * ·)) :=
  rolling_map (mean_map_mul rate) period values

theorem emaSeries_mul (period : ℕ) (values : List ℚ) :
    emaSeries period (values.map (rate * ·)) =
      (emaSeries period values).map (Option.map (rate * ·)) :=
  seeded_map (mean_map_mul rate) (emaStep_mul period) period values

/-! ## Ranges -/

theorem shift_map (f : ℚ → ℚ) (values : List ℚ) :
    shift (values.map f) = (shift values).map (Option.map f) := by
  simp [shift, List.map_take]

theorem trueRangeOf_mul (nonneg : 0 ≤ rate) (prevClose : Option ℚ) (high low : ℚ) :
    trueRangeOf (prevClose.map (rate * ·)) (rate * high) (rate * low) =
      rate * trueRangeOf prevClose high low := by
  cases prevClose with
  | none => exact (mul_sub rate high low).symm
  | some prevClose =>
      simp only [trueRangeOf, Option.map_some, ← mul_sub, abs_mul, abs_of_nonneg nonneg,
        mul_max_of_nonneg _ _ nonneg]

theorem trueRange_inUnit (nonneg : 0 ≤ rate) (frame : List CandleRow) :
    trueRange (frame.map (CandleRow.inUnit rate)) = (trueRange frame).map (rate * ·) := by
  rw [trueRange, closes_inUnit, shift_map, List.zipWith_map, trueRange, List.map_zipWith]
  simp only [CandleRow.inUnit, trueRangeOf_mul nonneg]

theorem atrSeries_inUnit (nonneg : 0 ≤ rate) (period : ℕ) (frame : List CandleRow) :
    atrSeries period (frame.map (CandleRow.inUnit rate)) =
      (atrSeries period frame).map (Option.map (rate * ·)) := by
  rw [atrSeries, trueRange_inUnit nonneg]
  exact seeded_map (mean_map_mul rate) (wilder_mul period) period (trueRange frame)

/-! ## Relative strength -/

theorem gainLoss_mul (nonneg : 0 ≤ rate) (delta : ℚ) :
    gainLoss (rate * delta) = Prod.map (rate * ·) (rate * ·) (gainLoss delta) := by
  simp only [gainLoss, Prod.map_apply, mul_max_of_nonneg _ _ nonneg, mul_zero, mul_neg]

theorem gainsLosses_mul (nonneg : 0 ≤ rate) (values : List ℚ) :
    gainsLosses (values.map (rate * ·)) =
      (gainsLosses values).map (Prod.map (rate * ·) (rate * ·)) := by
  rw [gainsLosses, ← List.map_tail, List.zipWith_map, gainsLosses, List.map_zipWith]
  simp only [← mul_sub, gainLoss_mul nonneg]

theorem rsiValue_mul (positive : 0 < rate) (avgGain avgLoss : ℚ) :
    rsiValue (rate * avgGain) (rate * avgLoss) = rsiValue avgGain avgLoss := by
  simp only [rsiValue, mul_eq_zero, positive.ne', false_or, mul_pos_iff_of_pos_left positive,
    mul_div_mul_left _ _ positive.ne']

theorem rsiSeries_mul (positive : 0 < rate) (period : ℕ) (values : List ℚ) :
    rsiSeries period (values.map (rate * ·)) = rsiSeries period values := by
  have averages : seeded period rsiSeed (rsiStep period) (gainsLosses (values.map (rate * ·))) =
      (seeded period rsiSeed (rsiStep period) (gainsLosses values)).map
        (Option.map (Prod.map (rate * ·) (rate * ·))) := by
    rw [gainsLosses_mul positive.le]
    apply seeded_map
    · intro entries
      have firsts := mean_map_mul rate (entries.map Prod.fst)
      have seconds := mean_map_mul rate (entries.map Prod.snd)
      simp only [List.map_map, Function.comp_def] at firsts seconds
      simp [rsiSeed, Function.comp_def, firsts, seconds]
    · intro before change
      simp only [rsiStep, Prod.map_fst, Prod.map_snd, wilder_mul, Prod.map_apply]
  simp only [rsiSeries, averages, List.map_map, List.length_map, Function.comp_def, Option.map_map,
    Prod.map_fst, Prod.map_snd, rsiValue_mul positive]

end PersonalTrade
