import PersonalTrade.Indicators.Sides
import PersonalTrade.Library.Averages

/-!
# Bounds of the indicators

Where the values of the indicators lie, by what they have read: moving averages between the
extremes of their closes, Bollinger bands around their middle, an RSI between 0 and 100, an average
true range between the ranges, a VWAP between the lows and the highs of its session.
-/

namespace PersonalTrade

/-! ## Averages -/

theorem inHull_mean {numbers values : List ℚ} (nonempty : values ≠ [])
    (inner : ∀ value ∈ values, InHull numbers value) : InHull numbers (mean values) := by
  have count : (values.map fun _ => (1 : ℚ)).sum = values.length := by simp
  have weighted := InHull.weightedMean (fun value => value) (fun _ => (1 : ℚ)) inner
    (fun _ _ => zero_le_one) (by simpa [count] using nonempty)
  simpa [mean, count] using weighted

theorem inHull_emaStep {numbers : List ℚ} {period : ℕ} (positive : 0 < period) {before value : ℚ}
    (held : InHull numbers before) (read : InHull numbers value) :
    InHull numbers (emaStep period before value) := by
  have least : (1 : ℚ) ≤ period := by exact_mod_cast positive
  apply read.mix held
  · exact div_nonneg zero_le_two (by linarith)
  · rw [emaAlpha, div_le_one (by linarith)]
    linarith

theorem inHull_wilder {numbers : List ℚ} {period : ℕ} (positive : 0 < period) {before value : ℚ}
    (held : InHull numbers before) (read : InHull numbers value) :
    InHull numbers (wilder period before value) := by
  have least : (1 : ℚ) ≤ period := by exact_mod_cast positive
  have nonzero : (period : ℚ) ≠ 0 := by linarith
  have mixed := read.mix held (one_div_nonneg.mpr (by linarith : (0 : ℚ) ≤ period))
    (div_le_one_of_le₀ least (by linarith))
  have same : wilder period before value = 1 / period * value + (1 - 1 / period) * before := by
    rw [wilder]
    field_simp
    ring
  rwa [same]

/-- The window that an average has read at a bar. -/
def windowAt (period : ℕ) (values : List ℚ) (index : ℕ) : List ℚ :=
  (values.take (index + 1)).rtake period

theorem inHull_rolling_mean {period : ℕ} (positive : 0 < period) {values : List ℚ} {index : ℕ}
    {value : ℚ} (shown : (rolling period mean values)[index]? = some (some value)) :
    InHull (windowAt period values index) value := by
  rcases rolling_eq_some shown with ⟨full, rfl⟩
  apply inHull_mean
  · apply List.ne_nil_of_length_pos
    rwa [full]
  · exact fun entry mem => .of_mem mem

theorem inHull_emaSeries {period : ℕ} (positive : 0 < period) {values : List ℚ} {index : ℕ}
    {value : ℚ} (shown : (emaSeries period values)[index]? = some (some value)) :
    InHull (values.take (index + 1)) value := by
  refine seeded_of_getElem? positive (InHull (values.take (index + 1))) ?_ ?_ ?_ shown
  · intro entries full inner
    exact inHull_mean (List.ne_nil_of_length_pos (full ▸ positive)) inner
  · exact fun before entry => inHull_emaStep positive
  · exact fun entry mem => .of_mem mem

theorem inHull_atrSeries {period : ℕ} (positive : 0 < period) {frame : List CandleRow} {index : ℕ}
    {value : ℚ} (shown : (atrSeries period frame)[index]? = some (some value)) :
    InHull ((trueRange frame).take (index + 1)) value := by
  refine seeded_of_getElem? positive (InHull ((trueRange frame).take (index + 1))) ?_ ?_ ?_
    shown
  · intro entries full inner
    exact inHull_mean (List.ne_nil_of_length_pos (full ▸ positive)) inner
  · exact fun before entry => inHull_wilder positive
  · exact fun entry mem => .of_mem mem

/-! ## The relative strength -/

theorem rsiValue_mem {avgGain avgLoss : ℚ} (gain : 0 ≤ avgGain) (loss : 0 ≤ avgLoss) :
    0 ≤ rsiValue avgGain avgLoss ∧ rsiValue avgGain avgLoss ≤ 100 := by
  rw [rsiValue]
  split_ifs with noLoss someGain
  · norm_num
  · norm_num
  · have ratio : 0 ≤ avgGain / avgLoss := div_nonneg gain loss
    have share : 100 / (1 + avgGain / avgLoss) ≤ 100 :=
      div_le_self (by norm_num) (le_add_of_nonneg_right ratio)
    have part : 0 ≤ 100 / (1 + avgGain / avgLoss) := by positivity
    constructor <;> linarith

theorem gainLoss_nonneg (delta : ℚ) : 0 ≤ (gainLoss delta).1 ∧ 0 ≤ (gainLoss delta).2 :=
  ⟨le_max_right _ _, le_max_right _ _⟩

theorem rsiSeries_mem {period : ℕ} (positive : 0 < period) {values : List ℚ} {value : ℚ}
    (mem : some value ∈ rsiSeries period values) : 0 ≤ value ∧ value ≤ 100 := by
  have changes : ∀ change ∈ gainsLosses values, 0 ≤ change.1 ∧ 0 ≤ change.2 := by
    intro change member
    rcases List.mem_iff_getElem?.mp member with ⟨i, at_index⟩
    rw [gainsLosses, List.getElem?_zipWith_eq_some] at at_index
    rcases at_index with ⟨before, after, _, _, rfl⟩
    exact gainLoss_nonneg _
  have shown := List.mem_of_mem_take mem
  rw [List.mem_cons, List.mem_map] at shown
  rcases shown with none | ⟨averages, member, made⟩
  · cases none
  · rcases Option.map_eq_some_iff.mp made with ⟨pair, rfl, rfl⟩
    have nonneg : 0 ≤ pair.1 ∧ 0 ≤ pair.2 := by
      refine @seeded_forall _ _ period rsiSeed (rsiStep period) positive
        (fun change => 0 ≤ change.1 ∧ 0 ≤ change.2) (fun averages => 0 ≤ averages.1 ∧ 0 ≤ averages.2)
        ?_ ?_ _ changes _ member
      · intro entries fine
        constructor
        · apply mean_nonneg
          simp only [List.forall_mem_map]
          exact fun change mem => (fine change mem).1
        · apply mean_nonneg
          simp only [List.forall_mem_map]
          exact fun change mem => (fine change mem).2
      · intro before change held fine
        exact ⟨wilder_nonneg positive held.1 fine.1, wilder_nonneg positive held.2 fine.2⟩
    exact rsiValue_mem nonneg.1 nonneg.2

/-! ## Lines of several averages -/

/-- A difference of two numbers between bounds is at most as large as their distance. -/
theorem abs_sub_le_of_inHull {numbers : List ℚ} {first second lower upper : ℚ}
    (left : InHull numbers first) (right : InHull numbers second)
    (bounds : ∀ number ∈ numbers, lower ≤ number ∧ number ≤ upper) :
    |first - second| ≤ upper - lower := by
  have := left lower upper bounds
  have := right lower upper bounds
  rw [abs_le]
  constructor <;> linarith

theorem columnwise_eq_some {op : ℚ → ℚ → ℚ} {left right : Series} {index : ℕ} {value : ℚ}
    (shown : (columnwise op left right)[index]? = some (some value)) :
    ∃ first second, left[index]? = some (some first) ∧ right[index]? = some (some second) ∧
      value = op first second := by
  rw [columnwise, List.getElem?_zipWith_eq_some] at shown
  rcases shown with ⟨first, second, here, there, made⟩
  rcases Option.map₂_eq_some_iff.mp made with ⟨first, second, rfl, rfl, rfl⟩
  exact ⟨first, second, here, there, rfl⟩

theorem macd_le {fast slow : ℕ} (fastPos : 0 < fast) (slowPos : 0 < slow) {values : List ℚ}
    {index : ℕ} {value lower upper : ℚ}
    (shown : (columnwise (· - ·) (emaSeries fast values) (emaSeries slow values))[index]? =
      some (some value))
    (bounds : ∀ close ∈ values.take (index + 1), lower ≤ close ∧ close ≤ upper) :
    |value| ≤ upper - lower := by
  rcases columnwise_eq_some shown with ⟨first, second, here, there, rfl⟩
  exact abs_sub_le_of_inHull (inHull_emaSeries fastPos here) (inHull_emaSeries slowPos there) bounds

theorem signal_le {fast slow signal : ℕ} (fastPos : 0 < fast) (slowPos : 0 < slow)
    (signalPos : 0 < signal) {values : List ℚ} {index : ℕ} {value lower upper : ℚ}
    (shown : (macdColumns fast slow signal values).signal[index]? = some (some value))
    (bounds : ∀ close ∈ values.take (index + 1), lower ≤ close ∧ close ≤ upper) :
    |value| ≤ upper - lower := by
  have causal : Causal fun close => (macdColumns fast slow signal close).signal :=
    causal_macdColumns fastPos slowPos signalPos (by simp [macdFields])
  have mem := mem_of_mem_onAvailable (causal.mem_prefix shown)
  have lines : ∀ entry ∈ (macdColumns fast slow signal (values.take (index + 1))).macd.reduceOption,
      -(upper - lower) ≤ entry ∧ entry ≤ upper - lower := by
    intro entry member
    rcases List.mem_iff_getElem?.mp (List.reduceOption_mem_iff.mp member) with ⟨i, at_index⟩
    apply abs_le.mp
    apply macd_le fastPos slowPos at_index
    exact fun close taken => bounds close (List.mem_of_mem_take taken)
  rcases List.mem_iff_getElem?.mp mem with ⟨i, at_index⟩
  apply abs_le.mpr
  apply inHull_emaSeries signalPos at_index
  exact fun entry taken => lines entry (List.mem_of_mem_take taken)

/-! ## The session average -/

/-- The candles of a frame up to a bar that belong to the session of the bar. -/
def sessionUpTo (frame : List CandleRow) (index : ℕ) : List CandleRow :=
  (frame.take (index + 1)).filter fun candle =>
    ((frame.take (index + 1)).getLast?.map fun last => session last.ts) = some (session candle.ts)

theorem getElem?_sessionCumsum (column : CandleRow → ℚ) {frame : List CandleRow} {index : ℕ}
    (within : index < frame.length) :
    (sessionCumsum column frame)[index]? = some ((sessionUpTo frame index).map column).sum :=
  getElem?_perPrefix _ within

theorem inHull_typical {candle : CandleRow} (proper : candle.Encloses) :
    InHull [candle.low, candle.high] (typical candle) := by
  intro lower upper bounds
  have least := (bounds candle.low (by simp)).1
  have greatest := (bounds candle.high (by simp)).2
  rcases proper with ⟨below, above⟩
  rw [typical, le_div_iff₀ three_pos, div_le_iff₀ three_pos]
  constructor <;> linarith

theorem inHull_vwap {frame : List CandleRow} (proper : ∀ candle ∈ frame, candle.Encloses)
    {index : ℕ} (weights : ∀ candle ∈ sessionUpTo frame index, 0 ≤ candle.volume) {value : ℚ}
    (shown : (vwap frame)[index]? = some (some value)) :
    InHull ((sessionUpTo frame index).flatMap fun candle => [candle.low, candle.high]) value := by
  rw [vwap, List.getElem?_zipWith_eq_some] at shown
  rcases shown with ⟨traded, volume, tradedAt, volumeAt, made⟩
  have within : index < frame.length := by
    rcases List.getElem?_eq_some_iff.mp volumeAt with ⟨within, _⟩
    rwa [sessionCumsum, length_perPrefix] at within
  rw [getElem?_sessionCumsum _ within, Option.some.injEq] at tradedAt volumeAt
  subst tradedAt volumeAt
  split_ifs at made with empty
  rw [← Option.some.inj made]
  refine InHull.weightedMean typical (fun candle => (candle.volume : ℚ)) ?_ ?_ empty
  · intro candle mem
    have inFrame := List.mem_of_mem_take (List.mem_filter.mp mem).1
    apply (inHull_typical (proper candle inFrame)).mono
    exact fun price bound => List.mem_flatMap.mpr ⟨candle, mem, bound⟩
  · exact fun candle mem => Int.cast_nonneg (weights candle mem)

/-! ## Bands -/

theorem variance_nonneg (values : List ℚ) : 0 ≤ variance values := by
  apply mean_nonneg
  simp only [List.forall_mem_map]
  exact fun value _ => sq_nonneg _

/-- The bands lie around their middle. -/
theorem bollinger_bands {sqrt : ℚ → ℚ} (nonneg : ∀ value, 0 ≤ value → 0 ≤ sqrt value)
    {period : ℕ} {numStd : ℚ} (spread : 0 ≤ numStd) {values : List ℚ} {index : ℕ} {upper lower : ℚ}
    (above : (bollingerColumns sqrt period numStd values).upper[index]? = some (some upper))
    (below : (bollingerColumns sqrt period numStd values).lower[index]? = some (some lower)) :
    ∃ middle, (bollingerColumns sqrt period numStd values).middle[index]? = some (some middle) ∧
      lower ≤ middle ∧ middle ≤ upper := by
  rcases columnwise_eq_some above with ⟨middle, band, here, there, rfl⟩
  rcases columnwise_eq_some below with ⟨middle', band', here', there', rfl⟩
  have same : middle' = middle := by
    simpa [here] using here'.symm
  have sameBand : band' = band := by
    simpa [there] using there'.symm
  subst same sameBand
  have width : 0 ≤ band' := by
    rw [List.getElem?_map] at there
    rcases Option.map_eq_some_iff.mp there with ⟨deviation, found, made⟩
    rcases Option.map_eq_some_iff.mp made with ⟨std, rfl, rfl⟩
    rcases rolling_eq_some found with ⟨_, rfl⟩
    exact mul_nonneg spread (nonneg _ (variance_nonneg _))
  exact ⟨middle', here, sub_le_self _ width, le_add_of_nonneg_right width⟩

/-! ## The indicators -/

/-- What holds of the value of a series at a bar, if it has one. -/
def Series.At (series : Series) (index : ℕ) (good : ℚ → Prop) : Prop :=
  ∀ value, series[index]? = some (some value) → good value

/-- Where the indicators of a frame of proper candles lie, for all parameters and at every bar,
over exact rationals; the session average needs that no volume of its candles is negative. -/
theorem indicators_bounded {sqrt : ℚ → ℚ} (nonneg : ∀ value, 0 ≤ value → 0 ≤ sqrt value)
    {candles : List CandleRow} (proper : ∀ candle ∈ candles, candle.Encloses) (index : ℕ) :
    let closes := candles.map CandleRow.close
    (∀ period series, sma closes period = .ok series →
      series.At index (InHull (windowAt period.toNat closes index))) ∧
    (∀ period series, ema closes period = .ok series →
      series.At index (InHull (closes.take (index + 1)))) ∧
    (∀ period series, rsi closes period = .ok series →
      series.At index fun value => 0 ≤ value ∧ value ≤ 100) ∧
    (∀ period series, atr candles period = .ok series → series.At index fun value =>
      0 ≤ value ∧ InHull ((trueRange candles).take (index + 1)) value) ∧
    (∀ fast slow signal frame, macd closes fast slow signal = .ok frame → ∀ lower upper,
      (∀ close ∈ closes.take (index + 1), lower ≤ close ∧ close ≤ upper) →
        frame.macd.At index (|·| ≤ upper - lower) ∧ frame.signal.At index (|·| ≤ upper - lower)) ∧
    (∀ period numStd frame, 0 ≤ numStd → bollinger sqrt closes period numStd = .ok frame →
      frame.upper.At index fun upper => frame.lower.At index fun lower =>
        ∃ middle, frame.middle[index]? = some (some middle) ∧ lower ≤ middle ∧ middle ≤ upper ∧
          InHull (windowAt period.toNat closes index) middle) ∧
    ((∀ candle ∈ sessionUpTo candles index, 0 ≤ candle.volume) → (vwap candles).At index (InHull
      ((sessionUpTo candles index).flatMap fun candle => [candle.low, candle.high]))) := by
  intro closes
  refine ⟨?_, ?_, ?_, ?_, ?_, ?_, ?_⟩
  · intro period series computed value shown
    rcases sma_eq_ok.mp computed with ⟨valid, rfl⟩
    exact inHull_rolling_mean (by omega) shown
  · intro period series computed value shown
    rcases ema_eq_ok.mp computed with ⟨valid, rfl⟩
    exact inHull_emaSeries (by omega) shown
  · intro period series computed value shown
    rcases rsi_eq_ok.mp computed with ⟨valid, rfl⟩
    exact rsiSeries_mem (by omega) (List.mem_of_getElem? shown)
  · intro period series computed value shown
    rcases atr_eq_ok.mp computed with ⟨valid, rfl⟩
    have positive : 0 < period.toNat := by omega
    exact ⟨atrSeries_nonneg positive proper (List.mem_of_getElem? shown),
      inHull_atrSeries positive shown⟩
  · intro fast slow signal frame computed lower upper bounds
    rcases macd_eq_ok.mp computed with ⟨⟨order, fastValid, signalValid⟩, rfl⟩
    constructor
    · exact fun value shown => macd_le (by omega) (by omega) shown bounds
    · exact fun value shown => signal_le (by omega) (by omega) (by omega) shown bounds
  · intro period numStd frame spread computed upper above lower below
    rcases bollinger_eq_ok.mp computed with ⟨valid, rfl⟩
    rcases bollinger_bands nonneg spread above below with ⟨middle, here, ordered⟩
    exact ⟨middle, here, ordered.1, ordered.2, inHull_rolling_mean (by omega) here⟩
  · exact fun weights value shown => inHull_vwap proper weights shown

/-- A rise from 10 to 12 in two candles. -/
def shortRise : List CandleRow := [⟨0, 10, 11, 9, 10, 5, 0⟩, ⟨60000, 10, 12, 10, 12, 5, 0⟩]

/-- The average of the two closes lies between them, and the one of the session between the
lowest low and the highest high. -/
theorem indicators_bounded_sample :
    (sma [10, 12] 2 = .ok [none, some 11] ∧ 10 ≤ (11 : ℚ) ∧ (11 : ℚ) ≤ 12) ∧
      vwap shortRise = [some 10, some (32 / 3)] ∧ 9 ≤ (32 / 3 : ℚ) ∧ (32 / 3 : ℚ) ≤ 12 := by
  have proper : ∀ candle ∈ shortRise, candle.Encloses := by
    simp [shortRise, CandleRow.Encloses]
    norm_num
  have computed : sma (shortRise.map CandleRow.close) 2 = .ok [none, some 11] := by decide +kernel
  have averaged : vwap shortRise = [some 10, some (32 / 3)] := by decide +kernel
  rcases indicators_bounded (fun _ nonneg => nonneg) proper 1 with ⟨smas, _, _, _, _, _, vwaps⟩
  refine ⟨⟨computed, smas 2 _ computed 11 rfl 10 12 ?_⟩, averaged, ?_⟩
  · have window : windowAt 2 (shortRise.map CandleRow.close) 1 = [10, 12] := by decide +kernel
    intro close mem
    rw [show (2 : ℤ).toNat = 2 by rfl, window] at mem
    rcases List.mem_pair.mp mem with rfl | rfl <;> norm_num
  · have session : sessionUpTo shortRise 1 = shortRise := by decide +kernel
    rw [session] at vwaps
    refine vwaps (by simp [shortRise]) _ (by rw [averaged]; rfl) 9 12 ?_
    simp [shortRise]
    norm_num

end PersonalTrade
