import PersonalTrade.Strategy.Base

/-!
# The registered strategies

`strategy/strategies/` and `strategy/registry.py`. Two of the three strategies have
no memory. `ema_atr_stop` remembers the stop level of the open position, which is set
on the first bar that sees the position and cleared whenever the position is flat.
-/

namespace PersonalTrade

/-- The last two values of an indicator, `window(name, 2)[-2]` and `value(name)`. -/
def IndicatorView.lastTwo (view : IndicatorView) (name : String) :
    Except PyError (Option (ℚ × ℚ)) := do
  let value ← view.value name
  let window ← view.window name 2
  match value, window.dropLast.getLast? with
  | some value, some previous => pure (some (previous, value))
  | _, _ => pure none

/-- The close of the bar, `candles["close"].iloc[-1]`. -/
def StrategyContext.close (context : StrategyContext) : Except PyError ℚ :=
  match context.candles.getLast? with
  | none => .error (.indexError "single positional indexer is out-of-bounds")
  | some candle => .ok candle.close

/-- A series crosses above another one, or above a level: `previous ≤ before ∧ after < last`. -/
def crossesAbove (previous last before after : ℚ) : Bool := previous ≤ before && after < last

/-! ## SMA crossover -/

/-- `SMACrossoverParams`; the constructor of the strategy compares the periods. -/
structure SMACrossoverParams where
  fastPeriod : ℤ := 10
  slowPeriod : ℤ := 30
  one_le_fastPeriod : 1 ≤ fastPeriod := by norm_num
  two_le_slowPeriod : 2 ≤ slowPeriod := by norm_num
  fast_lt_slow : fastPeriod < slowPeriod := by norm_num

/-- The shortest averages: a close over its average of two. -/
def SMACrossoverParams.shortest : SMACrossoverParams where
  fastPeriod := 1
  slowPeriod := 2

/-- `SMACrossoverStrategy`. -/
def smaCrossover (params : SMACrossoverParams) : Strategy Unit where
  warmupBars := params.slowPeriod + 1
  requiredIndicators := [("fast", .sma params.fastPeriod), ("slow", .sma params.slowPeriod)]
  distinct := by simp
  onCandle context memory := do
    let fast ← context.indicators.lastTwo "fast"
    let slow ← context.indicators.lastTwo "slow"
    match fast, slow with
    | some (prevFast, fast), some (prevSlow, slow) => do
        let close ← context.close
        let values := [("fast", .number fast), ("slow", .number slow)]
        if crossesAbove prevFast fast prevSlow slow ∧ context.position.qty = 0 then
          pure (some ⟨.long, close, values⟩, memory)
        else if crossesAbove prevSlow slow prevFast fast ∧ 0 < context.position.qty then
          pure (some ⟨.exit, close, values⟩, memory)
        else pure (none, memory)
    | _, _ => pure (none, memory)

/-! ## RSI mean reversion -/

structure RSIMeanReversionParams where
  rsiPeriod : ℤ := 14
  oversold : ℚ := 30
  exitLevel : ℚ := 50
  two_le_rsiPeriod : 2 ≤ rsiPeriod := by norm_num
  oversold_pos : 0 < oversold := by norm_num
  oversold_lt_exitLevel : oversold < exitLevel := by norm_num
  exitLevel_lt : exitLevel < 100 := by norm_num

/-- `RSIMeanReversionStrategy`. -/
def rsiMeanReversion (params : RSIMeanReversionParams) : Strategy Unit where
  warmupBars := params.rsiPeriod + 2
  requiredIndicators := [("rsi", .rsi params.rsiPeriod)]
  distinct := by simp
  onCandle context memory := do
    let rsi ← context.indicators.lastTwo "rsi"
    match rsi with
    | some (prevRsi, rsi) => do
        let close ← context.close
        let values := [("rsi", .number rsi)]
        if params.oversold ≤ prevRsi ∧ rsi < params.oversold ∧ context.position.qty = 0 then
          pure (some ⟨.long, close, values⟩, memory)
        else if crossesAbove prevRsi rsi params.exitLevel params.exitLevel ∧
            0 < context.position.qty then
          pure (some ⟨.exit, close, values⟩, memory)
        else pure (none, memory)
    | none => pure (none, memory)

/-! ## EMA crossover with a stop -/

/-- `EMAAtrStopParams`; the constructor of the strategy compares the periods. -/
structure EMAAtrStopParams where
  fastPeriod : ℤ := 12
  slowPeriod : ℤ := 26
  atrPeriod : ℤ := 14
  atrMultiplier : ℚ := 5 / 2
  one_le_fastPeriod : 1 ≤ fastPeriod := by norm_num
  two_le_slowPeriod : 2 ≤ slowPeriod := by norm_num
  one_le_atrPeriod : 1 ≤ atrPeriod := by norm_num
  atrMultiplier_pos : 0 < atrMultiplier := by norm_num
  fast_lt_slow : fastPeriod < slowPeriod := by norm_num

/-- The shortest averages, and the true range itself. -/
def EMAAtrStopParams.shortest : EMAAtrStopParams where
  fastPeriod := 1
  slowPeriod := 2
  atrPeriod := 1

/-- What `ema_atr_stop` reads at a bar. -/
structure EMAAtrReading where
  prevFast : ℚ
  fast : ℚ
  prevSlow : ℚ
  slow : ℚ
  atr : ℚ
  close : ℚ
deriving DecidableEq, Repr

/-- The readings of `ema_atr_stop`, none while an indicator is not available. -/
def EMAAtrReading.ofContext (context : StrategyContext) : Except PyError (Option EMAAtrReading) := do
  let fast ← context.indicators.lastTwo "fast"
  let slow ← context.indicators.lastTwo "slow"
  let atr ← context.indicators.value "atr"
  match fast, slow, atr with
  | some (prevFast, fast), some (prevSlow, slow), some atr => do
      let close ← context.close
      pure (some ⟨prevFast, fast, prevSlow, slow, atr, close⟩)
  | _, _, _ => pure none

/-- The fast average crosses below the slow one. -/
def EMAAtrReading.crossedDown (reading : EMAAtrReading) : Bool :=
  crossesAbove reading.prevSlow reading.slow reading.prevFast reading.fast

/-- The stop that is anchored to the entry price of a position. -/
def EMAAtrStopParams.anchor (params : EMAAtrStopParams) (position : PositionView)
    (reading : EMAAtrReading) : ℚ :=
  position.avgPrice - params.atrMultiplier * reading.atr

/-- The decision of `ema_atr_stop` in a position, by the stop level. -/
def EMAAtrReading.exitSignal (reading : EMAAtrReading) (stop : ℚ) : Option Signal :=
  if reading.close ≤ stop ∨ reading.crossedDown then
    some ⟨.exit, reading.close, [("fast", .number reading.fast), ("slow", .number reading.slow),
      ("reason", .text (if reading.close ≤ stop then "stop" else "cross_down"))]⟩
  else none

/-- The decision of `ema_atr_stop` without a position. -/
def EMAAtrReading.entrySignal (reading : EMAAtrReading) : Option Signal :=
  if crossesAbove reading.prevFast reading.fast reading.prevSlow reading.slow then
    some ⟨.long, reading.close, [("fast", .number reading.fast), ("slow", .number reading.slow),
      ("atr", .number reading.atr)]⟩
  else none

/-- The part of `EMAAtrStopStrategy.on_candle` after the readings. -/
def EMAAtrStopParams.decide (params : EMAAtrStopParams) (position : PositionView)
    (reading : EMAAtrReading) (stop : Option ℚ) : Option Signal × Option ℚ :=
  if position.qty = 0 then (reading.entrySignal, none)
  else
    let stop := stop.getD (params.anchor position reading)
    match reading.exitSignal stop with
    | some signal => (some signal, none)
    | none => (none, some stop)

/-- Two stop levels lead to the same decision if and only if the close is on the same side of
both: otherwise one exit is by the stop, and the other one is not or has another reason. -/
theorem EMAAtrReading.exitSignal_eq_iff {reading : EMAAtrReading} {stop stop' : ℚ} :
    reading.exitSignal stop = reading.exitSignal stop' ↔
      (reading.close ≤ stop ↔ reading.close ≤ stop') := by
  rw [exitSignal, exitSignal]
  by_cases hit : reading.close ≤ stop <;> by_cases hit' : reading.close ≤ stop'
  · simp [hit, hit']
  · by_cases down : reading.crossedDown <;> simp [hit, hit', down]
  · by_cases down : reading.crossedDown <;> simp [hit, hit', down]
  · simp [hit, hit']

theorem EMAAtrStopParams.decide_of_flat {params : EMAAtrStopParams} {position : PositionView}
    {reading : EMAAtrReading} {stop : Option ℚ} (flat : position.qty = 0) :
    params.decide position reading stop = (reading.entrySignal, none) := if_pos flat

/-- In a position the decision follows the stop that is remembered, or else a new one. -/
theorem EMAAtrStopParams.decide_of_held {params : EMAAtrStopParams} {position : PositionView}
    {reading : EMAAtrReading} {stop : Option ℚ} (held : position.qty ≠ 0) :
    params.decide position reading stop =
      (reading.exitSignal (stop.getD (params.anchor position reading)),
        if reading.exitSignal (stop.getD (params.anchor position reading)) = none then
          some (stop.getD (params.anchor position reading))
        else none) := by
  rw [decide, if_neg held]
  simp only
  cases reading.exitSignal (stop.getD (params.anchor position reading)) <;> rfl

/-- `EMAAtrStopStrategy`; its memory is `_stop`. -/
def emaAtrStop (params : EMAAtrStopParams) : Strategy (Option ℚ) where
  warmupBars := max params.slowPeriod params.atrPeriod + 1
  requiredIndicators := [("fast", .ema params.fastPeriod), ("slow", .ema params.slowPeriod),
    ("atr", .atr params.atrPeriod)]
  distinct := by simp
  onCandle context stop := do
    let reading ← EMAAtrReading.ofContext context
    match reading with
    | none => pure (none, stop)
    | some reading => pure (params.decide context.position reading stop)

theorem emaAtrStop_of_none {params : EMAAtrStopParams} {context : StrategyContext}
    (unread : EMAAtrReading.ofContext context = .ok none) (stop : Option ℚ) :
    (emaAtrStop params).onCandle context stop = .ok (none, stop) := by
  simp only [emaAtrStop, unread]
  rfl

theorem emaAtrStop_of_reading {params : EMAAtrStopParams} {context : StrategyContext}
    {reading : EMAAtrReading} (read : EMAAtrReading.ofContext context = .ok (some reading))
    (stop : Option ℚ) : (emaAtrStop params).onCandle context stop =
      .ok (params.decide context.position reading stop) := by
  simp only [emaAtrStop, read]
  rfl

/-- A decision with a remembered stop is the one of a new instance if and only if the close is
on the same side of this stop as of the one that would be anchored at the bar. -/
theorem EMAAtrStopParams.decide_fst_eq_iff {params : EMAAtrStopParams} {position : PositionView}
    {reading : EMAAtrReading} {stop : Option ℚ} :
    (params.decide position reading none).1 = (params.decide position reading stop).1 ↔
      (position.qty ≠ 0 → ∀ level ∈ stop,
        (reading.close ≤ level ↔ reading.close ≤ params.anchor position reading)) := by
  by_cases flat : position.qty = 0
  · simp only [decide_of_flat flat, ne_eq, flat, not_true_eq_false, false_implies]
  · simp only [decide_of_held flat, Option.getD_none, EMAAtrReading.exitSignal_eq_iff, ne_eq, flat,
      not_false_eq_true, true_implies]
    cases stop with
    | none => simp
    | some level => simp [iff_comm]

/-! ## The registry -/

/-- A strategy of `_STRATEGIES` with its parameters. -/
inductive RegisteredStrategy where
  | smaCrossover (params : SMACrossoverParams)
  | emaAtrStop (params : EMAAtrStopParams)
  | rsiMeanReversion (params : RSIMeanReversionParams)

namespace RegisteredStrategy

/-- What an instance of the class remembers. -/
abbrev Memory : RegisteredStrategy → Type
  | .smaCrossover _ => Unit
  | .emaAtrStop _ => Option ℚ
  | .rsiMeanReversion _ => Unit

/-- The instance that `construct_strategy` makes. -/
def strategy : (registered : RegisteredStrategy) → Strategy registered.Memory
  | .smaCrossover params => PersonalTrade.smaCrossover params
  | .emaAtrStop params => PersonalTrade.emaAtrStop params
  | .rsiMeanReversion params => PersonalTrade.rsiMeanReversion params

/-- The memory of a new instance, and of one made by `clone`. -/
def fresh : (registered : RegisteredStrategy) → registered.Memory
  | .smaCrossover _ => ()
  | .emaAtrStop _ => none
  | .rsiMeanReversion _ => ()

end RegisteredStrategy

end PersonalTrade
