import PersonalTrade.Indicators.Units
import PersonalTrade.Strategy.Strategies

/-!
# Strategies in another unit of money

A strategy is `UnitFree` if it decides the same when everything that it reads is in another unit.
The registered strategies compare amounts with amounts and relative strengths with levels, so that
they are.
-/

namespace PersonalTrade

variable {rate : ℚ}

/-! ## Contexts -/

def PositionView.inUnit (rate : ℚ) (position : PositionView) : PositionView :=
  { position with avgPrice := rate * position.avgPrice }

/-- By how much the values of an indicator grow with the unit. -/
def IndicatorSpec.factor (rate : ℚ) : IndicatorSpec → ℚ
  | .rsi _ => 1
  | _ => rate

/-- A context in another unit, as far as a strategy with some indicators reads it. -/
structure StrategyContext.InUnit (rate : ℚ) (specs : List (String × IndicatorSpec))
    (context context' : StrategyContext) : Prop where
  candles : context'.candles = context.candles.map (CandleRow.inUnit rate)
  value : ∀ item ∈ specs, context'.indicators.value item.1 =
    (context.indicators.value item.1).map (Option.map (item.2.factor rate * ·))
  window : ∀ item ∈ specs, ∀ n, context'.indicators.window item.1 n =
    (context.indicators.window item.1 n).map (List.map (item.2.factor rate * ·))
  position : context'.position = context.position.inUnit rate

/-- A strategy whose decisions do not depend on the unit, if what it remembers is related. -/
def Strategy.UnitFree {σ : Type} (strategy : Strategy σ) (rate : ℚ) (remembers : σ → σ → Prop) :
    Prop :=
  ∀ context context', context.InUnit rate strategy.requiredIndicators context' →
    ∀ memory memory', remembers memory memory' →
      Alike (fun decision decision' : Option Signal × σ =>
          decision'.1.map Signal.direction = decision.1.map Signal.direction ∧
            remembers decision.2 decision'.2)
        (strategy.onCandle context memory) (strategy.onCandle context' memory')

namespace StrategyContext.InUnit

variable {specs : List (String × IndicatorSpec)} {context context' : StrategyContext}

theorem value_alike (inUnit : context.InUnit rate specs context') {name : String}
    {spec : IndicatorSpec} (mem : (name, spec) ∈ specs) :
    Alike (fun value value' => value' = value.map (spec.factor rate * ·))
      (context.indicators.value name) (context'.indicators.value name) := by
  rw [inUnit.value _ mem]
  cases context.indicators.value name with
  | error raised => exact .raises _ _
  | ok value => exact .yields rfl

theorem lastTwo_alike (inUnit : context.InUnit rate specs context') {name : String}
    {spec : IndicatorSpec} (mem : (name, spec) ∈ specs) :
    Alike (fun pair pair' => pair' = pair.map
        (Prod.map (spec.factor rate * ·) (spec.factor rate * ·)))
      (context.indicators.lastTwo name) (context'.indicators.lastTwo name) := by
  rw [IndicatorView.lastTwo, IndicatorView.lastTwo]
  apply (inUnit.value_alike mem).bind
  rintro value _ rfl
  rw [inUnit.window _ mem 2]
  cases context.indicators.window name 2 with
  | error raised => exact .raises _ _
  | ok window =>
      have previous : (window.map (spec.factor rate * ·)).dropLast.getLast? =
          window.dropLast.getLast?.map (spec.factor rate * ·) := by
        rw [← List.map_dropLast, List.getLast?_map]
      simp only [Except.map, bind, Except.bind, previous]
      cases value with
      | none => exact .yields rfl
      | some value => cases window.dropLast.getLast? <;> exact .yields rfl

theorem close_alike (inUnit : context.InUnit rate specs context') :
    Alike (fun close close' => close' = rate * close) context.close context'.close := by
  rw [StrategyContext.close, StrategyContext.close, inUnit.candles, List.getLast?_map]
  cases context.candles.getLast? with
  | none => exact .raises _ _
  | some candle => exact .yields rfl

theorem qty_eq (inUnit : context.InUnit rate specs context') :
    context'.position.qty = context.position.qty := by
  rw [inUnit.position]
  rfl

end StrategyContext.InUnit

/-! ## The registered strategies -/

theorem crossesAbove_mul (positive : 0 < rate) (previous last before after : ℚ) :
    crossesAbove (rate * previous) (rate * last) (rate * before) (rate * after) =
      crossesAbove previous last before after := by
  simp only [crossesAbove, mul_le_mul_iff_of_pos_left positive,
    mul_lt_mul_iff_of_pos_left positive]

theorem smaCrossover_unitFree (positive : 0 < rate) (params : SMACrossoverParams) :
    (smaCrossover params).UnitFree rate fun _ _ => True := by
  intro context context' inUnit memory memory' _
  have fastMem : ("fast", .sma params.fastPeriod) ∈ (smaCrossover params).requiredIndicators := by
    simp [smaCrossover]
  have slowMem : ("slow", .sma params.slowPeriod) ∈ (smaCrossover params).requiredIndicators := by
    simp [smaCrossover]
  apply (inUnit.lastTwo_alike fastMem).bind
  rintro fast _ rfl
  apply (inUnit.lastTwo_alike slowMem).bind
  rintro slow _ rfl
  rcases fast with _ | ⟨prevFast, fast⟩
  · exact .yields ⟨rfl, trivial⟩
  rcases slow with _ | ⟨prevSlow, slow⟩
  · exact .yields ⟨rfl, trivial⟩
  apply inUnit.close_alike.bind
  rintro close _ rfl
  apply Alike.ite
  · simp only [IndicatorSpec.factor, crossesAbove_mul positive, inUnit.qty_eq]
  · exact fun _ => .yields ⟨rfl, trivial⟩
  · intro _
    apply Alike.ite
    · simp only [IndicatorSpec.factor, crossesAbove_mul positive, inUnit.qty_eq]
    · exact fun _ => .yields ⟨rfl, trivial⟩
    · exact fun _ => .yields ⟨rfl, trivial⟩

theorem rsiMeanReversion_unitFree (params : RSIMeanReversionParams) :
    (rsiMeanReversion params).UnitFree rate fun _ _ => True := by
  intro context context' inUnit memory memory' _
  have rsiMem : ("rsi", .rsi params.rsiPeriod) ∈ (rsiMeanReversion params).requiredIndicators := by
    simp [rsiMeanReversion]
  apply (inUnit.lastTwo_alike rsiMem).bind
  rintro rsi _ rfl
  rcases rsi with _ | ⟨prevRsi, rsi⟩
  · exact .yields ⟨rfl, trivial⟩
  apply inUnit.close_alike.bind
  rintro close _ rfl
  apply Alike.ite
  · simp only [IndicatorSpec.factor, one_mul, inUnit.qty_eq]
  · exact fun _ => .yields ⟨rfl, trivial⟩
  · intro _
    apply Alike.ite
    · simp only [IndicatorSpec.factor, one_mul, inUnit.qty_eq]
    · exact fun _ => .yields ⟨rfl, trivial⟩
    · exact fun _ => .yields ⟨rfl, trivial⟩

def EMAAtrReading.inUnit (rate : ℚ) (reading : EMAAtrReading) : EMAAtrReading where
  prevFast := rate * reading.prevFast
  fast := rate * reading.fast
  prevSlow := rate * reading.prevSlow
  slow := rate * reading.slow
  atr := rate * reading.atr
  close := rate * reading.close

namespace EMAAtrReading

theorem ofContext_alike {params : EMAAtrStopParams} {context context' : StrategyContext}
    (inUnit : context.InUnit rate (emaAtrStop params).requiredIndicators context') :
    Alike (fun reading reading' => reading' = reading.map (EMAAtrReading.inUnit rate))
      (ofContext context) (ofContext context') := by
  have fastMem : ("fast", .ema params.fastPeriod) ∈ (emaAtrStop params).requiredIndicators := by
    simp [emaAtrStop]
  have slowMem : ("slow", .ema params.slowPeriod) ∈ (emaAtrStop params).requiredIndicators := by
    simp [emaAtrStop]
  have atrMem : ("atr", .atr params.atrPeriod) ∈ (emaAtrStop params).requiredIndicators := by
    simp [emaAtrStop]
  apply (inUnit.lastTwo_alike fastMem).bind
  rintro fast _ rfl
  apply (inUnit.lastTwo_alike slowMem).bind
  rintro slow _ rfl
  apply (inUnit.value_alike atrMem).bind
  rintro atr _ rfl
  rcases fast with _ | ⟨prevFast, fast⟩
  · exact .yields rfl
  rcases slow with _ | ⟨prevSlow, slow⟩
  · exact .yields rfl
  cases atr with
  | none => exact .yields rfl
  | some atr =>
      apply inUnit.close_alike.bind
      rintro close _ rfl
      exact .yields rfl

theorem direction_entrySignal (positive : 0 < rate) (reading : EMAAtrReading) :
    (reading.inUnit rate).entrySignal.map Signal.direction =
      reading.entrySignal.map Signal.direction := by
  simp only [entrySignal, inUnit, crossesAbove_mul positive]
  split_ifs <;> rfl

theorem direction_exitSignal (positive : 0 < rate) (reading : EMAAtrReading) (stop : ℚ) :
    ((reading.inUnit rate).exitSignal (rate * stop)).map Signal.direction =
      (reading.exitSignal stop).map Signal.direction := by
  have down : (reading.inUnit rate).crossedDown = reading.crossedDown :=
    crossesAbove_mul positive ..
  have stopped : (reading.inUnit rate).close ≤ rate * stop ↔ reading.close ≤ stop :=
    mul_le_mul_iff_of_pos_left positive
  simp only [exitSignal, down, stopped]
  split_ifs <;> rfl

end EMAAtrReading

theorem emaAtrStop_unitFree (positive : 0 < rate) (params : EMAAtrStopParams) :
    (emaAtrStop params).UnitFree rate fun stop stop' => stop' = stop.map (rate * ·) := by
  rintro context context' inUnit stop _ rfl
  apply (EMAAtrReading.ofContext_alike inUnit).bind
  rintro reading _ rfl
  cases reading with
  | none => exact .yields ⟨rfl, rfl⟩
  | some reading =>
      apply Alike.pure
      by_cases flat : context.position.qty = 0
      · have flat' : context'.position.qty = 0 := inUnit.qty_eq.trans flat
        rw [EMAAtrStopParams.decide_of_flat flat]
        simp only [EMAAtrStopParams.decide_of_flat flat']
        exact ⟨EMAAtrReading.direction_entrySignal positive reading, rfl⟩
      · have held : context'.position.qty ≠ 0 := inUnit.qty_eq ▸ flat
        have level : (stop.map (rate * ·)).getD
            (params.anchor context'.position (reading.inUnit rate)) =
              rate * stop.getD (params.anchor context.position reading) := by
          cases stop with
          | some stop => rfl
          | none =>
              simp only [Option.map_none, Option.getD_none, EMAAtrStopParams.anchor,
                inUnit.position, PositionView.inUnit, EMAAtrReading.inUnit]
              ring
        have exits := EMAAtrReading.direction_exitSignal positive reading
          (stop.getD (params.anchor context.position reading))
        rw [EMAAtrStopParams.decide_of_held flat]
        simp only [EMAAtrStopParams.decide_of_held held, level]
        refine ⟨exits, ?_⟩
        have none_iff := congrArg Option.isNone exits
        simp only [Option.isNone_map] at none_iff
        simp only [← Option.isNone_iff_eq_none, none_iff]
        split_ifs <;> rfl

namespace RegisteredStrategy

/-- What two instances remember in the two units. -/
def Remembers (rate : ℚ) : (registered : RegisteredStrategy) →
    registered.Memory → registered.Memory → Prop
  | .smaCrossover _ => fun _ _ => True
  | .emaAtrStop _ => fun stop stop' => stop' = stop.map (rate * ·)
  | .rsiMeanReversion _ => fun _ _ => True

theorem unitFree (positive : 0 < rate) (registered : RegisteredStrategy) :
    registered.strategy.UnitFree rate (registered.Remembers rate) := by
  cases registered with
  | smaCrossover params => exact smaCrossover_unitFree positive params
  | emaAtrStop params => exact emaAtrStop_unitFree positive params
  | rsiMeanReversion params => exact rsiMeanReversion_unitFree params

theorem remembers_fresh (rate : ℚ) (registered : RegisteredStrategy) :
    registered.Remembers rate registered.fresh registered.fresh := by
  cases registered with
  | smaCrossover params => exact trivial
  | emaAtrStop params => rfl
  | rsiMeanReversion params => exact trivial

end RegisteredStrategy

end PersonalTrade
