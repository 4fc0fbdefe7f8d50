import PersonalTrade.Backtest.Registry
import PersonalTrade.Strategy.Units

/-!
# The unit of money of a backtest

The engine, its cost model and the registered strategies know no amount of money of their own. With
prices, capital and the cap of the brokerage in another unit a backtest makes the same trades at
the same bars, and what it reports is the old result in the new unit (`backtest_inUnit`).
-/

namespace PersonalTrade

variable {rate : ℚ}

/-! ## Amounts in another unit -/

def TradeCosts.inUnit (rate : ℚ) (costs : TradeCosts) : TradeCosts where
  brokerage := rate * costs.brokerage
  stt := rate * costs.stt
  stampDuty := rate * costs.stampDuty
  exchangeCharges := rate * costs.exchangeCharges
  sebiCharges := rate * costs.sebiCharges
  gst := rate * costs.gst
  total := rate * costs.total
  netAmount := rate * costs.netAmount

def CostConfig.inUnit (positive : 0 < rate) (rates : CostConfig) : CostConfig :=
  { rates with
    brokerageMax := rate * rates.brokerageMax
    brokerageMax_nonneg := mul_nonneg positive.le rates.brokerageMax_nonneg }

def BacktestParams.inUnit (positive : 0 < rate) (params : BacktestParams) : BacktestParams :=
  { params with
    initialCapital := rate * params.initialCapital
    costRates := params.costRates.inUnit positive }

def Portfolio.inUnit (rate : ℚ) (portfolio : Portfolio) : Portfolio :=
  { portfolio with cash := rate * portfolio.cash, avgPrice := rate * portfolio.avgPrice }

def Leg.inUnit (rate : ℚ) (leg : Leg) : Leg :=
  { leg with
    price := rate * leg.price
    costs := leg.costs.inUnit rate
    realizedPnl := leg.realizedPnl.map (rate * ·) }

def ExecutedTrade.inUnit (rate : ℚ) (trade : ExecutedTrade) : ExecutedTrade :=
  { trade with
    price := rate * trade.price
    costs := trade.costs.inUnit rate
    realizedPnl := trade.realizedPnl.map (rate * ·) }

def EquityPoint.inUnit (rate : ℚ) (point : EquityPoint) : EquityPoint :=
  { point with
    cash := rate * point.cash
    positionValue := rate * point.positionValue
    equity := rate * point.equity }

def BacktestResult.inUnit (rate : ℚ) (result : BacktestResult) : BacktestResult :=
  { result with
    trades := result.trades.map (ExecutedTrade.inUnit rate)
    equityCurve := result.equityCurve.map (EquityPoint.inUnit rate)
    finalPosition := result.finalPosition.inUnit rate }

/-! ## Costs -/

theorem costStack_inUnit (positive : 0 < rate) (side : Side) (price : ℚ) (qty : ℕ)
    (segment : Segment) (rates : CostConfig) :
    costStack side (rate * price) qty segment (rates.inUnit positive) =
      (costStack side price qty segment rates).inUnit rate := by
  have capped : min (rate * price * qty * rates.brokeragePct) (rate * rates.brokerageMax) =
      rate * min (price * qty * rates.brokeragePct) rates.brokerageMax := by
    rw [mul_min_of_nonneg _ _ positive.le]
    ring_nf
  cases segment <;> cases side <;>
    simp only [costStack, CostConfig.inUnit, TradeCosts.inUnit, capped, if_true, if_false,
      reduceCtorEq, TradeCosts.mk.injEq, true_and] <;> refine ⟨?_, ?_, ?_, ?_, ?_, ?_, ?_⟩ <;> ring

theorem applySlippage_inUnit (rate price : ℚ) (side : Side) (slippageBps : ℚ) :
    applySlippage (rate * price) side slippageBps = rate * applySlippage price side slippageBps := by
  cases side <;> simp [applySlippage, mul_assoc]

theorem calculateCosts_inUnit (positive : 0 < rate) (side : Side) (price : ℚ) (qty : ℕ)
    (segment : Segment) (rates : CostConfig) :
    Alike (fun costs costs' => costs' = costs.inUnit rate)
      (calculateCosts side price qty segment rates)
      (calculateCosts side (rate * price) qty segment (rates.inUnit positive)) := by
  rw [calculateCosts, calculateCosts]
  apply Alike.ite
  · exact smul_nonpos_iff_nonpos_of_pos_left positive
  · exact fun _ => .raises _ _
  · intro _
    apply Alike.ite Iff.rfl
    · exact fun _ => .raises _ _
    · exact fun _ => .yields (costStack_inUnit positive side price qty segment rates)

theorem clampToCash_succ (fillPrice : ℚ) (segment : Segment) (rates : CostConfig) (cash : ℚ)
    (qty : ℕ) : clampToCash fillPrice segment rates cash (qty + 1) = (do
      let costs ← calculateCosts .buy fillPrice (qty + 1) segment rates
      if costs.netAmount ≤ cash then pure (qty + 1)
      else clampToCash fillPrice segment rates cash qty) := by
  rw [clampToCash]
  cases calculateCosts .buy fillPrice (qty + 1) segment rates <;> rfl

theorem clampToCash_inUnit (positive : 0 < rate) (fillPrice : ℚ) (segment : Segment)
    (rates : CostConfig) (cash : ℚ) (qty : ℕ) :
    Alike (fun clamped clamped' => clamped' = clamped)
      (clampToCash fillPrice segment rates cash qty)
      (clampToCash (rate * fillPrice) segment (rates.inUnit positive) (rate * cash) qty) := by
  induction qty with
  | zero => exact .yields rfl
  | succ qty ih =>
      rw [clampToCash_succ, clampToCash_succ]
      apply (calculateCosts_inUnit positive .buy fillPrice (qty + 1) segment rates).bind
      rintro costs _ rfl
      apply Alike.ite
      · exact mul_le_mul_iff_of_pos_left positive
      · exact fun _ => .yields rfl
      · exact fun _ => ih

/-! ## Fills -/

theorem equity_inUnit (rate price : ℚ) (portfolio : Portfolio) :
    (portfolio.inUnit rate).equity (rate * price) = rate * portfolio.equity price := by
  rw [Portfolio.equity, Portfolio.equity, Portfolio.inUnit]
  ring

theorem asView_inUnit (rate : ℚ) (portfolio : Portfolio) :
    (portfolio.inUnit rate).asView = portfolio.asView.inUnit rate := by
  have qty : (portfolio.inUnit rate).qty = portfolio.qty := rfl
  rw [Portfolio.asView, Portfolio.asView, qty]
  split_ifs with flat
  · simp [flatPosition, PositionView.inUnit]
  · rfl

theorem openOrAdd_inUnit (rate : ℚ) (portfolio : Portfolio) (side : Side) (qty : ℕ)
    (netAmount : ℚ) : (portfolio.inUnit rate).openOrAdd side qty (rate * netAmount) =
      (portfolio.openOrAdd side qty netAmount).inUnit rate := by
  by_cases flat : portfolio.qty = 0 <;> cases side <;>
    simp only [Portfolio.openOrAdd, Portfolio.inUnit, flat, if_true, if_false, reduceCtorEq,
      Portfolio.mk.injEq, true_and] <;> constructor <;> ring

theorem close_inUnit (rate : ℚ) (portfolio : Portfolio) (side : Side) (netAmount : ℚ) :
    (portfolio.inUnit rate).close side (rate * netAmount) =
      (portfolio.close side netAmount).inUnit rate := by
  cases side <;> simp only [Portfolio.close, Portfolio.inUnit, if_true, if_false, reduceCtorEq,
    Portfolio.mk.injEq, mul_zero, and_true] <;> ring

theorem realized_inUnit (rate : ℚ) (portfolio : Portfolio) (side : Side) (qty : ℕ)
    (netAmount : ℚ) : (portfolio.inUnit rate).realized side qty (rate * netAmount) =
      rate * portfolio.realized side qty netAmount := by
  simp only [Portfolio.realized, Portfolio.inUnit]
  split_ifs <;> ring

/-- A sizer that does not depend on the unit of money. -/
def BacktestParams.SizesAlike (params : BacktestParams) (rate : ℚ) : Prop :=
  ∀ equity price, params.sizer (rate * equity) (rate * price) = params.sizer equity price

theorem size_inUnit (positive : 0 < rate) (sizer : FixedFractionalSizer) (equity price : ℚ) :
    sizer.size (rate * equity) (rate * price) = sizer.size equity price := by
  have sign (value : ℚ) : rate * value ≤ 0 ↔ value ≤ 0 :=
    smul_nonpos_iff_nonpos_of_pos_left positive
  simp only [FixedFractionalSizer.size, sign, mul_assoc, mul_div_mul_left _ _ positive.ne']

section Fill

variable {params : BacktestParams}

theorem fill_inUnit (positive : 0 < rate) (side : Side) (closing : Bool) (requested : ℕ)
    (rawPrice : ℚ) (portfolio : Portfolio) :
    Alike (fun filled filled' => filled' = (filled.1.inUnit rate, filled.2.map (Leg.inUnit rate)))
      (portfolio.fill params side closing requested rawPrice)
      ((portfolio.inUnit rate).fill (params.inUnit positive) side closing requested
        (rate * rawPrice)) := by
  rw [Portfolio.fill, Portfolio.fill]
  apply Alike.ite Iff.rfl
  · exact fun _ => .yields rfl
  · intro _
    have slipped : applySlippage (rate * rawPrice) side (params.inUnit positive).slippageBps =
        rate * applySlippage rawPrice side params.slippageBps := applySlippage_inUnit ..
    have fillable : Alike (fun qty qty' => qty' = qty)
        (fillableQty params side (applySlippage rawPrice side params.slippageBps) portfolio.cash
          requested)
        (fillableQty (params.inUnit positive) side
          (rate * applySlippage rawPrice side params.slippageBps) (rate * portfolio.cash)
          requested) := by
      cases side with
      | buy => exact clampToCash_inUnit positive ..
      | sell => exact .yields rfl
    simp only [slipped]
    apply fillable.bind
    rintro qty _ rfl
    apply Alike.ite Iff.rfl
    · exact fun _ => .yields rfl
    · intro _
      apply (calculateCosts_inUnit positive ..).bind
      rintro costs _ rfl
      cases closing with
      | true =>
          refine .yields (Prod.ext (close_inUnit ..) ?_)
          simp [Leg.inUnit, realized_inUnit, TradeCosts.inUnit]
      | false => exact .yields (Prod.ext (openOrAdd_inUnit ..) rfl)

theorem executeSignal_inUnit (positive : 0 < rate) (sizes : params.SizesAlike rate)
    {signal signal' : Signal} (same : signal'.direction = signal.direction)
    (signalIndex fillIndex : ℕ) (fillTs : ℤ) (rawOpenPrice : ℚ) (portfolio : Portfolio) :
    Alike (fun executed executed' =>
        executed' = (executed.1.inUnit rate, executed.2.map (ExecutedTrade.inUnit rate)))
      (executeSignal params signal signalIndex fillIndex fillTs rawOpenPrice portfolio)
      (executeSignal (params.inUnit positive) signal' signalIndex fillIndex fillTs
        (rate * rawOpenPrice) (portfolio.inUnit rate)) := by
  have qty : (portfolio.inUnit rate).qty = portfolio.qty := rfl
  have requested (closing : Bool) : requestedQty (params.inUnit positive) closing
      (rate * rawOpenPrice) (portfolio.inUnit rate) =
        requestedQty params closing rawOpenPrice portfolio := by
    simp only [requestedQty, qty, equity_inUnit]
    split_ifs
    · rfl
    · exact sizes _ _
  rw [executeSignal, executeSignal, same, qty]
  cases resolveAction portfolio.qty signal.direction with
  | none => exact .yields rfl
  | some action =>
      simp only [requested]
      apply (fill_inUnit positive ..).bind
      rintro ⟨filled, leg⟩ _ rfl
      refine .yields (Prod.ext rfl ?_)
      cases leg <;> rfl

end Fill

/-! ## Runs -/

theorem IndicatorSpec.Plain.column_inUnit {spec : IndicatorSpec} (plain : spec.Plain)
    (positive : 0 < rate) (candles : List CandleRow) :
    spec.column (candles.map (CandleRow.inUnit rate)) =
      (spec.column candles).map (Option.map (spec.factor rate * ·)) := by
  cases spec with
  | sma period =>
      rw [column, closes_inUnit, rolling_mean_mul]
      rfl
  | ema period =>
      rw [column, closes_inUnit, emaSeries_mul]
      rfl
  | rsi period =>
      rw [column, closes_inUnit, rsiSeries_mul positive]
      simp [column, factor]
  | atr period => exact atrSeries_inUnit positive.le period.toNat candles
  | _ => exact plain.elim

section Run

variable {σ : Type} {remembers : σ → σ → Prop}

/-- The variables of the loop in the other unit. -/
structure Replay.InUnit (rate : ℚ) (remembers : σ → σ → Prop) (state state' : Replay σ) : Prop where
  portfolio : state'.portfolio = state.portfolio.inUnit rate
  trades : state'.trades = state.trades.map (ExecutedTrade.inUnit rate)
  equityCurve : state'.equityCurve = state.equityCurve.map (EquityPoint.inUnit rate)
  unfilled : state'.unfilled = state.unfilled
  pending : state'.pending.map (Prod.map Signal.direction id) =
    state.pending.map (Prod.map Signal.direction id)
  memory : remembers state.memory state'.memory

/-- A run in the other unit. -/
structure BacktestRun.InUnit (positive : 0 < rate) (run run' : BacktestRun σ) : Prop where
  strategy : run'.strategy = run.strategy
  params : run'.params = run.params.inUnit positive
  candles : run'.candles = run.candles.map (CandleRow.inUnit rate)
  columns : run.ReadsColumns
  columns' : run'.ReadsColumns

variable {positive : 0 < rate} {run run' : BacktestRun σ} {state state' : Replay σ}
  {bar : CandleRow × ℕ}

theorem Replay.InUnit.executePending (inUnit : state.InUnit rate remembers state')
    {params : BacktestParams} (positive : 0 < rate) (sizes : params.SizesAlike rate) :
    Alike (Replay.InUnit rate remembers) (state.executePending params bar)
      (state'.executePending (params.inUnit positive) (bar.1.inUnit rate, bar.2)) := by
  have pending := inUnit.pending
  rw [Replay.executePending, Replay.executePending]
  cases own : state.pending with
  | none =>
      have other : state'.pending = none := by simpa [own] using pending
      rw [other]
      exact .yields inUnit
  | some waiting =>
      rcases waiting with ⟨signal, signalIndex⟩
      rw [own, Option.map_some, Option.map_eq_some_iff] at pending
      rcases pending with ⟨⟨signal', signalIndex'⟩, other, same⟩
      cases congrArg Prod.snd same
      rw [other, inUnit.portfolio]
      apply (executeSignal_inUnit positive sizes (congrArg Prod.fst same) ..).bind
      rintro executed _ rfl
      refine .yields ⟨rfl, ?_, inUnit.equityCurve, inUnit.unfilled, rfl, inUnit.memory⟩
      rw [inUnit.trades, List.map_append]
      cases executed.2 <;> rfl

theorem Replay.InUnit.mark (inUnit : state.InUnit rate remembers state') :
    (state.mark bar).InUnit rate remembers (state'.mark (bar.1.inUnit rate, bar.2)) := by
  refine ⟨inUnit.portfolio, inUnit.trades, ?_, inUnit.unfilled, inUnit.pending, inUnit.memory⟩
  simp only [Replay.mark, inUnit.equityCurve, inUnit.portfolio, List.map_append, List.map_singleton]
  congr 2
  simp only [EquityPoint.inUnit, CandleRow.inUnit, EquityPoint.mk.injEq, true_and]
  refine ⟨rfl, rfl, ?_, equity_inUnit ..⟩
  exact mul_left_comm _ _ _

namespace BacktestRun.InUnit

theorem context (inUnit : run.InUnit positive run') (portfolio : Portfolio) :
    (run.context bar portfolio).InUnit rate run.strategy.requiredIndicators
      (run'.context (bar.1.inUnit rate, bar.2) (portfolio.inUnit rate)) := by
  have column : ∀ item ∈ run.strategy.requiredIndicators,
      run.series.lookup item.1 = some (item.2.column run.candles) ∧
      run'.series.lookup item.1 =
        some ((item.2.column run.candles).map (Option.map (item.2.factor rate * ·))) := by
    intro item mem
    refine ⟨inUnit.columns.found item mem, ?_⟩
    rw [← (inUnit.columns.plain item mem).column_inUnit positive, ← inUnit.candles]
    exact inUnit.columns'.found item (inUnit.strategy ▸ mem)
  constructor
  · simp only [BacktestRun.context, inUnit.candles, List.map_take]
  · intro item mem
    rcases column item mem with ⟨found, found'⟩
    simp only [BacktestRun.context, batchIndicatorView, found, found', List.getElem?_map]
    cases (item.2.column run.candles)[bar.2]? <;> rfl
  · intro item mem n
    rcases column item mem with ⟨found, found'⟩
    simp only [BacktestRun.context, batchIndicatorView, found, found', ← List.map_take,
      ← List.map_drop, List.reduceOption_map]
    rfl
  · exact asView_inUnit rate portfolio

theorem consult (inUnit : run.InUnit positive run')
    (unitFree : run.strategy.UnitFree rate remembers) (within : bar.2 < run.candles.length)
    (states : state.InUnit rate remembers state') :
    Alike (Replay.InUnit rate remembers) (run.consult bar state)
      (run'.consult (bar.1.inUnit rate, bar.2) state') := by
  have length : run'.candles.length = run.candles.length := by
    rw [inUnit.candles, List.length_map]
  have warmed : (bar.2 : ℤ) < run'.effectiveStart ↔ (bar.2 : ℤ) < run.effectiveStart := by
    rw [← not_le, ← not_le, inUnit.columns'.start _ (length.symm ▸ within),
      inUnit.columns.start _ within, inUnit.strategy]
  rw [BacktestRun.consult, BacktestRun.consult]
  apply Alike.ite warmed
  · exact fun _ => .yields states
  · intro _
    rw [states.portfolio, inUnit.strategy, length]
    apply (unitFree _ _ (inUnit.context state.portfolio) _ _ states.memory).bind
    rintro ⟨signal, memory⟩ ⟨signal', memory'⟩ ⟨same, remembered⟩
    cases signal with
    | none =>
        have none' : signal' = none := by simpa using same
        subst none'
        exact .yields ⟨rfl, states.trades, states.equityCurve, states.unfilled,
          states.pending, remembered⟩
    | some signal =>
        rcases Option.map_eq_some_iff.mp same with ⟨signal', rfl, direction⟩
        apply Alike.ite Iff.rfl
        · intro _
          refine .yields ⟨rfl, states.trades, states.equityCurve, ?_, states.pending,
            remembered⟩
          simp only [states.unfilled, direction]
          rfl
        · intro _
          refine .yields ⟨rfl, states.trades, states.equityCurve, states.unfilled, ?_,
            remembered⟩
          simp [direction]

/-- One turn of the loop. -/
theorem turn (inUnit : run.InUnit positive run') (sizes : run.params.SizesAlike rate)
    (unitFree : run.strategy.UnitFree rate remembers) (within : bar.2 < run.candles.length)
    (states : state.InUnit rate remembers state') :
    Alike (Replay.InUnit rate remembers) (run.bar state bar)
      (run'.bar state' (bar.1.inUnit rate, bar.2)) := by
  rw [BacktestRun.bar, BacktestRun.bar, inUnit.params]
  apply (states.executePending positive sizes).bind
  intro executed executed' held
  exact inUnit.consult unitFree within held.mark

theorem replay (inUnit : run.InUnit positive run') (sizes : run.params.SizesAlike rate)
    (unitFree : run.strategy.UnitFree rate remembers) (states : state.InUnit rate remembers state') :
    Alike (Replay.InUnit rate remembers) (run.replay state run.candles.zipIdx)
      (run'.replay state' run'.candles.zipIdx) := by
  have bars : run'.candles.zipIdx = run.candles.zipIdx.map (Prod.map (CandleRow.inUnit rate) id) := by
    rw [inUnit.candles, List.zipIdx_map]
  rw [BacktestRun.replay, BacktestRun.replay, bars]
  apply Alike.foldlM _ states
  intro item mem state state' held
  exact inUnit.turn sizes unitFree (List.snd_lt_of_mem_zipIdx mem) held

end BacktestRun.InUnit

end Run

section Registered

variable {sqrt : ℚ → ℚ} {registered : RegisteredStrategy} {params : BacktestParams}

theorem start_inUnit (positive : 0 < rate) (candles : List CandleRow) :
    Alike (BacktestRun.InUnit positive)
      (BacktestRun.start sqrt registered.strategy candles params)
      (BacktestRun.start sqrt registered.strategy (candles.map (CandleRow.inUnit rate))
        (params.inUnit positive)) := by
  have starts : Alike (fun _ _ => True)
      (BacktestRun.start sqrt registered.strategy candles params)
      (BacktestRun.start sqrt registered.strategy (candles.map (CandleRow.inUnit rate))
        (params.inUnit positive)) := by
    rw [BacktestRun.start, BacktestRun.start]
    apply Alike.ite List.map_eq_nil_iff
    · exact fun _ => .raises _ _
    · intro _
      apply Alike.ite
      · exact smul_nonpos_iff_nonpos_of_pos_left positive
      · exact fun _ => .raises _ _
      · intro _
        apply @Alike.bind _ _ _ _ _ fun _ _ => True
        · rcases computeIndicatorSet_cases sqrt registered.strategy.requiredIndicators with
            always | ⟨columns, _, always⟩
          · rcases always candles ∅ with ⟨raised, fails⟩
            rcases always (candles.map (CandleRow.inUnit rate)) ∅ with ⟨raised', fails'⟩
            rw [fails, fails']
            exact .raises _ _
          · rw [always, always]
            exact .yields trivial
        · exact fun _ _ _ => .yields trivial
  apply starts.attach.mono
  rintro run run' ⟨_, started, started'⟩
  have columns := BacktestRun.readsColumns started
  have columns' := BacktestRun.readsColumns started'
  rcases BacktestRun.start_eq_ok started with ⟨_, _, series, _, rfl⟩
  rcases BacktestRun.start_eq_ok started' with ⟨_, _, series', _, rfl⟩
  exact ⟨rfl, rfl, rfl, columns, columns'⟩

theorem initial_inUnit {positive : 0 < rate} {run run' : BacktestRun registered.Memory}
    (inUnit : run.InUnit positive run') : (run.initial registered.fresh).InUnit rate
      (registered.Remembers rate) (run'.initial registered.fresh) := by
  refine ⟨?_, rfl, rfl, rfl, rfl, registered.remembers_fresh rate⟩
  rw [BacktestRun.initial, BacktestRun.initial, inUnit.params]
  simp [Portfolio.inUnit, BacktestParams.inUnit]

theorem runBacktest_inUnit (positive : 0 < rate) (sizes : params.SizesAlike rate)
    (candles : List CandleRow) :
    Alike (fun ran ran' => ran'.1 = ran.1.inUnit rate)
      (runBacktest sqrt registered.strategy registered.fresh candles params)
      (runBacktest sqrt registered.strategy registered.fresh
        (candles.map (CandleRow.inUnit rate)) (params.inUnit positive)) := by
  rw [runBacktest, runBacktest]
  apply (start_inUnit positive candles).attach.bind
  rintro run run' ⟨inUnit, started, started'⟩
  rcases BacktestRun.start_eq_ok started with ⟨_, _, series, _, rfl⟩
  rcases BacktestRun.start_inputs started' with ⟨_, frame⟩
  rw [← frame]
  apply (inUnit.replay sizes (registered.unitFree positive) (initial_inUnit inUnit)).bind
  intro final final' held
  apply Alike.pure
  simp only [BacktestResult.inUnit, held.trades, held.equityCurve, held.unfilled, held.portfolio,
    asView_inUnit]

end Registered

/-! ## Metrics -/

def BacktestMetrics.inUnit (rate : ℚ) (metrics : BacktestMetrics) : BacktestMetrics :=
  { metrics with expectancy := rate * metrics.expectancy }

namespace EquitySeries

def inUnit (rate : ℚ) (series : EquitySeries) : EquitySeries :=
  series.map fun point => (point.1, rate * point.2)

theorem values_inUnit (rate : ℚ) (series : EquitySeries) :
    (series.inUnit rate).values = series.values.map (rate * ·) := by
  simp [inUnit, values]

theorem periodReturns_inUnit (positive : 0 < rate) (series : EquitySeries) :
    (series.inUnit rate).periodReturns = series.periodReturns := by
  rw [periodReturns, values_inUnit, ← List.map_tail, List.zip_map, List.map_map, periodReturns]
  apply List.map_congr_left
  rintro ⟨before, after⟩ _
  simp only [Function.comp_apply, Prod.map_apply, mul_eq_zero, positive.ne', false_or,
    mul_div_mul_left _ _ positive.ne']

theorem sharpeRatio_inUnit (positive : 0 < rate) (sqrt : ℚ → ℚ) (series : EquitySeries) :
    (series.inUnit rate).sharpeRatio sqrt = series.sharpeRatio sqrt := by
  rw [sharpeRatio, periodReturns_inUnit positive, sharpeRatio]

theorem cagr_inUnit (positive : 0 < rate) (power : ℚ → ℚ → ℚ) (series : EquitySeries) :
    (series.inUnit rate).cagr power = series.cagr power := by
  have broke (value : ℚ) : rate * value ≤ 0 ↔ value ≤ 0 :=
    smul_nonpos_iff_nonpos_of_pos_left positive
  simp only [cagr, inUnit, List.head?_map, List.getLast?_map, List.length_map]
  cases series.head? with
  | none => rfl
  | some first =>
      cases series.getLast? with
      | none => rfl
      | some last =>
          simp only [Option.map_some, broke, mul_div_mul_left _ _ positive.ne']

end EquitySeries

theorem drawdownTurn_inUnit (positive : 0 < rate) (before : ℚ × ℚ) (point : ℤ × ℚ) :
    drawdownTurn (rate * before.1, before.2) (point.1, rate * point.2) =
      (rate * (drawdownTurn before point).1, (drawdownTurn before point).2) := by
  simp only [drawdownTurn, ← mul_max_of_nonneg _ _ positive.le, ← mul_sub,
    mul_pos_iff_of_pos_left positive, mul_div_mul_left _ _ positive.ne']

theorem maxDrawdown_inUnit (positive : 0 < rate) (series : EquitySeries) :
    maxDrawdown (series.inUnit rate) = maxDrawdown series := by
  cases series with
  | nil => rfl
  | cons first rest =>
      let scaled (before : ℚ × ℚ) : ℚ × ℚ := (rate * before.1, before.2)
      have folded : (EquitySeries.inUnit rate (first :: rest)).foldl drawdownTurn
          (scaled (first.2, 0)) = scaled ((first :: rest).foldl drawdownTurn (first.2, 0)) := by
        rw [EquitySeries.inUnit, List.foldl_map]
        exact List.foldl_hom scaled fun before point => drawdownTurn_inUnit positive before point
      have worst := congrArg Prod.snd folded
      exact worst

theorem closedTradePnls_inUnit (rate : ℚ) (trades : List ExecutedTrade) :
    closedTradePnls (trades.map (ExecutedTrade.inUnit rate)) =
      (closedTradePnls trades).map (rate * ·) := by
  rw [closedTradePnls, List.filterMap_map, closedTradePnls, List.map_filterMap]
  rfl

theorem winRate_inUnit (positive : 0 < rate) (pnls : List ℚ) :
    winRate (pnls.map (rate * ·)) = winRate pnls := by
  simp only [winRate, List.map_eq_nil_iff, List.countP_map, List.length_map, Function.comp_def,
    mul_pos_iff_of_pos_left positive]

theorem expectancy_inUnit (rate : ℚ) (pnls : List ℚ) :
    expectancy (pnls.map (rate * ·)) = rate * expectancy pnls := by
  simp only [expectancy, List.map_eq_nil_iff, List.length_map, sum_map_mul, mul_ite, mul_zero,
    mul_div_assoc]

theorem profitFactor_inUnit (positive : 0 < rate) (pnls : List ℚ) :
    profitFactor (pnls.map (rate * ·)) = profitFactor pnls := by
  have losing (pnl : ℚ) : rate * pnl < 0 ↔ pnl < 0 := smul_neg_iff_of_pos_left positive
  simp only [profitFactor, List.filter_map, Function.comp_def, mul_pos_iff_of_pos_left positive,
    losing, sum_map_mul, ← mul_neg, mul_eq_zero, positive.ne', false_or,
    mul_div_mul_left _ _ positive.ne']

theorem computeMetrics_inUnit (positive : 0 < rate) (power : ℚ → ℚ → ℚ) (sqrt : ℚ → ℚ)
    (equityCurve : List EquityPoint) (trades : List ExecutedTrade) :
    computeMetrics power sqrt (equityCurve.map (EquityPoint.inUnit rate))
        (trades.map (ExecutedTrade.inUnit rate)) =
      (computeMetrics power sqrt equityCurve trades).inUnit rate := by
  have series : ((equityCurve.map (EquityPoint.inUnit rate)).map fun point =>
      (point.ts, point.equity)) =
        EquitySeries.inUnit rate (equityCurve.map fun point => (point.ts, point.equity)) := by
    simp [EquitySeries.inUnit, EquityPoint.inUnit]
  rw [computeMetrics, series, computeMetrics, computeMetricsFromSeries, computeMetricsFromSeries]
  simp only [BacktestMetrics.inUnit, EquitySeries.cagr_inUnit positive,
    EquitySeries.sharpeRatio_inUnit positive, maxDrawdown_inUnit positive, closedTradePnls_inUnit,
    winRate_inUnit positive, expectancy_inUnit, profitFactor_inUnit positive, List.length_map]

/-! ## Backtests -/

/-- Over exact rationals a backtest in another unit of money completes exactly if the old one does.
It makes the same trades at the same bars, its amounts are those of the old one in the new unit, and
of its metrics only the expectancy is an amount. -/
theorem backtest_inUnit {sqrt : ℚ → ℚ} {registered : RegisteredStrategy} {params : BacktestParams}
    {sizer : FixedFractionalSizer} (fractional : params.sizer = sizer.size)
    (positive : 0 < rate) (candles : List CandleRow) :
    (runBacktest sqrt registered.strategy registered.fresh (candles.map (CandleRow.inUnit rate))
        (params.inUnit positive)).toOption.map Prod.fst =
      (runBacktest sqrt registered.strategy registered.fresh candles params).toOption.map
        (fun ran => ran.1.inUnit rate) ∧
    ∀ power (result : BacktestResult),
      computeMetrics power sqrt (result.inUnit rate).equityCurve (result.inUnit rate).trades =
        (computeMetrics power sqrt result.equityCurve result.trades).inUnit rate := by
  have sizes : params.SizesAlike rate := by
    intro equity price
    rw [fractional]
    exact size_inUnit positive sizer equity price
  constructor
  · exact (runBacktest_inUnit positive sizes candles).toOption_eq fun _ _ same => same
  · exact fun power result => computeMetrics_inUnit positive power sqrt _ _

/-- A tenth of the equity. -/
def tenthSizer : FixedFractionalSizer where
  riskPerTradePct := 10
  riskPerTradePct_pos := by norm_num
  riskPerTradePct_le := by norm_num

/-- One round trip of the shortest averages, in paise. -/
theorem backtest_inUnit_sample :
    let params : BacktestParams :=
      { initialCapital := 1000, sizer := tenthSizer.size, costRates := default }
    ((runBacktest id (RegisteredStrategy.smaCrossover .shortest).strategy ()
      (riseAndFall.map (CandleRow.inUnit 100))
      (params.inUnit (by norm_num : (0 : ℚ) < 100))).toOption.map fun ran =>
        ran.1.trades.map fun trade => (trade.side, trade.qty, trade.index)) =
      some [(.buy, 8, 4), (.sell, 8, 6)] := by
  intro params
  have same := (@backtest_inUnit 100 id (.smaCrossover .shortest) params tenthSizer rfl
    (by norm_num) riseAndFall).1
  have trades := congrArg (Option.map fun result : BacktestResult =>
    result.trades.map fun trade => (trade.side, trade.qty, trade.index)) same
  rw [Option.map_map, Option.map_map] at trades
  refine trades.trans ?_
  decide +kernel

end PersonalTrade
