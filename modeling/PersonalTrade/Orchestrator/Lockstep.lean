import PersonalTrade.Backtest.Recording
import PersonalTrade.Orchestrator.IndicatorAgreement
import PersonalTrade.Orchestrator.Runner
import PersonalTrade.Strategy.Strategies

/-!
# The live runner and the backtest

Both drivers present the same inputs on the bars on which they call the strategy. The
runner counts the current bar in its warm-up and the backtest does not, so the runner
calls one bar earlier unless an indicator waits at least as long as `warmup_bars()`
claims (`runner_lockstep_iff`).
-/

namespace PersonalTrade

variable {σ : Type}

/-- A row but for its open interest, which a live candle does not have. -/
def CandleRow.ohlcv (row : CandleRow) : CandleRow := { row with oi := 0 }

/-- The live candle of a row. -/
def CandleRow.received (instrumentKey : String) (interval : Interval) (row : CandleRow) :
    CandleReceived where
  instrumentKey := instrumentKey
  interval := interval
  ts := row.ts
  openPrice := row.openPrice
  high := row.high
  low := row.low
  close := row.close
  volume := row.volume

/-- Two contexts are the same but for the position. -/
structure SameInputs (left right : StrategyContext) : Prop where
  index : left.index = right.index
  ts : left.ts = right.ts
  candles : left.candles.map CandleRow.ohlcv = right.candles.map CandleRow.ohlcv
  value : ∀ name, left.indicators.value name = right.indicators.value name
  window : ∀ name n, 1 ≤ n → n ≤ 500 →
    left.indicators.window name n = right.indicators.window name n

/-- The warm-up that a strategy claims is no longer than the one of its indicators, or it does
not end within the bars. -/
def Strategy.IndicatorsOutlastWarmup (strategy : Strategy σ) (bars : ℕ) : Prop :=
  strategy.warmupBars ≤ 0 ∨ (bars : ℤ) < strategy.warmupBars ∨
    ∃ item ∈ strategy.requiredIndicators, strategy.warmupBars ≤ item.2.lag

/-! ## The runner -/

@[simp]
theorem row_received (instrumentKey : String) (interval : Interval) (row : CandleRow) :
    (row.received instrumentKey interval).row = row.ohlcv := rfl

theorem update_ohlcv (sqrt : ℚ → ℚ) (view : LiveIndicatorView) (row : CandleRow) :
    view.update sqrt row.ohlcv = view.update sqrt row := by
  have same (state : IndicatorState) : state.update sqrt row.ohlcv = state.update sqrt row := by
    cases state <;> rfl
  simp only [LiveIndicatorView.update, same]

namespace LiveStrategyRunner

/-- A runner that has been fed some rows. -/
structure Fed (sqrt : ℚ → ℚ) (strategy : Strategy σ) (states : List (String × IndicatorState))
    (columns : ColumnFunctions) (seen : List CandleRow) (runner : LiveStrategyRunner σ) :
    Prop where
  strategy : runner.strategy = strategy
  buffer : runner.buffer = seen.map CandleRow.ohlcv
  indicators : FedWith sqrt states columns seen runner.indicators
  barCount : runner.barCount = seen.length

/-- The bars on which the runner calls its strategy. -/
def Calls (strategy : Strategy σ) (index : ℕ) : Prop :=
  strategy.warmupBars ≤ index + 1 ∧ ∀ item ∈ strategy.requiredIndicators, item.2.lag ≤ index

instance (strategy : Strategy σ) (index : ℕ) : Decidable (Calls strategy index) :=
  inferInstanceAs (Decidable (_ ∧ _))

section Turn

variable {sqrt : ℚ → ℚ} {strategy : Strategy σ} {states : List (String × IndicatorState)}
  {columns : ColumnFunctions} {seen : List CandleRow} {row : CandleRow} {instrumentKey : String}
  {interval : Interval}

theorem Fed.receive {runner : LiveStrategyRunner σ}
    (streams : StreamsAll sqrt strategy.requiredIndicators states columns)
    (distinct : (columns.map Prod.fst).Nodup) (fed : Fed sqrt strategy states columns seen runner) :
    Fed sqrt strategy states columns (seen ++ [row])
      (runner.receive sqrt (row.received instrumentKey interval)) where
  strategy := fed.strategy
  buffer := by
    simp only [LiveStrategyRunner.receive, fed.buffer, row_received, List.map_append,
      List.map_singleton]
  indicators := by
    simp only [LiveStrategyRunner.receive, row_received, update_ohlcv]
    exact fed.indicators.update streams distinct row
  barCount := by
    simp only [LiveStrategyRunner.receive, fed.barCount, List.length_append, List.length_singleton]

/-- The gates of the warm-up. -/
theorem Fed.calls_iff {runner : LiveStrategyRunner σ}
    (streams : StreamsAll sqrt strategy.requiredIndicators states columns)
    (fed : Fed sqrt strategy states columns (seen ++ [row]) runner) :
    ¬ (runner.barCount : ℤ) < runner.strategy.warmupBars ∧ runner.indicators.allWarm = true ↔
      Calls strategy seen.length := by
  have length : (seen ++ [row]).length = seen.length + 1 := by simp
  rw [fed.indicators.allWarm_iff streams length, fed.barCount, fed.strategy, length, not_lt, Calls]
  push_cast
  rfl

/-- The frame of ascending rows. -/
theorem frame_of_contract {rows : LiveCandleBuffer} (contract : FrameContract rows) :
    rows.frame = rows := by
  rw [LiveCandleBuffer.frame]
  split_ifs with empty
  · exact empty.symm
  · exact contract.normalize_eq

/-- After a candle the runner presents what a backtest presents at its bar. -/
theorem Fed.sameInputs {τ : Type} {runner : LiveStrategyRunner σ} {run : BacktestRun τ}
    {rest : List CandleRow} (contract : FrameContract run.candles)
    (streams : StreamsAll sqrt strategy.requiredIndicators states columns)
    (distinct : (columns.map Prod.fst).Nodup)
    (series : run.series = setColumns ∅ (columns.on run.candles))
    (split : run.candles = seen ++ row :: rest)
    (fed : Fed sqrt strategy states columns (seen ++ [row]) runner) (portfolio : Portfolio)
    (position : PositionView) :
    SameInputs (run.context (row, seen.length) portfolio)
      (runner.context (row.received instrumentKey interval) position) := by
  have within : seen.length < run.candles.length := by
    rw [split]
    simp
  have taken : run.candles.take (seen.length + 1) = seen ++ [row] := by
    rw [split, List.take_append]
    simp
  have indicators := fed.indicators
  rw [← taken] at indicators
  constructor
  · simp only [BacktestRun.context, LiveStrategyRunner.context, fed.barCount]
    simp
  · rfl
  · have ascending : FrameContract ((seen ++ [row]).map CandleRow.ohlcv) := by
      apply List.pairwise_map.mpr
      rw [← taken]
      exact List.Pairwise.take contract
    simp only [BacktestRun.context, LiveStrategyRunner.context, taken, fed.buffer,
      frame_of_contract ascending, List.map_map]
    rfl
  · intro name
    simp only [BacktestRun.context, LiveStrategyRunner.context, series]
    exact (indicators.value_eq streams distinct within name).symm
  · intro name n positive bounded
    simp only [BacktestRun.context, LiveStrategyRunner.context, series]
    exact (indicators.window_eq streams distinct within name positive bounded).symm

end Turn

section Run

variable {sqrt : ℚ → ℚ} {strategy : Strategy σ} {states : List (String × IndicatorState)}
  {columns : ColumnFunctions} {seen : List CandleRow} {instrumentKey : String}
  {interval : Interval} {runner next final : LiveStrategyRunner (σ × List (Call σ))}
  {run : BacktestRun σ}

/-- A candle of the warm-up is only counted, and a later one makes one call. -/
theorem Fed.onCandle {row : CandleRow} {rest : List CandleRow} {position : PositionView}
    {signal : Option Signal} (contract : FrameContract run.candles)
    (streams : StreamsAll sqrt strategy.requiredIndicators states columns)
    (distinct : (columns.map Prod.fst).Nodup)
    (series : run.series = setColumns ∅ (columns.on run.candles))
    (split : run.candles = seen ++ row :: rest)
    (fed : Fed sqrt strategy.recording states columns seen runner)
    (ok : runner.onCandle sqrt (row.received instrumentKey interval) position =
      .ok (signal, next)) :
    Fed sqrt strategy.recording states columns (seen ++ [row]) next ∧
      (¬ Calls strategy seen.length ∧ next.memory = runner.memory ∨
        Calls strategy seen.length ∧ ∃ call, next.memory.2 = runner.memory.2 ++ [call] ∧
          ∀ portfolio, SameInputs (run.context (row, seen.length) portfolio) call.context) := by
  have recording : StreamsAll sqrt strategy.recording.requiredIndicators states columns := streams
  have received : Fed sqrt strategy.recording states columns (seen ++ [row])
      (runner.receive sqrt (row.received instrumentKey interval)) := fed.receive recording distinct
  have gates := received.calls_iff recording
  change _ ↔ Calls strategy seen.length at gates
  have memory : (runner.receive sqrt (row.received instrumentKey interval)).memory =
      runner.memory := rfl
  rw [← memory]
  rw [LiveStrategyRunner.onCandle] at ok
  generalize runner.receive sqrt (row.received instrumentKey interval) = waiting at *
  by_cases early : (waiting.barCount : ℤ) < waiting.strategy.warmupBars
  · rw [if_pos early] at ok
    cases ok
    exact ⟨received, .inl ⟨fun calls => (gates.mpr calls).1 early, rfl⟩⟩
  · rw [if_neg early] at ok
    by_cases cold : waiting.indicators.allWarm = false
    · rw [if_pos cold] at ok
      cases ok
      refine ⟨received, .inl ⟨fun calls => ?_, rfl⟩⟩
      rw [(gates.mpr calls).2] at cold
      cases cold
    · rw [if_neg cold] at ok
      rcases except_bind_eq_ok.mp ok with ⟨decision, decided, made⟩
      rw [received.strategy] at decided
      rcases except_bind_eq_ok.mp decided with ⟨own, _, recorded⟩
      cases recorded
      cases made
      refine ⟨⟨received.strategy, received.buffer, received.indicators, received.barCount⟩, ?_⟩
      refine .inr ⟨gates.mp ⟨early, Bool.eq_true_of_not_eq_false cold⟩, _, rfl, fun portfolio => ?_⟩
      exact received.sameInputs contract recording distinct series split portfolio position

/-- One call for each bar that the runner lets through, with the inputs of the bar. -/
theorem Fed.feed {rest : List CandleRow} {positions : List PositionView}
    (contract : FrameContract run.candles)
    (streams : StreamsAll sqrt strategy.requiredIndicators states columns)
    (distinct : (columns.map Prod.fst).Nodup)
    (series : run.series = setColumns ∅ (columns.on run.candles))
    (split : run.candles = seen ++ rest) (length : positions.length = rest.length)
    (fed : Fed sqrt strategy.recording states columns seen runner)
    (ok : runner.feed sqrt ((rest.map (CandleRow.received instrumentKey interval)).zip positions) =
      .ok final) :
    ∃ calls, final.memory.2 = runner.memory.2 ++ calls ∧
      List.Forall₂ (fun bar call => ∀ portfolio, SameInputs (run.context bar portfolio) call.context)
        ((rest.zipIdx seen.length).filter fun bar => Calls strategy bar.2) calls := by
  induction rest generalizing seen runner positions with
  | nil =>
      cases ok
      exact ⟨[], (List.append_nil _).symm, .nil⟩
  | cons row rest ih =>
      cases positions with
      | nil => cases length
      | cons position positions =>
          rw [LiveStrategyRunner.feed, List.map_cons, List.zip_cons_cons, List.foldlM_cons] at ok
          rcases except_bind_eq_ok.mp ok with ⟨next, turned, later⟩
          rcases except_bind_eq_ok.mp turned with ⟨decision, decided, made⟩
          cases made
          rcases fed.onCandle contract streams distinct series split decided with ⟨fedNext, turn⟩
          have splitNext : run.candles = (seen ++ [row]) ++ rest := by
            rw [split, List.append_assoc, List.singleton_append]
          rcases ih splitNext (Nat.succ.inj length) fedNext later with ⟨calls, appended, presented⟩
          rw [List.length_append, List.length_singleton] at presented
          rw [List.zipIdx_cons]
          rcases turn with ⟨waits, same⟩ | ⟨called, call, recorded, inputs⟩
          · rw [same] at appended
            rw [List.filter_cons_of_neg (by simpa using waits)]
            exact ⟨calls, appended, presented⟩
          · rw [List.filter_cons_of_pos (by simpa using called)]
            refine ⟨call :: calls, ?_, .cons inputs presented⟩
            rw [appended, recorded, List.append_assoc, List.singleton_append]

end Run

/-- One call for each bar that the runner lets through, with the inputs of the bar. -/
theorem presented_of_run {sqrt : ℚ → ℚ} {strategy : Strategy σ} {memory' : σ}
    {candles : List CandleRow} {params : BacktestParams} {run : BacktestRun σ}
    {instrumentKey : String} {interval : Interval} {positions : List PositionView}
    {final : LiveStrategyRunner (σ × List (Call σ))} (contract : FrameContract candles)
    (distinct : (strategy.requiredIndicators.flatMap fun item => expandNames item.1 item.2).Nodup)
    (started : BacktestRun.start sqrt strategy candles params = .ok run)
    (length : positions.length = candles.length)
    (live : LiveStrategyRunner.run sqrt strategy.recording (memory', [])
      ((candles.map (CandleRow.received instrumentKey interval)).zip positions) = .ok final) :
    (∀ i < candles.length, run.effectiveStart ≤ i ↔
      strategy.warmupBars ≤ i ∧ ∀ item ∈ strategy.requiredIndicators, item.2.lag ≤ i) ∧
    List.Forall₂ (fun bar call => ∀ portfolio, SameInputs (run.context bar portfolio) call.context)
      (candles.zipIdx.filter fun bar => Calls strategy bar.2) final.memory.2 := by
  rcases except_bind_eq_ok.mp live with ⟨runner, made, fed⟩
  rcases except_bind_eq_ok.mp made with ⟨view, viewMade, ⟨⟩⟩
  rcases streamsAll_of_new viewMade with ⟨columns, streams⟩
  change StreamsAll sqrt strategy.requiredIndicators view.states columns at streams
  rw [← streams.keys] at distinct
  rcases BacktestRun.start_eq_ok started with ⟨_, _, series, computed, run_eq⟩
  rw [streams.batch] at computed
  cases computed
  have candles_eq : run.candles = candles := by rw [run_eq]
  have series_eq : run.series = setColumns ∅ (columns.on run.candles) := by rw [run_eq]
  constructor
  · intro i within
    rw [run_eq, ← streams.firstAllValidIndex_le_iff distinct within, max_le_iff, Nat.cast_le]
  · have start : Fed sqrt strategy.recording view.states columns []
        ⟨strategy.recording, [], view, 0, memory', []⟩ :=
      ⟨rfl, rfl, fedWith_of_new viewMade streams, rfl⟩
    rw [← candles_eq] at contract
    have split : run.candles = [] ++ candles := candles_eq
    rcases start.feed contract streams distinct series_eq split length fed with
      ⟨calls, appended, presented⟩
    rw [List.nil_append] at appended
    rw [appended]
    exact presented

end LiveStrategyRunner

/-- The gates of both drivers let the same bars through if and only if the claimed warm-up does
not outlast the indicators. -/
theorem Strategy.indicatorsOutlastWarmup_iff {strategy : Strategy σ} {bars : ℕ} :
    strategy.IndicatorsOutlastWarmup bars ↔
      ∀ i < bars, (strategy.warmupBars ≤ i ∧ ∀ item ∈ strategy.requiredIndicators, item.2.lag ≤ i) ↔
        LiveStrategyRunner.Calls strategy i := by
  constructor
  · intro outlasts i within
    constructor
    · rintro ⟨late, warm⟩
      exact ⟨by omega, warm⟩
    · rintro ⟨late, warm⟩
      refine ⟨?_, warm⟩
      rcases outlasts with none | few | ⟨item, mem, waits⟩
      · omega
      · omega
      · have := warm item mem
        omega
  · intro same
    by_contra ends
    simp only [IndicatorsOutlastWarmup, not_or, not_exists, not_and, not_le, not_lt] at ends
    rcases ends with ⟨positive, within, shorter⟩
    -- the last bar of the warm-up that the strategy claims
    have last : (strategy.warmupBars.toNat - 1 : ℕ) < bars := by omega
    have called : LiveStrategyRunner.Calls strategy (strategy.warmupBars.toNat - 1) := by
      refine ⟨by omega, fun item mem => ?_⟩
      have := shorter item mem
      omega
    have skipped := ((same _ last).mpr called).1
    omega

theorem map_snd_filter_zipIdx {α : Type} (passes : ℕ → Bool) (entries : List α) :
    (entries.zipIdx.filter fun entry => passes entry.2).map Prod.snd =
      (List.range entries.length).filter passes := by
  rw [List.range_eq_range', ← List.zipIdx_map_snd 0 entries, List.filter_map]
  rfl

/-- For indicators with different keys, the live runner calls its strategy on the bars of the
backtest with the inputs of the backtest if and only if the warm-up that the strategy claims is no
longer than the one of its indicators, or does not end within the bars. -/
theorem runner_lockstep_iff {sqrt : ℚ → ℚ} {strategy : Strategy σ} {memory memory' after : σ}
    {candles : List CandleRow} {params : BacktestParams} {result : BacktestResult}
    {calls : List (Call σ)} {instrumentKey : String} {interval : Interval}
    {positions : List PositionView} {final : LiveStrategyRunner (σ × List (Call σ))}
    (contract : FrameContract candles)
    (distinct : (strategy.requiredIndicators.flatMap fun item => expandNames item.1 item.2).Nodup)
    (ran : runBacktest sqrt strategy.recording (memory, []) candles params =
      .ok (result, after, calls))
    (length : positions.length = candles.length)
    (live : LiveStrategyRunner.run sqrt strategy.recording (memory', [])
      ((candles.map (CandleRow.received instrumentKey interval)).zip positions) = .ok final) :
    List.Forall₂ (fun call liveCall => SameInputs call.context liveCall.context)
        calls final.memory.2 ↔
      strategy.IndicatorsOutlastWarmup candles.length := by
  rcases calls_of_ran ran with ⟨run, started, contexts⟩
  rcases LiveStrategyRunner.presented_of_run contract distinct started length live with
    ⟨start_iff, presented⟩
  rw [Strategy.indicatorsOutlastWarmup_iff]
  constructor
  · intro same i within
    have backtest : (calls.map fun call => call.context.index) =
        (List.range candles.length).filter fun i : ℕ => run.effectiveStart ≤ (i : ℤ) := by
      rw [← map_snd_filter_zipIdx, eq_comm]
      apply map_eq_map_of_forall₂ contexts
      rintro bar call ⟨portfolio, context⟩
      rw [context]
      rfl
    have runner : (final.memory.2.map fun call => call.context.index) =
        (List.range candles.length).filter fun i => LiveStrategyRunner.Calls strategy i := by
      rw [← map_snd_filter_zipIdx, eq_comm]
      apply map_eq_map_of_forall₂ presented
      intro bar call inputs
      exact (inputs ⟨0, 0, 0⟩).index
    have indices := map_eq_map_of_forall₂ same fun _ _ inputs => inputs.index
    rw [backtest, runner] at indices
    have members := congrArg (i ∈ ·) indices
    rw [← start_iff i within]
    simpa [within] using members
  · intro same
    have sameBars : (candles.zipIdx.filter fun bar => run.effectiveStart ≤ bar.2) =
        candles.zipIdx.filter fun bar => LiveStrategyRunner.Calls strategy bar.2 := by
      apply List.filter_congr
      intro bar mem
      have within := List.snd_lt_of_mem_zipIdx mem
      rw [Nat.add_zero] at within
      rw [decide_eq_decide, start_iff bar.2 within, same bar.2 within]
    rw [← sameBars] at presented
    apply (forall₂_through contexts presented).imp
    rintro call liveCall ⟨bar, ⟨portfolio, context⟩, inputs⟩
    rw [context]
    exact inputs portfolio

/-- A strategy that claims one bar of warm-up for an average of two. -/
def impatientAverage : Strategy Unit where
  warmupBars := 1
  requiredIndicators := [("fast", .sma 2)]
  distinct := by simp
  onCandle context memory := do
    let close ← context.close
    pure (some ⟨.long, close, []⟩, memory)

/-- The bars on which a strategy has been called. -/
def calledBars (calls : List (Call σ)) : List ℕ := calls.map fun call => call.context.index

/-- Candles of a live feed in which no position is open. -/
def flatFeed (candles : List CandleRow) : List (CandleReceived × PositionView) :=
  (candles.map (CandleRow.received "NSE_EQ|INFY" .m1)).zip
    (List.replicate candles.length flatPosition)

theorem runner_lockstep_iff_sample :
    ∃ result after calls final,
      runBacktest id impatientAverage.recording ((), []) risingBars tenShares =
        .ok (result, after, calls) ∧
      LiveStrategyRunner.run id impatientAverage.recording ((), []) (flatFeed risingBars) =
        .ok final ∧
      calledBars calls = [1, 2] ∧
      List.Forall₂ (fun call liveCall => SameInputs call.context liveCall.context)
        calls final.memory.2 := by
  have backtest : (runBacktest id impatientAverage.recording ((), []) risingBars
      tenShares).toOption.map (fun outcome => calledBars outcome.2.2) = some [1, 2] := by
    decide +kernel
  have live : (LiveStrategyRunner.run id impatientAverage.recording ((), [])
      (flatFeed risingBars)).toOption.map (fun final => calledBars final.memory.2) =
        some [1, 2] := by
    decide +kernel
  rcases exists_of_toOption _ backtest with ⟨⟨result, after, calls⟩, ran, bars⟩
  rcases exists_of_toOption _ live with ⟨final, fed, _⟩
  refine ⟨result, after, calls, final, ran, fed, bars, ?_⟩
  have outlasts : impatientAverage.IndicatorsOutlastWarmup risingBars.length := by
    refine .inr (.inr ⟨_, List.mem_cons_self, ?_⟩)
    decide
  exact (runner_lockstep_iff (by decide) (by decide) ran rfl fed).mpr outlasts

/-- The runner buys on a bar on which the backtest does not call the strategy. -/
theorem warmup_ends_earlier :
    FrameContract risingBars ∧ ∃ result after calls final,
      runBacktest id (smaCrossover { fastPeriod := 1, slowPeriod := 2 }).recording ((), [])
        risingBars tenShares = .ok (result, after, calls) ∧
      LiveStrategyRunner.run id (smaCrossover { fastPeriod := 1, slowPeriod := 2 }).recording
        ((), []) (flatFeed risingBars) = .ok final ∧
      calledBars calls = [] ∧ calledBars final.memory.2 = [2] ∧
      ¬ List.Forall₂ (fun call liveCall => SameInputs call.context liveCall.context)
        calls final.memory.2 := by
  have backtest : (runBacktest id (smaCrossover { fastPeriod := 1, slowPeriod := 2 }).recording
      ((), []) risingBars tenShares).toOption.map (fun outcome => calledBars outcome.2.2) =
        some [] := by
    decide +kernel
  have live : (LiveStrategyRunner.run id
      (smaCrossover { fastPeriod := 1, slowPeriod := 2 }).recording ((), [])
        (flatFeed risingBars)).toOption.map (fun final => calledBars final.memory.2) =
          some [2] := by
    decide +kernel
  rcases exists_of_toOption _ backtest with ⟨⟨result, after, calls⟩, ran, bars⟩
  rcases exists_of_toOption _ live with ⟨final, fed, liveBars⟩
  refine ⟨by decide, result, after, calls, final, ran, fed, bars, liveBars, ?_⟩
  intro same
  have indices : calledBars calls = calledBars final.memory.2 :=
    map_eq_map_of_forall₂ same fun _ _ inputs => inputs.index
  rw [bars, liveBars] at indices
  cases indices

/-- Bands and an average under one key. -/
def sharedKey : Strategy Unit where
  warmupBars := 0
  requiredIndicators := [("m", .bollinger 2 2), ("m.middle", .sma 2)]
  distinct := by simp
  onCandle _ memory := pure (none, memory)

/-- Where keys are shared, the live history interleaves the values of both indicators. -/
theorem sharedKey_interleaves :
    ∃ result after calls final,
      runBacktest id sharedKey.recording ((), []) risingBars tenShares =
        .ok (result, after, calls) ∧
      LiveStrategyRunner.run id sharedKey.recording ((), []) (flatFeed risingBars) = .ok final ∧
      sharedKey.IndicatorsOutlastWarmup risingBars.length ∧
      ¬ List.Forall₂ (fun call liveCall => SameInputs call.context liveCall.context)
        calls final.memory.2 := by
  let windows (calls : List (Call Unit)) : List (Except PyError (List ℚ)) :=
    calls.map fun call => call.context.indicators.window "m.middle" 2
  have backtest : (runBacktest id sharedKey.recording ((), []) risingBars tenShares).toOption.map
      (fun outcome => windows outcome.2.2) = some [.ok [10], .ok [10, 30]] := by
    decide +kernel
  have live : (LiveStrategyRunner.run id sharedKey.recording ((), [])
      (flatFeed risingBars)).toOption.map (fun final => windows final.memory.2) =
        some [.ok [10, 10], .ok [30, 30]] := by
    decide +kernel
  rcases exists_of_toOption _ backtest with ⟨⟨result, after, calls⟩, ran, shown⟩
  rcases exists_of_toOption _ live with ⟨final, fed, liveShown⟩
  refine ⟨result, after, calls, final, ran, fed, .inl le_rfl, ?_⟩
  intro same
  have equal : windows calls = windows final.memory.2 :=
    map_eq_map_of_forall₂ same fun _ _ inputs => inputs.window _ _ (by decide) (by decide)
  rw [shown, liveShown] at equal
  revert equal
  decide

end PersonalTrade
