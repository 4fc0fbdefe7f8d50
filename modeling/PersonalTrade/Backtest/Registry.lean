import PersonalTrade.Backtest.Rules

/-!
# The rules of the registered strategies

What the three strategies of `strategy/registry.py` trade, as rules over the indicators of the
frame. Their indicators have one column each and are all available before their warm-up is over, so
that a backtest calls them from the end of the warm-up on.
-/

namespace PersonalTrade

/-! ## Indicators of one column -/

/-- An indicator of one column with a valid period. -/
def IndicatorSpec.Plain : IndicatorSpec → Prop
  | .sma period | .ema period | .rsi period | .atr period => 1 ≤ period
  | _ => False

/-- The column of a plain indicator. -/
def IndicatorSpec.column (candles : List CandleRow) : IndicatorSpec → Series
  | .sma period => rolling period.toNat mean (candles.map CandleRow.close)
  | .ema period => emaSeries period.toNat (candles.map CandleRow.close)
  | .rsi period => rsiSeries period.toNat (candles.map CandleRow.close)
  | .atr period => atrSeries period.toNat candles
  | _ => []

namespace IndicatorSpec

variable {spec : IndicatorSpec} {sqrt : ℚ → ℚ} {candles : List CandleRow} {name : String}

theorem Plain.columns (plain : spec.Plain) :
    indicatorColumns sqrt candles name spec = .ok [(name, spec.column candles)] := by
  cases spec with
  | sma period => exact except_bind_eq_ok.mpr ⟨_, sma_eq_ok.mpr ⟨plain, rfl⟩, rfl⟩
  | ema period => exact except_bind_eq_ok.mpr ⟨_, ema_eq_ok.mpr ⟨plain, rfl⟩, rfl⟩
  | rsi period => exact except_bind_eq_ok.mpr ⟨_, rsi_eq_ok.mpr ⟨plain, rfl⟩, rfl⟩
  | atr period => exact except_bind_eq_ok.mpr ⟨_, atr_eq_ok.mpr ⟨plain, rfl⟩, rfl⟩
  | _ => exact plain.elim

theorem Plain.length_column (plain : spec.Plain) :
    (spec.column candles).length = candles.length := by
  have closes : (candles.map CandleRow.close).length = candles.length := List.length_map _
  cases spec with
  | sma period => exact ((causal_rolling _ _).length _).trans closes
  | ema period =>
      have positive : 0 < period.toNat := Int.lt_toNat.mpr plain
      exact ((causal_emaSeries positive).length _).trans closes
  | rsi period =>
      have positive : 0 < period.toNat := Int.lt_toNat.mpr plain
      exact ((causal_rsiSeries positive).length _).trans closes
  | atr period =>
      have positive : 0 < period.toNat := Int.lt_toNat.mpr plain
      exact (causal_atrSeries positive).length _
  | _ => exact plain.elim

theorem Plain.warmsUp (plain : spec.Plain) : WarmsUp spec.lag (spec.column candles) := by
  cases spec with
  | sma period =>
      have positive : 0 < period.toNat := Int.lt_toNat.mpr plain
      have warms := WarmsUp.rolling positive mean (candles.map CandleRow.close)
      rwa [show period.toNat - 1 = (period - 1).toNat by omega] at warms
  | ema period =>
      have positive : 0 < period.toNat := Int.lt_toNat.mpr plain
      have warms := WarmsUp.seeded positive mean (emaStep period.toNat)
        (candles.map CandleRow.close)
      rwa [show period.toNat - 1 = (period - 1).toNat by omega] at warms
  | rsi period =>
      have positive : 0 < period.toNat := Int.lt_toNat.mpr plain
      exact warmsUp_rsiSeries positive _
  | atr period =>
      have positive : 0 < period.toNat := Int.lt_toNat.mpr plain
      have warms := WarmsUp.seeded positive mean (wilder period.toNat)
        (PersonalTrade.trueRange candles)
      rwa [show period.toNat - 1 = (period - 1).toNat by omega] at warms
  | _ => exact plain.elim

end IndicatorSpec

/-- The dictionary of plain indicators has their columns under their names. -/
theorem lookup_computeIndicatorSet {sqrt : ℚ → ℚ} {candles : List CandleRow}
    {specs : List (String × IndicatorSpec)} (plain : ∀ item ∈ specs, item.2.Plain)
    (distinct : (specs.map Prod.fst).Nodup) {result series : SeriesByName}
    (ok : computeIndicatorSet sqrt candles specs result = .ok series) :
    (∀ item ∈ specs, series.lookup item.1 = some (item.2.column candles)) ∧
      ∀ name, name ∉ specs.map Prod.fst → series.lookup name = result.lookup name := by
  induction specs generalizing result with
  | nil =>
      cases ok
      exact ⟨fun _ mem => absurd mem List.not_mem_nil, fun _ _ => rfl⟩
  | cons item specs ih =>
      rw [List.map_cons, List.nodup_cons] at distinct
      simp only [computeIndicatorSet, (plain item List.mem_cons_self).columns, bind, Except.bind,
        setColumns, List.foldl_cons, List.foldl_nil] at ok
      rcases ih (fun later mem => plain later (List.mem_cons_of_mem _ mem)) distinct.2 ok with
        ⟨own, others⟩
      constructor
      · intro other mem
        rcases List.mem_cons.mp mem with rfl | later
        · rw [others _ distinct.1, AList.lookup_insert]
        · exact own other later
      · intro name absent
        rw [List.map_cons, List.mem_cons, not_or] at absent
        rw [others name absent.2, AList.lookup_insert_ne absent.1]

/-! ## Readings -/

/-- The values of a series at a bar and at the one before it. -/
def pairAt (series : Series) : ℕ → Option (ℚ × ℚ)
  | 0 => none
  | index + 1 =>
      match series[index]?.join, series[index + 1]?.join with
      | some previous, some value => some (previous, value)
      | _, _ => none

/-- The two rows of a window that ends at a bar after the first. -/
theorem window_two {values : Series} {index : ℕ} {last : Option ℚ}
    (shown : values[index + 1]? = some last) : ∃ before, values[index]? = some before ∧
      (values.take (index + 2)).drop index = [before, last] := by
  rcases List.getElem?_eq_some_iff.mp shown with ⟨within, rfl⟩
  have earlier : index < values.length := by omega
  refine ⟨values[index], List.getElem?_eq_getElem earlier, ?_⟩
  rw [List.drop_take, Nat.add_sub_cancel_left, List.drop_eq_getElem_cons earlier,
    List.drop_eq_getElem_cons within]
  rfl

theorem lastTwo_batchIndicatorView {series : SeriesByName} {name : String} {values : Series}
    (found : series.lookup name = some values) (index : ℕ) :
    (batchIndicatorView series index).lastTwo name = .ok (pairAt values index) := by
  simp only [IndicatorView.lastTwo, batchIndicatorView, found, bind, Except.bind]
  cases index with
  | zero =>
      cases values with
      | nil => rfl
      | cons first values => cases first <;> rfl
  | succ index =>
      rcases shown : values[index + 1]?.join with _ | value
      · simp only [pairAt, shown]
        cases values[index]?.join <;> rfl
      · rcases window_two (Option.join_eq_some_iff.mp shown) with ⟨before, earlier, window⟩
        have lo : (max 0 (((index + 1 : ℕ) : ℤ) - 2 + 1)).toNat = index := by omega
        rw [lo, window]
        simp only [pairAt, shown, earlier, Option.join_some]
        cases before <;> rfl

/-- Both values are there from a bar after the lag on. -/
theorem exists_pairAt {series : Series} {lag index : ℕ} (warms : WarmsUp lag series)
    (late : lag < index) (within : index < series.length) :
    ∃ previous value, series[index]?.join = some value ∧
      pairAt series index = some (previous, value) := by
  rcases index with _ | index
  · omega
  rcases Option.isSome_iff_exists.mp ((warms index (by omega)).mpr (by omega)) with
    ⟨previous, before⟩
  rcases Option.isSome_iff_exists.mp ((warms (index + 1) within).mpr (by omega)) with
    ⟨value, last⟩
  exact ⟨previous, value, last, by simp only [pairAt, before, last]⟩

/-! ## The rules -/

/-- A series crosses above another one at a bar. -/
def crossesAt (series other : Series) (index : ℕ) : Bool :=
  match pairAt series index, pairAt other index with
  | some pair, some pair' => crossesAbove pair.1 pair.2 pair'.1 pair'.2
  | _, _ => false

/-- Enter when the fast average crosses above the slow one, exit when it crosses below. -/
def SMACrossoverParams.rule (params : SMACrossoverParams) (candles : List CandleRow) :
    TradingRule where
  enters index := decide (params.slowPeriod + 1 ≤ index) &&
    crossesAt ((IndicatorSpec.sma params.fastPeriod).column candles)
      ((IndicatorSpec.sma params.slowPeriod).column candles) index
  exits _ _ index := crossesAt ((IndicatorSpec.sma params.slowPeriod).column candles)
    ((IndicatorSpec.sma params.fastPeriod).column candles) index

/-- Enter when the RSI falls below `oversold`, exit when it rises above `exit_level`. -/
def RSIMeanReversionParams.rule (params : RSIMeanReversionParams) (candles : List CandleRow) :
    TradingRule where
  enters index := decide (params.rsiPeriod + 2 ≤ index) &&
    (pairAt ((IndicatorSpec.rsi params.rsiPeriod).column candles) index).any fun pair =>
      decide (params.oversold ≤ pair.1) && decide (pair.2 < params.oversold)
  exits _ _ index :=
    (pairAt ((IndicatorSpec.rsi params.rsiPeriod).column candles) index).any fun pair =>
      crossesAbove pair.1 pair.2 params.exitLevel params.exitLevel

/-- The stop of a position: below the cost of a share by a multiple of the ATR at the bar of the
fill. -/
def EMAAtrStopParams.stopLevel (params : EMAAtrStopParams) (candles : List CandleRow)
    (filled : ℕ) (basis : ℚ) : Option ℚ :=
  ((IndicatorSpec.atr params.atrPeriod).column candles)[filled]?.join.map fun atr =>
    basis - params.atrMultiplier * atr

/-- Enter when the fast average crosses above the slow one, exit at the stop or when it crosses
below. -/
def EMAAtrStopParams.rule (params : EMAAtrStopParams) (candles : List CandleRow) :
    TradingRule where
  enters index := Decidable.decide (max params.slowPeriod params.atrPeriod + 1 ≤ index) &&
    crossesAt ((IndicatorSpec.ema params.fastPeriod).column candles)
      ((IndicatorSpec.ema params.slowPeriod).column candles) index
  exits filled basis index :=
    (candles[index]?.any fun candle => (params.stopLevel candles filled basis).any fun level =>
      Decidable.decide (candle.close ≤ level)) ||
    crossesAt ((IndicatorSpec.ema params.slowPeriod).column candles)
      ((IndicatorSpec.ema params.fastPeriod).column candles) index

namespace RegisteredStrategy

def rule : RegisteredStrategy → List CandleRow → TradingRule
  | .smaCrossover params => params.rule
  | .emaAtrStop params => params.rule
  | .rsiMeanReversion params => params.rule

theorem plain (registered : RegisteredStrategy) :
    ∀ item ∈ registered.strategy.requiredIndicators, item.2.Plain := by
  intro item mem
  cases registered with
  | smaCrossover params =>
      have := params.one_le_fastPeriod
      have := params.two_le_slowPeriod
      simp only [strategy, PersonalTrade.smaCrossover, List.mem_cons, List.not_mem_nil,
        or_false] at mem
      rcases mem with rfl | rfl <;>
        · simp only [IndicatorSpec.Plain]
          omega
  | emaAtrStop params =>
      have := params.one_le_fastPeriod
      have := params.two_le_slowPeriod
      have := params.one_le_atrPeriod
      simp only [strategy, PersonalTrade.emaAtrStop, List.mem_cons, List.not_mem_nil,
        or_false] at mem
      rcases mem with rfl | rfl | rfl <;>
        · simp only [IndicatorSpec.Plain]
          omega
  | rsiMeanReversion params =>
      have := params.two_le_rsiPeriod
      simp only [strategy, PersonalTrade.rsiMeanReversion, List.mem_cons, List.not_mem_nil,
        or_false] at mem
      subst item
      simp only [IndicatorSpec.Plain]
      omega

/-- Every indicator is available before the last bar of the warm-up. -/
theorem lag_lt (registered : RegisteredStrategy) :
    ∀ item ∈ registered.strategy.requiredIndicators,
      (item.2.lag : ℤ) < registered.strategy.warmupBars := by
  intro item mem
  cases registered with
  | smaCrossover params =>
      have := params.one_le_fastPeriod
      have := params.fast_lt_slow
      simp only [strategy, PersonalTrade.smaCrossover, List.mem_cons, List.not_mem_nil,
        or_false] at *
      rcases mem with rfl | rfl <;>
        · simp only [IndicatorSpec.lag]
          omega
  | emaAtrStop params =>
      have := params.one_le_fastPeriod
      have := params.fast_lt_slow
      have := params.one_le_atrPeriod
      simp only [strategy, PersonalTrade.emaAtrStop, List.mem_cons, List.not_mem_nil,
        or_false] at *
      rcases mem with rfl | rfl | rfl <;>
        · simp only [IndicatorSpec.lag]
          omega
  | rsiMeanReversion params =>
      have := params.two_le_rsiPeriod
      simp only [strategy, PersonalTrade.rsiMeanReversion, List.mem_cons, List.not_mem_nil,
        or_false] at *
      subst item
      simp only [IndicatorSpec.lag]
      omega

end RegisteredStrategy

/-! ## Runs of a registered strategy -/

/-- What a run of plain indicators reads. -/
structure BacktestRun.ReadsColumns {σ : Type} (run : BacktestRun σ) : Prop where
  plain : ∀ item ∈ run.strategy.requiredIndicators, item.2.Plain
  found : ∀ item ∈ run.strategy.requiredIndicators,
    run.series.lookup item.1 = some (item.2.column run.candles)
  lag_lt : ∀ item ∈ run.strategy.requiredIndicators, (item.2.lag : ℤ) < run.strategy.warmupBars
  start : ∀ index < run.candles.length,
    run.effectiveStart ≤ index ↔ run.strategy.warmupBars ≤ index

namespace BacktestRun

variable {sqrt : ℚ → ℚ} {candles : List CandleRow} {params : BacktestParams}

theorem readsColumns {registered : RegisteredStrategy} {run : BacktestRun registered.Memory}
    (started : BacktestRun.start sqrt registered.strategy candles params = .ok run) :
    run.ReadsColumns := by
  rcases BacktestRun.start_eq_ok started with ⟨_, _, series, computed, rfl⟩
  rcases lookup_computeIndicatorSet registered.plain registered.strategy.distinct computed with
    ⟨own, others⟩
  refine ⟨registered.plain, own, registered.lag_lt, fun index within => ?_⟩
  refine ⟨fun started => (le_max_left _ _).trans started, fun late => max_le late ?_⟩
  have declared {name : String} {values : Series} (found : series.lookup name = some values) :
      ∃ item ∈ registered.strategy.requiredIndicators, values = item.2.column candles := by
    by_cases mem : name ∈ registered.strategy.requiredIndicators.map Prod.fst
    · rcases List.mem_map.mp mem with ⟨item, itemMem, rfl⟩
      rw [own item itemMem, Option.some.injEq] at found
      exact ⟨item, itemMem, found.symm⟩
    · rw [others name mem, AList.lookup_empty] at found
      cases found
  have hasLength : series.HasLength candles.length := by
    intro name values found
    rcases declared found with ⟨item, mem, rfl⟩
    exact (registered.plain item mem).length_column
  have valid : allValid series index = true := by
    rw [allValid_iff]
    intro name values found
    rcases declared found with ⟨item, mem, rfl⟩
    have plain := registered.plain item mem
    have lag := registered.lag_lt item mem
    rw [plain.warmsUp index (by rwa [plain.length_column])]
    simp only at late
    omega
  exact_mod_cast (hasLength.firstAllValidIndex_le_iff within).mpr ⟨index, le_rfl, valid⟩

section Context

variable {σ : Type} {run : BacktestRun σ} {bar : CandleRow × ℕ} {portfolio : Portfolio}

theorem ReadsColumns.exists_value (reads : run.ReadsColumns) {name : String} {spec : IndicatorSpec}
    (mem : (name, spec) ∈ run.strategy.requiredIndicators) {index : ℕ}
    (within : index < run.candles.length) (late : run.strategy.warmupBars ≤ index) :
    ∃ value, (spec.column run.candles)[index]?.join = some value := by
  have plain := reads.plain _ mem
  have lag := reads.lag_lt _ mem
  apply Option.isSome_iff_exists.mp
  rw [plain.warmsUp index (by rwa [plain.length_column])]
  omega

/-- After the warm-up an indicator and its value before can be read. -/
theorem ReadsColumns.pair (reads : run.ReadsColumns) (portfolio : Portfolio) {name : String}
    {spec : IndicatorSpec} (mem : (name, spec) ∈ run.strategy.requiredIndicators)
    (following : run.candles[bar.2]? = some bar.1) (late : run.strategy.warmupBars ≤ bar.2) :
    ∃ previous value, (spec.column run.candles)[bar.2]?.join = some value ∧
      pairAt (spec.column run.candles) bar.2 = some (previous, value) ∧
      (run.context bar portfolio).indicators.lastTwo name = .ok (some (previous, value)) ∧
      (run.context bar portfolio).indicators.value name = .ok (some value) := by
  have plain := reads.plain _ mem
  have lag := reads.lag_lt _ mem
  have found := reads.found _ mem
  have within : bar.2 < (spec.column run.candles).length := by
    rw [plain.length_column]
    exact (List.getElem?_eq_some_iff.mp following).1
  rcases exists_pairAt plain.warmsUp (by omega) within with ⟨previous, value, last, pair⟩
  refine ⟨previous, value, last, pair, ?_, ?_⟩
  · rw [context, lastTwo_batchIndicatorView found, pair]
  · simp only [context, batchIndicatorView, found, last]

theorem context_close (following : run.candles[bar.2]? = some bar.1) :
    (run.context bar portfolio).close = .ok bar.1.close := by
  have within : bar.2 < run.candles.length := (List.getElem?_eq_some_iff.mp following).1
  have last : (run.candles.take (bar.2 + 1)).getLast? = some bar.1 := by
    rw [List.getLast?_eq_getElem?, List.length_take, Nat.min_eq_left within, Nat.succ_sub_one,
      List.getElem?_take_of_lt (Nat.lt_succ_self _), following]
  simp only [StrategyContext.close, context, last]

theorem context_position_flat (flat : portfolio.qty = 0) :
    (run.context bar portfolio).position.qty = 0 := by
  simp [context, Portfolio.asView, flat, flatPosition]

theorem context_position_held (held : 0 < portfolio.qty) :
    (run.context bar portfolio).position = ⟨portfolio.qty, portfolio.avgPrice⟩ := by
  simp [context, Portfolio.asView, held.ne']

end Context

end BacktestRun

/-! ## Decisions -/

section Decisions

variable {context : StrategyContext} {close : ℚ}

theorem SMACrossoverParams.decision (params : SMACrossoverParams) {fast slow : ℚ × ℚ}
    (fastOk : context.indicators.lastTwo "fast" = .ok (some fast))
    (slowOk : context.indicators.lastTwo "slow" = .ok (some slow))
    (closeOk : context.close = .ok close) (memory : Unit) :
    ∃ signal, (smaCrossover params).onCandle context memory = .ok (signal, memory) ∧
      signal.map Signal.direction =
        if crossesAbove fast.1 fast.2 slow.1 slow.2 ∧ context.position.qty = 0 then some .long
        else if crossesAbove slow.1 slow.2 fast.1 fast.2 ∧ 0 < context.position.qty then some .exit
        else none := by
  simp only [smaCrossover, fastOk, slowOk, closeOk, bind, Except.bind, pure, Except.pure]
  split_ifs
  · exact ⟨_, rfl, rfl⟩
  · exact ⟨_, rfl, rfl⟩
  · exact ⟨_, rfl, rfl⟩

theorem RSIMeanReversionParams.decision (params : RSIMeanReversionParams) {rsi : ℚ × ℚ}
    (rsiOk : context.indicators.lastTwo "rsi" = .ok (some rsi))
    (closeOk : context.close = .ok close) (memory : Unit) :
    ∃ signal, (rsiMeanReversion params).onCandle context memory = .ok (signal, memory) ∧
      signal.map Signal.direction =
        if params.oversold ≤ rsi.1 ∧ rsi.2 < params.oversold ∧ context.position.qty = 0 then
          some .long
        else if crossesAbove rsi.1 rsi.2 params.exitLevel params.exitLevel ∧
            0 < context.position.qty then some .exit
        else none := by
  simp only [rsiMeanReversion, rsiOk, closeOk, bind, Except.bind, pure, Except.pure]
  split_ifs
  · exact ⟨_, rfl, rfl⟩
  · exact ⟨_, rfl, rfl⟩
  · exact ⟨_, rfl, rfl⟩

theorem EMAAtrReading.ofContext_eq {fast slow : ℚ × ℚ} {atr : ℚ}
    (fastOk : context.indicators.lastTwo "fast" = .ok (some fast))
    (slowOk : context.indicators.lastTwo "slow" = .ok (some slow))
    (atrOk : context.indicators.value "atr" = .ok (some atr))
    (closeOk : context.close = .ok close) : EMAAtrReading.ofContext context =
      .ok (some ⟨fast.1, fast.2, slow.1, slow.2, atr, close⟩) := by
  simp only [ofContext, fastOk, slowOk, atrOk, closeOk, bind, Except.bind, pure, Except.pure]

theorem EMAAtrReading.exitSignal_of_due {reading : EMAAtrReading} {stop : ℚ}
    (due : reading.close ≤ stop ∨ reading.crossedDown = true) :
    ∃ signal, reading.exitSignal stop = some signal ∧ signal.direction = .exit := by
  rw [exitSignal, if_pos due]
  exact ⟨_, rfl, rfl⟩

end Decisions

section Implements

variable {sqrt : ℚ → ℚ} {candles : List CandleRow} {backtest : BacktestParams}

theorem BacktestRun.start_inputs {σ : Type} {strategy : Strategy σ} {run : BacktestRun σ}
    (started : BacktestRun.start sqrt strategy candles backtest = .ok run) :
    run.strategy = strategy ∧ run.candles = candles := by
  rcases BacktestRun.start_eq_ok started with ⟨_, _, series, _, rfl⟩
  exact ⟨rfl, rfl⟩

theorem SMACrossoverParams.implements (params : SMACrossoverParams) {run : BacktestRun Unit}
    (started : BacktestRun.start sqrt (smaCrossover params) candles backtest = .ok run) :
    run.Implements () (params.rule candles) fun filled _ _ _ => params.slowPeriod + 1 ≤ filled := by
  have reads := @BacktestRun.readsColumns sqrt candles backtest (.smaCrossover params) run started
  rcases BacktestRun.start_inputs started with ⟨strategy, rfl⟩
  have warmup : run.strategy.warmupBars = params.slowPeriod + 1 := by rw [strategy]; rfl
  have fastMem : ("fast", .sma params.fastPeriod) ∈ run.strategy.requiredIndicators := by
    simp [strategy, smaCrossover]
  have slowMem : ("slow", .sma params.slowPeriod) ∈ run.strategy.requiredIndicators := by
    simp [strategy, smaCrossover]
  have start := reads.start
  rw [warmup] at start
  refine ⟨?_, ?_, ?_, ?_⟩
  · intro index within early
    have before : ¬ params.slowPeriod + 1 ≤ index := fun late =>
      absurd ((start index within).mpr late) (not_le.mpr early)
    simp only [rule, decide_eq_false before, Bool.false_and]
  · intro bar portfolio decision following flat started decided
    have late := (start _ (List.getElem?_eq_some_iff.mp following).1).mp started
    have warm : run.strategy.warmupBars ≤ bar.2 := warmup ▸ late
    rcases reads.pair portfolio fastMem following warm with ⟨_, _, _, fast, fastOk, _⟩
    rcases reads.pair portfolio slowMem following warm with ⟨_, _, _, slow, slowOk, _⟩
    rcases params.decision fastOk slowOk (BacktestRun.context_close following) () with
      ⟨signal, ok, direction⟩
    rw [strategy, ok, Except.ok.injEq] at decided
    subst decision
    refine ⟨rfl, direction.trans ?_⟩
    simp only [rule, decide_eq_true late, Bool.true_and, crossesAt, fast, slow,
      BacktestRun.context_position_flat flat, and_true, lt_irrefl, and_false, if_false]
  · intro filled _ _ enters
    rw [rule, Bool.and_eq_true, decide_eq_true_eq] at enters
    push_cast
    omega
  · intro bar portfolio filled memory decision following held after late decided
    have warm : run.strategy.warmupBars ≤ bar.2 := by omega
    rcases reads.pair portfolio fastMem following warm with ⟨_, _, _, fast, fastOk, _⟩
    rcases reads.pair portfolio slowMem following warm with ⟨_, _, _, slow, slowOk, _⟩
    rcases params.decision fastOk slowOk (BacktestRun.context_close following) memory with
      ⟨signal, ok, direction⟩
    rw [strategy, ok, Except.ok.injEq] at decided
    subst decision
    simp only [BacktestRun.context_position_held held, held.ne', and_false, if_false, held,
      and_true] at direction
    simp only [rule, crossesAt, fast, slow]
    split_ifs at direction ⊢
    · exact ⟨trivial, direction⟩
    · exact ⟨late, Option.map_eq_none_iff.mp direction⟩

theorem RSIMeanReversionParams.implements (params : RSIMeanReversionParams) {run : BacktestRun Unit}
    (started : BacktestRun.start sqrt (rsiMeanReversion params) candles backtest = .ok run) :
    run.Implements () (params.rule candles) fun filled _ _ _ => params.rsiPeriod + 2 ≤ filled := by
  have reads := @BacktestRun.readsColumns sqrt candles backtest (.rsiMeanReversion params) run started
  rcases BacktestRun.start_inputs started with ⟨strategy, rfl⟩
  have warmup : run.strategy.warmupBars = params.rsiPeriod + 2 := by rw [strategy]; rfl
  have rsiMem : ("rsi", .rsi params.rsiPeriod) ∈ run.strategy.requiredIndicators := by
    simp [strategy, rsiMeanReversion]
  have start := reads.start
  rw [warmup] at start
  refine ⟨?_, ?_, ?_, ?_⟩
  · intro index within early
    have before : ¬ params.rsiPeriod + 2 ≤ index := fun late =>
      absurd ((start index within).mpr late) (not_le.mpr early)
    simp only [rule, decide_eq_false before, Bool.false_and]
  · intro bar portfolio decision following flat started decided
    have late := (start _ (List.getElem?_eq_some_iff.mp following).1).mp started
    have warm : run.strategy.warmupBars ≤ bar.2 := warmup ▸ late
    rcases reads.pair portfolio rsiMem following warm with ⟨_, _, _, rsi, rsiOk, _⟩
    rcases params.decision rsiOk (BacktestRun.context_close following) () with
      ⟨signal, ok, direction⟩
    rw [strategy, ok, Except.ok.injEq] at decided
    subst decision
    refine ⟨rfl, direction.trans ?_⟩
    simp only [rule, decide_eq_true late, Bool.true_and, rsi, Option.any_some, Bool.and_eq_true,
      decide_eq_true_eq, BacktestRun.context_position_flat flat, and_true, lt_irrefl, and_false,
      if_false]
  · intro filled _ _ enters
    rw [rule, Bool.and_eq_true, decide_eq_true_eq] at enters
    push_cast
    omega
  · intro bar portfolio filled memory decision following held after late decided
    have warm : run.strategy.warmupBars ≤ bar.2 := by omega
    rcases reads.pair portfolio rsiMem following warm with ⟨_, _, _, rsi, rsiOk, _⟩
    rcases params.decision rsiOk (BacktestRun.context_close following) memory with
      ⟨signal, ok, direction⟩
    rw [strategy, ok, Except.ok.injEq] at decided
    subst decision
    simp only [BacktestRun.context_position_held held, held.ne', and_false, if_false, held,
      and_true] at direction
    simp only [rule, rsi, Option.any_some]
    split_ifs at direction ⊢
    · exact ⟨trivial, direction⟩
    · exact ⟨late, Option.map_eq_none_iff.mp direction⟩

/-- What the stop strategy remembers: nothing at the bar of the fill, and then the stop level. -/
def EMAAtrStopParams.Anchored (params : EMAAtrStopParams) (candles : List CandleRow) (filled : ℕ)
    (basis : ℚ) (index : ℕ) (stop : Option ℚ) : Prop :=
  max params.slowPeriod params.atrPeriod + 1 ≤ filled ∧
    (index = filled ∧ stop = none ∨ filled < index ∧ stop = params.stopLevel candles filled basis)

theorem EMAAtrStopParams.implements (params : EMAAtrStopParams) {run : BacktestRun (Option ℚ)}
    (started : BacktestRun.start sqrt (emaAtrStop params) candles backtest = .ok run) :
    run.Implements none (params.rule candles) (params.Anchored candles) := by
  have reads := @BacktestRun.readsColumns sqrt candles backtest (.emaAtrStop params) run started
  rcases BacktestRun.start_inputs started with ⟨strategy, rfl⟩
  have warmup : run.strategy.warmupBars = max params.slowPeriod params.atrPeriod + 1 := by
    rw [strategy]
    rfl
  have fastMem : ("fast", .ema params.fastPeriod) ∈ run.strategy.requiredIndicators := by
    simp [strategy, emaAtrStop]
  have slowMem : ("slow", .ema params.slowPeriod) ∈ run.strategy.requiredIndicators := by
    simp [strategy, emaAtrStop]
  have atrMem : ("atr", .atr params.atrPeriod) ∈ run.strategy.requiredIndicators := by
    simp [strategy, emaAtrStop]
  have start := reads.start
  rw [warmup] at start
  refine ⟨?_, ?_, ?_, ?_⟩
  · intro index within early
    have before : ¬ max params.slowPeriod params.atrPeriod + 1 ≤ index := fun late =>
      absurd ((start index within).mpr late) (not_le.mpr early)
    simp only [rule, decide_eq_false before, Bool.false_and]
  · intro bar portfolio decision following flat started decided
    have late := (start _ (List.getElem?_eq_some_iff.mp following).1).mp started
    have warm : run.strategy.warmupBars ≤ bar.2 := warmup ▸ late
    rcases reads.pair portfolio fastMem following warm with ⟨_, _, _, fast, fastOk, _⟩
    rcases reads.pair portfolio slowMem following warm with ⟨_, _, _, slow, slowOk, _⟩
    rcases reads.pair portfolio atrMem following warm with ⟨_, _, _, _, _, atrOk⟩
    have reading := EMAAtrReading.ofContext_eq fastOk slowOk atrOk
      (BacktestRun.context_close following)
    rw [strategy, emaAtrStop_of_reading reading,
      decide_of_flat (BacktestRun.context_position_flat flat), Except.ok.injEq] at decided
    subst decision
    refine ⟨rfl, ?_⟩
    simp only [rule, decide_eq_true late, Bool.true_and, crossesAt, fast, slow,
      EMAAtrReading.entrySignal]
    split_ifs
    · rfl
    · rfl
  · intro filled basis _ enters
    rw [rule, Bool.and_eq_true, decide_eq_true_eq] at enters
    refine ⟨?_, .inl ⟨rfl, rfl⟩⟩
    push_cast
    omega
  · rintro bar portfolio filled memory decision following held after ⟨late, remembers⟩ decided
    have warm : run.strategy.warmupBars ≤ bar.2 := by omega
    rcases reads.pair portfolio fastMem following warm with ⟨prevFast, fast', _, fast, fastOk, _⟩
    rcases reads.pair portfolio slowMem following warm with ⟨prevSlow, slow', _, slow, slowOk, _⟩
    rcases reads.pair portfolio atrMem following warm with ⟨_, atr, atrAt, _, _, atrOk⟩
    have within := (List.getElem?_eq_some_iff.mp following).1
    rcases reads.exists_value atrMem (after.trans_lt within) (warmup ▸ late) with ⟨first, firstAt⟩
    have stop : params.stopLevel run.candles filled portfolio.avgPrice =
        some (portfolio.avgPrice - params.atrMultiplier * first) := by
      rw [stopLevel, firstAt, Option.map_some]
    have reading := EMAAtrReading.ofContext_eq fastOk slowOk atrOk
      (BacktestRun.context_close following)
    have position : (run.context bar portfolio).position =
      ⟨portfolio.qty, portfolio.avgPrice⟩ := BacktestRun.context_position_held held
    rw [strategy, emaAtrStop_of_reading reading, position, decide_of_held held.ne',
      Except.ok.injEq] at decided
    subst decision
    -- the level is the one of the bar of the fill, remembered or anchored at this bar
    have level (reading : EMAAtrReading) (own : reading.atr = atr) :
        memory.getD (params.anchor ⟨portfolio.qty, portfolio.avgPrice⟩ reading) =
          portfolio.avgPrice - params.atrMultiplier * first := by
      rcases remembers with ⟨same, rfl⟩ | ⟨_, rfl⟩
      · rw [same, firstAt, Option.some.injEq] at atrAt
        rw [Option.getD_none, anchor, own, atrAt]
      · rw [stop, Option.getD_some]
    rw [level _ rfl]
    have exits : (params.rule run.candles).exits filled portfolio.avgPrice bar.2 = true ↔
        (bar.1.close ≤ portfolio.avgPrice - params.atrMultiplier * first ∨
          crossesAbove prevSlow slow' prevFast fast' = true) := by
      simp only [rule, following, stop, Option.any_some, crossesAt, fast, slow, Bool.or_eq_true,
        decide_eq_true_eq]
    by_cases due : bar.1.close ≤ portfolio.avgPrice - params.atrMultiplier * first ∨
      crossesAbove prevSlow slow' prevFast fast' = true
    · rw [if_pos (exits.mpr due)]
      rcases @EMAAtrReading.exitSignal_of_due
        ⟨prevFast, fast', prevSlow, slow', atr, bar.1.close⟩ _ due with
        ⟨signal, left, direction⟩
      simp only [left]
      exact ⟨rfl, congrArg some direction⟩
    · rw [if_neg (mt exits.mp due)]
      have stays : EMAAtrReading.exitSignal ⟨prevFast, fast', prevSlow, slow', atr, bar.1.close⟩
          (portfolio.avgPrice - params.atrMultiplier * first) = none := if_neg due
      simp only [stays]
      exact ⟨⟨late, .inr ⟨Nat.lt_succ_of_le after, stop.symm⟩⟩, trivial⟩

end Implements

/-- What the registered strategies trade in a backtest is what their rules say: positions are
bought at the open after a bar that enters and sold as a whole at the open after the first bar that
exits, each with the slippage of its side; one that is left open has met no exit before the last
bar; and after every bar that enters without a position a purchase follows, unless it is
refused. -/
theorem registered_trades_follow_rule {sqrt : ℚ → ℚ} {registered : RegisteredStrategy}
    {candles : List CandleRow} {params : BacktestParams} {result : BacktestResult}
    {after : registered.Memory}
    (ran : runBacktest sqrt registered.strategy registered.fresh candles params =
      .ok (result, after)) :
    (∃ openLeg, (registered.rule candles).Trips result.trades openLeg ∧
      ∀ entry ∈ openLeg, (registered.rule candles).Keeps entry (candles.length - 1)) ∧
    (∀ trade ∈ result.trades, trade.AtOpen candles params.slippageBps) ∧
    ∀ index point candle, result.equityCurve[index]? = some point →
      candles[index + 1]? = some candle → point.positionQty = 0 →
      (registered.rule candles).enters index = true →
      (∃ entry ∈ result.trades, entry.side = .buy ∧ entry.signalIndex = index) ∨
        params.Refuses point.cash candle.openPrice := by
  cases registered with
  | smaCrossover strategy => exact trades_follow_rule (fun _ => strategy.implements) ran
  | emaAtrStop strategy => exact trades_follow_rule (fun _ => strategy.implements) ran
  | rsiMeanReversion strategy => exact trades_follow_rule (fun _ => strategy.implements) ran

/-- A rise that the averages follow, and a fall. -/
def riseAndFall : List CandleRow :=
  [flatBar 0 10, flatBar 86400000 10, flatBar 172800000 10, flatBar 259200000 12,
    flatBar 345600000 12, flatBar 432000000 9, flatBar 518400000 9]

/-- One round trip of the shortest averages. -/
theorem registered_trades_follow_rule_sample : ∃ result after,
    runBacktest id (RegisteredStrategy.smaCrossover .shortest).strategy () riseAndFall
      { initialCapital := 1000, sizer := fun _ _ => 10, costRates := default } =
        .ok (result, after) ∧
    result.trades.map (fun trade => (trade.side, trade.qty, trade.index)) =
      [(.buy, 10, 4), (.sell, 10, 6)] ∧
    (∃ openLeg, (SMACrossoverParams.shortest.rule riseAndFall).Trips result.trades openLeg) ∧
    ∀ trade ∈ result.trades, trade.AtOpen riseAndFall 5 := by
  have evaluated : ((runBacktest id (RegisteredStrategy.smaCrossover .shortest).strategy ()
      riseAndFall { initialCapital := 1000, sizer := fun _ _ => 10, costRates := default
        }).toOption.map fun ran => decide (ran.1.trades.map (fun trade =>
          (trade.side, trade.qty, trade.index)) = [(.buy, 10, 4), (.sell, 10, 6)])) =
            some true := by
    decide +kernel
  rcases exists_of_toOption _ evaluated with ⟨⟨result, after⟩, ran, trades⟩
  rcases registered_trades_follow_rule ran with ⟨⟨openLeg, trips, _⟩, priced, _⟩
  exact ⟨result, after, ran, of_decide_eq_true trades, ⟨openLeg, trips⟩, priced⟩

end PersonalTrade
