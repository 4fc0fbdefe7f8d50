import PersonalTrade.Intelligence.Screener
import PersonalTrade.Strategy.Strategies

/-!
# The screener is total

The indicators of a registered strategy are computed on every frame, so that the
screener never raises with it.
-/

namespace PersonalTrade

variable {sqrt : ℚ → ℚ}

/-- Declarations of one column each that are all computed. -/
theorem computeIndicatorSet_of_columns {candles : List CandleRow}
    {specs : List (String × IndicatorSpec)}
    (columns : ∀ item ∈ specs, ∃ series,
      indicatorColumns sqrt candles item.1 item.2 = .ok [(item.1, series)])
    (result : SeriesByName) :
    ∃ series, computeIndicatorSet sqrt candles specs result = .ok series ∧
      ∀ name, name ∈ specs.map Prod.fst ∨ name ∈ result → name ∈ series := by
  induction specs generalizing result with
  | nil => exact ⟨result, rfl, fun name mem => mem.resolve_left List.not_mem_nil⟩
  | cons item specs ih =>
      rcases columns item List.mem_cons_self with ⟨column, computed⟩
      rcases ih (fun later mem => columns later (List.mem_cons_of_mem _ mem))
        (result.insert item.1 column) with ⟨series, rest, names⟩
      refine ⟨series, ?_, ?_⟩
      · simp only [computeIndicatorSet, computed, bind, Except.bind, setColumns, List.foldl_cons,
          List.foldl_nil, rest]
      · intro name mem
        apply names
        rw [AList.mem_insert]
        rw [List.map_cons, List.mem_cons] at mem
        rcases mem with (own | later) | old
        · exact .inr (.inl own)
        · exact .inl later
        · exact .inr (.inr old)

theorem RegisteredStrategy.columns_ok (sqrt : ℚ → ℚ) (registered : RegisteredStrategy)
    (candles : List CandleRow) : ∀ item ∈ registered.strategy.requiredIndicators, ∃ series,
      indicatorColumns sqrt candles item.1 item.2 = .ok [(item.1, series)] := by
  have single {computed : Except PyError Series} {name : String} {series : Series}
      (ok : computed = .ok series) : ∃ series,
        (do let output ← computed; pure [(name, output)]) =
          (.ok [(name, series)] : Except PyError (List (String × Series))) := by
    rw [ok]
    exact ⟨series, rfl⟩
  intro item mem
  cases registered with
  | smaCrossover params =>
      have := params.one_le_fastPeriod
      have := params.two_le_slowPeriod
      simp only [RegisteredStrategy.strategy, PersonalTrade.smaCrossover, List.mem_cons,
        List.not_mem_nil, or_false] at mem
      rcases mem with rfl | rfl
      · exact single (sma_eq_ok.mpr ⟨by omega, rfl⟩)
      · exact single (sma_eq_ok.mpr ⟨by omega, rfl⟩)
  | emaAtrStop params =>
      have := params.one_le_fastPeriod
      have := params.two_le_slowPeriod
      have := params.one_le_atrPeriod
      simp only [RegisteredStrategy.strategy, PersonalTrade.emaAtrStop, List.mem_cons,
        List.not_mem_nil, or_false] at mem
      rcases mem with rfl | rfl | rfl
      · exact single (ema_eq_ok.mpr ⟨by omega, rfl⟩)
      · exact single (ema_eq_ok.mpr ⟨by omega, rfl⟩)
      · exact single (atr_eq_ok.mpr ⟨by omega, rfl⟩)
  | rsiMeanReversion params =>
      have := params.two_le_rsiPeriod
      simp only [RegisteredStrategy.strategy, PersonalTrade.rsiMeanReversion, List.mem_cons,
        List.not_mem_nil, or_false] at mem
      subst item
      exact single (rsi_eq_ok.mpr ⟨by omega, rfl⟩)

/-- A context in which some indicators and the close of the bar can be read. -/
structure StrategyContext.Supplies (context : StrategyContext) (names : List String) : Prop where
  values : ∀ name ∈ names, ∃ value, context.indicators.value name = .ok value
  windows : ∀ name ∈ names, ∀ n, ∃ window, context.indicators.window name n = .ok window
  close : ∃ close, context.close = .ok close

theorem StrategyContext.Supplies.lastTwo {context : StrategyContext} {names : List String}
    (supplies : context.Supplies names) (name : String) (mem : name ∈ names) :
    ∃ pair, context.indicators.lastTwo name = .ok pair := by
  rcases supplies.values name mem with ⟨value, valueOk⟩
  rcases supplies.windows name mem 2 with ⟨window, windowOk⟩
  rw [IndicatorView.lastTwo, valueOk, windowOk]
  simp only [bind, Except.bind]
  split <;> exact ⟨_, rfl⟩

/-- The context of the last candle supplies a registered strategy with its indicators. -/
theorem RegisteredStrategy.latestContext_ok (sqrt : ℚ → ℚ) (registered : RegisteredStrategy)
    (candles : List CandleRow) (position : PositionView) :
    ∃ context, latestContext sqrt registered.strategy candles position = .ok context ∧
      ∀ present ∈ context, present.position = position ∧
        present.Supplies (registered.strategy.requiredIndicators.map Prod.fst) := by
  rw [latestContext]
  cases nonempty : candles.getLast? with
  | none => exact ⟨none, rfl, nofun⟩
  | some last =>
      rcases computeIndicatorSet_of_columns (registered.columns_ok sqrt candles) ∅ with
        ⟨series, computed, names⟩
      simp only [computed, bind, Except.bind]
      split
      · exact ⟨none, rfl, nofun⟩
      · refine ⟨_, rfl, ?_⟩
        intro present mem
        rw [Option.mem_some_iff] at mem
        subst present
        have found : ∀ name ∈ registered.strategy.requiredIndicators.map Prod.fst,
            ∃ values, series.lookup name = some values := by
          intro name mem
          exact Option.isSome_iff_exists.mp (AList.lookup_isSome.mpr (names name (.inl mem)))
        refine ⟨rfl, ?_, ?_, ?_⟩
        · intro name mem
          rcases found name mem with ⟨values, lookup⟩
          simp only [batchIndicatorView, lookup]
          exact ⟨_, rfl⟩
        · intro name mem n
          rcases found name mem with ⟨values, lookup⟩
          simp only [batchIndicatorView, lookup]
          exact ⟨_, rfl⟩
        · have positive : 0 < candles.length :=
            List.length_pos_of_mem (List.mem_of_getLast? nonempty)
          rw [StrategyContext.close]
          simp only [Nat.sub_add_cancel positive, List.take_length, nonempty]
          exact ⟨_, rfl⟩

/-- The readings of the stop strategy never raise where its indicators are supplied. -/
theorem EMAAtrReading.ofContext_ok {context : StrategyContext}
    (supplies : context.Supplies ["fast", "slow", "atr"]) :
    ∃ reading, EMAAtrReading.ofContext context = .ok reading := by
  rcases supplies.lastTwo "fast" (by decide) with ⟨fast, fastOk⟩
  rcases supplies.lastTwo "slow" (by decide) with ⟨slow, slowOk⟩
  rcases supplies.values "atr" (by decide) with ⟨atr, atrOk⟩
  rcases supplies.close with ⟨close, closeOk⟩
  rw [ofContext, fastOk, slowOk, atrOk]
  simp only [bind, Except.bind, closeOk]
  split <;> exact ⟨_, rfl⟩

theorem smaCrossover_onCandle_ok (params : SMACrossoverParams) {context : StrategyContext}
    (supplies : context.Supplies ["fast", "slow"]) (memory : Unit) :
    ∃ decision, (smaCrossover params).onCandle context memory = .ok decision := by
  rcases supplies.lastTwo "fast" (by decide) with ⟨fast, fastOk⟩
  rcases supplies.lastTwo "slow" (by decide) with ⟨slow, slowOk⟩
  rcases supplies.close with ⟨close, closeOk⟩
  simp only [smaCrossover, fastOk, slowOk, closeOk, bind, Except.bind]
  split
  · split
    · exact ⟨_, rfl⟩
    · split <;> exact ⟨_, rfl⟩
  · exact ⟨_, rfl⟩

theorem rsiMeanReversion_onCandle_ok (params : RSIMeanReversionParams) {context : StrategyContext}
    (supplies : context.Supplies ["rsi"]) (memory : Unit) :
    ∃ decision, (rsiMeanReversion params).onCandle context memory = .ok decision := by
  rcases supplies.lastTwo "rsi" (by decide) with ⟨rsi, rsiOk⟩
  rcases supplies.close with ⟨close, closeOk⟩
  simp only [rsiMeanReversion, rsiOk, closeOk, bind, Except.bind]
  split
  · split
    · exact ⟨_, rfl⟩
    · split <;> exact ⟨_, rfl⟩
  · exact ⟨_, rfl⟩

/-- The screener never raises with a registered strategy. -/
theorem RegisteredStrategy.latestSignal_ok (registered : RegisteredStrategy) (sqrt : ℚ → ℚ)
    (candles : List CandleRow) (position : PositionView) (memory : registered.Memory) :
    ∃ decision, latestSignal sqrt registered.strategy candles position memory = .ok decision := by
  rcases registered.latestContext_ok sqrt candles position with ⟨context, ok, supplied⟩
  rw [latestSignal, ok]
  cases context with
  | none => exact ⟨_, rfl⟩
  | some context =>
      have supplies := (supplied context rfl).2
      cases registered with
      | smaCrossover params => exact smaCrossover_onCandle_ok params supplies memory
      | rsiMeanReversion params => exact rsiMeanReversion_onCandle_ok params supplies memory
      | emaAtrStop params =>
          rcases EMAAtrReading.ofContext_ok supplies with ⟨reading, readingOk⟩
          simp only [bind, Except.bind, RegisteredStrategy.strategy, PersonalTrade.emaAtrStop,
            readingOk]
          cases reading <;> exact ⟨_, rfl⟩

end PersonalTrade
