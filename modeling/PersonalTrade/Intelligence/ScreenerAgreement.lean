import PersonalTrade.Backtest.Recording
import PersonalTrade.Intelligence.Screener
import PersonalTrade.Strategy.Strategies

/-!
# The screener and the backtest

The screener calls a new instance on the last candle, and a backtest calls on it an
instance that has seen the earlier candles. They differ where the instance remembers
a stop level that a new one would set otherwise.
-/

namespace PersonalTrade

variable {σ : Type}

/-- The screener returns the signal of the last bar of a backtest if and only if a new instance
decides in the context of its last call as the one of the backtest. -/
theorem latestSignal_eq_signalAt_iff {sqrt : ℚ → ℚ} {strategy : Strategy σ} {fresh memory after : σ}
    {candles : List CandleRow} {params : BacktestParams} {result : BacktestResult}
    {calls : List (Call σ)}
    (ran : runBacktest sqrt strategy.recording (memory, []) candles params =
      .ok (result, after, calls)) :
    (latestSignal sqrt strategy candles result.finalPosition fresh).map Prod.fst =
        .ok (signalAt calls (candles.length - 1)) ↔
      ∀ call ∈ calls, call.context.index + 1 = candles.length →
        (strategy.onCandle call.context fresh).map Prod.fst =
          (strategy.onCandle call.context call.before).map Prod.fst := by
  cases nonempty : candles.getLast? with
  | none =>
      rw [List.getLast?_eq_none_iff] at nonempty
      subst candles
      cases ran
  | some last =>
      rcases lastCall_of_ran nonempty ran with
        ⟨run, earlier, portfolio, started, position, inside, lastBar⟩
      rcases BacktestRun.start_eq_ok started with ⟨_, _, series, computed, rfl⟩
      have positive : 0 < candles.length := List.length_pos_of_mem (List.mem_of_getLast? nonempty)
      have unmatched :
          earlier.find? (fun call => call.context.index = candles.length - 1) = none := by
        rw [List.find?_eq_none]
        intro call mem
        have := inside call mem
        simp only [decide_eq_true_eq]
        omega
      rcases lastBar with ⟨early, rfl⟩ | ⟨late, before, call, recorded⟩
      · have warming : latestContext sqrt strategy candles result.finalPosition = .ok none := by
          simp only [latestContext, nonempty, computed, bind, Except.bind, if_pos early]
          rfl
        simp only [latestSignal, warming, bind, Except.bind, signalAt, unmatched]
        constructor
        · intro _ call mem final
          have := inside call mem
          omega
        · intro _
          rfl
      · have context : latestContext sqrt strategy candles result.finalPosition =
            .ok (some call.context) := by
          simp only [latestContext, nonempty, computed, bind, Except.bind,
            if_neg (not_lt.mpr late), recorded.context, position]
          rfl
        have index : call.context.index = candles.length - 1 := by
          rw [recorded.context, BacktestRun.context]
        have appended : calls = earlier ++ [call] := recorded.appended
        have own : signalAt calls (candles.length - 1) = call.signal := by
          simp [signalAt, appended, List.find?_append, unmatched, index]
        have decided : (strategy.onCandle call.context call.before).map Prod.fst =
            .ok call.signal := by
          have returned := recorded.decided
          simp only at returned
          rw [returned, Except.map]
        simp only [latestSignal, context, bind, Except.bind]
        rw [own, ← decided, appended]
        constructor
        · intro same other mem final
          rcases List.mem_append.mp mem with old | new
          · have := inside other old
            omega
          · rw [List.mem_singleton] at new
            subst other
            exact same
        · intro same
          apply same call (List.mem_append_right _ List.mem_cons_self)
          omega

/-- In a position, the stop that is remembered and the one that would be anchored at the bar are
on the same side of its close. -/
def EMAAtrStopParams.AnchorsAlike (params : EMAAtrStopParams) (context : StrategyContext)
    (stop : Option ℚ) : Prop :=
  ∀ reading, EMAAtrReading.ofContext context = .ok (some reading) → context.position.qty ≠ 0 →
    ∀ level ∈ stop,
      (reading.close ≤ level ↔ reading.close ≤ params.anchor context.position reading)

theorem emaAtrStop_fresh_iff {params : EMAAtrStopParams} {context : StrategyContext}
    {stop : Option ℚ} : ((emaAtrStop params).onCandle context none).map Prod.fst =
      ((emaAtrStop params).onCandle context stop).map Prod.fst ↔
      params.AnchorsAlike context stop := by
  simp only [emaAtrStop, EMAAtrStopParams.AnchorsAlike]
  rcases EMAAtrReading.ofContext context with raised | reading | reading
  · simp [bind, Except.bind, Except.map]
  · simp [bind, Except.bind, pure, Except.pure, Except.map]
  · simp only [bind, Except.bind, pure, Except.pure, Except.map, Except.ok.injEq,
      EMAAtrStopParams.decide_fst_eq_iff, Option.some.injEq, forall_eq']

/-- What the strategy remembers leads to the decision of a new instance. -/
def RegisteredStrategy.AnchorsAlike :
    (registered : RegisteredStrategy) → StrategyContext → registered.Memory → Prop
  | .emaAtrStop params => params.AnchorsAlike
  | .smaCrossover _ | .rsiMeanReversion _ => fun _ _ => True

theorem RegisteredStrategy.fresh_iff (registered : RegisteredStrategy) (context : StrategyContext)
    (memory : registered.Memory) :
    (registered.strategy.onCandle context registered.fresh).map Prod.fst =
      (registered.strategy.onCandle context memory).map Prod.fst ↔
      registered.AnchorsAlike context memory := by
  cases registered with
  | emaAtrStop params => exact emaAtrStop_fresh_iff
  | smaCrossover params => exact iff_of_true rfl trivial
  | rsiMeanReversion params => exact iff_of_true rfl trivial

/-- Ten shares for 1000 of capital, with the default costs and slippage. -/
def tenOfThousand : BacktestParams where
  initialCapital := 1000
  sizer _ _ := 10
  costRates := default

/-- A backtest whose record shows a signal at a bar. -/
theorem ran_of_signalAt {sqrt : ℚ → ℚ} {strategy : Strategy σ} {memory : σ}
    {candles : List CandleRow} {params : BacktestParams} {index : ℕ} {β : Type}
    {expected : β} (shown : BacktestResult → Option Signal → β)
    (evaluated : (runBacktest sqrt strategy.recording (memory, []) candles params).toOption.map
      (fun outcome => shown outcome.1 (signalAt outcome.2.2 index)) = some expected) :
    ∃ result after calls, runBacktest sqrt strategy.recording (memory, []) candles params =
      .ok (result, after, calls) ∧ shown result (signalAt calls index) = expected := by
  rcases exists_of_toOption _ evaluated with ⟨⟨result, after, calls⟩, ran, seen⟩
  exact ⟨result, after, calls, ran, seen⟩

/-- Three flat bars and a rise. -/
def risingClose : List CandleRow :=
  [flatBar 0 10, flatBar 86400000 10, flatBar 172800000 10, flatBar 259200000 12]

/-- A crossover of the closes over their average of two. -/
def closeOverAverage : RegisteredStrategy := .smaCrossover .shortest

/-- A position opened after the rise, anchored on a bar with a wide range, and a last bar without
any. -/
def quietClose : List CandleRow :=
  risingClose ++ [⟨345600000, 12, 13, 11, 12, 1, 0⟩, flatBar 432000000 12]

/-- The stop strategy on the same averages. -/
def stopBelowRange : RegisteredStrategy := .emaAtrStop .shortest

end PersonalTrade
