import PersonalTrade.Backtest.Conservation

/-!
# No look-ahead in a backtest

Two runs on candles that agree up to a bar make the same decisions and the same fills
up to it. They part at the last common bar at the earliest, and only in what becomes
of a signal emitted there: it stays pending in one run and is unfilled in the other.
-/

namespace PersonalTrade

variable {σ : Type}

/-- Two runs that read the same in their first `count` bars. -/
structure BacktestRun.AgreeUpTo (run run' : BacktestRun σ) (count : ℕ) : Prop where
  strategy : run.strategy = run'.strategy
  params : run.params = run'.params
  candles : run.candles.take count = run'.candles.take count
  long : count ≤ run.candles.length
  long' : count ≤ run'.candles.length
  views : ∀ index < count,
    batchIndicatorView run.series index = batchIndicatorView run'.series index
  starts : ∀ index : ℕ, index < count →
    ((index : ℤ) < run.effectiveStart ↔ (index : ℤ) < run'.effectiveStart)

theorem BacktestRun.agreeUpTo_of_start {sqrt : ℚ → ℚ} {strategy : Strategy σ}
    {candles candles' : List CandleRow} {params : BacktestParams} {run run' : BacktestRun σ}
    {count : ℕ} (long : count ≤ candles.length) (long' : count ≤ candles'.length)
    (agree : candles.take count = candles'.take count)
    (started : BacktestRun.start sqrt strategy candles params = .ok run)
    (started' : BacktestRun.start sqrt strategy candles' params = .ok run') :
    run.AgreeUpTo run' count := by
  rcases start_eq_ok started with ⟨_, _, series, computed, rfl⟩
  rcases start_eq_ok started' with ⟨_, _, series', computed', rfl⟩
  rcases computeIndicatorSet_cases sqrt strategy.requiredIndicators with fails |
    ⟨columns, causal, always⟩
  · rcases fails candles ∅ with ⟨raised, failed⟩
    rw [failed] at computed
    cases computed
  rw [always, Except.ok.injEq] at computed computed'
  subst series series'
  have seriesAgree := agreeUpTo_setColumns causal agree
  have length := hasLength_setColumns causal candles
  have length' := hasLength_setColumns causal candles'
  refine ⟨rfl, rfl, agree, long, long', fun index within =>
    seriesAgree.batchIndicatorView within, fun index within => ?_⟩
  have first := seriesAgree.firstAllValidIndex_le_iff length length' within (by omega) (by omega)
  simp only [lt_max_iff, Nat.cast_lt]
  apply or_congr_right
  rw [← not_le, ← not_le]
  exact not_congr first

namespace BacktestRun.AgreeUpTo

variable {run run' : BacktestRun σ} {count : ℕ}

theorem context (agree : run.AgreeUpTo run' count) {bar : CandleRow × ℕ} (within : bar.2 < count)
    (portfolio : Portfolio) : run.context bar portfolio = run'.context bar portfolio := by
  have candles : run.candles.take (bar.2 + 1) = run'.candles.take (bar.2 + 1) := by
    have shorter := congrArg (List.take (bar.2 + 1)) agree.candles
    rwa [List.take_take, List.take_take, Nat.min_eq_left (Nat.succ_le_of_lt within)] at shorter
  simp only [BacktestRun.context, candles, agree.views bar.2 within]

/-- Before the last common bar the two runs do the same. -/
theorem bar_eq (agree : run.AgreeUpTo run' count) {bar : CandleRow × ℕ}
    (within : bar.2 + 1 < count) (state : Replay σ) : run.bar state bar = run'.bar state bar := by
  have early : bar.2 < count := by omega
  have notFinal : ¬ bar.2 + 1 = run.candles.length := by
    have := agree.long
    omega
  have notFinal' : ¬ bar.2 + 1 = run'.candles.length := by
    have := agree.long'
    omega
  simp only [BacktestRun.bar, consult, agree.params, agree.strategy, agree.context early,
    agree.starts bar.2 early, if_neg notFinal, if_neg notFinal']

end BacktestRun.AgreeUpTo

/-! ## What a bar records -/

/-- The trades and equity points up to a bar. -/
def Replay.recorded (count : ℕ) (state : Replay σ) : List ExecutedTrade × List EquityPoint :=
  (state.trades.filter (·.index < count), state.equityCurve.filter (·.index < count))

theorem index_of_executeSignal {params : BacktestParams} {signal : Signal}
    {signalIndex fillIndex : ℕ} {fillTs : ℤ} {rawOpenPrice : ℚ} {portfolio : Portfolio}
    {executed : Portfolio × Option ExecutedTrade}
    (ok : executeSignal params signal signalIndex fillIndex fillTs rawOpenPrice portfolio =
      .ok executed) : ∀ trade ∈ executed.2.toList, trade.index = fillIndex := by
  intro trade mem
  rw [executeSignal] at ok
  split at ok
  · cases ok
    cases mem
  · rcases except_bind_eq_ok.mp ok with ⟨filled, _, ok⟩
    cases ok
    rw [Option.mem_toList, Option.map_eq_some_iff] at mem
    rcases mem with ⟨leg, _, rfl⟩
    rfl

namespace BacktestRun

variable {run run' : BacktestRun σ} {count : ℕ} {bar : CandleRow × ℕ} {state next next' : Replay σ}

/-- A turn of the loop appends trades and an equity point of its own index. -/
theorem bar_records (ok : run.bar state bar = .ok next) :
    ∃ executed, state.executePending run.params bar = .ok executed ∧
      next.trades = executed.trades ∧ next.equityCurve = (executed.mark bar).equityCurve ∧
      executed.equityCurve = state.equityCurve ∧
      ∃ trades, executed.trades = state.trades ++ trades ∧
        ∀ trade ∈ trades, trade.index = bar.2 := by
  rcases except_bind_eq_ok.mp ok with ⟨executed, executedOk, consulted⟩
  rcases consult_ledger consulted with ⟨_, trades, equity⟩
  refine ⟨executed, executedOk, trades, equity, ?_⟩
  rw [Replay.executePending] at executedOk
  split at executedOk
  · cases executedOk
    exact ⟨rfl, [], (List.append_nil _).symm, fun _ mem => absurd mem List.not_mem_nil⟩
  · rcases except_bind_eq_ok.mp executedOk with ⟨filled, filledOk, executedOk⟩
    cases executedOk
    exact ⟨rfl, filled.2.toList, rfl, index_of_executeSignal filledOk⟩

theorem AgreeUpTo.bar_records (agree : run.AgreeUpTo run' count)
    (ok : run.bar state bar = .ok next) (ok' : run'.bar state bar = .ok next') :
    next.recorded count = next'.recorded count := by
  rcases run.bar_records ok with ⟨executed, executedOk, trades, equity, _⟩
  rcases run'.bar_records ok' with ⟨executed', executedOk', trades', equity', _⟩
  rw [← agree.params, executedOk, Except.ok.injEq] at executedOk'
  subst executed'
  rw [Replay.recorded, Replay.recorded, trades, equity, trades', equity']

theorem recorded_of_le (late : count ≤ bar.2) (ok : run.bar state bar = .ok next) :
    next.recorded count = state.recorded count := by
  rcases run.bar_records ok with ⟨executed, _, trades, equity, same, added, appended, index⟩
  have noTrade : added.filter (·.index < count) = [] := by
    apply List.filter_eq_nil_iff.mpr
    intro trade mem
    rw [index trade mem]
    simpa using late
  rw [Replay.recorded, Replay.recorded, trades, appended, equity, Replay.mark, same,
    List.filter_append, noTrade, List.append_nil, List.filter_append]
  simp [late]

theorem recorded_replay {bars : List (CandleRow × ℕ)} (late : ∀ bar ∈ bars, count ≤ bar.2)
    (ok : run.replay state bars = .ok next) : next.recorded count = state.recorded count := by
  induction bars generalizing state with
  | nil =>
      cases ok
      rfl
  | cons bar bars ih =>
      rw [replay, List.foldlM_cons] at ok
      rcases except_bind_eq_ok.mp ok with ⟨middle, turned, rest⟩
      rw [ih (fun later mem => late later (List.mem_cons_of_mem _ mem)) rest,
        recorded_of_le (late bar List.mem_cons_self) turned]

/-- Before the last common bar two runs go through the same states. -/
theorem AgreeUpTo.replay_eq (agree : run.AgreeUpTo run' count) {bars : List (CandleRow × ℕ)}
    (early : ∀ bar ∈ bars, bar.2 + 1 < count) (state : Replay σ) :
    run.replay state bars = run'.replay state bars := by
  induction bars generalizing state with
  | nil => rfl
  | cons bar bars ih =>
      rw [replay, replay, List.foldlM_cons, List.foldlM_cons,
        agree.bar_eq (early bar List.mem_cons_self)]
      apply bind_congr
      intro middle
      exact ih (fun later mem => early later (List.mem_cons_of_mem _ mem)) middle

theorem replay_append {bars later : List (CandleRow × ℕ)}
    (ok : run.replay state (bars ++ later) = .ok next) :
    ∃ middle, run.replay state bars = .ok middle ∧ run.replay middle later = .ok next := by
  rw [replay, List.foldlM_append] at ok
  exact except_bind_eq_ok.mp ok

theorem zipIdx_split {candles : List CandleRow} {last : ℕ} (within : last < candles.length) :
    candles.zipIdx = (candles.take last).zipIdx ++
      (candles[last], last) :: (candles.drop (last + 1)).zipIdx (last + 1) := by
  conv_lhs => rw [← List.take_append_drop last candles, List.drop_eq_getElem_cons within]
  rw [List.zipIdx_append, List.length_take, Nat.min_eq_left within.le, Nat.zero_add,
    List.zipIdx_cons]

theorem AgreeUpTo.recorded_eq (agree : run.AgreeUpTo run' count) {memory : σ}
    {final final' : Replay σ}
    (ok : run.replay (run.initial memory) run.candles.zipIdx = .ok final)
    (ok' : run'.replay (run'.initial memory) run'.candles.zipIdx = .ok final') :
    final.recorded count = final'.recorded count := by
  cases count with
  | zero => simp [Replay.recorded]
  | succ last =>
      have within : last < run.candles.length := agree.long
      have within' : last < run'.candles.length := agree.long'
      have earlier : run.candles.take last = run'.candles.take last := by
        have shorter := congrArg (List.take last) agree.candles
        rwa [List.take_take, List.take_take, Nat.min_eq_left (Nat.le_succ last)] at shorter
      have common : run.candles[last] = run'.candles[last] := by
        have same := congrArg (·[last]?) agree.candles
        simpa [within, within'] using same
      rw [zipIdx_split within] at ok
      rw [zipIdx_split within', ← earlier, ← common] at ok'
      rcases replay_append ok with ⟨before, first, rest⟩
      rcases replay_append ok' with ⟨before', first', rest'⟩
      have start : run.initial memory = run'.initial memory := by
        rw [initial, initial, agree.params]
      have early : ∀ bar ∈ (run.candles.take last).zipIdx, bar.2 + 1 < last + 1 := by
        intro bar mem
        have := List.snd_lt_of_mem_zipIdx mem
        rw [List.length_take] at this
        omega
      rw [agree.replay_eq early, start, first', Except.ok.injEq] at first
      subst before'
      rw [replay, List.foldlM_cons] at rest rest'
      rcases except_bind_eq_ok.mp rest with ⟨middle, turned, rest⟩
      rcases except_bind_eq_ok.mp rest' with ⟨middle', turned', rest'⟩
      have late : ∀ candles : List CandleRow, ∀ bar ∈ candles.zipIdx (last + 1),
          last + 1 ≤ bar.2 := fun _ _ mem => List.le_snd_of_mem_zipIdx mem
      rw [recorded_replay (late _) rest, recorded_replay (late _) rest',
        agree.bar_records turned turned']

end BacktestRun

/-- There is no look-ahead: two backtests of one configuration on candles that agree on their
first `count` bars have the same equity points and trades there. -/
theorem runBacktest_noLookAhead (sqrt : ℚ → ℚ) (strategy : Strategy σ) (memory : σ)
    (params : BacktestParams) {candles candles' : List CandleRow} {count : ℕ}
    {result result' : BacktestResult × σ} (long : count ≤ candles.length)
    (long' : count ≤ candles'.length) (agree : candles.take count = candles'.take count)
    (completes : runBacktest sqrt strategy memory candles params = .ok result)
    (completes' : runBacktest sqrt strategy memory candles' params = .ok result') :
    result.1.equityCurve.filter (·.index < count) =
      result'.1.equityCurve.filter (·.index < count) ∧
    result.1.trades.filter (·.index < count) = result'.1.trades.filter (·.index < count) := by
  rcases except_bind_eq_ok.mp completes with ⟨run, started, completes⟩
  rcases except_bind_eq_ok.mp completes with ⟨final, replayed, completes⟩
  rcases except_bind_eq_ok.mp completes' with ⟨run', started', completes'⟩
  rcases except_bind_eq_ok.mp completes' with ⟨final', replayed', completes'⟩
  cases completes
  cases completes'
  have runs := BacktestRun.agreeUpTo_of_start long long' agree started started'
  rcases BacktestRun.start_eq_ok started with ⟨_, _, series, _, rfl⟩
  rcases BacktestRun.start_eq_ok started' with ⟨_, _, series', _, rfl⟩
  have recorded := runs.recorded_eq replayed replayed'
  simp only [Replay.recorded, Prod.mk.injEq] at recorded
  exact ⟨recorded.2, recorded.1⟩

/-- A strategy that goes long above a moving average of two closes and exits below it. -/
def averageFollower : Strategy Unit where
  warmupBars := 0
  requiredIndicators := [("fast", .sma 2)]
  distinct := List.nodup_singleton _
  onCandle context memory := do
    let fast ← context.indicators.value "fast"
    let last := (context.candles.getLast?.map CandleRow.close).getD 0
    match fast with
    | none => pure (none, memory)
    | some fast =>
        if fast < last then pure (some ⟨.long, last, []⟩, memory)
        else pure (some ⟨.exit, last, []⟩, memory)

/-- Three rising bars. -/
def commonBars : List CandleRow := [flatBar 0 8, flatBar 86400000 9, flatBar 172800000 10]

theorem runBacktest_noLookAhead_sample :
    ∃ result result',
      runBacktest id averageFollower () (commonBars ++ [flatBar 259200000 40]) tenShares =
        .ok result ∧
      runBacktest id averageFollower () commonBars tenShares = .ok result' ∧
      result.1.equityCurve.filter (·.index < 3) = result'.1.equityCurve.filter (·.index < 3) ∧
      result.1.trades.filter (·.index < 3) = result'.1.trades.filter (·.index < 3) := by
  have whole : (runBacktest id averageFollower () (commonBars ++ [flatBar 259200000 40])
      tenShares).toOption.isSome := by
    decide +kernel
  have shorter : (runBacktest id averageFollower () commonBars tenShares).toOption.isSome := by
    decide +kernel
  rcases exists_of_isSome whole with ⟨result, ran⟩
  rcases exists_of_isSome shorter with ⟨result', ran'⟩
  exact ⟨result, result', ran, ran', runBacktest_noLookAhead id averageFollower () tenShares
    (by decide) (by decide) (by decide +kernel) ran ran'⟩

end PersonalTrade
