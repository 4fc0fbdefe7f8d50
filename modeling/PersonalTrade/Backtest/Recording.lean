import PersonalTrade.Backtest.Causality
import PersonalTrade.Strategy.Recording

/-!
# The calls of a backtest

A backtest of a strategy with a record of its calls is the backtest of the strategy.
Every call has the context of its bar.
-/

namespace PersonalTrade

variable {σ : Type}

/-- The variables of the loop without the record of the calls. -/
def Replay.forget (state : Replay (σ × List (Call σ))) : Replay σ where
  portfolio := state.portfolio
  trades := state.trades
  equityCurve := state.equityCurve
  unfilled := state.unfilled
  pending := state.pending
  memory := state.memory.1

theorem Replay.executePending_forget (params : BacktestParams) (bar : CandleRow × ℕ)
    (state : Replay (σ × List (Call σ))) :
    (state.executePending params bar).map Replay.forget =
      state.forget.executePending params bar := by
  rcases state with ⟨portfolio, trades, equityCurve, unfilled, pending, memory⟩
  cases pending with
  | none => rfl
  | some pending =>
      simp only [Replay.executePending, Replay.forget]
      cases executeSignal params pending.1 pending.2 bar.2 bar.1.ts bar.1.openPrice portfolio <;>
        rfl

namespace BacktestRun

/-- The run of the strategy with a record of its calls. -/
def recording (run : BacktestRun σ) : BacktestRun (σ × List (Call σ)) where
  strategy := run.strategy.recording
  params := run.params
  candles := run.candles
  series := run.series
  effectiveStart := run.effectiveStart

variable {run : BacktestRun σ} {bar : CandleRow × ℕ}
  {state next : Replay (σ × List (Call σ))}

theorem start_recording (sqrt : ℚ → ℚ) (strategy : Strategy σ) (candles : List CandleRow)
    (params : BacktestParams) : start sqrt strategy.recording candles params =
      (start sqrt strategy candles params).map recording := by
  rw [start, start]
  by_cases empty : candles = []
  · rw [if_pos empty, if_pos empty]
    rfl
  · rw [if_neg empty, if_neg empty]
    by_cases broke : params.initialCapital ≤ 0
    · rw [if_pos broke, if_pos broke]
      rfl
    · rw [if_neg broke, if_neg broke, Strategy.recording]
      simp only
      cases computeIndicatorSet sqrt candles strategy.requiredIndicators ∅ <;> rfl

theorem consult_recording (run : BacktestRun σ) (bar : CandleRow × ℕ)
    (state : Replay (σ × List (Call σ))) :
    (run.recording.consult bar state).map Replay.forget = run.consult bar state.forget := by
  rw [consult, consult]
  by_cases early : (bar.2 : ℤ) < run.effectiveStart
  · rw [if_pos early, recording, if_pos early]
    rfl
  · rw [if_neg early, recording, if_neg early]
    simp only [Strategy.recording, Replay.forget]
    change (Except.map Replay.forget ((run.strategy.onCandle (run.context bar state.portfolio)
      state.memory.1 >>= fun decision => _) >>= fun decision => _)) = _
    cases run.strategy.onCandle (run.context bar state.portfolio) state.memory.1 with
    | error raised => rfl
    | ok decision =>
        rcases decision with ⟨signal | signal, memory⟩
        · rfl
        · simp only [bind, Except.bind, pure, Except.pure]
          by_cases final : bar.2 + 1 = run.candles.length
          · rw [if_pos final, if_pos final]
            rfl
          · rw [if_neg final, if_neg final]
            rfl

theorem bar_recording (run : BacktestRun σ) (state : Replay (σ × List (Call σ)))
    (bar : CandleRow × ℕ) :
    (run.recording.bar state bar).map Replay.forget = run.bar state.forget bar := by
  rw [BacktestRun.bar, BacktestRun.bar, ← Replay.executePending_forget, recording]
  cases state.executePending run.params bar with
  | error raised => rfl
  | ok executed => exact consult_recording run bar (executed.mark bar)

theorem replay_recording (run : BacktestRun σ) (state : Replay (σ × List (Call σ)))
    (bars : List (CandleRow × ℕ)) :
    (run.recording.replay state bars).map Replay.forget = run.replay state.forget bars := by
  induction bars generalizing state with
  | nil => rfl
  | cons bar bars ih =>
      rw [replay, replay, List.foldlM_cons, List.foldlM_cons, ← bar_recording]
      cases run.recording.bar state bar with
      | error raised => rfl
      | ok next => exact ih next

end BacktestRun

/-- The record of the calls does not change a backtest. -/
theorem runBacktest_recording (sqrt : ℚ → ℚ) (strategy : Strategy σ) (memory : σ)
    (calls : List (Call σ)) (candles : List CandleRow) (params : BacktestParams) :
    (runBacktest sqrt strategy.recording (memory, calls) candles params).map
        (fun outcome => (outcome.1, outcome.2.1)) =
      runBacktest sqrt strategy memory candles params := by
  rw [runBacktest, runBacktest, BacktestRun.start_recording]
  cases BacktestRun.start sqrt strategy candles params with
  | error raised => rfl
  | ok run =>
      have replayed := run.replay_recording (run.recording.initial (memory, calls)) candles.zipIdx
      change Except.map _ (run.recording.replay (run.recording.initial (memory, calls))
        candles.zipIdx >>= fun final => _) = (run.replay (run.initial memory) candles.zipIdx >>=
          fun final => _)
      change _ = run.replay (run.initial memory) candles.zipIdx at replayed
      rw [← replayed]
      cases run.recording.replay (run.recording.initial (memory, calls)) candles.zipIdx <;> rfl

/-! ## The recorded calls -/

/-- What a turn of the loop adds to the record: the call of its bar, if the bar is not of the
warm-up. -/
structure Records (run : BacktestRun σ) (bar : CandleRow × ℕ) (portfolio : Portfolio)
    (before after : σ × List (Call σ)) (call : Call σ) : Prop where
  context : call.context = run.context bar portfolio
  memory : call.before = before.1
  decided : run.strategy.onCandle call.context call.before = .ok (call.signal, after.1)
  appended : after.2 = before.2 ++ [call]

namespace BacktestRun

variable {run : BacktestRun σ} {bar : CandleRow × ℕ} {bars : List (CandleRow × ℕ)}
  {state next : Replay (σ × List (Call σ))}

theorem memory_of_executePending {τ : Type} {params : BacktestParams} {executed state : Replay τ}
    (ok : state.executePending params bar = .ok executed) :
    executed.memory = state.memory := by
  rw [Replay.executePending] at ok
  split at ok
  · cases ok
    rfl
  · rcases except_bind_eq_ok.mp ok with ⟨filled, _, made⟩
    cases made
    rfl

/-- A turn of the loop makes no call in the warm-up, and one call after it. -/
theorem bar_calls (ok : run.recording.bar state bar = .ok next) :
    (bar.2 : ℤ) < run.effectiveStart ∧ next.memory = state.memory ∨
      run.effectiveStart ≤ bar.2 ∧
        ∃ call, Records run bar next.portfolio state.memory next.memory call := by
  rcases except_bind_eq_ok.mp ok with ⟨executed, executedOk, consulted⟩
  have portfolio := (consult_ledger consulted).1
  have executedMemory := memory_of_executePending executedOk
  have memory : (executed.mark bar).memory = state.memory := executedMemory
  rw [portfolio, ← memory]
  generalize executed.mark bar = marked at consulted
  rw [consult] at consulted
  by_cases early : (bar.2 : ℤ) < run.effectiveStart
  · rw [recording, if_pos early] at consulted
    cases consulted
    exact .inl ⟨early, rfl⟩
  · right
    rw [recording, if_neg early] at consulted
    refine ⟨not_lt.mp early, ?_⟩
    rcases except_bind_eq_ok.mp consulted with ⟨recorded, recordedOk, consulted⟩
    rcases except_bind_eq_ok.mp recordedOk with ⟨decision, decided, made⟩
    cases made
    refine ⟨⟨run.context bar marked.portfolio, marked.memory.1, decision.1⟩, rfl, rfl, ?_, ?_⟩
    · rcases decision with ⟨signal | signal, after⟩
      · cases consulted
        exact decided
      · simp only at consulted
        split at consulted <;> cases consulted <;> exact decided
    · rcases decision with ⟨signal | signal, after⟩
      · cases consulted
        rfl
      · simp only at consulted
        split at consulted <;> cases consulted <;> rfl

/-- One call for each bar that is not of the warm-up, with the context of the bar. -/
theorem replay_calls (ok : run.recording.replay state bars = .ok next) :
    ∃ calls, next.memory.2 = state.memory.2 ++ calls ∧
      List.Forall₂ (fun bar call => ∃ portfolio, call.context = run.context bar portfolio)
        (bars.filter fun bar => run.effectiveStart ≤ bar.2) calls := by
  induction bars generalizing state with
  | nil =>
      cases ok
      exact ⟨[], (List.append_nil _).symm, .nil⟩
  | cons bar bars ih =>
      rw [replay, List.foldlM_cons] at ok
      rcases except_bind_eq_ok.mp ok with ⟨middle, turned, rest⟩
      rcases ih rest with ⟨calls, appended, contexts⟩
      rcases bar_calls turned with ⟨early, same⟩ | ⟨late, call, recorded⟩
      · rw [same] at appended
        rw [List.filter_cons_of_neg (by simpa using early)]
        exact ⟨calls, appended, contexts⟩
      · rw [List.filter_cons_of_pos (by simpa using late)]
        refine ⟨call :: calls, ?_, .cons ⟨_, recorded.context⟩ contexts⟩
        rw [appended, recorded.appended, List.append_assoc, List.singleton_append]

end BacktestRun

theorem calls_of_ran {sqrt : ℚ → ℚ} {strategy : Strategy σ} {memory after : σ}
    {candles : List CandleRow} {params : BacktestParams} {result : BacktestResult}
    {calls : List (Call σ)}
    (ran : runBacktest sqrt strategy.recording (memory, []) candles params =
      .ok (result, after, calls)) :
    ∃ run, BacktestRun.start sqrt strategy candles params = .ok run ∧
      List.Forall₂ (fun bar call => ∃ portfolio, call.context = run.context bar portfolio)
        (candles.zipIdx.filter fun bar => run.effectiveStart ≤ bar.2) calls := by
  rw [runBacktest, BacktestRun.start_recording] at ran
  cases started : BacktestRun.start sqrt strategy candles params with
  | error raised =>
      rw [started] at ran
      cases ran
  | ok run =>
      rw [started] at ran
      rcases except_bind_eq_ok.mp ran with ⟨recorder, made, ran⟩
      cases made
      rcases except_bind_eq_ok.mp ran with ⟨final, replayed, made⟩
      rcases BacktestRun.replay_calls replayed with ⟨earlier, appended, contexts⟩
      simp only [pure, Except.pure, Except.ok.injEq, Prod.mk.injEq] at made
      rcases made with ⟨_, memory⟩
      rw [memory] at appended
      cases appended
      exact ⟨run, rfl, contexts⟩

/-- The calls of a backtest before its last bar, and the call of the last bar unless it is of the
warm-up. -/
theorem lastCall_of_ran {sqrt : ℚ → ℚ} {strategy : Strategy σ} {memory after : σ}
    {candles : List CandleRow} {last : CandleRow} {params : BacktestParams}
    {result : BacktestResult} {calls : List (Call σ)} (nonempty : candles.getLast? = some last)
    (ran : runBacktest sqrt strategy.recording (memory, []) candles params =
      .ok (result, after, calls)) :
    ∃ run earlier portfolio, BacktestRun.start sqrt strategy candles params = .ok run ∧
      result.finalPosition = Portfolio.asView portfolio ∧
      (∀ call ∈ earlier, call.context.index + 1 < candles.length) ∧
      (((candles.length - 1 : ℕ) : ℤ) < run.effectiveStart ∧ calls = earlier ∨
        run.effectiveStart ≤ (candles.length - 1 : ℕ) ∧ ∃ before call,
          Records run (last, candles.length - 1) portfolio (before, earlier) (after, calls)
            call) := by
  rcases List.getLast?_eq_some_iff.mp nonempty with ⟨earlierCandles, rfl⟩
  rw [runBacktest, BacktestRun.start_recording] at ran
  cases started : BacktestRun.start sqrt strategy (earlierCandles ++ [last]) params with
  | error raised =>
      rw [started] at ran
      cases ran
  | ok run =>
      rw [started] at ran
      rcases except_bind_eq_ok.mp ran with ⟨recorder, made, ran⟩
      cases made
      rcases except_bind_eq_ok.mp ran with ⟨final, replayed, made⟩
      rw [List.zipIdx_append, Nat.zero_add, List.zipIdx_singleton] at replayed
      rcases BacktestRun.replay_append replayed with ⟨middle, before, turned⟩
      rcases BacktestRun.replay_calls before with ⟨earlier, appended, contexts⟩
      rw [BacktestRun.replay, List.foldlM_cons] at turned
      rcases except_bind_eq_ok.mp turned with ⟨next, turned, done⟩
      cases done
      simp only [pure, Except.pure, Except.ok.injEq, Prod.mk.injEq] at made
      rcases made with ⟨rfl, memory⟩
      have length : (earlierCandles ++ [last]).length = earlierCandles.length + 1 :=
        List.length_append
      have inside : ∀ call ∈ earlier,
          call.context.index + 1 < (earlierCandles ++ [last]).length := by
        intro call mem
        rcases (exists_of_forall₂ contexts).2 call mem with ⟨bar, barMem, _, same⟩
        have := List.snd_lt_of_mem_zipIdx (List.mem_of_mem_filter barMem)
        have index : call.context.index = bar.2 := by
          rw [same]
          rfl
        omega
      refine ⟨run, earlier, final.portfolio, rfl, rfl, inside, ?_⟩
      rw [length, Nat.add_sub_cancel]
      have start : middle.memory.2 = earlier := appended
      rcases BacktestRun.bar_calls turned with ⟨early, same⟩ | ⟨late, call, recorded⟩
      · left
        refine ⟨early, ?_⟩
        rw [← start, ← same, memory]
      · right
        refine ⟨late, middle.memory.1, call, ?_⟩
        rw [← start, ← memory]
        exact recorded

end PersonalTrade
