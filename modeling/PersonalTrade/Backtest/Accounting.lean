import PersonalTrade.Analytics.Breakdowns
import PersonalTrade.Backtest.Aggregate

/-!
# Accounting of a backtest

The trades of a backtest are its ledger: at every bar the portfolio is what the trades so far lead
to from the initial capital, and the equity point is that portfolio at the close. The equity is the
initial capital with the realized profit, the profit of the open position at the close, and what
partial covers waive: a cover that the cash clamps empties the short, but realizes the profit of
the covered shares only (`backtest_accounts`).
-/

namespace PersonalTrade

/-! ## Metrics -/

/-- `_closed_trade_pnls` of `backtest/metrics.py`. -/
def closedTradePnls (trades : List ExecutedTrade) : List ℚ :=
  trades.filterMap ExecutedTrade.realizedPnl

namespace EquitySeries

/-- `period_returns`. -/
def periodReturns (series : EquitySeries) : List ℚ :=
  (series.values.zip series.values.tail).map fun pair =>
    if pair.1 = 0 then 0 else pair.2 / pair.1 - 1

/-- `cagr`, over a power of rationals. -/
def cagr (power : ℚ → ℚ → ℚ) (series : EquitySeries) : ℚ :=
  match series.head?, series.getLast? with
  | some first, some last =>
      let days := (last.1 - first.1) / 86400000
      if series.length < 2 ∨ first.2 ≤ 0 ∨ days ≤ 0 then 0
      else if last.2 / first.2 ≤ 0 then -1
      else power (last.2 / first.2) (1 / (days / 365.25)) - 1
  | _, _ => 0

/-- `sharpe_ratio` at its default of 252 periods a year. -/
def sharpeRatio (sqrt : ℚ → ℚ) (series : EquitySeries) : ℚ :=
  let returns := series.periodReturns
  if returns.length < 2 then 0
  else
    let mean := returns.sum / returns.length
    let std := sqrt ((returns.map fun value => (value - mean) ^ 2).sum / (returns.length - 1))
    if std = 0 then 0 else mean / std * sqrt 252

end EquitySeries

structure BacktestMetrics where
  cagr : ℚ
  sharpe : ℚ
  maxDrawdown : ℚ
  winRate : ℚ
  expectancy : ℚ
  profitFactor : WithTop ℚ
  totalTrades : ℕ
  closedTrades : ℕ

/-- `compute_metrics_from_series`. -/
def computeMetricsFromSeries (power : ℚ → ℚ → ℚ) (sqrt : ℚ → ℚ) (series : EquitySeries)
    (trades : List ExecutedTrade) : BacktestMetrics where
  cagr := series.cagr power
  sharpe := series.sharpeRatio sqrt
  maxDrawdown := maxDrawdown series
  winRate := winRate (closedTradePnls trades)
  expectancy := expectancy (closedTradePnls trades)
  profitFactor := profitFactor (closedTradePnls trades)
  totalTrades := trades.length
  closedTrades := (closedTradePnls trades).length

/-- `compute_metrics`. -/
def computeMetrics (power : ℚ → ℚ → ℚ) (sqrt : ℚ → ℚ) (equityCurve : List EquityPoint)
    (trades : List ExecutedTrade) : BacktestMetrics :=
  computeMetricsFromSeries power sqrt (equityCurve.map fun point => (point.ts, point.equity)) trades

/-! ## The ledger -/

namespace Portfolio

/-- What an executed trade does to a portfolio. -/
def settle (portfolio : Portfolio) (trade : ExecutedTrade) : Portfolio :=
  if trade.realizedPnl.isSome then portfolio.close trade.side trade.costs.netAmount
  else portfolio.openOrAdd trade.side trade.qty trade.costs.netAmount

/-- The cash and the position at its cost. -/
def bookValue (portfolio : Portfolio) : ℚ := portfolio.cash + portfolio.qty * portfolio.avgPrice

/-- The cost of the shares that are left of a position when a closing trade empties it. -/
def waives (portfolio : Portfolio) (trade : ExecutedTrade) : ℚ :=
  if trade.realizedPnl.isSome then -(portfolio.avgPrice * (portfolio.qty + trade.signed)) else 0

/-- What some trades waive from a portfolio on. -/
def waived : Portfolio → List ExecutedTrade → ℚ
  | _, [] => 0
  | portfolio, trade :: trades => portfolio.waives trade + (portfolio.settle trade).waived trades

/-- The equity point of a bar. -/
def pointAt (bar : CandleRow × ℕ) (portfolio : Portfolio) : EquityPoint where
  index := bar.2
  ts := bar.1.ts
  cash := portfolio.cash
  positionQty := portfolio.qty
  positionValue := portfolio.qty * bar.1.close
  equity := portfolio.equity bar.1.close

/-- A portfolio can execute a trade: an opening one when it is flat, and one that realizes the
profit of its position. -/
structure Executes (portfolio : Portfolio) (trade : ExecutedTrade) : Prop where
  positive : 0 < trade.qty
  opens : trade.realizedPnl = none → portfolio.qty = 0
  closes : ∀ pnl, trade.realizedPnl = some pnl → portfolio.qty ≠ 0 ∧
    pnl = portfolio.realized trade.side trade.qty trade.costs.netAmount

variable {portfolio : Portfolio} {trade : ExecutedTrade}

theorem bookValue_openOrAdd (flat : portfolio.qty = 0) {side : Side} {qty : ℕ}
    (positive : 0 < qty) (netAmount : ℚ) :
    (portfolio.openOrAdd side qty netAmount).bookValue = portfolio.bookValue := by
  have whole : (qty : ℚ) * (netAmount / qty) = netAmount := by
    apply mul_div_cancel₀
    exact_mod_cast positive.ne'
  rw [openOrAdd, if_pos flat, bookValue, bookValue, flat]
  cases side with
  | buy => simp [signedQty, whole]
  | sell => simp [signedQty, whole]

theorem bookValue_close (side : Side) (qty : ℕ) (netAmount : ℚ) :
    (portfolio.close side netAmount).bookValue =
      portfolio.bookValue + portfolio.realized side qty netAmount -
        portfolio.avgPrice * (portfolio.qty + PersonalTrade.signedQty side qty) := by
  cases side with
  | buy =>
      simp only [close, bookValue, realized, PersonalTrade.signedQty, reduceCtorEq, if_false,
        if_true]
      push_cast
      ring
  | sell =>
      simp only [close, bookValue, realized, PersonalTrade.signedQty, reduceCtorEq, if_false,
        if_true]
      push_cast
      ring

/-- A trade moves the book value by its profit and by what it waives. -/
theorem Executes.bookValue_settle (executes : portfolio.Executes trade) :
    (portfolio.settle trade).bookValue =
      portfolio.bookValue + trade.realizedPnl.getD 0 + portfolio.waives trade := by
  cases made : trade.realizedPnl with
  | none =>
      rw [settle, waives, made]
      simpa using bookValue_openOrAdd (executes.opens made) executes.positive _
  | some pnl =>
      rw [settle, waives, made, Option.isSome_some, if_pos rfl, if_pos rfl, Option.getD_some,
        (executes.closes pnl made).2, bookValue_close trade.side trade.qty, ExecutedTrade.signed]
      ring

theorem waived_append (trades later : List ExecutedTrade) (portfolio : Portfolio) :
    portfolio.waived (trades ++ later) =
      portfolio.waived trades + (trades.foldl settle portfolio).waived later := by
  induction trades generalizing portfolio with
  | nil => simp [waived]
  | cons trade trades ih =>
      rw [List.cons_append, waived, waived, List.foldl_cons, ih, add_assoc]

end Portfolio

/-- The portfolio that trades lead to from an initial capital. -/
def ledger (initialCapital : ℚ) (trades : List ExecutedTrade) : Portfolio :=
  trades.foldl Portfolio.settle { cash := initialCapital }

/-- What some trades waive from an initial capital on. -/
def waivedBy (initialCapital : ℚ) (trades : List ExecutedTrade) : ℚ :=
  Portfolio.waived { cash := initialCapital } trades

/-- The book value of a ledger is the capital with the realized profit and what is waived. -/
def BooksAgree (initialCapital : ℚ) (trades : List ExecutedTrade) : Prop :=
  (ledger initialCapital trades).bookValue =
    initialCapital + (closedTradePnls trades).sum + waivedBy initialCapital trades

section Ledger

variable {initialCapital : ℚ} {trades : List ExecutedTrade} {trade : ExecutedTrade}

theorem ledger_concat : ledger initialCapital (trades ++ [trade]) =
    (ledger initialCapital trades).settle trade := by
  rw [ledger, List.foldl_append, List.foldl_cons, List.foldl_nil, ledger]

theorem waivedBy_concat : waivedBy initialCapital (trades ++ [trade]) =
    waivedBy initialCapital trades + (ledger initialCapital trades).waives trade := by
  rw [waivedBy, Portfolio.waived_append, Portfolio.waived, Portfolio.waived, add_zero]
  rfl

theorem BooksAgree.concat (agree : BooksAgree initialCapital trades)
    (executes : (ledger initialCapital trades).Executes trade) :
    BooksAgree initialCapital (trades ++ [trade]) := by
  have pnls : (closedTradePnls (trades ++ [trade])).sum =
      (closedTradePnls trades).sum + trade.realizedPnl.getD 0 := by
    rw [closedTradePnls, List.filterMap_append, List.sum_append]
    cases made : trade.realizedPnl with
    | none => simp [closedTradePnls, made]
    | some pnl => simp [closedTradePnls, made]
  rw [BooksAgree, ledger_concat, executes.bookValue_settle, waivedBy_concat, pnls, agree]
  ring

/-- Every closing trade is the second of two, and a position that is not flat has the last one. -/
def Paired (initialCapital : ℚ) (trades : List ExecutedTrade) : Prop :=
  trades.length = 2 * (closedTradePnls trades).length +
    if (ledger initialCapital trades).qty = 0 then 0 else 1

theorem Paired.concat (paired : Paired initialCapital trades)
    (executes : (ledger initialCapital trades).Executes trade) :
    Paired initialCapital (trades ++ [trade]) := by
  rw [Paired, ledger_concat, closedTradePnls, List.filterMap_append, List.length_append,
    List.length_append, paired, ← closedTradePnls, Portfolio.settle]
  cases made : trade.realizedPnl with
  | none =>
      have flat := executes.opens made
      have positive := executes.positive
      have held : signedQty trade.side trade.qty ≠ 0 := by
        rw [← Int.natAbs_ne_zero, natAbs_signedQty]
        exact positive.ne'
      simp [flat, made, Portfolio.openOrAdd, held]
  | some pnl =>
      have held := (executes.closes pnl made).1
      simp [held, made, Portfolio.close]
      omega

/-- A trade waives nothing if the position is emptied by its quantity. -/
theorem waives_eq_zero {portfolio : Portfolio}
    (whole : (portfolio.settle trade).qty = portfolio.qty + trade.signed) :
    portfolio.waives trade = 0 := by
  rw [Portfolio.waives]
  split_ifs with closes
  · rw [Portfolio.settle, if_pos closes] at whole
    have emptied : ((portfolio.qty + trade.signed : ℤ) : ℚ) = 0 := by
      rw [← whole]
      rfl
    push_cast at emptied
    rw [emptied, mul_zero, neg_zero]
  · rfl

end Ledger

/-! ## Runs -/

variable {σ : Type}

/-- A signal is ignored or executed as one trade. -/
theorem executeSignal_settles {params : BacktestParams} {signal : Signal}
    {signalIndex fillIndex : ℕ} {fillTs : ℤ} {rawOpenPrice : ℚ} {portfolio portfolio' : Portfolio}
    {executed : Option ExecutedTrade}
    (ok : executeSignal params signal signalIndex fillIndex fillTs rawOpenPrice portfolio =
      .ok (portfolio', executed)) :
    (executed = none ∧ portfolio' = portfolio) ∨
      ∃ trade, executed = some trade ∧ portfolio' = portfolio.settle trade ∧
        portfolio.Executes trade := by
  rw [executeSignal] at ok
  cases resolved : resolveAction portfolio.qty signal.direction with
  | none =>
      rw [resolved] at ok
      cases ok
      exact .inl ⟨rfl, rfl⟩
  | some action =>
      rcases action with ⟨side, closing⟩
      rw [resolved] at ok
      rcases except_bind_eq_ok.mp ok with ⟨⟨filled, leg⟩, filledOk, ok⟩
      cases ok
      rcases Portfolio.fill_cases filledOk with ⟨rfl, rfl, _⟩ | ⟨qty, positive, _, _, _, rfl, rfl⟩
      · exact .inl ⟨rfl, rfl⟩
      · refine .inr ⟨_, rfl, ?_, ⟨positive, ?_, ?_⟩⟩
        · cases closing <;> rfl
        · intro opens
          rcases resolveAction_eq_some resolved with ⟨_, flat⟩ | ⟨rfl, _⟩
          · exact flat
          · cases opens
        · intro pnl realized
          cases closing with
          | false => cases realized
          | true =>
              cases realized
              refine ⟨?_, rfl⟩
              rcases resolveAction_eq_some resolved with ⟨opens, _⟩ | ⟨_, _, ⟨_, long⟩ | ⟨_, short⟩⟩
              · cases opens
              · exact long.ne'
              · exact short.ne

theorem Replay.executePending_settles {params : BacktestParams} {bar : CandleRow × ℕ}
    {state state' : Replay σ} (ok : state.executePending params bar = .ok state') :
    (state'.trades = state.trades ∧ state'.portfolio = state.portfolio) ∨
      ∃ trade, state'.trades = state.trades ++ [trade] ∧
        state'.portfolio = state.portfolio.settle trade ∧ state.portfolio.Executes trade := by
  rw [executePending] at ok
  cases pending : state.pending with
  | none =>
      rw [pending] at ok
      cases ok
      exact .inl ⟨rfl, rfl⟩
  | some entry =>
      rw [pending] at ok
      rcases except_bind_eq_ok.mp ok with ⟨⟨portfolio, executed⟩, executedOk, ok⟩
      cases ok
      rcases executeSignal_settles executedOk with ⟨rfl, rfl⟩ | ⟨trade, rfl, rfl, executes⟩
      · exact .inl ⟨List.append_nil _, rfl⟩
      · exact .inr ⟨trade, rfl, rfl, executes⟩

/-- The portfolio of a state is the ledger of its trades, whose books agree. -/
structure Replay.Accounts (initialCapital : ℚ) (count : ℕ) (state : Replay σ) : Prop where
  portfolio : state.portfolio = ledger initialCapital state.trades
  agree : BooksAgree initialCapital state.trades
  paired : Paired initialCapital state.trades
  early : ∀ trade ∈ state.trades, trade.index < count

section Reached

variable {sqrt : ℚ → ℚ} {strategy : Strategy σ} {memory : σ} {candles : List CandleRow}
  {params : BacktestParams} {count : ℕ} {state next : Replay σ}

theorem Replay.Accounts.bar {run : BacktestRun σ} {initialCapital : ℚ} {bar : CandleRow × ℕ}
    (accounts : state.Accounts initialCapital bar.2) (ok : run.bar state bar = .ok next) :
    next.Accounts initialCapital (bar.2 + 1) := by
  rcases run.bar_records ok with ⟨executed, executedOk, trades, _, _, added, appended, index⟩
  rcases run.bar_ledger ok with ⟨executed', executedOk', portfolio, _⟩
  rw [executedOk, Except.ok.injEq] at executedOk'
  subst executed'
  have early : ∀ trade ∈ next.trades, trade.index < bar.2 + 1 := by
    intro trade mem
    rw [trades, appended] at mem
    rcases List.mem_append.mp mem with old | new
    · exact (accounts.early trade old).trans (Nat.lt_succ_self _)
    · rw [index trade new]
      exact Nat.lt_succ_self _
  rcases Replay.executePending_settles executedOk with ⟨same, kept⟩ |
    ⟨trade, traded, settled, executes⟩
  · rw [← trades] at same
    refine ⟨?_, ?_, ?_, early⟩
    · rw [portfolio, kept, same]
      exact accounts.portfolio
    · rw [same]
      exact accounts.agree
    · rw [same]
      exact accounts.paired
  · rw [accounts.portfolio] at executes settled
    rw [← trades] at traded
    refine ⟨?_, ?_, ?_, early⟩
    · rw [portfolio, traded, settled, ledger_concat]
    · rw [traded]
      exact accounts.agree.concat executes
    · rw [traded]
      exact accounts.paired.concat executes

theorem Replay.Accounts.initial (run : BacktestRun σ) (memory : σ) :
    (run.initial memory).Accounts run.params.initialCapital 0 where
  portfolio := rfl
  agree := by
    simp [BooksAgree, ledger, Portfolio.bookValue, closedTradePnls, waivedBy, Portfolio.waived,
      BacktestRun.initial]
  paired := rfl
  early _ mem := absurd mem List.not_mem_nil

theorem Reached.accounts (within : count ≤ candles.length)
    (reached : Reached sqrt strategy memory candles params count state) :
    state.Accounts params.initialCapital count := by
  apply reached.invariant (motive := fun count state =>
    state.Accounts params.initialCapital count) _ _ within
  · intro run started
    rcases BacktestRun.start_eq_ok started with ⟨_, _, _, _, rfl⟩
    exact Replay.Accounts.initial ⟨strategy, params, candles, _, _⟩ memory
  · intro run index candle before after _ _ _ _ turned accounts
    exact accounts.bar turned

/-- Where shares are conserved, no trade waives anything. -/
theorem Reached.waives_nothing
    (conserves : ∀ count state, Reached sqrt strategy memory candles params count state →
      state.Conserves)
    (within : count ≤ candles.length)
    (reached : Reached sqrt strategy memory candles params count state) :
    waivedBy params.initialCapital state.trades = 0 := by
  apply reached.invariant (motive := fun _ state =>
    waivedBy params.initialCapital state.trades = 0) _ _ within
  · exact fun _ _ => rfl
  · intro run index candle before after _ following reachedBefore reachedAfter turned nothing
    have bound : index < candles.length := (List.getElem?_eq_some_iff.mp following).1
    have accounts := reachedBefore.accounts bound.le
    rcases run.bar_ledger turned with ⟨executed, executedOk, portfolio, trades⟩
    rcases Replay.executePending_settles executedOk with ⟨same, _⟩ |
      ⟨trade, traded, settled, _⟩
    · rw [trades, same, nothing]
    · rw [trades, traded, waivedBy_concat, nothing, zero_add, ← accounts.portfolio]
      apply waives_eq_zero
      have position := (conserves _ _ reachedAfter).position
      rw [portfolio, trades, traded, settled, List.map_append, List.sum_append,
        ← (conserves _ _ reachedBefore).position] at position
      simpa using position

/-- A turn of the loop marks the ledger of its trades at its close. -/
theorem Reached.getLast?_curve {candle : CandleRow} (following : candles[count]? = some candle)
    (reached : Reached sqrt strategy memory candles params (count + 1) state) :
    state.equityCurve.getLast? =
      some ((ledger params.initialCapital state.trades).pointAt (candle, count)) := by
  have within : count < candles.length := (List.getElem?_eq_some_iff.mp following).1
  have bar : candles.zipIdx[count]? = some (candle, count) := by
    simp [List.getElem?_zipIdx, following]
  rcases reached.bar bar with ⟨run, before, _, _, turned⟩
  rcases run.bar_records turned with ⟨executed, executedOk, _, curve, _⟩
  rcases run.bar_ledger turned with ⟨executed', executedOk', portfolio, _⟩
  rw [executedOk, Except.ok.injEq] at executedOk'
  subst executed'
  rw [← (reached.accounts within).portfolio, portfolio, curve, Replay.mark, List.getLast?_concat]
  rfl

/-- The state of a backtest after some of its bars is the part of its result up to them. -/
theorem exists_reached_of_ran {after : σ} {result : BacktestResult}
    (ran : runBacktest sqrt strategy memory candles params = .ok (result, after))
    (within : count ≤ candles.length) :
    ∃ state, Reached sqrt strategy memory candles params count state ∧
      state.trades = result.trades.filter (·.index < count) ∧
      state.equityCurve = result.equityCurve.take count := by
  rcases except_bind_eq_ok.mp ran with ⟨run, started, ran⟩
  rcases except_bind_eq_ok.mp ran with ⟨final, replayed, made⟩
  cases made
  rw [← List.take_append_drop count candles.zipIdx] at replayed
  rcases BacktestRun.replay_append replayed with ⟨state, first, rest⟩
  have reached : Reached sqrt strategy memory candles params count state := ⟨run, started, first⟩
  have late : ∀ bar ∈ candles.zipIdx.drop count, count ≤ bar.2 := by
    intro bar mem
    rcases List.mem_iff_getElem?.mp mem with ⟨offset, following⟩
    rw [List.getElem?_drop, List.getElem?_zipIdx, Option.map_eq_some_iff] at following
    rcases following with ⟨candle, _, rfl⟩
    omega
  have recorded := congrArg Prod.fst (BacktestRun.recorded_replay late rest)
  have whole : state.trades.filter (·.index < count) = state.trades := by
    rw [List.filter_eq_self]
    intro trade mem
    simpa using (reached.accounts within).early trade mem
  simp only [Replay.recorded, whole] at recorded
  refine ⟨state, reached, recorded.symm, ?_⟩
  rcases BacktestRun.replay_curve rest with ⟨points, appended, _⟩
  rcases BacktestRun.replay_curve first with ⟨earlier, own, timestamps⟩
  have length : state.equityCurve.length = count := by
    have counted := congrArg List.length timestamps
    rw [own]
    simpa [BacktestRun.initial, within] using counted
  rw [appended, List.take_left' length]

end Reached

/-- A portfolio is worth its book value and the profit of its position at a price. -/
theorem Portfolio.equity_eq (portfolio : Portfolio) (price : ℚ) : portfolio.equity price =
    portfolio.bookValue + portfolio.qty * (price - portfolio.avgPrice) := by
  rw [equity, bookValue]
  ring

section Ran

variable {sqrt : ℚ → ℚ} {strategy : Strategy σ} {memory after : σ} {candles : List CandleRow}
  {params : BacktestParams} {result : BacktestResult}

/-- Every equity point is the ledger of the trades so far at the close of its bar. -/
theorem point_of_ran (ran : runBacktest sqrt strategy memory candles params = .ok (result, after))
    {index : ℕ} {candle : CandleRow} (following : candles[index]? = some candle) :
    result.equityCurve[index]? = some ((ledger params.initialCapital
      (result.trades.filter (·.index < index + 1))).pointAt (candle, index)) := by
  have within : index < candles.length := (List.getElem?_eq_some_iff.mp following).1
  rcases exists_reached_of_ran ran within with ⟨state, reached, own, curve⟩
  have length : result.equityCurve.length = candles.length := by
    simpa using congrArg List.length (curve_of_ran ran).1
  have last := reached.getLast?_curve following
  rw [own, curve, List.getLast?_eq_getElem?, List.length_take, length, Nat.min_eq_left within,
    Nat.succ_sub_one, List.getElem?_take_of_lt (Nat.lt_succ_self _)] at last
  exact last

/-- The equity of a ledger of a backtest is what it realized, holds and waived. -/
theorem equity_of_ran (ran : runBacktest sqrt strategy memory candles params = .ok (result, after))
    {index : ℕ} (within : index < candles.length) (price : ℚ) :
    let trades := result.trades.filter (·.index < index + 1)
    let portfolio := ledger params.initialCapital trades
    portfolio.equity price = params.initialCapital + (closedTradePnls trades).sum +
      portfolio.qty * (price - portfolio.avgPrice) + waivedBy params.initialCapital trades := by
  intro trades portfolio
  rcases exists_reached_of_ran ran within with ⟨state, reached, own, _⟩
  have agree : BooksAgree params.initialCapital trades := by
    simpa only [own] using (reached.accounts within).agree
  rw [Portfolio.equity_eq, agree]
  ring

/-- Up to the last bar there are all trades, and their ledger is the final portfolio. -/
theorem final_of_ran (ran : runBacktest sqrt strategy memory candles params = .ok (result, after))
    {last : ℕ} (whole : last + 1 = candles.length) :
    result.trades.filter (·.index < last + 1) = result.trades ∧
      result.finalPosition = (ledger params.initialCapital result.trades).asView ∧
      Paired params.initialCapital result.trades := by
  rcases except_bind_eq_ok.mp ran with ⟨run, started, ran⟩
  rcases except_bind_eq_ok.mp ran with ⟨final, replayed, made⟩
  cases made
  have reached : Reached sqrt strategy memory candles params candles.length final :=
    ⟨run, started, by rwa [List.take_of_length_le (by simp)]⟩
  have accounts := reached.accounts le_rfl
  refine ⟨?_, congrArg Portfolio.asView accounts.portfolio, accounts.paired⟩
  rw [List.filter_eq_self, whole]
  intro trade mem
  simpa using accounts.early trade mem

/-- Over exact rationals the equity curve of a backtest is the ledger of its trades at its closes,
and its equity is the initial capital with the realized profit, the profit of the open position and
what partial covers waive, which is nothing where shares are conserved. Its last point agrees with
the metrics and with the final position. -/
theorem backtest_accounts
    (ran : runBacktest sqrt strategy memory candles params = .ok (result, after)) :
    (∀ index candle, candles[index]? = some candle →
      let trades := result.trades.filter (·.index < index + 1)
      let portfolio := ledger params.initialCapital trades
      let waived := waivedBy params.initialCapital trades
      result.equityCurve[index]? = some (portfolio.pointAt (candle, index)) ∧
        portfolio.equity candle.close = params.initialCapital + (closedTradePnls trades).sum +
          portfolio.qty * (candle.close - portfolio.avgPrice) + waived ∧
        ((∀ count state, Reached sqrt strategy memory candles params count state →
          state.Conserves) → waived = 0)) ∧
    ∀ power, let metrics := computeMetrics power sqrt result.equityCurve result.trades
      metrics.totalTrades =
        2 * metrics.closedTrades + (if result.finalPosition.qty = 0 then 0 else 1) ∧
      ∃ last point, candles.getLast? = some last ∧ result.equityCurve.getLast? = some point ∧
        point.equity = params.initialCapital + metrics.expectancy * metrics.closedTrades +
          result.finalPosition.qty * (last.close - result.finalPosition.avgPrice) +
          waivedBy params.initialCapital result.trades := by
  constructor
  · intro index candle following trades portfolio waived
    have within : index < candles.length := (List.getElem?_eq_some_iff.mp following).1
    refine ⟨point_of_ran ran following, equity_of_ran ran within _, fun conserves => ?_⟩
    rcases exists_reached_of_ran ran within with ⟨state, reached, own, _⟩
    have nothing := reached.waives_nothing conserves within
    rwa [own] at nothing
  · intro power metrics
    have length : result.equityCurve.length = candles.length := by
      simpa using congrArg List.length (curve_of_ran ran).1
    have nonempty : candles ≠ [] := by
      rcases except_bind_eq_ok.mp ran with ⟨run, started, _⟩
      exact (BacktestRun.start_eq_ok started).1
    have positive : 0 < candles.length := List.length_pos_iff.mpr nonempty
    have whole : candles.length - 1 + 1 = candles.length := Nat.sub_add_cancel positive
    have following : candles[candles.length - 1]? = some (candles.getLast nonempty) := by
      rw [← List.getLast?_eq_getElem?, List.getLast?_eq_some_getLast nonempty]
    have marked := point_of_ran ran following
    have equity := equity_of_ran ran (by omega : candles.length - 1 < candles.length)
      (candles.getLast nonempty).close
    rcases final_of_ran ran whole with ⟨all, position, paired⟩
    rw [all] at marked equity
    rw [← length, ← List.getLast?_eq_getElem?] at marked
    have qty : result.finalPosition.qty = (ledger params.initialCapital result.trades).qty := by
      rw [position, Portfolio.asView]
      split_ifs with flat
      · exact flat.symm
      · rfl
    refine ⟨?_, _, _, List.getLast?_eq_some_getLast nonempty, marked, ?_⟩
    · rw [qty]
      exact paired
    · have average : metrics.expectancy * metrics.closedTrades =
          (closedTradePnls result.trades).sum := expectancy_mul_length _
      rw [average, Portfolio.pointAt, equity, position, Portfolio.asView]
      split_ifs with flat
      · simp [flat, flatPosition]
      · rfl

/-- The cover of three of ten shares waives the cost of the other seven. -/
theorem backtest_accounts_sample : ∃ result after,
    runBacktest id shortSeller () risingBars tenShares = .ok (result, after) ∧
      0 < waivedBy 100 result.trades ∧
      (computeMetrics (fun base _ => base) id result.equityCurve result.trades).totalTrades =
        2 * (computeMetrics (fun base _ => base) id result.equityCurve result.trades).closedTrades +
          (if result.finalPosition.qty = 0 then 0 else 1) := by
  have waives : ((runBacktest id shortSeller () risingBars tenShares).toOption.map fun ran =>
      decide (0 < waivedBy 100 ran.1.trades)) = some true := by
    decide +kernel
  rcases exists_of_toOption _ waives with ⟨⟨result, after⟩, ran, positive⟩
  exact ⟨result, after, ran, of_decide_eq_true positive, ((backtest_accounts ran).2 _).1⟩

end Ran

end PersonalTrade
