import PersonalTrade.Backtest.Accounting
import PersonalTrade.Indicators.WarmUp
import PersonalTrade.Strategy.Strategies

/-!
# Trading rules

What a strategy trades in a backtest, without its memory and its contexts. A `TradingRule` says
after which bars of a frame a position is entered and, from the bar that filled it and the cost of
a share, after which bars it is exited. A strategy implements a rule if its decisions do, and then
its trades are the trips of the rule (`trades_follow_rule`): every position is bought at the open
after a bar that enters and sold at the open after the first bar that exits, each with the slippage
of its side.
-/

namespace PersonalTrade

/-- A long-only rule over the bars of a frame. -/
structure TradingRule where
  enters : ℕ → Bool
  exits : ℕ → ℚ → ℕ → Bool

/-- What an opening trade costs for a share. -/
def ExecutedTrade.basis (trade : ExecutedTrade) : ℚ := trade.costs.netAmount / trade.qty

/-- The trade is filled at the open of its bar, moved by the slippage of its side. -/
def ExecutedTrade.AtOpen (candles : List CandleRow) (slippageBps : ℚ) (trade : ExecutedTrade) :
    Prop :=
  ∃ candle, candles[trade.index]? = some candle ∧ trade.ts = candle.ts ∧
    trade.price = applySlippage candle.openPrice trade.side slippageBps

namespace TradingRule

variable (rule : TradingRule)

/-- The rule has no exit for a position before a bar. -/
def Keeps (entry : ExecutedTrade) (index : ℕ) : Prop :=
  ∀ i, entry.index ≤ i → i < index → rule.exits entry.index entry.basis i = false

structure Opens (entry : ExecutedTrade) : Prop where
  side : entry.side = .buy
  next : entry.index = entry.signalIndex + 1
  enters : rule.enters entry.signalIndex = true

structure Closes (entry exit : ExecutedTrade) : Prop where
  side : exit.side = .sell
  whole : exit.qty = entry.qty
  next : exit.index = exit.signalIndex + 1
  after : entry.index ≤ exit.signalIndex
  exits : rule.exits entry.index entry.basis exit.signalIndex = true
  keeps : rule.Keeps entry exit.signalIndex

/-- The trades of a rule, with the purchase that has not been sold yet. -/
inductive Trips : List ExecutedTrade → Option ExecutedTrade → Prop where
  | flat : Trips [] none
  | opened {trades : List ExecutedTrade} {entry : ExecutedTrade} (before : Trips trades none)
      (opens : rule.Opens entry) (after : ∀ trade ∈ trades, trade.index ≤ entry.signalIndex) :
      Trips (trades ++ [entry]) (some entry)
  | closed {trades : List ExecutedTrade} {entry exit : ExecutedTrade}
      (before : Trips trades (some entry)) (closes : rule.Closes entry exit) :
      Trips (trades ++ [exit]) none

theorem keeps_self (entry : ExecutedTrade) : rule.Keeps entry entry.index :=
  fun _ after before => absurd after (not_le.mpr before)

variable {rule}

theorem Keeps.succ {entry : ExecutedTrade} {index : ℕ} (keeps : rule.Keeps entry index)
    (stays : rule.exits entry.index entry.basis index = false) : rule.Keeps entry (index + 1) := by
  intro i after before
  rcases Nat.lt_succ_iff_lt_or_eq.mp before with earlier | rfl
  · exact keeps i after earlier
  · exact stays

end TradingRule

/-! ## Strategies that implement a rule -/

variable {σ : Type}

/-- The decisions of a strategy are those of a rule. When it is flat it remembers what a fresh
instance does, and in a position what `anchored` says of the bar of the fill, the cost of a share
and the bar. -/
structure BacktestRun.Implements (run : BacktestRun σ) (fresh : σ) (rule : TradingRule)
    (anchored : ℕ → ℚ → ℕ → σ → Prop) : Prop where
  warms : ∀ index < run.candles.length, (index : ℤ) < run.effectiveStart →
    rule.enters index = false
  flat : ∀ bar portfolio decision, run.candles[bar.2]? = some bar.1 → portfolio.qty = 0 →
    run.effectiveStart ≤ bar.2 → run.strategy.onCandle (run.context bar portfolio) fresh =
      .ok decision → decision.2 = fresh ∧ decision.1.map Signal.direction =
        if rule.enters bar.2 then some .long else none
  anchors : ∀ filled basis, filled + 1 < run.candles.length → rule.enters filled = true →
    anchored (filled + 1) basis (filled + 1) fresh
  held : ∀ bar portfolio filled memory decision, run.candles[bar.2]? = some bar.1 →
    0 < portfolio.qty → filled ≤ bar.2 → anchored filled portfolio.avgPrice bar.2 memory →
    run.strategy.onCandle (run.context bar portfolio) memory = .ok decision →
      if rule.exits filled portfolio.avgPrice bar.2 then
        decision.2 = fresh ∧ decision.1.map Signal.direction = some .exit
      else anchored filled portfolio.avgPrice (bar.2 + 1) decision.2 ∧ decision.1 = none

/-- The portfolio holds what a trade bought. -/
structure Portfolio.Holds (portfolio : Portfolio) (entry : ExecutedTrade) : Prop where
  qty : portfolio.qty = entry.qty
  positive : 0 < entry.qty
  basis : portfolio.avgPrice = entry.basis

section Run

variable (rule : TradingRule) (fresh : σ) (anchored : ℕ → ℚ → ℕ → σ → Prop) (length : ℕ)

/-- Where a run of a rule stands after some bars, by the purchase that is not sold yet. -/
inductive Replay.Stands (state : Replay σ) (count : ℕ) : Option ExecutedTrade → Prop where
  | idle (flat : state.portfolio.qty = 0) (pending : state.pending = none)
      (memory : state.memory = fresh)
      (quiet : ∀ index, index + 1 = count → count < length → rule.enters index = false) :
      Stands state count none
  | entering (signal : Signal) (index : ℕ) (flat : state.portfolio.qty = 0)
      (pending : state.pending = some (signal, index)) (memory : state.memory = fresh)
      (direction : signal.direction = .long) (last : index + 1 = count)
      (enters : rule.enters index = true) : Stands state count none
  | holding (entry : ExecutedTrade) (holds : state.portfolio.Holds entry)
      (filled : entry.index ≤ count) (pending : state.pending = none)
      (keeps : rule.Keeps entry count)
      (remembers : anchored entry.index entry.basis count state.memory) :
      Stands state count (some entry)
  | exiting (entry : ExecutedTrade) (signal : Signal) (index : ℕ)
      (holds : state.portfolio.Holds entry) (pending : state.pending = some (signal, index))
      (memory : state.memory = fresh) (direction : signal.direction = .exit)
      (last : index + 1 = count) (filled : entry.index ≤ index)
      (exits : rule.exits entry.index entry.basis index = true)
      (keeps : rule.Keeps entry index) : Stands state count (some entry)
  | finished (entry : ExecutedTrade) (holds : state.portfolio.Holds entry) (last : count = length)
      (keeps : rule.Keeps entry (count - 1)) : Stands state count (some entry)

/-- The trades of a run are trips of the rule. -/
structure Replay.Follows (state : Replay σ) (count : ℕ) (openLeg : Option ExecutedTrade) :
    Prop where
  trips : rule.Trips state.trades openLeg
  early : ∀ trade ∈ state.trades, trade.index < count
  stands : state.Stands rule fresh anchored length count openLeg

/-- A run at the close of a bar, before the strategy is called. -/
inductive Replay.Awaits (state : Replay σ) (count : ℕ) : Option ExecutedTrade → Prop where
  | idle (flat : state.portfolio.qty = 0) (pending : state.pending = none)
      (memory : state.memory = fresh) : Awaits state count none
  | holding (entry : ExecutedTrade) (holds : state.portfolio.Holds entry)
      (filled : entry.index ≤ count) (pending : state.pending = none)
      (keeps : rule.Keeps entry count)
      (remembers : anchored entry.index entry.basis count state.memory) :
      Awaits state count (some entry)

end Run

/-! ## One signal -/

/-- A purchase of no share: the sizer asks for none, or the cash pays for none. -/
def BacktestParams.Refuses (params : BacktestParams) (cash rawPrice : ℚ) : Prop :=
  let requested := (params.sizer cash rawPrice).toNat
  requested = 0 ∨ clampToCash (applySlippage rawPrice .buy params.slippageBps) params.segment
    params.costRates cash requested = .ok 0

section Signal

variable {params : BacktestParams} {signal : Signal} {signalIndex fillIndex : ℕ} {fillTs : ℤ}
  {rawOpenPrice : ℚ} {portfolio portfolio' : Portfolio} {executed : Option ExecutedTrade}

theorem executeSignal_long (flat : portfolio.qty = 0) (direction : signal.direction = .long)
    (ok : executeSignal params signal signalIndex fillIndex fillTs rawOpenPrice portfolio =
      .ok (portfolio', executed)) :
    (executed = none ∧ portfolio' = portfolio ∧ params.Refuses portfolio.cash rawOpenPrice) ∨
      ∃ entry, executed = some entry ∧ entry.side = .buy ∧ entry.index = fillIndex ∧
        entry.signalIndex = signalIndex ∧ portfolio'.Holds entry := by
  have resolved : resolveAction portfolio.qty signal.direction = some (.buy, false) := by
    rw [direction, resolveAction, if_pos flat]
  have equity : portfolio.equity rawOpenPrice = portfolio.cash := by
    simp [Portfolio.equity, flat]
  rw [executeSignal, resolved] at ok
  rcases except_bind_eq_ok.mp ok with ⟨⟨filled, leg⟩, filledOk, made⟩
  cases made
  rcases Portfolio.fill_cases filledOk with ⟨rfl, rfl, nothing⟩ | ⟨qty, positive, _, _, _, rfl, rfl⟩
  · simp only [requestedQty, Bool.false_eq_true, if_false, equity, fillableQty] at nothing
    exact .inl ⟨rfl, rfl, nothing⟩
  · refine .inr ⟨_, rfl, rfl, rfl, rfl, ?_, positive, ?_⟩
    · simp [Portfolio.openOrAdd, flat, signedQty]
    · simp [Portfolio.openOrAdd, flat, ExecutedTrade.basis]

/-- An exit always sells what is held. -/
theorem executeSignal_exit {entry : ExecutedTrade} (holds : portfolio.Holds entry)
    (direction : signal.direction = .exit)
    (ok : executeSignal params signal signalIndex fillIndex fillTs rawOpenPrice portfolio =
      .ok (portfolio', executed)) :
    ∃ exit, executed = some exit ∧ exit.side = .sell ∧ exit.index = fillIndex ∧
      exit.signalIndex = signalIndex ∧ exit.qty = entry.qty ∧ portfolio'.qty = 0 := by
  have held : 0 < portfolio.qty := by
    rw [holds.qty]
    exact_mod_cast holds.positive
  have resolved : resolveAction portfolio.qty signal.direction = some (.sell, true) := by
    rw [direction, resolveAction, if_pos held]
  have whole : (requestedQty params true rawOpenPrice portfolio).toNat = entry.qty := by
    rw [toNat_requestedQty_closing, holds.qty, Int.natAbs_natCast]
  rw [executeSignal, resolved] at ok
  rcases except_bind_eq_ok.mp ok with ⟨⟨filled, leg⟩, filledOk, made⟩
  cases made
  rw [whole] at filledOk
  rcases Portfolio.fill_cases filledOk with ⟨_, _, nothing⟩ |
    ⟨qty, _, _, fillable, _, rfl, rfl⟩
  · have positive := holds.positive
    rcases nothing with zero | zero
    · omega
    · rw [fillableQty, Except.ok.injEq] at zero
      omega
  · rw [fillableQty, Except.ok.injEq] at fillable
    exact ⟨_, rfl, rfl, rfl, rfl, fillable.symm, rfl⟩

/-- The terms of a trade. -/
theorem executeSignal_terms {trade : ExecutedTrade}
    (ok : executeSignal params signal signalIndex fillIndex fillTs rawOpenPrice portfolio =
      .ok (portfolio', some trade)) :
    trade.index = fillIndex ∧ trade.ts = fillTs ∧
      trade.price = applySlippage rawOpenPrice trade.side params.slippageBps := by
  rw [executeSignal] at ok
  cases resolved : resolveAction portfolio.qty signal.direction with
  | none =>
      rw [resolved] at ok
      cases ok
  | some action =>
      rcases action with ⟨side, closing⟩
      rw [resolved] at ok
      rcases except_bind_eq_ok.mp ok with ⟨⟨filled, leg⟩, filledOk, made⟩
      rcases Portfolio.fill_cases filledOk with ⟨rfl, _, _⟩ | ⟨qty, _, _, _, _, rfl, _⟩
      · cases made
      · cases made
        exact ⟨rfl, rfl, rfl⟩

end Signal

/-- The fill of a pending signal. -/
theorem Replay.executePending_of_pending {params : BacktestParams} {bar : CandleRow × ℕ}
    {state executed : Replay σ} {signal : Signal} {signalIndex : ℕ}
    (pending : state.pending = some (signal, signalIndex))
    (ok : state.executePending params bar = .ok executed) :
    ∃ trade, executeSignal params signal signalIndex bar.2 bar.1.ts bar.1.openPrice
        state.portfolio = .ok (executed.portfolio, trade) ∧
      executed.trades = state.trades ++ trade.toList ∧ executed.pending = none ∧
      executed.memory = state.memory := by
  rw [executePending, pending] at ok
  rcases except_bind_eq_ok.mp ok with ⟨⟨portfolio, trade⟩, tradeOk, made⟩
  cases made
  exact ⟨trade, tradeOk, rfl, rfl, rfl⟩

/-! ## One bar -/

section Bar

variable {run : BacktestRun σ} {fresh : σ} {rule : TradingRule} {anchored : ℕ → ℚ → ℕ → σ → Prop}
  {state executed next : Replay σ} {openLeg : Option ExecutedTrade} {candle : CandleRow} {count : ℕ}

/-- The fill at the open of a bar. -/
theorem Replay.Follows.executePending (implements : run.Implements fresh rule anchored)
    (follows : state.Follows rule fresh anchored run.candles.length count openLeg)
    (within : count < run.candles.length)
    (ok : state.executePending run.params (candle, count) = .ok executed) :
    ∃ openLeg', rule.Trips executed.trades openLeg' ∧
      (∀ trade ∈ executed.trades, trade.index ≤ count) ∧
      executed.Awaits rule fresh anchored count openLeg' := by
  have early : ∀ trade ∈ state.trades, trade.index ≤ count :=
    fun trade mem => (follows.early trade mem).le
  have unmoved (none : state.pending = none) : executed = state := by
    rw [Replay.executePending, none] at ok
    cases ok
    rfl
  cases follows.stands with
  | idle flat pending memory quiet =>
      rw [unmoved pending]
      exact ⟨none, follows.trips, early, .idle flat pending memory⟩
  | holding entry holds filled pending keeps remembers =>
      rw [unmoved pending]
      exact ⟨some entry, follows.trips, early, .holding entry holds filled pending keeps remembers⟩
  | finished entry holds last keeps => exact absurd last within.ne
  | entering signal index flat pending memory direction last enters =>
      subst count
      rcases Replay.executePending_of_pending pending ok with
        ⟨trade, tradeOk, trades, pending', memory'⟩
      rw [memory] at memory'
      rcases executeSignal_long flat direction tradeOk with ⟨rfl, kept, _⟩ |
        ⟨entry, rfl, side, filled, own, holds⟩
      · rw [Option.toList_none, List.append_nil] at trades
        rw [trades]
        exact ⟨none, follows.trips, early, .idle (kept ▸ flat) pending' memory'⟩
      · rw [Option.toList_some] at trades
        have opens : rule.Opens entry := by
          refine ⟨side, by rw [filled, own], ?_⟩
          rw [own]
          exact enters
        refine ⟨some entry, ?_, ?_, ?_⟩
        · rw [trades]
          apply TradingRule.Trips.opened follows.trips opens
          intro earlier mem
          have := follows.early earlier mem
          omega
        · intro made mem
          rw [trades, List.mem_append, List.mem_singleton] at mem
          rcases mem with old | rfl
          · exact early made old
          · exact filled.le
        · refine .holding entry holds filled.le pending' ?_ ?_
          · have keeps := rule.keeps_self entry
            rwa [filled] at keeps
          · rw [memory', filled]
            exact implements.anchors index _ within enters
  | exiting entry signal index holds pending memory direction last filled exits keeps =>
      subst count
      rcases Replay.executePending_of_pending pending ok with
        ⟨trade, tradeOk, trades, pending', memory'⟩
      rw [memory] at memory'
      rcases executeSignal_exit holds direction tradeOk with
        ⟨exit, rfl, side, sold, own, whole, flat⟩
      rw [Option.toList_some] at trades
      have closes : rule.Closes entry exit := by
        refine ⟨side, whole, by rw [sold, own], ?_, ?_, ?_⟩
        · rw [own]
          exact filled
        · rw [own]
          exact exits
        · rw [own]
          exact keeps
      refine ⟨none, ?_, ?_, .idle flat pending' memory'⟩
      · rw [trades]
        exact .closed follows.trips closes
      · intro made mem
        rw [trades, List.mem_append, List.mem_singleton] at mem
        rcases mem with old | rfl
        · exact early made old
        · exact sold.le

/-- The call at the close of a bar. -/
theorem BacktestRun.consult_cases (pending : state.pending = none)
    (ok : run.consult (candle, count) state = .ok next) :
    ((count : ℤ) < run.effectiveStart ∧ next = state) ∨
      run.effectiveStart ≤ count ∧ ∃ decision,
        run.strategy.onCandle (run.context (candle, count) state.portfolio) state.memory =
          .ok decision ∧ next.memory = decision.2 ∧
        next.pending = if count + 1 = run.candles.length then none
          else decision.1.map fun signal => (signal, count) := by
  rw [consult] at ok
  by_cases warming : (count : ℤ) < run.effectiveStart
  · rw [if_pos warming] at ok
    cases ok
    exact .inl ⟨warming, rfl⟩
  rw [if_neg warming] at ok
  rcases except_bind_eq_ok.mp ok with ⟨⟨signal, after⟩, decided, ok⟩
  refine .inr ⟨not_lt.mp warming, ⟨signal, after⟩, decided, ?_⟩
  cases signal with
  | none =>
      cases ok
      simpa using pending
  | some signal =>
      by_cases final : count + 1 = run.candles.length
      · rw [if_pos final]
        simp only [if_pos final] at ok
        cases ok
        exact ⟨rfl, pending⟩
      · rw [if_neg final]
        simp only [if_neg final] at ok
        cases ok
        exact ⟨rfl, rfl⟩

/-- A position is opened after the warm-up only. -/
theorem TradingRule.Trips.opens {trades : List ExecutedTrade} {entry : ExecutedTrade}
    (trips : rule.Trips trades (some entry)) : rule.Opens entry := by
  cases trips with
  | opened _ opens _ => exact opens

theorem Replay.Awaits.consult (implements : run.Implements fresh rule anchored)
    (trips : rule.Trips state.trades openLeg) (early : ∀ trade ∈ state.trades, trade.index ≤ count)
    (awaits : state.Awaits rule fresh anchored count openLeg)
    (following : run.candles[count]? = some candle)
    (ok : run.consult (candle, count) state = .ok next) :
    next.Follows rule fresh anchored run.candles.length (count + 1) openLeg := by
  have within : count < run.candles.length := (List.getElem?_eq_some_iff.mp following).1
  rcases BacktestRun.consult_ledger ok with ⟨portfolio, trades, _⟩
  refine ⟨trades ▸ trips, fun trade mem => ?_, ?_⟩
  · rw [trades] at mem
    exact Nat.lt_succ_of_le (early trade mem)
  cases awaits with
  | idle flat pending memory =>
      rw [← portfolio] at flat
      rcases run.consult_cases pending ok with ⟨warming, rfl⟩ |
        ⟨late, ⟨signal, after⟩, decided, remembers, pending'⟩
      · refine .idle flat pending memory fun index last _ => ?_
        rw [Nat.succ.inj last]
        exact implements.warms count within warming
      · rw [memory] at decided
        rw [portfolio] at flat
        rcases implements.flat (candle, count) state.portfolio _ following flat late decided with
          ⟨afresh, direction⟩
        rw [← portfolio] at flat
        simp only at afresh direction pending'
        rw [afresh] at remembers
        by_cases final : count + 1 = run.candles.length
        · rw [if_pos final] at pending'
          exact .idle flat pending' remembers fun index last more => by omega
        rw [if_neg final] at pending'
        by_cases enters : rule.enters count = true
        · rw [if_pos enters, Option.map_eq_some_iff] at direction
          rcases direction with ⟨long, rfl, direction⟩
          exact .entering long count flat pending' remembers direction rfl enters
        · rw [if_neg enters, Option.map_eq_none_iff] at direction
          rw [direction] at pending'
          refine .idle flat pending' remembers fun index last _ => ?_
          rw [Nat.succ.inj last]
          exact Bool.not_eq_true _ ▸ enters
  | holding entry holds filled pending keeps remembers =>
      have opens := trips.opens
      have late : run.effectiveStart ≤ count := by
        by_contra warming
        have before := opens.next
        have quiet := implements.warms entry.signalIndex (by omega) (by omega)
        rw [opens.enters] at quiet
        cases quiet
      have positive : 0 < state.portfolio.qty := by
        rw [holds.qty]
        exact_mod_cast holds.positive
      rcases run.consult_cases pending ok with ⟨warming, _⟩ |
        ⟨_, ⟨signal, after⟩, decided, memory, pending'⟩
      · exact absurd late (not_le.mpr warming)
      rw [← holds.basis] at remembers
      have decision := implements.held (candle, count) state.portfolio entry.index _ _ following
        positive filled remembers decided
      rw [holds.basis] at decision
      rw [← portfolio] at holds
      simp only at decision memory pending'
      by_cases exits : rule.exits entry.index entry.basis count = true
      · rw [if_pos exits] at decision
        rcases decision with ⟨rfl, direction⟩
        by_cases final : count + 1 = run.candles.length
        · exact .finished entry holds final keeps
        rw [if_neg final] at pending'
        rcases Option.map_eq_some_iff.mp direction with ⟨exit, rfl, leaves⟩
        exact .exiting entry exit count holds pending' memory leaves rfl filled exits keeps
      · rw [if_neg exits] at decision
        rcases decision with ⟨anchored, rfl⟩
        have pending : next.pending = none := by
          rw [pending']
          simp
        refine .holding entry holds (Nat.le_succ_of_le filled) pending ?_ ?_
        · exact keeps.succ (Bool.not_eq_true _ ▸ exits)
        · rw [memory]
          exact anchored

theorem Replay.Follows.bar (implements : run.Implements fresh rule anchored)
    (follows : state.Follows rule fresh anchored run.candles.length count openLeg)
    (following : run.candles[count]? = some candle)
    (ok : run.bar state (candle, count) = .ok next) :
    ∃ openLeg', next.Follows rule fresh anchored run.candles.length (count + 1) openLeg' := by
  have within : count < run.candles.length := (List.getElem?_eq_some_iff.mp following).1
  rcases except_bind_eq_ok.mp ok with ⟨executed, executedOk, consulted⟩
  rcases follows.executePending implements within executedOk with ⟨openLeg', trips, early, awaits⟩
  have marked : (executed.mark (candle, count)).Awaits rule fresh anchored count openLeg' := by
    cases awaits with
    | idle flat pending memory => exact .idle flat pending memory
    | holding entry holds filled pending keeps remembers =>
        exact .holding entry holds filled pending keeps remembers
  have trips' : rule.Trips (executed.mark (candle, count)).trades openLeg' := trips
  exact ⟨openLeg', marked.consult implements trips' early following consulted⟩

end Bar

/-! ## Runs -/

section Run

variable {sqrt : ℚ → ℚ} {strategy : Strategy σ} {fresh : σ} {candles : List CandleRow}
  {params : BacktestParams} {rule : TradingRule} {anchored : ℕ → ℚ → ℕ → σ → Prop} {count : ℕ}
  {state : Replay σ}

theorem Reached.follows
    (implements : ∀ run, BacktestRun.start sqrt strategy candles params = .ok run →
      run.Implements fresh rule anchored) (within : count ≤ candles.length)
    (reached : Reached sqrt strategy fresh candles params count state) :
    ∃ openLeg, state.Follows rule fresh anchored candles.length count openLeg := by
  apply reached.invariant (motive := fun count state =>
    ∃ openLeg, state.Follows rule fresh anchored candles.length count openLeg) _ _ within
  · intro run _
    refine ⟨none, .flat, fun _ mem => absurd mem List.not_mem_nil, ?_⟩
    exact .idle rfl rfl rfl fun index last _ => by omega
  · rintro run index candle before after started following _ _ turned ⟨openLeg, follows⟩
    have implemented := implements run started
    rcases BacktestRun.start_eq_ok started with ⟨_, _, series, _, rfl⟩
    exact follows.bar implemented following turned

theorem TradingRule.Keeps.mono {entry : ExecutedTrade} {index earlier : ℕ}
    (keeps : rule.Keeps entry index) (before : earlier ≤ index) : rule.Keeps entry earlier :=
  fun i after within => keeps i after (within.trans_le before)

theorem Portfolio.Holds.qty_ne_zero {portfolio : Portfolio} {entry : ExecutedTrade}
    (holds : portfolio.Holds entry) : portfolio.qty ≠ 0 := by
  rw [holds.qty]
  exact_mod_cast holds.positive.ne'

variable {result : BacktestResult} {after : σ}

theorem final_reached (ran : runBacktest sqrt strategy fresh candles params = .ok (result, after)) :
    ∃ final, Reached sqrt strategy fresh candles params candles.length final ∧
      final.trades = result.trades := by
  rcases except_bind_eq_ok.mp ran with ⟨run, started, ran⟩
  rcases except_bind_eq_ok.mp ran with ⟨final, replayed, made⟩
  cases made
  exact ⟨final, ⟨run, started, by rwa [List.take_of_length_le (by simp)]⟩, rfl⟩

/-- The ledger that a point of the equity curve shows. -/
theorem reached_of_point
    (ran : runBacktest sqrt strategy fresh candles params = .ok (result, after)) {index : ℕ}
    (within : index < candles.length) {point : EquityPoint}
    (shown : result.equityCurve[index]? = some point) :
    ∃ state, Reached sqrt strategy fresh candles params (index + 1) state ∧
      point.cash = state.portfolio.cash ∧ point.positionQty = state.portfolio.qty := by
  rcases exists_reached_of_ran ran (Nat.succ_le_of_lt within) with ⟨state, reached, trades, _⟩
  have marked := point_of_ran ran (List.getElem?_eq_getElem within)
  rw [shown, Option.some.injEq, ← trades, ← (reached.accounts within).portfolio] at marked
  exact ⟨state, reached, by rw [marked]; rfl, by rw [marked]; rfl⟩

/-- A turn of the loop trades at the open of its bar. -/
theorem BacktestRun.atOpen_bar {run : BacktestRun σ} {state next : Replay σ} {candle : CandleRow}
    {count : ℕ} (following : run.candles[count]? = some candle)
    (earlier : ∀ trade ∈ state.trades, trade.AtOpen run.candles run.params.slippageBps)
    (ok : run.bar state (candle, count) = .ok next) :
    ∀ trade ∈ next.trades, trade.AtOpen run.candles run.params.slippageBps := by
  rcases run.bar_ledger ok with ⟨executed, executedOk, _, same⟩
  rw [same]
  rcases pending : state.pending with _ | ⟨signal, signalIndex⟩
  · rw [Replay.executePending, pending] at executedOk
    cases executedOk
    exact earlier
  · rcases Replay.executePending_of_pending pending executedOk with ⟨made, madeOk, added, _⟩
    intro trade mem
    rw [added, List.mem_append, Option.mem_toList] at mem
    rcases mem with old | rfl
    · exact earlier trade old
    · rcases executeSignal_terms madeOk with ⟨index, ts, price⟩
      exact ⟨candle, by rw [index, following], ts, price⟩

theorem Reached.atOpen (within : count ≤ candles.length)
    (reached : Reached sqrt strategy fresh candles params count state) :
    ∀ trade ∈ state.trades, trade.AtOpen candles params.slippageBps := by
  apply reached.invariant (motive := fun _ state =>
    ∀ trade ∈ state.trades, trade.AtOpen candles params.slippageBps) _ _ within
  · exact fun _ _ _ mem => absurd mem List.not_mem_nil
  · intro run index candle before after started following _ _ turned earlier
    rcases BacktestRun.start_eq_ok started with ⟨_, _, series, _, rfl⟩
    exact BacktestRun.atOpen_bar following earlier turned

/-- The trades of a backtest are the trips of the rule that its strategy implements, each at the
open of its bar. A position that is left open has met no exit before the last bar; and after every
bar that enters without a position a purchase follows, unless it is refused. -/
theorem trades_follow_rule
    (implements : ∀ run, BacktestRun.start sqrt strategy candles params = .ok run →
      run.Implements fresh rule anchored)
    (ran : runBacktest sqrt strategy fresh candles params = .ok (result, after)) :
    (∃ openLeg, rule.Trips result.trades openLeg ∧
      ∀ entry ∈ openLeg, rule.Keeps entry (candles.length - 1)) ∧
    (∀ trade ∈ result.trades, trade.AtOpen candles params.slippageBps) ∧
    ∀ index point candle, result.equityCurve[index]? = some point →
      candles[index + 1]? = some candle → point.positionQty = 0 → rule.enters index = true →
      (∃ entry ∈ result.trades, entry.side = .buy ∧ entry.signalIndex = index) ∨
        params.Refuses point.cash candle.openPrice := by
  refine ⟨?_, ?_, ?_⟩
  · rcases final_reached ran with ⟨final, reached, trades⟩
    rcases reached.follows implements le_rfl with ⟨openLeg, follows⟩
    refine ⟨openLeg, trades ▸ follows.trips, fun entry held => ?_⟩
    cases held
    cases follows.stands with
    | holding _ _ _ _ keeps _ => exact keeps.mono (Nat.sub_le _ _)
    | exiting _ _ index _ _ _ _ last _ _ keeps => exact keeps.mono (by omega)
    | finished _ _ _ keeps => exact keeps
  · rcases final_reached ran with ⟨final, reached, trades⟩
    rw [← trades]
    exact reached.atOpen le_rfl
  · intro index point candle shown following flat enters
    have within : index + 1 < candles.length := (List.getElem?_eq_some_iff.mp following).1
    rcases reached_of_point ran (by omega) shown with ⟨state, reached, cash, qty⟩
    rw [flat] at qty
    rcases reached.follows implements (by omega) with ⟨openLeg, follows⟩
    cases follows.stands with
    | idle _ _ _ quiet =>
        rw [quiet index rfl within] at enters
        cases enters
    | holding _ holds => exact absurd qty.symm holds.qty_ne_zero
    | exiting _ _ _ holds => exact absurd qty.symm holds.qty_ne_zero
    | finished _ holds => exact absurd qty.symm holds.qty_ne_zero
    | entering signal own _ pending _ direction last _ =>
        cases last
        rcases exists_reached_of_ran ran (Nat.succ_le_of_lt within) with
          ⟨next, reachedNext, trades, _⟩
        have bar : candles.zipIdx[index + 1]? = some (candle, index + 1) := by
          simp [List.getElem?_zipIdx, following]
        rcases reachedNext.bar bar with ⟨run, before, started, reachedBefore, turned⟩
        rw [reachedBefore.unique reached] at turned
        rcases run.bar_ledger turned with ⟨executed, executedOk, _, same⟩
        rcases BacktestRun.start_eq_ok started with ⟨_, _, series, _, rfl⟩
        rcases Replay.executePending_of_pending pending executedOk with ⟨trade, tradeOk, added, _⟩
        rcases executeSignal_long qty.symm direction tradeOk with ⟨_, _, refuses⟩ |
          ⟨entry, rfl, side, _, made, _⟩
        · rw [cash]
          exact .inr refuses
        · refine .inl ⟨entry, ?_, side, made⟩
          have mem : entry ∈ next.trades := by
            rw [same, added]
            simp
          rw [trades] at mem
          exact (List.mem_filter.mp mem).1

end Run

end PersonalTrade
