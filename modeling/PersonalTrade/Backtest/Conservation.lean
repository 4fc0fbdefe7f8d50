import PersonalTrade.Backtest.Engine

/-!
# Share conservation of a backtest

A run conserves shares when its position is the sum of its trades and its trades are
round trips. Every turn of the loop keeps this, except one that closes a short with
fewer shares than it opened: the purchase is clamped to the cash, the position is
emptied all the same.
-/

namespace PersonalTrade

/-- The net amount of a purchase. -/
def BacktestParams.coverCost (params : BacktestParams) (price : ℚ) (qty : ℕ) : ℚ :=
  (costStack .buy price qty params.segment params.costRates).netAmount

/-! ## One leg -/

theorem clampToCash_eq_ok {price cash : ℚ} {segment : Segment} {rates : CostConfig}
    {requested qty : ℕ} (ok : clampToCash price segment rates cash requested = .ok qty) :
    qty ≤ requested ∧
      (0 < qty → (costStack .buy price qty segment rates).netAmount ≤ cash) ∧
      ∀ larger, qty < larger → larger ≤ requested →
        cash < (costStack .buy price larger segment rates).netAmount := by
  induction requested with
  | zero =>
      simp only [clampToCash, Except.ok.injEq] at ok
      subst qty
      exact ⟨le_rfl, fun positive => absurd positive (lt_irrefl 0),
        fun larger above below => by omega⟩
  | succ requested ih =>
      rw [clampToCash] at ok
      split at ok
      · cases ok
      · rename_i costs costsOk
        rcases calculateCosts_eq_ok.mp costsOk with ⟨_, _, rfl⟩
        split_ifs at ok with fits
        · rw [Except.ok.injEq] at ok
          subst qty
          exact ⟨le_rfl, fun _ => fits, fun larger above below => by omega⟩
        · rcases ih ok with ⟨within, paid, tooMany⟩
          refine ⟨by omega, paid, fun larger above below => ?_⟩
          rcases Nat.lt_or_ge requested larger with last | earlier
          · have : larger = requested + 1 := by omega
            subst larger
            exact not_le.mp fits
          · exact tooMany larger above earlier

theorem Portfolio.fill_cases {params : BacktestParams} {side : Side} {closing : Bool}
    {requested : ℕ} {rawPrice : ℚ} {portfolio portfolio' : Portfolio} {leg : Option Leg}
    (ok : portfolio.fill params side closing requested rawPrice = .ok (portfolio', leg)) :
    (leg = none ∧ portfolio' = portfolio ∧ (requested = 0 ∨
      fillableQty params side (applySlippage rawPrice side params.slippageBps) portfolio.cash
        requested = .ok 0)) ∨
    ∃ qty, 0 < qty ∧ 0 < requested ∧
      fillableQty params side (applySlippage rawPrice side params.slippageBps) portfolio.cash
        requested = .ok qty ∧
      0 < applySlippage rawPrice side params.slippageBps ∧
      let price := applySlippage rawPrice side params.slippageBps
      let costs := costStack side price qty params.segment params.costRates
      leg = some ⟨side, qty, price, costs,
        if closing then some (portfolio.realized side qty costs.netAmount) else none⟩ ∧
      portfolio' = if closing then portfolio.close side costs.netAmount
        else portfolio.openOrAdd side qty costs.netAmount := by
  rw [fill] at ok
  by_cases nothing : requested = 0
  · rw [if_pos nothing] at ok
    cases ok
    exact .inl ⟨rfl, rfl, .inl nothing⟩
  rw [if_neg nothing] at ok
  rcases except_bind_eq_ok.mp ok with ⟨qty, fillable, ok⟩
  by_cases refused : qty = 0
  · rw [if_pos refused] at ok
    cases ok
    subst qty
    exact .inl ⟨rfl, rfl, .inr fillable⟩
  rw [if_neg refused] at ok
  rcases except_bind_eq_ok.mp ok with ⟨costs, costsOk, ok⟩
  rcases calculateCosts_eq_ok.mp costsOk with ⟨priced, positive, rfl⟩
  refine .inr ⟨qty, positive, Nat.pos_of_ne_zero nothing, fillable, priced, ?_⟩
  cases closing with
  | false =>
      cases ok
      exact ⟨rfl, rfl⟩
  | true =>
      cases ok
      exact ⟨rfl, rfl⟩

theorem fillableQty_le {params : BacktestParams} {side : Side} {price cash : ℚ}
    {requested qty : ℕ} (ok : fillableQty params side price cash requested = .ok qty) :
    qty ≤ requested := by
  cases side with
  | buy => exact (clampToCash_eq_ok ok).1
  | sell =>
      cases ok
      exact le_rfl

/-! ## Round trips -/

/-- The trades alternate between an opening and a closing leg of the same quantity; the last
argument is the opening leg that has not been closed yet. -/
inductive RoundTrips : List ExecutedTrade → Option ExecutedTrade → Prop where
  | flat : RoundTrips [] none
  | opened {trades : List ExecutedTrade} {entry : ExecutedTrade} (before : RoundTrips trades none)
      (opens : entry.realizedPnl = none) : RoundTrips (trades ++ [entry]) (some entry)
  | closed {trades : List ExecutedTrade} {entry exit : ExecutedTrade}
      (before : RoundTrips trades (some entry)) (closes : exit.realizedPnl.isSome)
      (whole : exit.qty = entry.qty) : RoundTrips (trades ++ [exit]) none

/-- The signed quantity of a trade. -/
def ExecutedTrade.signed (trade : ExecutedTrade) : ℤ := signedQty trade.side trade.qty

variable {σ : Type}

/-- The position is the sum of the trades, and the trades are round trips. -/
structure Replay.Conserves (state : Replay σ) : Prop where
  position : state.portfolio.qty = (state.trades.map ExecutedTrade.signed).sum
  alternates : ∃ openLeg, RoundTrips state.trades openLeg

/-- The position is that of the leg that has not been closed yet. -/
structure Replay.Balanced (state : Replay σ) (openLeg : Option ExecutedTrade) : Prop where
  trips : RoundTrips state.trades openLeg
  position : state.portfolio.qty = (state.trades.map ExecutedTrade.signed).sum
  holds : state.portfolio.qty = (openLeg.map ExecutedTrade.signed).getD 0
  positive : ∀ entry, openLeg = some entry → 0 < entry.qty

/-- Covering a short at a price would be partial: the cash pays for a part of the cover and
not for the whole. -/
def Portfolio.CoversPartly (params : BacktestParams) (rawPrice : ℚ) (portfolio : Portfolio) :
    Prop :=
  portfolio.qty < 0 ∧
    let price := applySlippage rawPrice .buy params.slippageBps
    portfolio.cash < params.coverCost price portfolio.qty.natAbs ∧
    ∃ part, 0 < part ∧ part < portfolio.qty.natAbs ∧
      params.coverCost price part ≤ portfolio.cash

/-- The pending signal of a bar covers a short partly. -/
def Replay.CoversPartly (params : BacktestParams) (bar : CandleRow × ℕ) (state : Replay σ) : Prop :=
  ∃ signal signalIndex, state.pending = some (signal, signalIndex) ∧ signal.direction = .exit ∧
    state.portfolio.CoversPartly params bar.1.openPrice

theorem resolveAction_eq_some {currentQty : ℤ} {direction : SignalDirection} {side : Side}
    {closing : Bool} (resolved : resolveAction currentQty direction = some (side, closing)) :
    (closing = false ∧ currentQty = 0) ∨
    (closing = true ∧ direction = .exit ∧
      ((side = .sell ∧ 0 < currentQty) ∨ (side = .buy ∧ currentQty < 0))) := by
  cases direction with
  | long =>
      rw [resolveAction] at resolved
      split_ifs at resolved with flat
      cases resolved
      exact .inl ⟨rfl, flat⟩
  | short =>
      rw [resolveAction] at resolved
      split_ifs at resolved with flat
      cases resolved
      exact .inl ⟨rfl, flat⟩
  | exit =>
      rw [resolveAction] at resolved
      split_ifs at resolved with long short
      · cases resolved
        exact .inr ⟨rfl, rfl, .inl ⟨rfl, long⟩⟩
      · cases resolved
        exact .inr ⟨rfl, rfl, .inr ⟨rfl, short⟩⟩

/-- The fill of a pending signal as one trade. -/
structure Replay.Trades (params : BacktestParams) (bar : CandleRow × ℕ) (state state' : Replay σ)
    (signal : Signal) (side : Side) (closing : Bool) (trade : ExecutedTrade) : Prop where
  pending : ∃ signalIndex, state.pending = some (signal, signalIndex)
  resolved : resolveAction state.portfolio.qty signal.direction = some (side, closing)
  tradeSide : trade.side = side
  positive : 0 < trade.qty
  fillable : fillableQty params side (applySlippage bar.1.openPrice side params.slippageBps)
    state.portfolio.cash (requestedQty params closing bar.1.openPrice state.portfolio).toNat =
      .ok trade.qty
  realized : trade.realizedPnl.isSome = closing
  trades : state'.trades = state.trades ++ [trade]
  portfolio : state'.portfolio = if closing then state.portfolio.close side trade.costs.netAmount
    else state.portfolio.openOrAdd side trade.qty trade.costs.netAmount

/-- The pending signal of a bar, if any, leads to no trade. -/
def Replay.Idles (params : BacktestParams) (bar : CandleRow × ℕ) (state : Replay σ) : Prop :=
  ∀ signal signalIndex side closing, state.pending = some (signal, signalIndex) →
    resolveAction state.portfolio.qty signal.direction = some (side, closing) →
    let requested := (requestedQty params closing bar.1.openPrice state.portfolio).toNat
    requested = 0 ∨ fillableQty params side (applySlippage bar.1.openPrice side params.slippageBps)
      state.portfolio.cash requested = .ok 0

theorem Replay.executePending_cases {params : BacktestParams} {bar : CandleRow × ℕ}
    {state state' : Replay σ} (ok : state.executePending params bar = .ok state') :
    (state'.portfolio = state.portfolio ∧ state'.trades = state.trades ∧ state.Idles params bar) ∨
      ∃ signal side closing trade, state.Trades params bar state' signal side closing trade := by
  rw [executePending] at ok
  cases pending : state.pending with
  | none =>
      rw [pending] at ok
      cases ok
      refine .inl ⟨rfl, rfl, ?_⟩
      intro signal signalIndex side closing waits
      rw [pending] at waits
      cases waits
  | some entry =>
      rcases entry with ⟨signal, signalIndex⟩
      rw [pending] at ok
      rcases except_bind_eq_ok.mp ok with ⟨executed, executedOk, ok⟩
      cases ok
      rw [executeSignal] at executedOk
      cases resolved : resolveAction state.portfolio.qty signal.direction with
      | none =>
          rw [resolved] at executedOk
          cases executedOk
          refine .inl ⟨rfl, List.append_nil _, ?_⟩
          intro other otherIndex side closing waits acts
          rw [pending] at waits
          cases waits
          rw [resolved] at acts
          cases acts
      | some action =>
          rcases action with ⟨side, closing⟩
          rw [resolved] at executedOk
          rcases except_bind_eq_ok.mp executedOk with ⟨filled, filledOk, executedOk⟩
          cases executedOk
          rcases filled with ⟨portfolio, leg⟩
          rcases Portfolio.fill_cases filledOk with ⟨rfl, rfl, nothing⟩ |
            ⟨qty, positive, _, fillable, _, rfl, rfl⟩
          · refine .inl ⟨rfl, List.append_nil _, ?_⟩
            intro other otherIndex side' closing' waits acts
            rw [pending] at waits
            cases waits
            rw [resolved] at acts
            cases acts
            exact nothing
          · refine .inr ⟨signal, side, closing, _, ⟨signalIndex, pending⟩, resolved, ?_, ?_,
              fillable, ?_, rfl, rfl⟩
            · rfl
            · exact positive
            · cases closing <;> rfl

theorem natAbs_signedQty (side : Side) (qty : ℕ) : (signedQty side qty).natAbs = qty := by
  cases side <;> simp [signedQty]

theorem natAbs_signed (trade : ExecutedTrade) : trade.signed.natAbs = trade.qty :=
  natAbs_signedQty _ _

theorem toNat_requestedQty_closing (params : BacktestParams) (rawPrice : ℚ)
    (portfolio : Portfolio) :
    (requestedQty params true rawPrice portfolio).toNat = portfolio.qty.natAbs := by
  rw [requestedQty, if_pos rfl, Int.abs_eq_natAbs, Int.toNat_natCast]

namespace Replay

variable {params : BacktestParams} {bar : CandleRow × ℕ} {state state' : Replay σ}
  {openLeg : Option ExecutedTrade} {signal : Signal} {side : Side} {closing : Bool}
  {trade : ExecutedTrade}

/-- A position that is not flat is that of the open leg. -/
theorem Balanced.entry (balanced : state.Balanced openLeg) (held : state.portfolio.qty ≠ 0) :
    ∃ entry, openLeg = some entry ∧ state.portfolio.qty = entry.signed ∧
      entry.qty = state.portfolio.qty.natAbs := by
  cases openLeg with
  | none => exact absurd balanced.holds held
  | some entry =>
      have same : state.portfolio.qty = entry.signed := balanced.holds
      exact ⟨entry, rfl, same, by rw [same, natAbs_signed]⟩

theorem Balanced.flat (balanced : state.Balanced openLeg) (flat : state.portfolio.qty = 0) :
    openLeg = none := by
  cases openLeg with
  | none => rfl
  | some entry =>
      have same : state.portfolio.qty = entry.signed := balanced.holds
      have zero : entry.qty = 0 := by
        rw [← natAbs_signed, ← same, flat, Int.natAbs_zero]
      exact absurd zero (balanced.positive entry rfl).ne'

theorem Trades.sum (trades : state.Trades params bar state' signal side closing trade) :
    (state'.trades.map ExecutedTrade.signed).sum =
      (state.trades.map ExecutedTrade.signed).sum + trade.signed := by
  rw [trades.trades, List.map_append, List.sum_append, List.map_singleton, List.sum_singleton]

theorem Balanced.opens (balanced : state.Balanced openLeg) (flat : state.portfolio.qty = 0)
    (trades : state.Trades params bar state' signal side false trade) :
    state'.Balanced (some trade) := by
  have none : openLeg = none := balanced.flat flat
  subst none
  have position : state'.portfolio.qty = trade.signed := by
    rw [trades.portfolio, if_neg Bool.false_ne_true, Portfolio.openOrAdd, if_pos flat,
      ExecutedTrade.signed, trades.tradeSide]
  refine ⟨?_, ?_, position, ?_⟩
  · rw [trades.trades]
    apply RoundTrips.opened balanced.trips
    simpa using trades.realized
  · rw [trades.sum, ← balanced.position, flat, zero_add, position]
  · rintro entry same
    cases same
    exact trades.positive

theorem Balanced.closes (balanced : state.Balanced openLeg)
    (trades : state.Trades params bar state' signal side true trade)
    (whole : trade.qty = state.portfolio.qty.natAbs)
    (offsets : state.portfolio.qty + trade.signed = 0) : state'.Balanced none := by
  have held : state.portfolio.qty ≠ 0 := by
    intro flat
    have zero : trade.qty = 0 := by rw [whole, flat, Int.natAbs_zero]
    exact absurd zero trades.positive.ne'
  rcases balanced.entry held with ⟨entry, rfl, _, entryQty⟩
  have position : state'.portfolio.qty = 0 := by
    rw [trades.portfolio, if_pos rfl]
    rfl
  refine ⟨?_, ?_, position, fun entry same => ?_⟩
  · rw [trades.trades]
    exact RoundTrips.closed balanced.trips trades.realized (whole.trans entryQty.symm)
  · rw [trades.sum, ← balanced.position, offsets, position]
  · cases same

theorem Trades.closesLong (trades : state.Trades params bar state' signal .sell true trade) :
    trade.qty = state.portfolio.qty.natAbs := by
  have fillable := trades.fillable
  rw [toNat_requestedQty_closing, fillableQty, Except.ok.injEq] at fillable
  exact fillable.symm

/-- The purchase that covers a short is the largest one up to the short that the cash pays for. -/
theorem Trades.coversShort (trades : state.Trades params bar state' signal .buy true trade) :
    trade.qty ≤ state.portfolio.qty.natAbs ∧
      params.coverCost (applySlippage bar.1.openPrice .buy params.slippageBps) trade.qty ≤
        state.portfolio.cash ∧
      ∀ larger, trade.qty < larger → larger ≤ state.portfolio.qty.natAbs →
        state.portfolio.cash <
          params.coverCost (applySlippage bar.1.openPrice .buy params.slippageBps) larger := by
  have fillable := trades.fillable
  rw [toNat_requestedQty_closing, fillableQty] at fillable
  rcases clampToCash_eq_ok fillable with ⟨within, paid, tooMany⟩
  exact ⟨within, paid trades.positive, tooMany⟩

theorem Trades.coversPartly_iff (trades : state.Trades params bar state' signal side closing trade) :
    state.CoversPartly params bar ↔
      closing = true ∧ side = .buy ∧ trade.qty < state.portfolio.qty.natAbs := by
  rcases trades.pending with ⟨signalIndex, pending⟩
  constructor
  · rintro ⟨waiting, waitingIndex, waits, exits, short, unaffordable, part, _, _, _⟩
    rw [pending, Option.some.injEq, Prod.mk.injEq] at waits
    rcases waits with ⟨rfl, rfl⟩
    rcases resolveAction_eq_some trades.resolved with ⟨_, flat⟩ | ⟨rfl, _, ⟨_, long⟩ | ⟨rfl, _⟩⟩
    · omega
    · omega
    · rcases trades.coversShort with ⟨within, paid, _⟩
      refine ⟨rfl, rfl, lt_of_le_of_ne within fun whole => ?_⟩
      rw [whole] at paid
      exact absurd paid (not_le.mpr unaffordable)
  · rintro ⟨rfl, rfl, partly⟩
    rcases trades.coversShort with ⟨_, paid, tooMany⟩
    rcases resolveAction_eq_some trades.resolved with ⟨opening, _⟩ |
      ⟨_, exits, ⟨sells, _⟩ | ⟨_, short⟩⟩
    · cases opening
    · cases sells
    · exact ⟨signal, signalIndex, pending, exits, short, tooMany _ partly le_rfl, trade.qty,
        trades.positive, partly, paid⟩

theorem Idles.not_coversPartly (idles : state.Idles params bar) :
    ¬ state.CoversPartly params bar := by
  rintro ⟨signal, signalIndex, pending, exits, short, _, part, positive, within, paid⟩
  have acts : resolveAction state.portfolio.qty signal.direction = some (.buy, true) := by
    rw [exits, resolveAction, if_neg (by omega), if_pos short]
  have nothing := idles signal signalIndex .buy true pending acts
  simp only [toNat_requestedQty_closing] at nothing
  rcases nothing with zero | refused
  · omega
  · have tooMany := (clampToCash_eq_ok refused).2.2 part positive within.le
    exact absurd paid (not_le.mpr tooMany)

/-- What the fill of the pending signal does to a balanced state: it leaves a balanced one,
unless it covers a short partly, which leaves the position behind the trades. -/
theorem Balanced.executePending (balanced : state.Balanced openLeg)
    (ok : state.executePending params bar = .ok state') :
    (state.CoversPartly params bar →
      state'.portfolio.qty ≠ (state'.trades.map ExecutedTrade.signed).sum) ∧
    (¬ state.CoversPartly params bar → ∃ openLeg', state'.Balanced openLeg') := by
  rcases executePending_cases ok with ⟨portfolio, trades, idles⟩ |
    ⟨signal, side, closing, trade, trades⟩
  · refine ⟨fun partly => absurd partly idles.not_coversPartly, fun _ => ⟨openLeg, ?_⟩⟩
    refine ⟨?_, ?_, ?_, balanced.positive⟩
    · rw [trades]
      exact balanced.trips
    · rw [portfolio, trades]
      exact balanced.position
    · rw [portfolio]
      exact balanced.holds
  · have signed : trade.signed = signedQty side trade.qty := by
      rw [ExecutedTrade.signed, trades.tradeSide]
    rw [trades.coversPartly_iff]
    rcases resolveAction_eq_some trades.resolved with ⟨rfl, flat⟩ |
      ⟨rfl, _, ⟨rfl, long⟩ | ⟨rfl, short⟩⟩
    · exact ⟨nofun, fun _ => ⟨some trade, balanced.opens flat trades⟩⟩
    · refine ⟨nofun, fun _ => ⟨none, balanced.closes trades trades.closesLong ?_⟩⟩
      rw [signed, trades.closesLong, signedQty, if_neg (by decide)]
      omega
    · have within := trades.coversShort.1
      constructor
      · rintro ⟨_, _, partly⟩
        rw [trades.sum, ← balanced.position, signed, signedQty, if_pos rfl, trades.portfolio,
          if_pos rfl, Portfolio.close]
        simp only
        omega
      · intro complete
        have whole : trade.qty = state.portfolio.qty.natAbs := by
          by_contra short
          exact complete ⟨rfl, rfl, lt_of_le_of_ne within short⟩
        refine ⟨none, balanced.closes trades whole ?_⟩
        rw [signed, whole, signedQty, if_pos rfl]
        omega

end Replay

/-! ## Runs -/

theorem BacktestRun.consult_ledger {run : BacktestRun σ} {bar : CandleRow × ℕ}
    {state state' : Replay σ} (ok : run.consult bar state = .ok state') :
    state'.portfolio = state.portfolio ∧ state'.trades = state.trades ∧
      state'.equityCurve = state.equityCurve := by
  rw [consult] at ok
  by_cases early : (bar.2 : ℤ) < run.effectiveStart
  · rw [if_pos early] at ok
    cases ok
    exact ⟨rfl, rfl, rfl⟩
  rw [if_neg early] at ok
  rcases except_bind_eq_ok.mp ok with ⟨decision, _, ok⟩
  cases signal : decision.1 with
  | none =>
      rw [signal] at ok
      cases ok
      exact ⟨rfl, rfl, rfl⟩
  | some signal' =>
      simp only [signal] at ok
      split_ifs at ok with final
      · cases ok
        exact ⟨rfl, rfl, rfl⟩
      · cases ok
        exact ⟨rfl, rfl, rfl⟩

/-- The state of a run of `run_backtest` after its first bars. -/
def Reached (sqrt : ℚ → ℚ) (strategy : Strategy σ) (memory : σ) (candles : List CandleRow)
    (params : BacktestParams) (count : ℕ) (state : Replay σ) : Prop :=
  ∃ run, BacktestRun.start sqrt strategy candles params = .ok run ∧
    run.replay (run.initial memory) (candles.zipIdx.take count) = .ok state

/-- The ledger after a turn of the loop is the one after the fill of its pending signal. -/
theorem BacktestRun.bar_ledger {run : BacktestRun σ} {bar : CandleRow × ℕ}
    {state state' : Replay σ} (ok : run.bar state bar = .ok state') :
    ∃ executed, state.executePending run.params bar = .ok executed ∧
      state'.portfolio = executed.portfolio ∧ state'.trades = executed.trades := by
  rcases except_bind_eq_ok.mp ok with ⟨executed, executedOk, consulted⟩
  rcases consult_ledger consulted with ⟨portfolio, trades, _⟩
  exact ⟨executed, executedOk, portfolio, trades⟩

theorem BacktestRun.initial_balanced (run : BacktestRun σ) (memory : σ) :
    (run.initial memory).Balanced none where
  trips := .flat
  position := rfl
  holds := rfl
  positive := by
    intro entry same
    cases same

theorem BacktestRun.start_eq_ok {sqrt : ℚ → ℚ} {strategy : Strategy σ} {candles : List CandleRow}
    {params : BacktestParams} {run : BacktestRun σ}
    (started : BacktestRun.start sqrt strategy candles params = .ok run) :
    candles ≠ [] ∧ 0 < params.initialCapital ∧ ∃ series,
      computeIndicatorSet sqrt candles strategy.requiredIndicators ∅ = .ok series ∧
      run = ⟨strategy, params, candles, series,
        max strategy.warmupBars (firstAllValidIndex series)⟩ := by
  rw [start] at started
  by_cases empty : candles = []
  · rw [if_pos empty] at started
    cases started
  rw [if_neg empty] at started
  by_cases broke : params.initialCapital ≤ 0
  · rw [if_pos broke] at started
    cases started
  rw [if_neg broke] at started
  rcases except_bind_eq_ok.mp started with ⟨series, computed, started⟩
  cases started
  exact ⟨empty, not_le.mp broke, series, computed, rfl⟩

section Reached

variable {sqrt : ℚ → ℚ} {strategy : Strategy σ} {memory : σ} {candles : List CandleRow}
  {params : BacktestParams} {count : ℕ} {state next : Replay σ}

theorem Reached.bar {bar : CandleRow × ℕ} (following : candles.zipIdx[count]? = some bar)
    (reached : Reached sqrt strategy memory candles params (count + 1) next) :
    ∃ run state, BacktestRun.start sqrt strategy candles params = .ok run ∧
      Reached sqrt strategy memory candles params count state ∧ run.bar state bar = .ok next := by
  rcases reached with ⟨run, started, replayed⟩
  rw [List.take_add_one, following, Option.toList_some, BacktestRun.replay,
    List.foldlM_append] at replayed
  rcases except_bind_eq_ok.mp replayed with ⟨state, before, turned⟩
  refine ⟨run, state, started, ⟨run, started, before⟩, ?_⟩
  simpa using turned

/-- What holds before the first bar and is kept by a turn of the loop holds after every bar. -/
theorem Reached.invariant {motive : ℕ → Replay σ → Prop}
    (first : ∀ run, BacktestRun.start sqrt strategy candles params = .ok run →
      motive 0 (run.initial memory))
    (turn : ∀ run index candle before after,
      BacktestRun.start sqrt strategy candles params = .ok run → candles[index]? = some candle →
      Reached sqrt strategy memory candles params index before →
      Reached sqrt strategy memory candles params (index + 1) after →
      run.bar before (candle, index) = .ok after → motive index before → motive (index + 1) after)
    (within : count ≤ candles.length)
    (reached : Reached sqrt strategy memory candles params count state) : motive count state := by
  induction count generalizing state with
  | zero =>
      rcases reached with ⟨run, started, replayed⟩
      cases replayed
      exact first run started
  | succ count ih =>
      have following := List.getElem?_eq_getElem (Nat.lt_of_succ_le within)
      have bar : candles.zipIdx[count]? = some (candles[count], count) := by
        simp [List.getElem?_zipIdx, following]
      rcases reached.bar bar with ⟨run, before, started, reachedBefore, turned⟩
      exact turn run count _ before state started following reachedBefore reached turned
        (ih (Nat.le_of_succ_le within) reachedBefore)

theorem Reached.unique {other : Replay σ}
    (reached : Reached sqrt strategy memory candles params count state)
    (reached' : Reached sqrt strategy memory candles params count other) : state = other := by
  rcases reached with ⟨run, started, replayed⟩
  rcases reached' with ⟨run', started', replayed'⟩
  rw [started, Except.ok.injEq] at started'
  subst run'
  rw [replayed, Except.ok.injEq] at replayed'
  exact replayed'

/-- What a completed turn of the loop does to a balanced state. -/
theorem Reached.turn {bar : CandleRow × ℕ} (following : candles.zipIdx[count]? = some bar)
    (reached : Reached sqrt strategy memory candles params count state)
    (reachedNext : Reached sqrt strategy memory candles params (count + 1) next)
    {openLeg : Option ExecutedTrade} (balanced : state.Balanced openLeg) :
    (state.CoversPartly params bar → ¬ next.Conserves) ∧
    (¬ state.CoversPartly params bar → ∃ openLeg', next.Balanced openLeg') := by
  rcases reachedNext.bar following with ⟨run, before, started, reachedBefore, turned⟩
  have same := reachedBefore.unique reached
  subst before
  rcases BacktestRun.start_eq_ok started with ⟨_, _, series, _, rfl⟩
  rcases BacktestRun.bar_ledger turned with ⟨executed, executedOk, portfolio, trades⟩
  rcases balanced.executePending executedOk with ⟨breaks, keeps⟩
  constructor
  · intro partly conserves
    apply breaks partly
    rw [← portfolio, ← trades]
    exact conserves.position
  · intro complete
    rcases keeps complete with ⟨openLeg', after⟩
    refine ⟨openLeg', ?_, ?_, ?_, after.positive⟩
    · rw [trades]
      exact after.trips
    · rw [portfolio, trades]
      exact after.position
    · rw [portfolio]
      exact after.holds

/-- Every state of a run is balanced if no balanced state covers a short partly. -/
theorem Reached.balanced
    (whole : ∀ count bar state next, candles.zipIdx[count]? = some bar →
      Reached sqrt strategy memory candles params count state →
      Reached sqrt strategy memory candles params (count + 1) next →
      (∃ openLeg, state.Balanced openLeg) → ¬ state.CoversPartly params bar)
    (reached : Reached sqrt strategy memory candles params count state) :
    ∃ openLeg, state.Balanced openLeg := by
  induction count generalizing state with
  | zero =>
      rcases reached with ⟨run, _, replayed⟩
      cases replayed
      exact ⟨none, run.initial_balanced memory⟩
  | succ count ih =>
      cases following : candles.zipIdx[count]? with
      | none =>
          apply ih
          rcases reached with ⟨run, started, replayed⟩
          rw [List.take_add_one, following, Option.toList_none, List.append_nil] at replayed
          exact ⟨run, started, replayed⟩
      | some bar =>
          rcases reached.bar following with ⟨_, before, _, reachedBefore, _⟩
          rcases ih reachedBefore with ⟨openLeg, balanced⟩
          have complete := whole count bar before state following reachedBefore reached
            ⟨openLeg, balanced⟩
          exact (Reached.turn following reachedBefore reached balanced).2 complete

end Reached

/-- Shares are conserved after every bar of a backtest exactly when no bar of it covers a
short partly. -/
theorem conserves_iff (sqrt : ℚ → ℚ) (strategy : Strategy σ) (memory : σ)
    (candles : List CandleRow) (params : BacktestParams) :
    (∀ count state, Reached sqrt strategy memory candles params count state → state.Conserves) ↔
      ∀ count bar state next, candles.zipIdx[count]? = some bar →
        Reached sqrt strategy memory candles params count state →
        Reached sqrt strategy memory candles params (count + 1) next →
        ¬ state.CoversPartly params bar := by
  constructor
  · intro conserves count bar state next following reached reachedNext
    have whole : ∀ count bar state next, candles.zipIdx[count]? = some bar →
        Reached sqrt strategy memory candles params count state →
        Reached sqrt strategy memory candles params (count + 1) next →
        (∃ openLeg, state.Balanced openLeg) → ¬ state.CoversPartly params bar := by
      rintro count bar state next following reached reachedNext ⟨openLeg, balanced⟩ partly
      exact (Reached.turn following reached reachedNext balanced).1 partly
        (conserves _ _ reachedNext)
    exact whole count bar state next following reached reachedNext (reached.balanced whole)
  · intro complete count state reached
    have balanced := reached.balanced fun count bar state next following before after _ =>
      complete count bar state next following before after
    rcases balanced with ⟨openLeg, balanced⟩
    exact ⟨balanced.position, openLeg, balanced.trips⟩

/-! ## A losing short -/

/-- A strategy that goes short on the first bar and exits on the second. -/
def shortSeller : Strategy Unit where
  warmupBars := 0
  requiredIndicators := []
  distinct := List.nodup_nil
  onCandle context memory := .ok (
    if context.index = 0 then some ⟨.short, 10, []⟩
    else if context.index = 1 then some ⟨.exit, 10, []⟩
    else none, memory)

/-- A bar that stays at one price. -/
def flatBar (ts : ℤ) (price : ℚ) : CandleRow := ⟨ts, price, price, price, price, 1, 0⟩

/-- Prices that multiply after the short is open. -/
def risingBars : List CandleRow :=
  [flatBar 0 10, flatBar 86400000 10, flatBar 172800000 50]

/-- Ten shares for 100 of capital, with the default costs and slippage. -/
def tenShares : BacktestParams where
  initialCapital := 100
  sizer _ _ := 10
  costRates := default

/-- Three of ten shares are covered, and the position is flat. -/
theorem shortCover_loses_shares :
    (∀ candle ∈ risingBars, 0 < candle.openPrice ∧ 0 < candle.close) ∧
    ∃ state, Reached id shortSeller () risingBars tenShares 3 state ∧
      state.portfolio.qty = 0 ∧ (state.trades.map ExecutedTrade.signed).sum = -7 ∧
      ¬ state.Conserves := by
  refine ⟨by decide, ?_⟩
  let run : BacktestRun Unit := ⟨shortSeller, tenShares, risingBars, ∅, 0⟩
  have started : BacktestRun.start id shortSeller risingBars tenShares = .ok run := rfl
  have ledger : (run.replay (run.initial ()) (risingBars.zipIdx.take 3)).toOption.map
      (fun state => (state.portfolio.qty, (state.trades.map ExecutedTrade.signed).sum)) =
        some (0, -7) := by decide +kernel
  rcases exists_of_toOption _ ledger with ⟨state, replayed, both⟩
  rw [Prod.mk.injEq] at both
  rcases both with ⟨position, sum⟩
  refine ⟨state, ⟨run, started, replayed⟩, position, sum, fun conserves => ?_⟩
  have same := conserves.position
  rw [position, sum] at same
  cases same

end PersonalTrade
