import PersonalTrade.Execution.PaperLedger
import PersonalTrade.Execution.RestingOrders

/-!
# The trades of a paper run

A call of the paper broker attempts to fill the order that it places, or each resting order
once; every trade comes from such an attempt. Whether a LIMIT order is marketable is decided
at the quote, and slippage moves the price afterwards, past the limit if the quote is close
to it.
-/

namespace PersonalTrade

open Transaction

/-- The trades are untouched and the orders keep their terms. -/
structure KeepsTrades (db db' : DB) : Prop where
  trades : db'.trades = db.trades
  terms : ∀ id order, db.orders.get? id = some order →
    ∃ order', db'.orders.get? id = some order' ∧ order'.terms = order.terms

namespace PaperBroker

variable {broker : PaperBroker} {made : PaperCall} {db db' : DB} {id : ℕ} {order : Order}
  {instrument : Instrument} {world world' : Unit}

theorem keepsTrades_moveOrder (found : db.orders.get? id = some order) (toState : OrderState)
    (payload : EventPayload) : KeepsTrades db (db.moveOrder id order.state toState payload) := by
  refine ⟨rfl, fun other row rowFound => ?_⟩
  have terms : ((db.moveOrder id order.state toState payload).orders.get? other).map Order.terms =
      (db.orders.get? other).map Order.terms := Trading.terms_update found rfl other
  rw [rowFound, Option.map_some, Option.map_eq_some_iff] at terms
  exact terms

theorem keepsTrades_openOrder {uuid : String} {request : OrderRequest}
    (yields : (openOrder uuid request).Yields db world id db' world') : KeepsTrades db db' := by
  rcases yields_openOrder yields with ⟨_, _, _, opening⟩
  refine ⟨opening.trades, fun other row rowFound => ⟨row, ?_, rfl⟩⟩
  have old : other ≠ db.orders.nextId := by
    have below := RowTable.lt_nextId_of_get? rowFound
    omega
  rw [opening.get?_old old]
  exact rowFound

/-- What keeping the trades preserves, and every attempted fill preserves, a call preserves. -/
theorem call_trades {motive : DB → Prop}
    (kept : ∀ before after, motive before → KeepsTrades before after → motive after)
    (filled : ∀ before id order instrument qty price costs time, motive before →
      broker.Attempts db id before made →
      ∀ fills : broker.Fills before id order instrument qty price costs,
        motive (before.execute id order qty price costs time fills.within))
    (initial : motive db) (yields : (broker.call made).Yields db world () db' world') :
    motive db' :=
  call_invariant (fun _ _ _ _ _ _ _ opened => kept _ _ initial (keepsTrades_openOrder opened))
    (fun _ _ _ payload held found _ => kept _ _ held (keepsTrades_moveOrder found _ payload))
    filled initial yields

/-! ## Limits -/

/-- The quote is within the limit of a LIMIT order, and slippage takes it past the limit. -/
def InSlippageBand (broker : PaperBroker) (order : Order) (ltp : ℚ) : Prop :=
  order.orderType = .limit ∧ ∃ limitPrice, order.limitPrice = some limitPrice ∧
    match order.side with
    | .buy => ltp ≤ limitPrice ∧ limitPrice < ltp * (1 + broker.slippageBps / 10000)
    | .sell => ltp * (1 - broker.slippageBps / 10000) < limitPrice ∧ limitPrice ≤ ltp

/-- A quote within the limit stays there with slippage exactly outside the band. -/
theorem withinLimit_applySlippage_iff {ltp : ℚ} (within : order.WithinLimit ltp) :
    order.WithinLimit (applySlippage ltp order.side broker.slippageBps) ↔
      ¬ broker.InSlippageBand order ltp := by
  unfold Order.WithinLimit InSlippageBand at *
  by_cases isLimit : order.orderType = .limit
  · rcases within isLimit with ⟨limitPrice, limited, atQuote⟩
    cases side : order.side <;>
      · simp only [side] at atQuote
        simp [isLimit, limited, applySlippage, atQuote]
  · simp [isLimit]

/-- Every trade is within the limit of its order. -/
def LimitsKept (db : DB) : Prop :=
  ∀ trade ∈ db.trades, ∃ order, db.orders.get? trade.orderId = some order ∧
    order.WithinLimit trade.price

theorem withinLimit_of_terms {order' : Order} {price : ℚ} (terms : order'.terms = order.terms)
    (within : order.WithinLimit price) : order'.WithinLimit price := by
  have orderType : order'.orderType = order.orderType := congrArg OrderTerms.orderType terms
  have limitPrice : order'.limitPrice = order.limitPrice := congrArg OrderTerms.limitPrice terms
  have side : order'.side = order.side := congrArg OrderTerms.side terms
  rw [Order.WithinLimit, orderType, limitPrice, side]
  exact within

theorem limitsKept_of_keeps (held : LimitsKept db) (keeps : KeepsTrades db db') :
    LimitsKept db' := by
  intro trade mem
  rw [keeps.trades] at mem
  rcases held trade mem with ⟨order, found, within⟩
  rcases keeps.terms _ _ found with ⟨order', found', terms⟩
  exact ⟨order', found', withinLimit_of_terms terms within⟩

/-- A fill keeps the limits exactly when its quote is outside the band. -/
theorem limitsKept_execute_iff {qty : ℕ} {price ltp : ℚ} {costs : TradeCosts} {time : ℤ}
    (held : LimitsKept db) (fills : broker.Fills db id order instrument qty price costs)
    (quoted : broker.quotes.getLtp instrument = some ltp) :
    LimitsKept (db.execute id order qty price costs time fills.within) ↔
      ¬ broker.InSlippageBand order ltp := by
  rcases decideFill_terms fills.decided with ⟨quote, quoteEq, atQuote, slipped, _⟩
  rw [quoted, Option.some.injEq] at quoteEq
  subst quote
  have trades : (db.execute id order qty price costs time fills.within).trades =
      db.trades ++ [db.filledTrade id order qty price costs time] := DB.trades_execute
  have rowAfter : (db.execute id order qty price costs time fills.within).orders.get? id =
      some (order.executed qty fills.within) := by
    rw [DB.get?_execute fills.found, if_pos rfl]
  rw [← withinLimit_applySlippage_iff atQuote, ← slipped]
  constructor
  · intro kept
    rcases kept (db.filledTrade id order qty price costs time) (by rw [trades]; simp) with
      ⟨row, rowFound, within⟩
    have same : some row = some (order.executed qty fills.within) := rowFound.symm.trans rowAfter
    rw [Option.some.injEq] at same
    subst row
    exact within
  · intro within other mem
    rw [trades, List.mem_append, List.mem_singleton] at mem
    rcases mem with old | rfl
    · rcases held other old with ⟨row, rowFound, rowWithin⟩
      rw [DB.get?_execute fills.found]
      split_ifs with same
      · rw [same, fills.found, Option.some.injEq] at rowFound
        subst row
        exact ⟨_, rfl, rowWithin⟩
      · exact ⟨row, rowFound, rowWithin⟩
    · exact ⟨_, rowAfter, within⟩

/-- No LIMIT order is attempted at a quote in its slippage band. -/
def AvoidsBand (db : DB) (made : PaperBroker × PaperCall) : Prop :=
  ∀ before id order instrument ltp, made.1.Attempts db id before made.2 →
    before.orders.get? id = some order → before.instrument order.instrumentId = some instrument →
    made.1.quotes.getLtp instrument = some ltp → ¬ made.1.InSlippageBand order ltp

theorem limitsKept_step {made : PaperBroker × PaperCall} (held : LimitsKept db)
    (avoids : AvoidsBand db made) : LimitsKept (step db made) := by
  rcases commit_store (made.1.call made.2) db () with same | ⟨_, _, yields⟩
  · have rolledBack : step db made = db := same
    rw [rolledBack]
    exact held
  · refine call_trades (motive := LimitsKept) (fun _ _ => limitsKept_of_keeps) ?_ held yields
    intro before id order instrument qty price costs time kept attempts fills
    rcases decideFill_terms fills.decided with ⟨ltp, quoted, _⟩
    exact (limitsKept_execute_iff kept fills quoted).mpr
      (avoids before id order instrument ltp attempts fills.found fills.known quoted)

/-- In a run that avoids the slippage bands, no LIMIT order trades through its limit. -/
theorem limitsKept_of_reaches {start : DB} (untraded : start.trades = [])
    (reached : Reaches step AvoidsBand start db) : LimitsKept db := by
  refine reached.invariant (motive := LimitsKept) ?_ fun _ _ held avoids =>
    limitsKept_step held avoids
  intro trade mem
  rw [untraded] at mem
  cases mem

/-- A purchase of five shares at this price or less. -/
def limitPurchase (limitPrice : ℚ) : PaperCall :=
  .placeOrder "u" 0 ⟨"a", 1, .buy, .limit, 5, some limitPrice⟩

/-- Quotes of 100 and a slippage of five basis points. -/
def slippingBroker : PaperBroker := ⟨fun _ => some 100, default, .delivery, 5, 250⟩

theorem limitsKept_of_reaches_sample :
    LimitsKept (runSteps step sampleAccount [(slippingBroker, limitPurchase 101)]) := by
  refine limitsKept_of_reaches rfl (.of_meets _ ⟨?_, trivial⟩)
  rintro before id order instrument ltp ⟨rfl, opened⟩ found _ quoted ⟨_, limitPrice, limited, band⟩
  rcases yields_openOrder opened with ⟨_, _, _, opening⟩
  rw [opening.get?_new, Option.some.injEq] at found
  subst order
  cases quoted
  cases limited
  have beyond : (101 : ℚ) < 100 * (1 + 5 / 10000) := band.2
  norm_num at beyond

/-- At a quote of 100, a purchase with a limit of 100 trades at 100.05. -/
theorem limitPurchase_through :
    let db := runSteps step sampleAccount [(slippingBroker, limitPurchase 100)]
    db.trades.map (fun trade => (trade.orderId, trade.price)) = [(0, 2001 / 20)] ∧
      ¬ LimitsKept db := by
  have traded : (runSteps step sampleAccount [(slippingBroker, limitPurchase 100)]).trades.map
      (fun trade => (trade.orderId, trade.price)) = [(0, 2001 / 20)] := by decide +kernel
  refine ⟨traded, fun kept => ?_⟩
  have mem : ((0, 2001 / 20) : ℕ × ℚ) ∈
      (runSteps step sampleAccount [(slippingBroker, limitPurchase 100)]).trades.map
        (fun trade => (trade.orderId, trade.price)) := traded ▸ List.mem_singleton_self _
  rcases List.mem_map.mp mem with ⟨trade, tradeMem, tradeEq⟩
  simp only [Prod.mk.injEq] at tradeEq
  have terms : ((runSteps step sampleAccount [(slippingBroker, limitPurchase 100)]).orders.get?
      0).map (fun order => (order.orderType, order.limitPrice, order.side)) =
        some (.limit, some 100, .buy) := by decide +kernel
  rcases kept trade tradeMem with ⟨order, found, within⟩
  rw [tradeEq.1] at found
  rw [found, Option.map_some, Option.some.injEq, Prod.mk.injEq, Prod.mk.injEq] at terms
  rcases within terms.1 with ⟨limitPrice, limited, below⟩
  rw [terms.2.1, Option.some.injEq] at limited
  rw [terms.2.2, tradeEq.2, ← limited] at below
  norm_num at below

end PaperBroker

end PersonalTrade
