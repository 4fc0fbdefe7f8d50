import PersonalTrade.Execution.Fills
import PersonalTrade.Orchestrator.Exposure

/-!
# Completeness of LIVE fills over a session

A LIVE session births orders in candles and books their fills in polls, and nothing
else touches the books. An order that a poll makes `FILLED` is never polled again, so
its books are complete in every later state or in none: it depends on the report that
made it `FILLED`.
-/

namespace PersonalTrade

open Transaction

/-- A LIVE candle adds an unfilled order and moves nothing. -/
structure Births (db db' : DB) (order : Order) : Prop where
  orders : ∀ id, db'.orders.get? id =
    if id = db.orders.nextId then some order else db.orders.get? id
  nextId : db'.orders.nextId = db.orders.nextId + 1
  positions : db'.positions = db.positions
  trades : db'.trades = db.trades
  filledQty : order.filledQty = 0
  state : order.state = .submitted

namespace Births

variable {db db' : DB} {order : Order}

theorem unaccounted (births : Births db db' order) (instrumentId : ℕ) :
    db'.unaccounted instrumentId = db.unaccounted instrumentId := by
  rw [DB.unaccounted, DB.unaccounted, DB.signedFilled, DB.signedFilled,
    RowTable.total_added births.orders]
  simp [DB.positionQty, DB.positionFor, births.positions, Order.signedFilled, births.filledQty]

theorem fillsBooked (births : Births db db' order) (books : FillsBooked db) : FillsBooked db' := by
  have traded : ∀ id, db'.tradedQty id = db.tradedQty id := by
    intro id
    simp only [DB.tradedQty, DB.tradesOf, births.trades]
  refine ⟨fun id row found isLive => ?_, fun id beyond => ?_, fun id row found isLive filled => ?_⟩
  · rw [births.orders] at found
    rw [traded]
    split_ifs at found with new
    · rw [Option.some.injEq] at found
      subst row id
      rw [books.unborn _ le_rfl, births.filledQty]
    · exact books.counted id row found isLive
  · rw [births.nextId] at beyond
    rw [traded]
    exact books.unborn id (by omega)
  · rw [births.orders] at found
    split_ifs at found with new
    · rw [Option.some.injEq] at found
      subst row
      rw [births.state] at filled
      cases filled
    · exact books.complete id row found isLive filled

end Births

namespace SameBook

variable {db db' : DB}

theorem unaccounted (same : SameBook db db') (instrumentId : ℕ) :
    db'.unaccounted instrumentId = db.unaccounted instrumentId := by
  simp only [DB.unaccounted, DB.signedFilled, same.positionQty, same.orders]

theorem fillsBooked (same : SameBook db db') (books : FillsBooked db) : FillsBooked db' := by
  have traded : ∀ id, db'.tradedQty id = db.tradedQty id := by
    intro id
    simp only [DB.tradedQty, DB.tradesOf, same.trades]
  refine ⟨fun id row found => ?_, fun id beyond => ?_, fun id row found => ?_⟩
  · rw [same.orders] at found
    rw [traded]
    exact books.counted id row found
  · rw [same.orders] at beyond
    rw [traded]
    exact books.unborn id beyond
  · rw [same.orders] at found
    exact books.complete id row found

end SameBook

namespace Orchestrator

variable {ω : Type} {orchestrator : Orchestrator ω} {quotes : LiveQuoteSource} {draw : Draw}
  {runner : Instrument} {decision : Decision} {db db' : DB} {world world' : ω}

/-- A LIVE candle leaves the book alone or births one order. -/
theorem live_processCandle (live : orchestrator.mode = .live)
    (yields : (orchestrator.processCandle quotes runner decision draw).Yields db world () db'
      world') : SameBook db db' ∨ ∃ order, Births db db' order := by
  simp only [processCandle, processCandleWith, yields_bind] at yields
  rcases yields with ⟨prepared, before, worldBefore, preparedYields, yields⟩
  rcases yields_prepare preparedYields with ⟨rfl, rfl⟩ | ⟨broker, call, row, rfl, built, _, _, _, _,
    _, _, untraded, _⟩
  · simp only [yields_pure] at yields
    rcases yields with ⟨_, rfl, _⟩
    exact .inl (.refl _)
  · rcases evaluateAndSubmit_cases yields with ⟨event, rfl⟩ |
      ⟨order, ack, placed, approves, placedYields, rfl⟩
    · exact .inl ⟨untraded.orders, untraded.positions, untraded.trades,
        untraded.signals.trans (.setStatus _ _ _)⟩
    · have session : orchestrator.mode ≠ .backtest := by simp [live]
      rcases built.placing session placedYields with ⟨_, placing⟩
      cases built with
      | paper isPaper => exact absurd live isPaper
      | live _ broker _ =>
          rcases UpstoxBroker.yields_placeOrder placedYields with
            ⟨_, _, brokerOrderId, _, _, _, _, _, rfl, opening⟩
          have markedOrders : ((KillSwitch.touch before).setSignalStatus call.signalId
              .approved).orders = db.orders := untraded.orders
          have linked := opening.update fun order => { order with signalId := some call.signalId }
          rw [← linkSignal_of_placing placing] at linked
          have quiet := untraded_recordSuccess
            (placed.linkSignal order.request.clientOrderId call.signalId)
          refine .inr ⟨{ UpstoxBroker.submittedRow order.request brokerOrderId with
            signalId := some call.signalId }, fun id => ?_, ?_, ?_, ?_, rfl, rfl⟩
          · rw [quiet.orders, ← markedOrders]
            exact linked.orders id
          · rw [quiet.orders, ← markedOrders]
            exact linked.nextId
          · rw [quiet.positions]
            exact linked.positions.trans untraded.positions
          · rw [quiet.trades]
            exact linked.trades.trans untraded.trades

/-- What a step of a LIVE session can do to the book. -/
inductive LiveEffect (orchestrator : Orchestrator ω) (state : SessionState ω) :
    SessionEvent ω → DB → Prop where
  | quiet {event : SessionEvent ω} {db' : DB} (same : SameBook state.db db') :
      LiveEffect orchestrator state event db'
  | births {event : SessionEvent ω} {db' : DB} {order : Order} (births : Births state.db db' order) :
      LiveEffect orchestrator state event db'
  | polls {clock : ℕ → ℤ} {broker : UpstoxBroker ω} {updates : List OrderUpdate} {db' : DB}
      {world' : ω} (configured : orchestrator.upstoxBroker = .ok broker)
      (polled : (broker.pollAndApplyFills clock).Yields state.db state.world updates db' world') :
      LiveEffect orchestrator state (.housekeeping clock) db'

theorem live_effect (live : orchestrator.mode = .live) (state : SessionState ω)
    (event : SessionEvent ω) :
    LiveEffect orchestrator state event (orchestrator.step state event).db := by
  cases event with
  | candle candle decision draw =>
      simp only [step, onCandle]
      split
      · exact .quiet (.refl _)
      · rename_i runner runs
        rcases yields_or_raises (orchestrator.processCandle
          (state.quotes.update candle.instrumentKey candle.close) runner decision draw) state.db
          state.world with ⟨⟨⟩, db', world', yields⟩ | ⟨exception, world', raises⟩
        · rw [commit_of_yields yields]
          rcases live_processCandle live yields with same | ⟨order, births⟩
          · exact .quiet same
          · exact .births births
        · rw [commit_of_raises raises]
          exact .quiet (sameBook_recordError _ _ _)
  | housekeeping clock =>
      simp only [step, runHousekeeping]
      rcases yields_or_raises (orchestrator.housekeep state.quotes clock) state.db state.world with
        ⟨⟨⟩, db', world', yields⟩ | ⟨exception, world', raises⟩
      · rw [commit_of_yields yields]
        simp only [housekeep, live, yields_bind, yields_ofExcept, yields_pure] at yields
        rcases yields with ⟨broker, _, _, ⟨configured, rfl, rfl⟩, _, _, _, polled, _, rfl, _⟩
        exact .polls configured polled
      · rw [commit_of_raises raises]
        exact .quiet (.refl _)
  | _ =>
      have session : orchestrator.mode ≠ .backtest := by simp [live]
      cases step_effect session state _ with
      | quiet same => exact .quiet same

/-- Every report that answers a poll and makes an order `FILLED` comes with a price and the
whole quantity, unless all of it is booked already. -/
def ReportsComplete (orchestrator : Orchestrator ω) (state : SessionState ω) :
    SessionEvent ω → Prop
  | .housekeeping clock => ∀ broker, orchestrator.upstoxBroker = .ok broker →
      ∀ id order middle middleWorld report,
        broker.Polls clock state.db state.world id middle middleWorld →
        middle.orders.get? id = some order → broker.Answers middleWorld order report →
          report.Completes order
  | _ => True

theorem fillsBooked_step (live : orchestrator.mode = .live) {state : SessionState ω}
    {event : SessionEvent ω} (books : FillsBooked state.db)
    (complete : orchestrator.ReportsComplete state event) :
    FillsBooked (orchestrator.step state event).db := by
  have effect := live_effect live state event
  generalize (orchestrator.step state event).db = db' at effect ⊢
  cases effect with
  | quiet same => exact same.fillsBooked books
  | births births => exact births.fillsBooked books
  | polls configured polled =>
      exact UpstoxBroker.fillsBooked_pollAndApplyFills books (complete _ configured) polled

/-- No step changes what the positions hold beyond the fills of their orders. -/
theorem unaccounted_step (live : orchestrator.mode = .live) (state : SessionState ω)
    (event : SessionEvent ω) (instrumentId : ℕ) :
    (orchestrator.step state event).db.unaccounted instrumentId =
      state.db.unaccounted instrumentId := by
  have effect := live_effect live state event
  generalize (orchestrator.step state event).db = db' at effect ⊢
  cases effect with
  | quiet same => exact same.unaccounted instrumentId
  | births births => exact births.unaccounted instrumentId
  | polls _ polled => exact UpstoxBroker.unaccounted_pollAndApplyFills polled instrumentId

/-- In every LIVE run whose reports carry the fills of the orders that they complete, a
`FILLED` order is filled on its row and in its trades, and every position has moved by
exactly the signed filled quantities of its orders. -/
theorem filled_orders_complete (orchestrator : Orchestrator ω) (live : orchestrator.mode = .live)
    {start state : SessionState ω} (books : FillsBooked start.db)
    (reached : Reaches orchestrator.step orchestrator.ReportsComplete start state) :
    (∀ id order, state.db.orders.get? id = some order → order.mode = .live →
      order.state = .filled → order.filledQty = order.qty ∧ state.db.tradedQty id = order.qty) ∧
    ∀ instrumentId,
      state.db.positionQty instrumentId .live - start.db.positionQty instrumentId .live =
        state.db.signedFilled instrumentId - start.db.signedFilled instrumentId := by
  have held := reached.invariant (motive := fun later => FillsBooked later.db ∧
      ∀ instrumentId, later.db.unaccounted instrumentId = start.db.unaccounted instrumentId)
    ⟨books, fun _ => rfl⟩ fun later event held complete =>
      ⟨fillsBooked_step live held.1 complete, fun instrumentId =>
        (unaccounted_step live later event instrumentId).trans (held.2 instrumentId)⟩
  refine ⟨fun id order found isLive filled => ?_, fun instrumentId => ?_⟩
  · have whole := held.1.complete id order found isLive filled
    exact ⟨whole, (held.1.counted id order found isLive).trans whole⟩
  · have accounted := held.2 instrumentId
    simp only [DB.unaccounted] at accounted
    omega

/-- The sample session with servers that complete every order at once, with ten shares at a
price that may be missing. -/
def completingSession (averagePrice : Option ℚ) : Orchestrator (List String) :=
  { sampleSession .live with
    upstoxClient := some fun call world =>
      match call with
      | .getOrderDetails _ =>
          (.ok (.orderDetails ⟨some 10, some 10, some "complete", averagePrice⟩), world)
      | call => sampleUpstox call world }

/-- The completing session after a LONG candle. -/
def completingState (averagePrice : Option ℚ) : SessionState (List String) :=
  (completingSession averagePrice).step sampleStart (signalCandle "NSE_EQ|INFY" 100 .long "a")

theorem fillsBooked_sampleStart : FillsBooked sampleStart.db := by
  refine ⟨fun id order found => ?_, fun id _ => rfl, fun id order found => ?_⟩ <;>
    simp [sampleStart, RowTable.get?, RowTable.empty] at found

/-- An order that completes without a price is `FILLED` with nothing filled. -/
theorem filled_without_price :
    FillsBooked sampleStart.db ∧
      ¬ ∀ state, Reaches (completingSession none).step (fun _ _ => True) sampleStart state →
        ∀ id order, state.db.orders.get? id = some order → order.mode = .live →
          order.state = .filled → order.filledQty = order.qty := by
  refine ⟨fillsBooked_sampleStart, fun claim => ?_⟩
  have reached := Reaches.of_labels (completingSession none).step sampleStart
    [signalCandle "NSE_EQ|INFY" 100 .long "a", .housekeeping fun _ => 0]
  have row : ((runSteps (completingSession none).step sampleStart
      [signalCandle "NSE_EQ|INFY" 100 .long "a", .housekeeping fun _ => 0]).db.orders.get? 0).map
        (fun order => (order.mode, order.state, order.filledQty, order.qty)) =
      some (.live, .filled, 0, 10) := by decide +kernel
  rcases Option.map_eq_some_iff.mp row with ⟨order, found, fields⟩
  simp only [Prod.mk.injEq] at fields
  rcases fields with ⟨isLive, filled, filledQty, qty⟩
  have whole := claim _ reached 0 order found isLive filled
  omega

theorem filled_orders_complete_sample :
    ((completingSession (some 100)).step (completingState (some 100))
      (.housekeeping fun _ => 0)).db.tradedQty 0 = 10 := by
  have waiting : (completingState (some 100)).db.listOpenOrders .live = [0] := by decide +kernel
  have ten : ((completingState (some 100)).db.orders.get? 0).map Order.qty = some 10 := by
    decide +kernel
  have complete : (completingSession (some 100)).ReportsComplete (completingState (some 100))
      (.housekeeping fun _ => 0) := by
    rintro broker configured id order middle middleWorld report ⟨earlier, later, _, split, soFar⟩
      found ⟨brokerOrderId, payload, _, answered, reported⟩ _
    rw [waiting] at split
    cases earlier with
    | cons first rest => simp at split
    | nil =>
        simp only [List.nil_append, List.cons.injEq] at split
        simp only [collect, yields_pure] at soFar
        rcases soFar with ⟨_, rfl, _⟩
        rw [← split.1] at found
        rw [found, Option.map_some, Option.some.injEq] at ten
        have brokerEq : broker = ⟨_, _, _⟩ := (Except.ok.inj configured).symm
        subst brokerEq
        have payloadEq : payload = .orderDetails ⟨some 10, some 10, some "complete", some 100⟩ :=
          (Except.ok.inj answered).symm
        subst payloadEq
        rw [← Except.ok.inj reported, ten]
        exact .inr ⟨by decide, by decide⟩
  have row : (((completingSession (some 100)).step (completingState (some 100))
      (.housekeeping fun _ => 0)).db.orders.get? 0).map
        (fun order => (order.mode, order.state, order.qty)) = some (.live, .filled, 10) := by
    decide +kernel
  rcases Option.map_eq_some_iff.mp row with ⟨order, found, fields⟩
  simp only [Prod.mk.injEq] at fields
  rcases fields with ⟨isLive, filled, qty⟩
  rw [← qty]
  exact ((filled_orders_complete (completingSession (some 100)) rfl fillsBooked_sampleStart
    (Reaches.of_meets [signalCandle "NSE_EQ|INFY" 100 .long "a", .housekeeping fun _ => 0]
      ⟨trivial, complete, trivial⟩)).1 0 order found isLive filled).2

end Orchestrator

end PersonalTrade
