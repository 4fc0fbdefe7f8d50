import PersonalTrade.Orchestrator.Service

/-!
# What the steps of a session do

The effect of each step on the committed store, stated once: a candle either leaves
the book of orders and positions alone or adds one order that the risk engine
approved (`CandleEffect`), a housekeeping tick only trades, and everything else
touches the kill switch alone. Every invariant of a session is derived from these
statements and from the moves of the exposure.
-/

namespace PersonalTrade

open Transaction

/-- The direction of a stored signal. -/
def DB.signalDirection (db : DB) (id : ℕ) : Option SignalDirection :=
  (db.signals.get? id).map SignalRow.direction

/-- Stored signals keep their direction. -/
def KeepsSignals (db db' : DB) : Prop :=
  ∀ id direction, db.signalDirection id = some direction → db'.signalDirection id = some direction

/-- The book of orders, positions and trades has not changed. -/
structure SameBook (db db' : DB) : Prop where
  orders : db'.orders = db.orders
  positions : db'.positions = db.positions
  trades : db'.trades = db.trades
  signals : KeepsSignals db db'

/-- Neither the book has changed nor whether the kill switch is tripped. -/
structure Untraded (db db' : DB) : Prop extends SameBook db db' where
  tripped : db'.killSwitch.tripped = db.killSwitch.tripped

namespace KeepsSignals

variable {db db' : DB}

theorem of_eq (same : db'.signals = db.signals) : KeepsSignals db db' := by
  intro id direction found
  rwa [DB.signalDirection, same]

theorem of_insert {row : SignalRow} (inserted : db'.signals = db.signals.insert row) :
    KeepsSignals db db' := by
  intro id direction found
  rcases Option.map_eq_some_iff.mp found with ⟨old, oldFound, rfl⟩
  have below := RowTable.lt_nextId_of_get? oldFound
  rw [DB.signalDirection, inserted, RowTable.get?_insert_of_ne (by omega), oldFound]
  rfl

theorem setStatus (db : DB) (id : ℕ) (status : SignalStatus) :
    KeepsSignals db (db.setSignalStatus id status) := by
  intro other direction found
  rcases Option.map_eq_some_iff.mp found with ⟨old, oldFound, rfl⟩
  simp only [DB.signalDirection, DB.setSignalStatus, RowTable.get?_update]
  split_ifs <;> simp [oldFound]

theorem trans {db'' : DB} (first : KeepsSignals db db') (second : KeepsSignals db' db'') :
    KeepsSignals db db'' :=
  fun id direction found => second id direction (first id direction found)

end KeepsSignals

namespace SameBook

variable {db db' : DB}

theorem refl (db : DB) : SameBook db db := ⟨rfl, rfl, rfl, .of_eq rfl⟩

theorem exposure (same : SameBook db db') (mode : Mode) : db'.exposure mode = db.exposure mode :=
  DB.exposure_congr same.orders same.positions mode

theorem positionQty (same : SameBook db db') (instrumentId : ℕ) (mode : Mode) :
    db'.positionQty instrumentId mode = db.positionQty instrumentId mode := by
  simp only [DB.positionQty, DB.positionFor, same.positions]

end SameBook

/-- What placing an order does to the store: the birth of one working row with the
terms of the request, then trading. -/
structure Placing (mode : Mode) (request : OrderRequest) (db db' : DB) : Prop where
  positive : request.qty ≠ 0
  unused : db.usesClientId request.clientOrderId = false
  placed : ∃ middle row, Opening db middle row ∧ row.isWorking mode = true ∧
    row.working = ⟨request.instrumentId, request.side.direction, request.qty⟩ ∧
    row.clientOrderId = request.clientOrderId ∧ row.mode = mode ∧ Trading mode middle db'

namespace Orchestrator

variable {ω : Type} {orchestrator : Orchestrator ω} {quotes : LiveQuoteSource} {draw : Draw}
  {runner : Instrument} {decision : Decision} {db db' : DB} {world world' : ω}

/-- The brokers that `_build_broker` can return. -/
inductive Built (orchestrator : Orchestrator ω) (quotes : LiveQuoteSource) (draw : Draw) :
    Broker ω → Prop where
  | live (isLive : orchestrator.mode = .live) (broker : UpstoxBroker ω)
      (configured : orchestrator.upstoxBroker = .ok broker) : Built _ _ _ broker.toBroker
  | paper (isPaper : orchestrator.mode ≠ .live) :
      Built _ _ _ ((orchestrator.paperBroker quotes).toBroker draw)

theorem yields_buildBroker {broker : Broker ω}
    (yields : (orchestrator.buildBroker quotes draw).Yields db world broker db' world') :
    Built orchestrator quotes draw broker ∧
      (db' = db ∨ db' = db.openAccount orchestrator.initialCash) := by
  unfold buildBroker at yields
  split at yields
  · rename_i isLive
    simp only [yields_bind, yields_ofExcept, yields_pure] at yields
    rcases yields with ⟨broker, _, _, ⟨configured, rfl, _⟩, rfl, rfl, _⟩
    exact ⟨.live isLive broker configured, .inl rfl⟩
  · rename_i isPaper
    simp only [yields_bind, yields_modify, yields_pure] at yields
    rcases yields with ⟨_, _, _, ⟨rfl, _⟩, rfl, rfl, _⟩
    exact ⟨.paper isPaper, .inr rfl⟩

theorem Built.getFunds_store {broker : Broker ω} (built : Built orchestrator quotes draw broker)
    {funds : Funds} (yields : broker.getFunds.Yields db world funds db' world') : db' = db := by
  cases built with
  | live _ broker _ =>
      simp only [UpstoxBroker.toBroker, UpstoxBroker.getFunds, UpstoxBroker.rawPositions,
        yields_bind, yields_external, yields_ofExcept, yields_pure] at yields
      rcases yields with ⟨_, _, _, ⟨_, rfl⟩, _, _, _, ⟨_, rfl, _⟩, _, _, _, ⟨_, _, _, ⟨_, rfl⟩,
        _, rfl, _⟩, _, rfl, _⟩
      rfl
  | paper _ =>
      simp only [PaperBroker.toBroker, PaperBroker.getFunds, yields_lift, yields_bind, yields_read,
        yields_ofExcept, yields_pure] at yields
      rcases yields with ⟨⟨_, _, _, ⟨rfl, rfl, _⟩, _, _, _, ⟨_, rfl, _⟩, _, rfl, _⟩, _⟩
      rfl

theorem Built.placing {broker : Broker ω} (built : Built orchestrator quotes draw broker)
    (session : orchestrator.mode ≠ .backtest) {request : OrderRequest} {ack : OrderAck}
    (yields : (broker.placeOrder request).Yields db world ack db' world') :
    ack.clientOrderId = request.clientOrderId ∧ Placing orchestrator.mode request db db' := by
  cases built with
  | live isLive broker _ =>
      rcases UpstoxBroker.yields_placeOrder yields with
        ⟨_, _, brokerOrderId, _, positive, unused, _, _, rfl, opening⟩
      rw [isLive]
      exact ⟨rfl, positive, unused, db', _, opening, rfl, rfl, rfl, rfl, .refl _ _⟩
  | paper isPaper =>
      have paper : orchestrator.mode = .paper := by
        cases mode : orchestrator.mode with
        | paper => rfl
        | live => exact absurd mode isPaper
        | backtest => exact absurd mode session
      simp only [PaperBroker.toBroker, yields_lift] at yields
      rcases PaperBroker.yields_placeOrder yields.1 with
        ⟨_, _, middle, _, positive, unused, ackEq, opening, tried⟩
      rw [paper]
      exact ⟨ackEq, positive, unused, middle, _, opening, rfl, rfl, rfl, rfl,
        PaperBroker.trading_placeOrder opening tried⟩

/-- What `prepare` has done when it reaches the call of `evaluate`. -/
structure Prepared (orchestrator : Orchestrator ω) (build : Transaction DB ω PyError (Broker ω))
    (runner : Instrument) (decision : Decision) (draw : Draw) (db : DB) (world : ω)
    (broker : Broker ω) (call : EvaluateCall) (row : SignalRow) (funds : Funds) (db' : DB)
    (world' : ω) : Prop where
  decided : decision (orchestrator.positionView db runner) = .ok (some call.signal)
  known : ∃ instrument, db.instrument runner.id = some instrument
  direction : row.direction = call.signal.direction
  built : ∃ opened openedWorld,
    build.Yields { db with signals := db.signals.insert row } world broker opened openedWorld ∧
      broker.getFunds.Yields opened openedWorld funds db' world'
  call_eq : call = {
    signal := call.signal, signalId := db.signals.nextId, instrument := runner
    equity := funds.equity
    dailyRealizedPnl := db'.sumRealizedPnlSince orchestrator.mode (istMidnightUtc draw.now)
    clientOrderId := draw.clientOrderId }

/-- `prepare` returns without a signal, or after a new signal row, the choice of the broker and the
report of its funds. -/
theorem prepared_of_yields {build : Transaction DB ω PyError (Broker ω)}
    {result : Option (Broker ω × EvaluateCall)}
    (yields : (orchestrator.prepare build runner decision draw).Yields db world result db' world') :
    (result = none ∧ db' = db) ∨ ∃ broker call row funds, result = some (broker, call) ∧
      Prepared orchestrator build runner decision draw db world broker call row funds db' world' := by
  simp only [prepare, yields_bind, yields_read, yields_ofExcept] at yields
  rcases yields with ⟨_, _, _, ⟨rfl, rfl, rfl⟩, signal, _, _, ⟨decided, rfl, rfl⟩, yields⟩
  split at yields
  · simp only [yields_pure] at yields
    exact .inl ⟨yields.1, yields.2.1⟩
  · rename_i signal
    split at yields
    · simp at yields
    · rename_i strategyRunId _
      simp only [yields_bind, monadLift_eq, yields_lift, addSignal, yields_read] at yields
      rcases yields with ⟨signalId, _, _, ⟨⟨_, _, _, ⟨rfl, rfl, _⟩, added⟩, rfl⟩, broker, _, _,
        built, funds, _, _, funded, _, _, _, ⟨rfl, rfl, rfl⟩, yields⟩
      split at added
      · simp at added
      · rename_i instrument known
        simp only [yields_bind, yields_modify, yields_pure] at added
        rcases added with ⟨_, _, _, ⟨rfl, _⟩, rfl, rfl, _⟩
        simp only [yields_pure] at yields
        rcases yields with ⟨rfl, rfl, rfl⟩
        exact .inr ⟨broker, _, _, funds, rfl, decided, ⟨instrument, known⟩, rfl,
          ⟨_, _, built, funded⟩, rfl⟩

/-- `_process_candle` up to the call of `evaluate`: no signal, or a new signal row and
the arguments of the call. -/
theorem yields_prepare {result : Option (Broker ω × EvaluateCall)}
    (yields : (orchestrator.prepare (orchestrator.buildBroker quotes draw) runner decision
      draw).Yields db world result db' world') :
    (result = none ∧ db' = db) ∨
      ∃ broker call row, result = some (broker, call) ∧ Built orchestrator quotes draw broker ∧
        decision (orchestrator.positionView db runner) = .ok (some call.signal) ∧
        call.instrument = runner ∧ call.clientOrderId = draw.clientOrderId ∧
        call.signalId = db.signals.nextId ∧ row.direction = call.signal.direction ∧
        db'.signals = db.signals.insert row ∧ Untraded db db' ∧ db'.killSwitch = db.killSwitch := by
  rcases prepared_of_yields yields with none | ⟨broker, call, row, funds, some, prepared⟩
  · exact .inl none
  · rcases prepared.built with ⟨opened, openedWorld, built, funded⟩
    rcases yields_buildBroker built with ⟨isBuilt, opens⟩
    rcases isBuilt.getFunds_store funded with rfl
    refine .inr ⟨broker, call, row, some, isBuilt, prepared.decided, ?_, ?_, ?_,
      prepared.direction, ?_⟩
    · rw [prepared.call_eq]
    · rw [prepared.call_eq]
    · rw [prepared.call_eq]
    · rcases opens with rfl | rfl
      · exact ⟨rfl, ⟨⟨rfl, rfl, rfl, .of_insert rfl⟩, rfl⟩, rfl⟩
      · exact ⟨rfl, ⟨⟨rfl, rfl, rfl, .of_insert rfl⟩, rfl⟩, rfl⟩

/-- The row that a placement adds is the one that the request's key finds. -/
theorem orderByClientId_of_placing {mode : Mode} {request : OrderRequest} {before placed : DB}
    (placing : Placing mode request before placed) :
    placed.orderByClientId request.clientOrderId = some before.orders.nextId := by
  rcases placing.placed with ⟨middle, row, opening, _, _, keyEq, _, trading⟩
  have keys : ∀ id, (placed.orders.get? id).map Order.clientOrderId =
      (middle.orders.get? id).map Order.clientOrderId := by
    intro id
    have sameKey := congrArg (Option.map OrderTerms.clientOrderId) (trading.terms id)
    rwa [Option.map_map, Option.map_map] at sameKey
  have selected : ∀ id, id ∈ (placed.orders.select fun order =>
      order.clientOrderId = request.clientOrderId) ↔ id = before.orders.nextId := by
    intro id
    have selectedIff : (∃ row, placed.orders.get? id = some row ∧
        decide (row.clientOrderId = request.clientOrderId) = true) ↔
        (placed.orders.get? id).map Order.clientOrderId = some request.clientOrderId := by
      simp
    rw [RowTable.mem_select, selectedIff, keys id]
    constructor
    · intro sameKey
      by_contra old
      rw [opening.get?_old old, Option.map_eq_some_iff] at sameKey
      rcases sameKey with ⟨other, found, otherKey⟩
      have used : before.usesClientId request.clientOrderId = true := by
        simp only [DB.usesClientId, List.any_eq_true, decide_eq_true_eq]
        exact ⟨other, List.mem_of_getElem? found, otherKey⟩
      rw [placing.unused] at used
      cases used
    · rintro rfl
      simp [opening.get?_new, keyEq]
  have single : (placed.orders.select fun order =>
      order.clientOrderId = request.clientOrderId) = [before.orders.nextId] := by
    rw [← List.perm_singleton]
    exact (List.perm_ext_iff_of_nodup (RowTable.nodup_select _ _) (List.nodup_singleton _)).mpr
      (by simpa using selected)
  simp [DB.orderByClientId, single]

/-- Linking a placed order to its signal rewrites its own row. -/
theorem linkSignal_of_placing {mode : Mode} {request : OrderRequest} {before placed : DB}
    (placing : Placing mode request before placed) (signalId : ℕ) :
    placed.linkSignal request.clientOrderId signalId =
      placed.updateOrder before.orders.nextId fun row => { row with signalId := some signalId } := by
  unfold DB.linkSignal
  rw [orderByClientId_of_placing placing]

/-- A placement keeps the terms of the older orders. -/
theorem oldTerms_of_placing {mode : Mode} {request : OrderRequest} {before placed : DB}
    (placing : Placing mode request before placed) {id : ℕ} (old : id ≠ before.orders.nextId) :
    (placed.orders.get? id).map Order.terms = (before.orders.get? id).map Order.terms := by
  rcases placing.placed with ⟨middle, _, opening, _, _, _, _, trading⟩
  rw [trading.terms id, opening.get?_old old]

/-- The order that a placement adds is past the risk check. -/
theorem pending_of_placing {mode : Mode} {request : OrderRequest} {before placed : DB}
    (placing : Placing mode request before placed) {id : ℕ}
    (pending : (placed.orders.get? id).map Order.state = some .pendingRisk) :
    (before.orders.get? id).map Order.state = some .pendingRisk := by
  rcases placing.placed with ⟨middle, opened, opening, working, _, _, _, trading⟩
  have middlePending := trading.pending id pending
  by_cases new : id = before.orders.nextId
  · subst id
    have isOpen : opened.state.isOpen = true := by
      simp only [Order.isWorking, Bool.and_eq_true] at working
      exact working.1
    rw [opening.get?_new, Option.map_some, Option.some.injEq] at middlePending
    rw [middlePending] at isOpen
    cases isOpen
  · rwa [opening.get?_old new] at middlePending

/-- All that an approved signal does to the store. -/
structure Placed (orchestrator : Orchestrator ω) (call : EvaluateCall) (order : ApprovedOrder)
    (db db' : DB) : Prop where
  approves : RiskEngine.Approves orchestrator.riskEngine call.signal call.instrument
    orchestrator.mode call.equity call.dailyRealizedPnl orchestrator.liveOrdersEnabled
    call.clientOrderId db order
  nextId : db'.orders.nextId = db.orders.nextId + 1
  progresses : Exposure.Progresses ((db.exposure orchestrator.mode).submit db.orders.nextId
    ⟨order.instrumentId, order.side.direction, order.qty⟩) (db'.exposure orchestrator.mode)
  oldTerms : ∀ id, id ≠ db.orders.nextId →
    (db'.orders.get? id).map Order.terms = (db.orders.get? id).map Order.terms
  newRow : ∃ row, db'.orders.get? db.orders.nextId = some row ∧
    row.signalId = some db.signals.nextId ∧ row.mode = orchestrator.mode
  pending : ∀ id, (db'.orders.get? id).map Order.state = some .pendingRisk →
    (db.orders.get? id).map Order.state = some .pendingRisk
  oldSignals : KeepsSignals db db'
  newSignal : db'.signalDirection db.signals.nextId = some call.signal.direction
  tripped : db'.killSwitch.tripped = db.killSwitch.tripped

/-- `recordSuccess` writes nothing but the error count. -/
theorem untraded_recordSuccess (db : DB) : Untraded db (KillSwitch.recordSuccess db) := by
  have tripped := KillSwitch.isTripped_recordSuccess db
  unfold KillSwitch.recordSuccess at tripped ⊢
  split_ifs at tripped ⊢
  · exact ⟨⟨rfl, rfl, rfl, .of_eq rfl⟩, tripped⟩
  · exact ⟨⟨rfl, rfl, rfl, .of_eq rfl⟩, tripped⟩

theorem signals_recordSuccess (db : DB) : (KillSwitch.recordSuccess db).signals = db.signals := by
  unfold KillSwitch.recordSuccess
  split_ifs <;> rfl

/-- A placement followed by the link of its order to the signal is what `Placed` says. -/
theorem placed_of_placing {call : EvaluateCall} {order : ApprovedOrder} {before marked placed : DB}
    {row : SignalRow} (session : Untraded db before)
    (signals : before.signals = db.signals.insert row)
    (killSwitch : before.killSwitch = db.killSwitch)
    (signalId : call.signalId = db.signals.nextId) (direction : row.direction = call.signal.direction)
    (approves : RiskEngine.Approves orchestrator.riskEngine call.signal call.instrument
      orchestrator.mode call.equity call.dailyRealizedPnl orchestrator.liveOrdersEnabled
      call.clientOrderId before order)
    (markedEq : marked = (KillSwitch.touch before).setSignalStatus call.signalId .approved)
    (placing : Placing orchestrator.mode order.request marked placed) :
    Placed orchestrator call order db
      (KillSwitch.recordSuccess (placed.linkSignal order.clientOrderId call.signalId)) := by
  have markedOrders : marked.orders = db.orders := by
    rw [markedEq]
    exact session.orders
  have markedExposure : marked.exposure orchestrator.mode = db.exposure orchestrator.mode := by
    rw [markedEq]
    exact DB.exposure_congr session.orders session.positions _
  have markedTripped : marked.killSwitch.tripped = db.killSwitch.tripped := by
    rw [markedEq]
    exact session.tripped
  rcases placing.placed with ⟨middle, opened, opening, working, view, _, modeEq, trading⟩
  have linked : placed.linkSignal order.clientOrderId call.signalId =
      placed.updateOrder db.orders.nextId fun row => { row with signalId := some call.signalId } := by
    rw [← markedOrders]
    exact linkSignal_of_placing placing call.signalId
  have newTerms := trading.terms db.orders.nextId
  have middleNew : middle.orders.get? db.orders.nextId = some opened := by
    rw [← markedOrders]
    exact opening.get?_new
  rw [middleNew, Option.map_some, Option.map_eq_some_iff] at newTerms
  rcases newTerms with ⟨final, finalFound, finalTerms⟩
  have quiet := untraded_recordSuccess (placed.linkSignal order.clientOrderId call.signalId)
  have signalsEq : (KillSwitch.recordSuccess
      (placed.linkSignal order.clientOrderId call.signalId)).signals = marked.signals := by
    rw [signals_recordSuccess, linked]
    exact trading.signals.trans opening.signals
  have markedSignals : KeepsSignals db marked := by
    rw [markedEq]
    exact session.signals.trans (.trans (.of_eq rfl) (.setStatus (KillSwitch.touch before) _ _))
  have markedDirection : marked.signalDirection db.signals.nextId = some call.signal.direction := by
    have touched : (KillSwitch.touch before).signals = db.signals.insert row := signals
    simp [markedEq, DB.signalDirection, DB.setSignalStatus, touched, signalId, direction]
  have ordersEq : (KillSwitch.recordSuccess
      (placed.linkSignal order.clientOrderId call.signalId)).orders =
        placed.orders.update db.orders.nextId
          fun row => { row with signalId := some call.signalId } := by
    rw [quiet.orders, linked]
    rfl
  refine ⟨approves.congr session.positions.symm killSwitch.symm, ?_, ?_, fun id old => ?_,
    ⟨{ final with signalId := some call.signalId }, ?_, by rw [← signalId], ?_⟩,
    fun id pending => ?_, ?_, ?_, ?_⟩
  · rw [ordersEq, RowTable.nextId_update, trading.nextId, opening.nextId, markedOrders]
  · rw [quiet.exposure, linked, DB.exposure_updateOrder_self finalFound _ _ rfl rfl]
    have submitted := opening.exposure working
    rw [markedOrders, markedExposure, view] at submitted
    rw [show (⟨order.instrumentId, order.side.direction, order.qty⟩ : Working ℕ) =
      ⟨order.request.instrumentId, order.request.side.direction, order.request.qty⟩ from rfl,
      ← submitted]
    exact trading.progresses
  · rw [ordersEq, RowTable.get?_update_of_ne old]
    rw [← markedOrders] at old ⊢
    exact oldTerms_of_placing placing old
  · rw [ordersEq, RowTable.get?_update_self, finalFound]
    rfl
  · rw [← modeEq]
    exact congrArg OrderTerms.mode finalTerms
  · have before : (placed.orders.get? id).map Order.state = some .pendingRisk := by
      rw [ordersEq, RowTable.get?_update] at pending
      split_ifs at pending
      · simpa [Option.map_map, Function.comp_def] using pending
      · exact pending
    rw [← markedOrders]
    exact pending_of_placing placing before
  · exact markedSignals.trans (.of_eq signalsEq)
  · exact KeepsSignals.of_eq signalsEq _ _ markedDirection
  · rw [quiet.tripped, linked]
    change placed.killSwitch.tripped = _
    rw [trading.killSwitch, opening.killSwitch, markedTripped]

/-- The call of `evaluate` that processing a candle reaches, with the broker that was
built and the store and the world at that moment. -/
def Calls (orchestrator : Orchestrator ω) (quotes : LiveQuoteSource) (runner : Instrument)
    (decision : Decision) (draw : Draw) (db : DB) (world : ω) (broker : Broker ω)
    (call : EvaluateCall) (before : DB) (worldBefore : ω) : Prop :=
  (orchestrator.prepare (orchestrator.buildBroker quotes draw) runner decision draw).Yields db world
    (some (broker, call)) before worldBefore

/-- From the call of `evaluate` on, a candle only marks its signal or places the approved
order and links it to the signal. -/
theorem evaluateAndSubmit_cases {broker : Broker ω} {call : EvaluateCall} {before : DB}
    {worldBefore : ω}
    (yields : (orchestrator.evaluateAndSubmit broker call).Yields before worldBefore () db' world') :
    (∃ event, db' = ((KillSwitch.touch before).addRiskEvent event).setSignalStatus call.signalId
      .rejected) ∨
    ∃ order ack placed, RiskEngine.Approves orchestrator.riskEngine call.signal call.instrument
        orchestrator.mode call.equity call.dailyRealizedPnl orchestrator.liveOrdersEnabled
        call.clientOrderId before order ∧
      (broker.placeOrder order.request).Yields
        ((KillSwitch.touch before).setSignalStatus call.signalId .approved) worldBefore ack placed
        world' ∧
      db' = KillSwitch.recordSuccess (placed.linkSignal ack.clientOrderId call.signalId) := by
  simp only [evaluateAndSubmit, yields_bind, yields_compute] at yields
  rcases yields with ⟨result, evaluated, _, ⟨evaluatedEq, rfl⟩, yields⟩
  rcases RiskEngine.evaluate_cases orchestrator.riskEngine call.signal call.instrument
    orchestrator.mode call.equity call.dailyRealizedPnl orchestrator.liveOrdersEnabled
    call.clientOrderId before with ⟨order, answer, approves⟩ | ⟨rejection, kind, answer⟩
  · rw [evaluate, answer, Prod.mk.injEq] at evaluatedEq
    rcases evaluatedEq with ⟨rfl, rfl⟩
    simp only [yields_bind, yields_modify] at yields
    rcases yields with ⟨_, _, _, ⟨rfl, rfl⟩, ack, placed, _, placedYields, _, _, _, ⟨rfl, rfl⟩,
      rfl, rfl⟩
    exact .inr ⟨order, ack, placed, approves, placedYields, rfl⟩
  · rw [evaluate, answer, Prod.mk.injEq] at evaluatedEq
    rcases evaluatedEq with ⟨rfl, rfl⟩
    simp only [yields_modify] at yields
    exact .inl ⟨_, yields.1⟩

/-- What a call of `evaluate` and the rest of its candle do. -/
theorem yields_evaluateAndSubmit {broker : Broker ω} {call : EvaluateCall} {before : DB}
    {worldBefore : ω} (session : orchestrator.mode ≠ .backtest)
    (calls : orchestrator.Calls quotes runner decision draw db world broker call before worldBefore)
    (yields : (orchestrator.evaluateAndSubmit broker call).Yields before worldBefore () db' world') :
    Untraded db db' ∨ ∃ order, Placed orchestrator call order db db' := by
  rcases yields_prepare calls with ⟨none, _⟩ | ⟨broker', call', row, same, built, decided, _, _,
    signalId, direction, signals, untraded, killSwitch⟩
  · cases none
  simp only [Option.some.injEq, Prod.mk.injEq] at same
  rcases same with ⟨rfl, rfl⟩
  rcases evaluateAndSubmit_cases yields with ⟨event, rfl⟩ |
    ⟨order, ack, placed, approves, placedYields, rfl⟩
  · exact .inl ⟨⟨untraded.orders, untraded.positions, untraded.trades,
      untraded.signals.trans (.setStatus _ _ _)⟩, untraded.tripped⟩
  · rcases built.placing session placedYields with ⟨ackEq, placing⟩
    rw [ackEq]
    exact .inr ⟨order, placed_of_placing untraded signals killSwitch signalId direction approves rfl
      placing⟩

/-- What processing a candle can do to the store. -/
inductive CandleEffect (orchestrator : Orchestrator ω) (runner : Instrument) (decision : Decision)
    (db db' : DB) : Prop where
  | untraded (untraded : Untraded db db')
  | placed (call : EvaluateCall) (order : ApprovedOrder) (instrument : call.instrument = runner)
      (decided : decision (orchestrator.positionView db runner) = .ok (some call.signal))
      (placed : Placed orchestrator call order db db')

theorem yields_processCandle (session : orchestrator.mode ≠ .backtest)
    (yields : (orchestrator.processCandle quotes runner decision draw).Yields db world () db'
      world') : CandleEffect orchestrator runner decision db db' := by
  simp only [processCandle, processCandleWith, yields_bind] at yields
  rcases yields with ⟨prepared, before, worldBefore, preparedYields, yields⟩
  rcases yields_prepare preparedYields with ⟨rfl, rfl⟩ | ⟨broker, call, _, rfl, _, decided,
    instrument, _⟩
  · simp only [yields_pure] at yields
    rcases yields with ⟨_, rfl, _⟩
    exact .untraded ⟨.refl _, rfl⟩
  · rcases yields_evaluateAndSubmit session preparedYields yields with untraded | ⟨order, placed⟩
    · exact .untraded untraded
    · exact .placed call order instrument decided placed

theorem yields_housekeep {clock : ℕ → ℤ} (session : orchestrator.mode ≠ .backtest)
    (yields : (orchestrator.housekeep quotes clock).Yields db world () db' world') :
    Trading orchestrator.mode db db' := by
  unfold housekeep at yields
  split at yields
  · rename_i isLive
    simp only [yields_bind, yields_ofExcept, yields_pure] at yields
    rcases yields with ⟨broker, _, _, ⟨_, rfl, rfl⟩, _, _, _, polled, _, rfl, _⟩
    rw [isLive]
    exact UpstoxBroker.trading_pollAndApplyFills polled
  · rename_i isPaper
    have paper : orchestrator.mode = .paper := by
      cases mode : orchestrator.mode with
      | paper => rfl
      | live => exact absurd mode isPaper
      | backtest => exact absurd mode session
    simp only [yields_bind, yields_modify, yields_lift, yields_pure] at yields
    rcases yields with ⟨_, _, _, ⟨rfl, rfl⟩, _, _, _, ⟨checked, rfl⟩, _, rfl, _⟩
    rw [paper]
    have opened : Trading .paper db (db.openAccount orchestrator.initialCash) :=
      .of_same rfl rfl rfl rfl rfl
    exact opened.trans (PaperBroker.trading_checkRestingOrders checked)

/-! ## Steps of a session -/

variable {state : SessionState ω} {event : SessionEvent ω}

/-- What one step of a session can do to the committed book. -/
inductive StepEffect (orchestrator : Orchestrator ω) (state : SessionState ω) :
    SessionEvent ω → DB → Prop where
  | quiet {event : SessionEvent ω} {db' : DB} (same : SameBook state.db db') :
      StepEffect orchestrator state event db'
  | placed {candle : Candle} {decision : Decision} {draw : Draw} {db' : DB} (runner : Instrument)
      (call : EvaluateCall) (order : ApprovedOrder)
      (runs : orchestrator.runners candle.instrumentKey = some runner)
      (instrument : call.instrument = runner)
      (decided : decision (orchestrator.positionView state.db runner) = .ok (some call.signal))
      (placed : Placed orchestrator call order state.db db') :
      StepEffect orchestrator state (.candle candle decision draw) db'
  | traded {clock : ℕ → ℤ} {db' : DB} (trading : Trading orchestrator.mode state.db db') :
      StepEffect orchestrator state (.housekeeping clock) db'

theorem sameBook_recordError (maxConsecutiveErrors : ℕ) (now : ℤ) (db : DB) :
    SameBook db (KillSwitch.recordError maxConsecutiveErrors now db) := by
  rcases KillSwitch.recordError_frame maxConsecutiveErrors now db with
    ⟨orders, positions, trades, signals⟩
  exact ⟨orders, positions, trades, .of_eq signals⟩

theorem step_effect (session : orchestrator.mode ≠ .backtest) (state : SessionState ω)
    (event : SessionEvent ω) :
    StepEffect orchestrator state event (orchestrator.step state event).db := by
  cases event with
  | candle candle decision draw =>
      simp only [step, onCandle]
      split
      · exact .quiet (.refl _)
      · rename_i runner runs
        rcases yields_or_raises (orchestrator.processCandle
          (state.quotes.update candle.instrumentKey candle.close) runner decision draw) state.db
          state.world with ⟨⟨⟩, db', world', yields⟩ | ⟨exception, world', raises⟩
        · rw [commit_of_yields yields]
          cases yields_processCandle session yields with
          | untraded untraded => exact .quiet untraded.toSameBook
          | placed call order instrument decided placed =>
              exact .placed runner call order runs instrument decided placed
        · rw [commit_of_raises raises]
          exact .quiet (sameBook_recordError _ _ _)
  | housekeeping clock =>
      refine .traded ?_
      simp only [step, runHousekeeping]
      rcases yields_or_raises (orchestrator.housekeep state.quotes clock) state.db state.world with
        ⟨⟨⟩, db', world', yields⟩ | ⟨exception, world', raises⟩
      · rw [commit_of_yields yields]
        exact yields_housekeep session yields
      · rw [commit_of_raises raises]
        exact .refl _ _
  | trip reason detail now =>
      rcases KillSwitch.trip_frame reason detail now state.db with
        ⟨orders, positions, trades, signals⟩
      exact .quiet ⟨orders, positions, trades, .of_eq signals⟩
  | reset reason =>
      simp only [step, KillSwitch.reset]
      split
      · rename_i db' reset
        split_ifs at reset
        simp only [Except.ok.injEq] at reset
        subst db'
        exact .quiet ⟨rfl, rfl, rfl, .of_eq rfl⟩
      · exact .quiet (.refl _)
  | outside act => exact .quiet (.refl _)

theorem isTripped_step (session : orchestrator.mode ≠ .backtest) {state : SessionState ω}
    {event : SessionEvent ω} (kept : ∀ reason, event ≠ .reset reason)
    (tripped : KillSwitch.isTripped state.db = true) :
    KillSwitch.isTripped (orchestrator.step state event).db = true := by
  cases event with
  | candle candle decision draw =>
      simp only [step, onCandle]
      split
      · exact tripped
      · rename_i runner _
        rcases yields_or_raises (orchestrator.processCandle
          (state.quotes.update candle.instrumentKey candle.close) runner decision draw) state.db
          state.world with ⟨⟨⟩, db', world', yields⟩ | ⟨exception, world', raises⟩
        · rw [commit_of_yields yields]
          cases yields_processCandle session yields with
          | untraded untraded => exact untraded.tripped.trans tripped
          | placed call order _ _ placed => exact placed.tripped.trans tripped
        · rw [commit_of_raises raises]
          exact KillSwitch.isTripped_recordError tripped
  | housekeeping clock =>
      simp only [step, runHousekeeping]
      rcases yields_or_raises (orchestrator.housekeep state.quotes clock) state.db state.world with
        ⟨⟨⟩, db', world', yields⟩ | ⟨exception, world', raises⟩
      · rw [commit_of_yields yields]
        exact (yields_housekeep session yields).isTripped.trans tripped
      · rw [commit_of_raises raises]
        exact tripped
  | trip reason detail now => exact KillSwitch.isTripped_trip ..
  | reset reason => exact absurd rfl (kept reason)
  | outside act => exact tripped

end Orchestrator

end PersonalTrade
