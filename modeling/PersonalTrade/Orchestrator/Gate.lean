import PersonalTrade.Orchestrator.Exposure

/-!
# The gate in front of the broker

What the risk engine approves, in one formula over the state of the store, and that
no order reaches the broker of a candle by another way: the candle is run over a
broker that logs the orders it is given, next to a world that it does not touch.
-/

namespace PersonalTrade

open Transaction

variable {ω κ : Type}

/-- The broker with a log of the orders given to it. -/
def Broker.logged (broker : Broker ω) : Broker (List OrderRequest × ω) where
  getFunds := beside broker.getFunds
  placeOrder request := do
    record request
    beside (broker.placeOrder request)

namespace Orchestrator

variable {orchestrator : Orchestrator ω} {build : Transaction DB κ PyError (Broker κ)}
  {runner : Instrument} {decision : Decision} {draw : Draw}

/-- Build a broker with a log. -/
def logBuild (build : Transaction DB κ PyError (Broker κ)) :
    Transaction DB (List OrderRequest × κ) PyError (Broker (List OrderRequest × κ)) := do
  let broker ← beside build
  pure broker.logged

/-- Nothing is logged before the call of `evaluate`. -/
theorem prepare_logBuild :
    orchestrator.prepare (logBuild build) runner decision draw =
      beside (orchestrator.prepare build runner decision draw) >>= fun prepared =>
        pure (prepared.map fun (broker, call) => (broker.logged, call)) := by
  simp only [prepare, beside_bind, beside_read, beside_ofExcept, bind_bind]
  refine congrArg (read >>= ·) (funext fun db =>
    congrArg (ofExcept _ >>= ·) (funext fun signal => ?_))
  cases signal with
  | none => rfl
  | some signal =>
      cases orchestrator.strategyRunId with
      | none => rfl
      | some strategyRunId =>
          simp only [beside_bind, beside_read, beside_pure, monadLift_eq, beside_lift, bind_bind,
            logBuild]
          rfl

/-- The call of `evaluate` that a candle reaches, with the store at that moment. -/
def callOf (orchestrator : Orchestrator ω) (quotes : LiveQuoteSource) (runner : Instrument)
    (decision : Decision) (draw : Draw) (db : DB) (world : ω) : Option (EvaluateCall × DB) :=
  match orchestrator.prepare (orchestrator.buildBroker quotes draw) runner decision draw db
    world with
  | (.ok (some (_, call), before), _) => some (call, before)
  | _ => none

/-- The answer of `evaluate` to a candle that reaches it. -/
def answerOf (orchestrator : Orchestrator ω) (quotes : LiveQuoteSource) (runner : Instrument)
    (decision : Decision) (draw : Draw) (db : DB) (world : ω) :
    Option (Except Rejection ApprovedOrder) :=
  (orchestrator.callOf quotes runner decision draw db world).map fun (call, before) =>
    (orchestrator.evaluate call before).1

/-- The order requests that an answer of the gate lets through. -/
def letThrough : Option (Except Rejection ApprovedOrder) → List OrderRequest
  | some (.ok order) => [order.request]
  | _ => []

theorem evaluateAndSubmit_logged (broker : Broker ω) (call : EvaluateCall) (db : DB)
    (log : List OrderRequest) (world : ω) :
    orchestrator.evaluateAndSubmit broker.logged call db (log, world) =
      ((orchestrator.evaluateAndSubmit broker call db world).1,
        log ++ letThrough (some (orchestrator.evaluate call db).1),
        (orchestrator.evaluateAndSubmit broker call db world).2) := by
  simp only [evaluateAndSubmit, bind_run, compute]
  rcases orchestrator.evaluate call db with ⟨rejection | order, evaluated⟩
  · simp [letThrough, Transaction.modify]
  · simp only [bind_run, Transaction.modify, Broker.logged, record, external, beside_run, letThrough]
    rcases broker.placeOrder order.request (evaluated.setSignalStatus call.signalId .approved) world
      with ⟨_ | ⟨ack, placed⟩, worldAfter⟩ <;> rfl

/-- A candle gives its broker exactly the orders that the gate approves in it; the log
changes nothing else. -/
theorem processCandle_logged (quotes : LiveQuoteSource) (db : DB) (log : List OrderRequest)
    (world : ω) :
    orchestrator.processCandleWith (logBuild (orchestrator.buildBroker quotes draw)) runner
        decision draw db (log, world) =
      ((orchestrator.processCandle quotes runner decision draw db world).1,
        log ++ letThrough (orchestrator.answerOf quotes runner decision draw db world),
        (orchestrator.processCandle quotes runner decision draw db world).2) := by
  simp only [processCandle, processCandleWith, prepare_logBuild, bind_run, beside_run, answerOf,
    callOf]
  rcases orchestrator.prepare (orchestrator.buildBroker quotes draw) runner decision draw db world
    with ⟨_ | ⟨_ | ⟨broker, call⟩, before⟩, worldBefore⟩
  · simp [letThrough]
  · simp [letThrough]
    rfl
  · exact evaluateAndSubmit_logged broker call before log worldBefore

/-- The approval of the gate with the fixed-fractional sizer, spelled out. -/
theorem approves_iff {config : RiskConfig} {sizer : FixedFractionalSizer} {signal : Signal}
    {instrument : Instrument} {mode : Mode} {equity dailyRealizedPnl : ℚ}
    {liveOrdersEnabled : Bool} {clientOrderId : String} {db : DB} {order : ApprovedOrder} :
    RiskEngine.Approves ⟨config, sizer.size⟩ signal instrument mode equity dailyRealizedPnl
        liveOrdersEnabled clientOrderId db order ↔
      KillSwitch.isTripped db = false ∧ (mode ≠ .live ∨ liveOrdersEnabled = true) ∧
        ¬ (dailyRealizedPnl < 0 ∧ 0 < equity ∧
          config.maxDailyLossPct ≤ -dailyRealizedPnl / equity * 100) ∧
        order.clientOrderId = clientOrderId ∧ order.instrumentId = instrument.id ∧
        order.orderType = .market ∧ order.limitPrice = none ∧
        ((signal.direction = .exit ∧ db.positionQty instrument.id mode ≠ 0 ∧
            order.side = (if 0 < db.positionQty instrument.id mode then .sell else .buy) ∧
            (order.qty : ℤ) = |db.positionQty instrument.id mode|) ∨
          (signal.direction ≠ .exit ∧ db.positionQty instrument.id mode = 0 ∧
            db.countOpen mode < config.maxOpenPositions ∧ 0 < equity ∧
            0 < toTickDecimal signal.refPrice instrument.tickSize ∧ 1 ≤ order.qty ∧
            order.qty * toTickDecimal signal.refPrice instrument.tickSize ≤
              equity * sizer.riskPerTradePct / 100 ∧
            equity * sizer.riskPerTradePct / 100 <
              (order.qty + 1) * toTickDecimal signal.refPrice instrument.tickSize ∧
            order.side = if signal.direction = .long then .buy else .sell)) := by
  have lossIff : exceedsMaxDailyLoss dailyRealizedPnl equity config.maxDailyLossPct = false ↔
      ¬ (dailyRealizedPnl < 0 ∧ 0 < equity ∧
        config.maxDailyLossPct ≤ -dailyRealizedPnl / equity * 100) := by
    rw [← exceedsMaxDailyLoss_iff, Bool.not_eq_true]
  have enabledIff : (mode = .live → liveOrdersEnabled = true) ↔
      (mode ≠ .live ∨ liveOrdersEnabled = true) := imp_iff_not_or
  have exitQtyIff : ∀ position : ℤ, order.qty = position.natAbs ↔ (order.qty : ℤ) = |position| := by
    intro position
    rw [← Int.natCast_natAbs, Nat.cast_inj]
  constructor
  · rintro ⟨⟨untripped, enabled, withinLoss⟩, keyEq, instrumentEq, typeEq, limitEq, purpose⟩
    refine ⟨untripped, enabledIff.mp enabled, lossIff.mp withinLoss, keyEq, instrumentEq, typeEq,
      limitEq, ?_⟩
    rcases purpose with ⟨direction, nonflat, side, qty⟩ | ⟨direction, flat, below, side, pos, qty⟩
    · rw [instrumentEq] at nonflat side qty
      exact .inl ⟨direction, nonflat, side, (exitQtyIff _).mp qty⟩
    · rw [instrumentEq] at flat
      rcases (sizer.size_eq_iff pos).mp qty with ⟨solvent, priced, affordable, greatest⟩
      exact .inr ⟨direction, flat, below, solvent, priced, pos, affordable, greatest, side⟩
  · rintro ⟨untripped, enabled, withinLoss, keyEq, instrumentEq, typeEq, limitEq, purpose⟩
    refine ⟨⟨untripped, enabledIff.mpr enabled, lossIff.mpr withinLoss⟩, keyEq, instrumentEq,
      typeEq, limitEq, ?_⟩
    rcases purpose with ⟨direction, nonflat, side, qty⟩ | ⟨direction, flat, below, solvent, priced,
      pos, affordable, greatest, side⟩
    · rw [← instrumentEq] at nonflat side qty
      exact .inl ⟨direction, nonflat, side, (exitQtyIff _).mpr qty⟩
    · rw [← instrumentEq] at flat
      exact .inr ⟨direction, flat, below, side, pos,
        (sizer.size_eq_iff pos).mpr ⟨solvent, priced, affordable, greatest⟩⟩

/-- The risk gate is sound and complete: with the fixed-fractional sizer and the price rounded
to the tick it answers with an order exactly when the formula below makes that order the
answer, a rejection appends one event and an approval none, and a candle gives its broker
the order approved in it and nothing else. -/
theorem gate_sound_complete :
    (∀ (config : RiskConfig) (sizer : FixedFractionalSizer) (signal : Signal)
        (instrument : Instrument) (mode : Mode) (equity dailyRealizedPnl : ℚ)
        (liveOrdersEnabled : Bool) (clientOrderId : String) (db : DB),
      let answer := RiskEngine.evaluate ⟨config, sizer.size⟩ signal instrument mode equity
        dailyRealizedPnl liveOrdersEnabled clientOrderId db
      let position := db.positionQty instrument.id mode
      let price := toTickDecimal signal.refPrice instrument.tickSize
      let allocation := equity * sizer.riskPerTradePct / 100
      (∀ rounded, IsTickPrice signal.refPrice instrument.tickSize rounded ↔ rounded = price) ∧
      (∀ order, answer.1 = .ok order ↔
        KillSwitch.isTripped db = false ∧ (mode ≠ .live ∨ liveOrdersEnabled = true) ∧
          ¬ (dailyRealizedPnl < 0 ∧ 0 < equity ∧
            config.maxDailyLossPct ≤ -dailyRealizedPnl / equity * 100) ∧
          order.clientOrderId = clientOrderId ∧ order.instrumentId = instrument.id ∧
          order.orderType = .market ∧ order.limitPrice = none ∧
          ((signal.direction = .exit ∧ position ≠ 0 ∧
              order.side = (if 0 < position then .sell else .buy) ∧
              (order.qty : ℤ) = |position|) ∨
            (signal.direction ≠ .exit ∧ position = 0 ∧
              db.countOpen mode < config.maxOpenPositions ∧ 0 < equity ∧ 0 < price ∧
              1 ≤ order.qty ∧ order.qty * price ≤ allocation ∧
              allocation < (order.qty + 1) * price ∧
              order.side = if signal.direction = .long then .buy else .sell))) ∧
      (∀ order, answer.1 = .ok order → answer.2.riskEvents = db.riskEvents) ∧
      ∀ rejection, answer.1 = .error rejection →
        ∃ event, answer.2.riskEvents = db.riskEvents ++ [event]) ∧
    ∀ {ω : Type} (orchestrator : Orchestrator ω) (quotes : LiveQuoteSource) (runner : Instrument)
        (decision : Decision) (draw : Draw) (db : DB) (log : List OrderRequest) (world : ω),
      orchestrator.processCandleWith (logBuild (orchestrator.buildBroker quotes draw)) runner
          decision draw db (log, world) =
        ((orchestrator.processCandle quotes runner decision draw db world).1,
          log ++ letThrough (orchestrator.answerOf quotes runner decision draw db world),
          (orchestrator.processCandle quotes runner decision draw db world).2) := by
  refine ⟨fun config sizer signal instrument mode equity dailyRealizedPnl liveOrdersEnabled
    clientOrderId db => ⟨fun rounded => ?_, fun order => ?_, fun order approved => ?_,
      fun rejection rejected => ?_⟩,
    fun _ quotes _ _ _ db log world => processCandle_logged quotes db log world⟩
  · exact isTickPrice_iff
  · rw [RiskEngine.evaluate_ok_iff]
    exact approves_iff
  · rcases RiskEngine.evaluate_cases ⟨config, sizer.size⟩ signal instrument mode equity
      dailyRealizedPnl liveOrdersEnabled clientOrderId db with ⟨_, answer, _⟩ | ⟨_, _, answer⟩
    · rw [answer]
      rfl
    · rw [answer] at approved
      cases approved
  · rcases RiskEngine.evaluate_cases ⟨config, sizer.size⟩ signal instrument mode equity
      dailyRealizedPnl liveOrdersEnabled clientOrderId db with ⟨_, answer, _⟩ | ⟨_, _, answer⟩
    · rw [answer] at rejected
      cases rejected
    · rw [answer]
      exact ⟨_, rfl⟩

/-! ## The daily loss stop -/

/-- The call of `evaluate` that an event reaches. -/
def callIn (orchestrator : Orchestrator ω) (state : SessionState ω) :
    SessionEvent ω → Option (EvaluateCall × DB)
  | .candle candle decision draw =>
      (orchestrator.runners candle.instrumentKey).bind fun runner =>
        orchestrator.callOf (state.quotes.update candle.instrumentKey candle.close) runner decision
          draw state.db state.world
  | _ => none

/-- The answer of `evaluate` in an event that reaches it. -/
def answerIn (orchestrator : Orchestrator ω) (state : SessionState ω) (event : SessionEvent ω) :
    Option (Except Rejection ApprovedOrder) :=
  (orchestrator.callIn state event).map fun (call, before) =>
    (orchestrator.evaluate call before).1

/-- The answers of all calls of `evaluate` in a run. -/
def answers (orchestrator : Orchestrator ω) :
    SessionState ω → List (SessionEvent ω) → List (Except Rejection ApprovedOrder)
  | _, [] => []
  | state, event :: events =>
      (orchestrator.answerIn state event).toList ++
        orchestrator.answers (orchestrator.step state event) events

/-- The funds that the broker of a candle reports. -/
def reportedFunds (orchestrator : Orchestrator ω) (quotes : LiveQuoteSource) (draw : Draw) (db : DB)
    (world : ω) : Except PyError Funds :=
  ((orchestrator.buildBroker quotes draw >>= Broker.getFunds) db world).1.map Prod.fst

theorem reportedFunds_eq_ok {quotes : LiveQuoteSource} {db : DB} {world : ω} {funds : Funds} :
    orchestrator.reportedFunds quotes draw db world = .ok funds ↔
      ∃ broker opened openedWorld db' world',
        (orchestrator.buildBroker quotes draw).Yields db world broker opened openedWorld ∧
          broker.getFunds.Yields opened openedWorld funds db' world' := by
  have bound : orchestrator.reportedFunds quotes draw db world = .ok funds ↔
      ∃ db' world', (orchestrator.buildBroker quotes draw >>= Broker.getFunds).Yields db world funds
        db' world' := by
    simp only [reportedFunds, Yields]
    rcases (orchestrator.buildBroker quotes draw >>= Broker.getFunds) db world with
      ⟨_ | ⟨reported, db'⟩, world'⟩
    · simp [Except.map]
    · simp [Except.map]
  rw [bound]
  simp only [yields_bind]
  grind

theorem markToMarket_congr (broker : PaperBroker) {db db' : DB}
    (instruments : db'.instruments = db.instruments) (positions : List (ℕ × Position))
    (equity : ℚ) :
    broker.markToMarket db' positions equity = broker.markToMarket db positions equity := by
  induction positions generalizing equity with
  | nil => rfl
  | cons position rest ih =>
      simp only [PaperBroker.markToMarket, DB.instrument, instruments]
      split
      · rfl
      · exact ih _

/-- The signal row of a candle does not change what its broker reports. -/
theorem reportedFunds_of_insert {quotes : LiveQuoteSource} {db opened db' : DB} {row : SignalRow}
    {world openedWorld world' : ω} {broker : Broker ω} {funds : Funds}
    (built : (orchestrator.buildBroker quotes draw).Yields
      { db with signals := db.signals.insert row } world broker opened openedWorld)
    (funded : broker.getFunds.Yields opened openedWorld funds db' world') :
    orchestrator.reportedFunds quotes draw db world = .ok funds := by
  rw [reportedFunds_eq_ok]
  unfold buildBroker at built ⊢
  split at built
  · simp only [yields_bind, yields_ofExcept, yields_pure] at built ⊢
    rcases built with ⟨upstox, _, _, ⟨configured, rfl, rfl⟩, rfl, rfl, rfl⟩
    refine ⟨_, db, openedWorld, db, world',
      ⟨upstox, db, openedWorld, ⟨configured, rfl, rfl⟩, rfl, rfl, rfl⟩, ?_⟩
    simp only [UpstoxBroker.toBroker, UpstoxBroker.getFunds, UpstoxBroker.rawPositions,
      yields_bind, yields_external, yields_ofExcept, yields_pure] at funded ⊢
    rcases funded with ⟨_, _, _, ⟨asked, rfl⟩, _, _, _, ⟨cashEq, rfl, rfl⟩, _, _, _,
      ⟨_, _, _, ⟨listed, rfl⟩, rowsEq, rfl, rfl⟩, rfl, rfl, rfl⟩
    exact ⟨_, db, _, ⟨asked, rfl⟩, _, db, _, ⟨cashEq, rfl, rfl⟩, _, db, _,
      ⟨_, db, _, ⟨listed, rfl⟩, rowsEq, rfl, rfl⟩, rfl, rfl, rfl⟩
  · simp only [yields_bind, yields_modify, yields_pure] at built ⊢
    rcases built with ⟨_, _, _, ⟨rfl, rfl⟩, rfl, rfl, rfl⟩
    refine ⟨_, db.openAccount orchestrator.initialCash, openedWorld,
      db.openAccount orchestrator.initialCash, openedWorld,
      ⟨(), _, _, ⟨rfl, rfl⟩, rfl, rfl, rfl⟩, ?_⟩
    simp only [PaperBroker.toBroker, PaperBroker.getFunds, yields_lift, yields_bind, yields_read,
      yields_ofExcept, yields_pure] at funded ⊢
    rcases funded with ⟨⟨_, _, _, ⟨rfl, rfl, _⟩, equity, _, _, ⟨marked, rfl, _⟩, rfl, rfl, _⟩, rfl⟩
    refine ⟨⟨_, _, (), ⟨rfl, rfl, trivial⟩, equity, _, (), ⟨?_, rfl, trivial⟩, rfl, rfl, trivial⟩,
      trivial⟩
    rw [← marked]
    refine markToMarket_congr _ ?_ _ _
    rfl

/-- What a call of `evaluate` reads of the session: the profit realised since midnight and
the equity that the broker reports. -/
theorem prepare_reads {quotes : LiveQuoteSource} {db before : DB} {world worldBefore : ω}
    {broker : Broker ω} {call : EvaluateCall}
    (calls : orchestrator.Calls quotes runner decision draw db world broker call before
      worldBefore) :
    call.dailyRealizedPnl = db.sumRealizedPnlSince orchestrator.mode (istMidnightUtc draw.now) ∧
      ∃ funds, orchestrator.reportedFunds quotes draw db world = .ok funds ∧
        call.equity = funds.equity := by
  have same : before.orders = db.orders ∧ before.trades = db.trades := by
    rcases yields_prepare calls with ⟨none, _⟩ | ⟨_, _, _, _, _, _, _, _, _, _, _, untraded, _⟩
    · cases none
    · exact ⟨untraded.orders, untraded.trades⟩
  rcases prepared_of_yields calls with ⟨none, _⟩ | ⟨_, _, row, funds, some, prepared⟩
  · cases none
  · cases some
    rcases prepared.built with ⟨opened, openedWorld, built, funded⟩
    refine ⟨?_, funds, reportedFunds_of_insert built funded, ?_⟩
    · rw [prepared.call_eq]
      simp only [DB.sumRealizedPnlSince, DB.listRealizedSince, same]
    · rw [prepared.call_eq]

theorem calls_of_callOf {quotes : LiveQuoteSource} {db before : DB} {world : ω}
    {call : EvaluateCall}
    (called : orchestrator.callOf quotes runner decision draw db world = some (call, before)) :
    ∃ broker worldBefore,
      orchestrator.Calls quotes runner decision draw db world broker call before worldBefore := by
  unfold callOf at called
  split at called
  · rename_i broker _ _ worldBefore prepared
    simp only [Option.some.injEq, Prod.mk.injEq] at called
    rcases called with ⟨rfl, rfl⟩
    exact ⟨broker, worldBefore, prepared⟩
  · cases called

/-- Nobody resets the switch, and a signal comes only while the switch is tripped or the
day's realised loss still reaches the limit at the equity that the broker reports. -/
def LossStands (orchestrator : Orchestrator ω) (state : SessionState ω) : SessionEvent ω → Prop
  | .candle candle decision draw => ∀ runner signal,
      orchestrator.Signals state candle decision runner signal →
        KillSwitch.isTripped state.db = true ∨ ∀ funds,
          orchestrator.reportedFunds (state.quotes.update candle.instrumentKey candle.close) draw
              state.db state.world = .ok funds →
            exceedsMaxDailyLoss
              (state.db.sumRealizedPnlSince orchestrator.mode (istMidnightUtc draw.now))
              funds.equity orchestrator.riskCfg.maxDailyLossPct = true
  | .reset _ => False
  | _ => True

/-- While the loss stands, no call of `evaluate` is approved. -/
theorem answerIn_of_lossStands {state : SessionState ω} {event : SessionEvent ω}
    (stands : orchestrator.LossStands state event) (order : ApprovedOrder) :
    orchestrator.answerIn state event ≠ some (.ok order) := by
  intro approved
  cases event with
  | candle candle decision draw =>
      simp only [answerIn, callIn, Option.map_eq_some_iff, Option.bind_eq_some_iff, Prod.exists]
        at approved
      rcases approved with ⟨call, before, ⟨runner, runs, called⟩, approved⟩
      rcases calls_of_callOf called with ⟨broker, worldBefore, calls⟩
      have gates := (RiskEngine.evaluate_ok_iff.mp approved).gates
      rcases yields_prepare calls with ⟨none, _⟩ | ⟨_, _, _, same, _, decided, _, _, _, _, _, _,
        killSwitch⟩
      · cases none
      rcases prepare_reads calls with ⟨pnlEq, funds, reported, equityEq⟩
      rcases stands runner _ ⟨runs, decided⟩ with tripped | reached
      · have untripped := gates.untripped
        rw [KillSwitch.isTripped, killSwitch] at untripped
        rw [KillSwitch.isTripped, untripped] at tripped
        cases tripped
      · have withinLoss := gates.withinLoss
        rw [pnlEq, equityEq] at withinLoss
        rw [riskEngine, reached funds reported] at withinLoss
        cases withinLoss
  | _ => simp [answerIn, callIn] at approved

/-- After a rejection for the daily loss, no call of `evaluate` is approved in any run in
which the loss stands. -/
theorem answers_after_maxDailyLoss (orchestrator : Orchestrator ω) {state : SessionState ω}
    {event : SessionEvent ω} {detail : RejectionDetail}
    (_rejected : orchestrator.answerIn state event = some (.error ⟨.maxDailyLoss, detail⟩))
    (later : List (SessionEvent ω))
    (stands : Meets orchestrator.step orchestrator.LossStands (orchestrator.step state event) later)
    (order : ApprovedOrder) :
    .ok order ∉ orchestrator.answers (orchestrator.step state event) later := by
  generalize orchestrator.step state event = start at stands
  induction later generalizing start with
  | nil => simp [answers]
  | cons next later ih =>
      simp only [answers, List.mem_append, Option.mem_toList, not_or]
      exact ⟨answerIn_of_lossStands stands.1 order, ih _ stands.2⟩

/-- A sample run that loses four percent while one share of its entry is still to be
bought. -/
def sampleLoss : SessionState (List String) :=
  sampleRun .paper [signalCandle "NSE_EQ|INFY" 100 .long "a",
    signalCandle "NSE_EQ|INFY" 96 .exit "b"]

/-- The next signal of the sample run is rejected for the daily loss. -/
theorem sampleLoss_rejects :
    (sampleSession .paper).answerIn sampleLoss (signalCandle "NSE_EQ|INFY" 96 .long "c") =
      some (.error ⟨.maxDailyLoss, .maxDailyLoss (-9867362797017 / 250000000000) 3
        (240132637202983 / 250000000000)⟩) := by
  decide +kernel

/-- After that rejection the unfilled share is bought late, and once the price has recovered
its exit is approved. -/
theorem maxDailyLoss_not_latched :
    ¬ ∀ (event : SessionEvent (List String)) (detail : RejectionDetail)
        (later : List (SessionEvent (List String))),
      (sampleSession .paper).answerIn sampleLoss event =
          some (.error ⟨.maxDailyLoss, detail⟩) →
        (∀ next ∈ later, ∀ reason, next ≠ .reset reason) →
          ∀ order, .ok order ∉ (sampleSession .paper).answers
            ((sampleSession .paper).step sampleLoss event) later := by
  intro claim
  refine claim _ _ [.housekeeping fun _ => 0, signalCandle "NSE_EQ|INFY" 500 .exit "d"]
    sampleLoss_rejects ?_ ⟨"d", 1, .sell, .market, 1, none⟩ (by decide +kernel)
  simp [signalCandle]

theorem answers_after_maxDailyLoss_sample :
    .ok ⟨"d", 1, .sell, .market, 1, none⟩ ∉ (sampleSession .paper).answers
      ((sampleSession .paper).step sampleLoss (signalCandle "NSE_EQ|INFY" 96 .long "c"))
      [.housekeeping fun _ => 0, signalCandle "NSE_EQ|INFY" 400 .exit "d"] := by
  refine answers_after_maxDailyLoss (sampleSession .paper) sampleLoss_rejects
    [.housekeeping fun _ => 0, signalCandle "NSE_EQ|INFY" 400 .exit "d"]
    ⟨trivial, fun _ _ _ => .inr fun funds reported => ?_, trivial⟩ _
  have equal : funds = ⟨216083653296271 / 250000000000, 316083653296271 / 250000000000⟩ :=
    Except.ok.inj (reported.symm.trans (by decide +kernel))
  rw [equal]
  decide +kernel

end Orchestrator

end PersonalTrade
