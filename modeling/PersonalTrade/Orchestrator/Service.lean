import PersonalTrade.Execution.Paper
import PersonalTrade.Execution.Upstox
import PersonalTrade.Risk.Engine

/-!
# Orchestrator

`orchestrator/service.py`: one transaction for each candle, from the strategy's
signal over the risk engine to the broker, and the housekeeping tick. A candle is
processed in two stages, up to the call of `evaluate` and from it on, so that the
calls of the gate can be named even in a transaction that is rolled back later.

The machine at the end takes every choice of the environment as a label: candles
with the decision of their strategy, identifiers and clock readings, manual trips
and resets, and anything the outside does by itself.
-/

namespace PersonalTrade

open Transaction

/-- The decision of a runner on one candle, given the current position. -/
abbrev Decision := PositionView → Except PyError (Option Signal)

/-- `CandleReceived`, as far as the orchestrator reads it. -/
structure Candle where
  instrumentKey : String
  close : ℚ

/-- The clock readings and identifiers drawn while a candle is processed. -/
structure Draw where
  now : ℤ
  clientOrderId : String
  brokerUuid : String
  placedAt : ℤ

structure Orchestrator (ω : Type) where
  mode : Mode
  riskCfg : RiskConfig
  sizer : PositionSizer
  costRates : CostConfig
  paperCfg : PaperConfig
  initialCash : ℚ
  liveOrdersEnabled : Bool
  upstoxClient : Option (Transport ω)
  upstoxAccessToken : Option String
  upstoxCfg : Option UpstoxConfig
  strategyRunId : Option ℕ
  runners : String → Option Instrument

/-- `SignalRepository.add`. -/
def addSignal (row : SignalRow) : Session ℕ := do
  let db ← read
  match db.instrument row.instrumentId with
  | none => raise (.integrityError "signals.instrument_id")
  | some _ => do
      modify fun db => { db with signals := db.signals.insert row }
      pure db.signals.nextId

/-- Write the status of a signal row. -/
def DB.setSignalStatus (db : DB) (id : ℕ) (status : SignalStatus) : DB :=
  { db with signals := db.signals.update id fun row => { row with status } }

/-- Link an order to the signal that produced it. -/
def DB.linkSignal (db : DB) (clientOrderId : String) (signalId : ℕ) : DB :=
  match db.orderByClientId clientOrderId with
  | none => db
  | some id => db.updateOrder id fun order => { order with signalId := some signalId }

/-- The order request of an approved order. -/
def ApprovedOrder.request (order : ApprovedOrder) : OrderRequest :=
  { order with }

/-- The arguments of one call of `evaluate`, and the signal row it decides on. -/
structure EvaluateCall where
  signal : Signal
  signalId : ℕ
  instrument : Instrument
  equity : ℚ
  dailyRealizedPnl : ℚ
  clientOrderId : String

/-- The Upstox broker as the orchestrator uses it. -/
def UpstoxBroker.toBroker {ω : Type} (broker : UpstoxBroker ω) : Broker ω where
  getFunds := broker.getFunds
  placeOrder := broker.placeOrder

/-- The paper broker as the orchestrator uses it, on the drawn identifier and clock
reading. -/
def PaperBroker.toBroker {ω : Type} (broker : PaperBroker) (draw : Draw) : Broker ω where
  getFunds := lift broker.getFunds
  placeOrder request := lift (broker.placeOrder draw.brokerUuid draw.placedAt request)

namespace Orchestrator

variable {ω κ : Type}

/-- The risk engine that `_process_candle` builds. -/
def riskEngine (orchestrator : Orchestrator ω) : RiskEngine :=
  ⟨orchestrator.riskCfg, orchestrator.sizer⟩

/-- The paper broker on a quote source. -/
def paperBroker (orchestrator : Orchestrator ω) (quotes : LiveQuoteSource) : PaperBroker where
  quotes := quotes
  costRates := orchestrator.costRates
  segment := orchestrator.paperCfg.segment
  slippageBps := orchestrator.paperCfg.slippageBps
  latencyMs := orchestrator.paperCfg.latencyMs

/-- The Upstox broker; without its client, token and configuration there is none. -/
def upstoxBroker (orchestrator : Orchestrator ω) : Except PyError (UpstoxBroker ω) :=
  match orchestrator.upstoxClient, orchestrator.upstoxAccessToken, orchestrator.upstoxCfg with
  | some transport, some _, some cfg =>
      .ok { transport, cfg, costRates := orchestrator.costRates }
  | _, _, _ => .error (.runtimeError
      "mode=LIVE requires upstox_client/upstox_access_token/upstox_cfg")

/-- `_build_broker`: the paper broker opens its account. -/
def buildBroker (orchestrator : Orchestrator ω) (quotes : LiveQuoteSource) (draw : Draw) :
    Transaction DB ω PyError (Broker ω) :=
  match orchestrator.mode with
  | .live => do
      let broker ← ofExcept orchestrator.upstoxBroker
      pure broker.toBroker
  | _ => do
      modify fun db => db.openAccount orchestrator.initialCash
      pure ((orchestrator.paperBroker quotes).toBroker draw)

/-- What the strategy sees of the position. -/
def positionView (orchestrator : Orchestrator ω) (db : DB) (instrument : Instrument) :
    PositionView :=
  match db.positionFor instrument.id orchestrator.mode with
  | none => flatPosition
  | some position => if position.qty = 0 then flatPosition else ⟨position.qty, position.avgPrice⟩

/-- `_process_candle` up to the call of `evaluate`. -/
def prepare (orchestrator : Orchestrator ω) (build : Transaction DB κ PyError (Broker κ))
    (runner : Instrument) (decision : Decision) (draw : Draw) :
    Transaction DB κ PyError (Option (Broker κ × EvaluateCall)) := do
  let db ← read
  let signal ← ofExcept (decision (orchestrator.positionView db runner))
  match signal with
  | none => pure none
  | some signal =>
      match orchestrator.strategyRunId with
      | none => raise (.runtimeError
          "start_strategy_run() must be called before processing candles")
      | some strategyRunId => do
          let signalId ← addSignal ⟨runner.id, strategyRunId, signal.direction, signal.refPrice, .new⟩
          let broker ← build
          let funds ← broker.getFunds
          let db ← read
          pure (some (broker,
            { signal, signalId, instrument := runner, equity := funds.equity
              dailyRealizedPnl :=
                db.sumRealizedPnlSince orchestrator.mode (istMidnightUtc draw.now)
              clientOrderId := draw.clientOrderId }))

/-- The call of `evaluate`. -/
def evaluate (orchestrator : Orchestrator ω) (call : EvaluateCall) (db : DB) :
    Except Rejection ApprovedOrder × DB :=
  orchestrator.riskEngine.evaluate call.signal call.instrument orchestrator.mode call.equity
    call.dailyRealizedPnl orchestrator.liveOrdersEnabled call.clientOrderId db

/-- `_process_candle` from the call of `evaluate` on. -/
def evaluateAndSubmit (orchestrator : Orchestrator ω) (broker : Broker κ) (call : EvaluateCall) :
    Transaction DB κ PyError Unit := do
  let result ← compute (orchestrator.evaluate call)
  match result with
  | .error _ => modify fun db => db.setSignalStatus call.signalId .rejected
  | .ok order => do
      modify fun db => db.setSignalStatus call.signalId .approved
      let ack ← broker.placeOrder order.request
      modify fun db => db.linkSignal ack.clientOrderId call.signalId
      modify KillSwitch.recordSuccess

/-- `_process_candle` over any way to build a broker. -/
def processCandleWith (orchestrator : Orchestrator ω)
    (build : Transaction DB κ PyError (Broker κ)) (runner : Instrument) (decision : Decision)
    (draw : Draw) : Transaction DB κ PyError Unit := do
  match ← orchestrator.prepare build runner decision draw with
  | none => pure ()
  | some (broker, call) => orchestrator.evaluateAndSubmit broker call

/-- `_process_candle`. -/
def processCandle (orchestrator : Orchestrator ω) (quotes : LiveQuoteSource) (runner : Instrument)
    (decision : Decision) (draw : Draw) : Transaction DB ω PyError Unit :=
  orchestrator.processCandleWith (orchestrator.buildBroker quotes draw) runner decision draw

/-- The body of `run_housekeeping`. -/
def housekeep (orchestrator : Orchestrator ω) (quotes : LiveQuoteSource) (clock : ℕ → ℤ) :
    Transaction DB ω PyError Unit :=
  match orchestrator.mode with
  | .live => do
      let broker ← ofExcept orchestrator.upstoxBroker
      let _ ← broker.pollAndApplyFills clock
      pure ()
  | _ => do
      modify fun db => db.openAccount orchestrator.initialCash
      let _ ← lift ((orchestrator.paperBroker quotes).checkRestingOrders clock)
      pure ()

end Orchestrator

/-- What a running session is made of: the committed store, the quotes held in
memory and the world outside. -/
structure SessionState (ω : Type) where
  db : DB
  quotes : LiveQuoteSource
  world : ω

/-- What can happen to a session. -/
inductive SessionEvent (ω : Type) where
  | candle (candle : Candle) (decision : Decision) (draw : Draw)
  | housekeeping (clock : ℕ → ℤ)
  | trip (reason : String) (detail : TripDetail) (now : ℤ)
  | reset (reason : String)
  | outside (act : ω → ω)

namespace Orchestrator

variable {ω : Type}

/-- `_on_candle`: an error rolls the candle back and is counted by the kill switch in
a transaction of its own. -/
def onCandle (orchestrator : Orchestrator ω) (candle : Candle) (decision : Decision) (draw : Draw)
    (state : SessionState ω) : SessionState ω :=
  let quotes := state.quotes.update candle.instrumentKey candle.close
  match orchestrator.runners candle.instrumentKey with
  | none => { state with quotes }
  | some runner =>
      match (orchestrator.processCandle quotes runner decision draw).commit state.db
        state.world with
      | (.ok (), db, world) => ⟨db, quotes, world⟩
      | (.error _, db, world) =>
          ⟨KillSwitch.recordError orchestrator.riskCfg.killSwitch.maxConsecutiveErrors draw.now db,
            quotes, world⟩

/-- `run_housekeeping`. -/
def runHousekeeping (orchestrator : Orchestrator ω) (clock : ℕ → ℤ) (state : SessionState ω) :
    SessionState ω :=
  match (orchestrator.housekeep state.quotes clock).commit state.db state.world with
  | (_, db, world) => { state with db, world }

/-- One step of a session. -/
def step (orchestrator : Orchestrator ω) (state : SessionState ω) :
    SessionEvent ω → SessionState ω
  | .candle candle decision draw => orchestrator.onCandle candle decision draw state
  | .housekeeping clock => orchestrator.runHousekeeping clock state
  | .trip reason detail now => { state with db := KillSwitch.trip reason detail now state.db }
  | .reset reason =>
      match KillSwitch.reset reason state.db with
      | .ok db => { state with db }
      | .error _ => state
  | .outside act => { state with world := act state.world }

end Orchestrator

end PersonalTrade
