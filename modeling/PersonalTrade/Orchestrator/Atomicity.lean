import PersonalTrade.Library.Interruption
import PersonalTrade.Orchestrator.Exposure

/-!
# Atomicity of candle processing

`_on_candle` around a candle whose steps may raise at any moment. Every step of
`_process_candle` and of the two session scopes has a label, and an `Interruption` may make
any of them raise before, after or halfway through its effect. The handlers of
`_on_candle` are explicit here, so that an exception that escaped to the event bus would
show.
-/

namespace PersonalTrade

open Transaction

/-- The steps of `_on_candle` that can raise. -/
inductive CandleStep where
  | openSession
  | getPosition
  | strategy
  | addSignal
  | buildBroker
  | getFunds
  | sumRealizedPnl
  | evaluate
  | setSignalStatus
  | placeOrder
  | linkSignal
  | recordSuccess
  | commit
  | recordError
deriving DecidableEq, Repr

/-- `after` is `prior` with one more error counted, and a trip if the streak asks for it. -/
structure ErrorRecorded (maxConsecutiveErrors : ℕ) (now : ℤ) (prior after : DB) : Prop where
  frame : after = { prior with killSwitchState := after.killSwitchState
                               riskEvents := after.riskEvents }
  counted : after.killSwitch.consecutiveErrors = prior.killSwitch.consecutiveErrors + 1
  trips : KillSwitch.isTripped after = true ↔ KillSwitch.isTripped prior = true ∨
    maxConsecutiveErrors ≤ prior.killSwitch.consecutiveErrors + 1
  audited : KillSwitch.isTripped prior = false → KillSwitch.isTripped after = true →
    ∃ reason, after.killSwitch.reason = some reason ∧ after.killSwitch.trippedAt = some now ∧
      after.riskEvents = prior.riskEvents ++ [⟨.killSwitch, .killSwitch reason
        (.consecutiveErrors (prior.killSwitch.consecutiveErrors + 1))⟩]
  unaudited : KillSwitch.isTripped after = KillSwitch.isTripped prior →
    after.killSwitch = { prior.killSwitch with
      consecutiveErrors := prior.killSwitch.consecutiveErrors + 1 } ∧
      after.riskEvents = prior.riskEvents

theorem errorRecorded_recordError (maxConsecutiveErrors : ℕ) (now : ℤ) (prior : DB) :
    ErrorRecorded maxConsecutiveErrors now prior
      (KillSwitch.recordError maxConsecutiveErrors now prior) := by
  have trips := KillSwitch.isTripped_recordError_iff maxConsecutiveErrors now prior
  by_cases trip : maxConsecutiveErrors ≤ prior.killSwitch.consecutiveErrors + 1 ∧
      prior.killSwitch.tripped = false
  · have untripped : KillSwitch.isTripped prior = false := trip.2
    have recorded : KillSwitch.recordError maxConsecutiveErrors now prior =
        (KillSwitch.store prior { prior.killSwitch with
          tripped := true
          reason := some (toString (prior.killSwitch.consecutiveErrors + 1) ++
            " consecutive errors (limit " ++ toString maxConsecutiveErrors ++ ")")
          trippedAt := some now
          consecutiveErrors := prior.killSwitch.consecutiveErrors + 1 }).addRiskEvent
          ⟨.killSwitch, .killSwitch (toString (prior.killSwitch.consecutiveErrors + 1) ++
            " consecutive errors (limit " ++ toString maxConsecutiveErrors ++ ")")
            (.consecutiveErrors (prior.killSwitch.consecutiveErrors + 1))⟩ := by
      have stillUntripped : ¬ (KillSwitch.store prior { prior.killSwitch with
          consecutiveErrors := prior.killSwitch.consecutiveErrors + 1 }).killSwitch.tripped := by
        simp [trip.2]
      simp only [KillSwitch.recordError]
      rw [if_pos trip, KillSwitch.trip, if_neg stillUntripped]
      rfl
    rw [recorded] at trips ⊢
    refine ⟨rfl, rfl, trips, fun _ _ => ⟨_, rfl, rfl, rfl⟩, fun same => ?_⟩
    rw [untripped] at same
    cases same
  · have recorded : KillSwitch.recordError maxConsecutiveErrors now prior =
        KillSwitch.store prior { prior.killSwitch with
          consecutiveErrors := prior.killSwitch.consecutiveErrors + 1 } := by
      simp only [KillSwitch.recordError, if_neg trip]
    rw [recorded] at trips ⊢
    refine ⟨rfl, rfl, trips, fun untripped tripped => ?_, fun _ => ⟨rfl, rfl⟩⟩
    rw [KillSwitch.isTripped, KillSwitch.killSwitch_store] at tripped
    rw [KillSwitch.isTripped, tripped] at untripped
    cases untripped

/-- A unit of work on the committed store and the world of a session. -/
def SessionState.sessionScope {ω : Type} (state : SessionState ω)
    (body : Transaction DB ω PyError Unit) : Except PyError Unit × SessionState ω :=
  match body.commit state.db state.world with
  | (result, db, world) => (result, { state with db, world })

namespace Orchestrator

variable {ω : Type}

/-- `_process_candle` with its steps interrupted. -/
def processCandleUnder (interruption : Interruption CandleStep DB ω PyError)
    (orchestrator : Orchestrator ω) (quotes : LiveQuoteSource) (runner : Instrument)
    (decision : Decision) (draw : Draw) : Transaction DB ω PyError Unit := do
  let db ← interruption.run .getPosition read
  let signal ← interruption.run .strategy
    (ofExcept (decision (orchestrator.positionView db runner)))
  match signal with
  | none => pure ()
  | some signal =>
      match orchestrator.strategyRunId with
      | none => raise (.runtimeError
          "start_strategy_run() must be called before processing candles")
      | some strategyRunId => do
          let signalId ← interruption.run .addSignal
            (lift (addSignal ⟨runner.id, strategyRunId, signal.direction, signal.refPrice, .new⟩))
          let broker ← interruption.run .buildBroker (orchestrator.buildBroker quotes draw)
          let funds ← interruption.run .getFunds broker.getFunds
          let db ← interruption.run .sumRealizedPnl read
          let call : EvaluateCall :=
            { signal, signalId, instrument := runner, equity := funds.equity
              dailyRealizedPnl :=
                db.sumRealizedPnlSince orchestrator.mode (istMidnightUtc draw.now)
              clientOrderId := draw.clientOrderId }
          let result ← interruption.run .evaluate (compute (orchestrator.evaluate call))
          match result with
          | .error _ =>
              interruption.run .setSignalStatus
                (Transaction.modify fun db => db.setSignalStatus call.signalId .rejected)
          | .ok order => do
              interruption.run .setSignalStatus
                (Transaction.modify fun db => db.setSignalStatus call.signalId .approved)
              let ack ← interruption.run .placeOrder (broker.placeOrder order.request)
              interruption.run .linkSignal
                (Transaction.modify fun db => db.linkSignal ack.clientOrderId call.signalId)
              interruption.run .recordSuccess (Transaction.modify KillSwitch.recordSuccess)

/-- The first session scope of `_on_candle`. -/
def candleScope (interruption : Interruption CandleStep DB ω PyError)
    (orchestrator : Orchestrator ω) (quotes : LiveQuoteSource) (runner : Instrument)
    (decision : Decision) (draw : Draw) : Transaction DB ω PyError Unit := do
  interruption.run .openSession (pure ())
  orchestrator.processCandleUnder interruption quotes runner decision draw
  interruption.run .commit (pure ())

/-- The second session scope of `_on_candle`. -/
def errorScope (interruption : Interruption CandleStep DB ω PyError)
    (orchestrator : Orchestrator ω) (draw : Draw) : Transaction DB ω PyError Unit :=
  interruption.run .recordError
    (Transaction.modify
      (KillSwitch.recordError orchestrator.riskCfg.killSwitch.maxConsecutiveErrors draw.now))

/-- `_on_candle` with its steps interrupted, and what it raises to the event bus. -/
def onCandleUnder (interruption : Interruption CandleStep DB ω PyError)
    (orchestrator : Orchestrator ω) (candle : Candle) (decision : Decision) (draw : Draw)
    (state : SessionState ω) : Except PyError Unit × SessionState ω :=
  let state := { state with quotes := state.quotes.update candle.instrumentKey candle.close }
  match orchestrator.runners candle.instrumentKey with
  | none => (.ok (), state)
  | some runner =>
      tryExcept (state.sessionScope
        (orchestrator.candleScope interruption state.quotes runner decision draw)) fun _ state =>
          tryExcept (state.sessionScope (orchestrator.errorScope interruption draw))
            fun _ state => (.ok (), state)

variable {orchestrator : Orchestrator ω} {interruption : Interruption CandleStep DB ω PyError}

theorem processCandleUnder_none (quotes : LiveQuoteSource) (runner : Instrument)
    (decision : Decision) (draw : Draw) :
    orchestrator.processCandleUnder .none quotes runner decision draw =
      orchestrator.processCandle quotes runner decision draw := by
  simp only [processCandle, processCandleWith, prepare, bind_bind]
  refine congrArg (read >>= ·) (funext fun db => congrArg (ofExcept _ >>= ·)
    (funext fun signal => ?_))
  cases signal with
  | none => rfl
  | some signal =>
      cases orchestrator.strategyRunId with
      | none => rfl
      | some strategyRunId =>
          simp only [bind_bind, monadLift_eq]
          rfl

theorem interrupts_processCandleUnder (interruption : Interruption CandleStep DB ω PyError)
    (quotes : LiveQuoteSource) (runner : Instrument) (decision : Decision) (draw : Draw) :
    Interrupts (orchestrator.processCandleUnder interruption quotes runner decision draw)
      (orchestrator.processCandle quotes runner decision draw) := by
  have step : ∀ (label : CandleStep) {α : Type} (body : Transaction DB ω PyError α),
      Interrupts (interruption.run label body) body := interruption.interrupts
  rw [← processCandleUnder_none]
  apply interrupts_bind (step _ _)
  intro db
  apply interrupts_bind (step _ _)
  intro signal
  cases signal with
  | none => exact interrupts_refl _
  | some signal =>
      simp only
      split
      · exact interrupts_refl _
      · apply interrupts_bind (step _ _)
        intro signalId
        apply interrupts_bind (step _ _)
        intro broker
        apply interrupts_bind (step _ _)
        intro funds
        apply interrupts_bind (step _ _)
        intro db
        apply interrupts_bind (step _ _)
        intro result
        cases result with
        | error rejection => exact step _ _
        | ok order =>
            apply interrupts_bind (step _ _)
            intro _
            apply interrupts_bind (step _ _)
            intro ack
            apply interrupts_bind (step _ _)
            intro _
            exact step _ _

theorem candleScope_none (quotes : LiveQuoteSource) (runner : Instrument) (decision : Decision)
    (draw : Draw) : orchestrator.candleScope .none quotes runner decision draw =
      orchestrator.processCandle quotes runner decision draw := by
  rw [candleScope, processCandleUnder_none]
  exact Transaction.bind_pure _

theorem interrupts_candleScope (interruption : Interruption CandleStep DB ω PyError)
    (quotes : LiveQuoteSource) (runner : Instrument) (decision : Decision) (draw : Draw) :
    Interrupts (orchestrator.candleScope interruption quotes runner decision draw)
      (orchestrator.processCandle quotes runner decision draw) := by
  rw [← candleScope_none]
  apply interrupts_bind (interruption.interrupts _ _)
  intro _
  apply interrupts_bind
  · rw [processCandleUnder_none]
    exact interrupts_processCandleUnder interruption quotes runner decision draw
  · intro _
    exact interruption.interrupts _ _

/-- Without an interruption this is `_on_candle` as the session runs it, and nothing reaches
the event bus. -/
theorem onCandleUnder_none (candle : Candle) (decision : Decision) (draw : Draw)
    (state : SessionState ω) :
    orchestrator.onCandleUnder .none candle decision draw state =
      (.ok (), orchestrator.onCandle candle decision draw state) := by
  simp only [onCandleUnder, onCandle, candleScope_none]
  cases orchestrator.runners candle.instrumentKey with
  | none => rfl
  | some runner =>
      simp only [SessionState.sessionScope]
      rcases (orchestrator.processCandle (state.quotes.update candle.instrumentKey candle.close)
        runner decision draw).commit state.db state.world with ⟨_ | _, _, _⟩ <;> rfl

/-- Whatever step of a candle raises, the store holds the complete effect of the candle or
one more counted error and nothing else, and no exception reaches the event bus. -/
theorem onCandleUnder_atomic (interruption : Interruption CandleStep DB ω PyError)
    (recorded : interruption.Spares .recordError) {candle : Candle} {runner : Instrument}
    (subscribed : orchestrator.runners candle.instrumentKey = some runner) (decision : Decision)
    (draw : Draw) (state : SessionState ω) :
    let after := orchestrator.onCandleUnder interruption candle decision draw state
    after.1 = .ok () ∧
      ((∃ world', (orchestrator.processCandle
          (state.quotes.update candle.instrumentKey candle.close) runner decision draw).Yields
          state.db state.world () after.2.db world') ∨
        ErrorRecorded orchestrator.riskCfg.killSwitch.maxConsecutiveErrors draw.now state.db
          after.2.db) := by
  intro after
  have afterEq : after = orchestrator.onCandleUnder interruption candle decision draw state := rfl
  simp only [onCandleUnder, subscribed, SessionState.sessionScope, errorScope, recorded _] at afterEq
  rcases commit_of_interrupts (interrupts_candleScope interruption
      (state.quotes.update candle.instrumentKey candle.close) runner decision draw) state.db
      state.world with ⟨_, db', world', yields, committed⟩ | ⟨exception, world', rolledBack⟩
  · rw [committed] at afterEq
    rw [afterEq]
    exact ⟨rfl, .inl ⟨world', yields⟩⟩
  · rw [rolledBack] at afterEq
    rw [afterEq]
    exact ⟨rfl, .inr (errorRecorded_recordError _ _ _)⟩

/-- A broker call that fails after it has acted. -/
def lostAnswer : Interruption CandleStep DB (List String) PyError :=
  .raising (fun step => if step = .placeOrder then some (.runtimeError "lost") else none) true

/-- The sample candle whose order is placed but not acknowledged. -/
def lostCandle : Except PyError Unit × SessionState (List String) :=
  (sampleSession .paper).onCandleUnder lostAnswer ⟨"NSE_EQ|INFY", 100⟩
    (fun _ => .ok (some ⟨.long, 100, []⟩)) ⟨0, "a", "a", 0⟩ sampleStart

theorem onCandleUnder_atomic_sample : ErrorRecorded 5 0 sampleStart.db lostCandle.2.db := by
  have spared : lostAnswer.Spares .recordError := fun _ => rfl
  have subscribed : (sampleSession .paper).runners (⟨"NSE_EQ|INFY", 100⟩ : Candle).instrumentKey =
      some ⟨1, "INFY", "NSE_EQ|INFY", 1 / 20⟩ := by
    simp only [sampleSession]
    decide +kernel
  have atomic := onCandleUnder_atomic lostAnswer spared subscribed
    (fun _ => .ok (some ⟨.long, 100, []⟩)) ⟨0, "a", "a", 0⟩ sampleStart
  rcases atomic.2 with ⟨world', yields⟩ | recorded
  · have unplaced : lostCandle.2.db.orders.rows.length = 0 := by decide +kernel
    have placed : (((sampleSession .paper).processCandle
        (sampleStart.quotes.update "NSE_EQ|INFY" 100) ⟨1, "INFY", "NSE_EQ|INFY", 1 / 20⟩
        (fun _ => .ok (some ⟨.long, 100, []⟩)) ⟨0, "a", "a", 0⟩ sampleStart.db sampleStart.world).1.map
          fun result => result.2.orders.rows.length) = .ok 1 := by
      decide +kernel
    rw [yields] at placed
    simp only [Except.map, Except.ok.injEq] at placed
    rw [lostCandle] at unplaced
    omega
  · exact recorded

end Orchestrator

end PersonalTrade
