import PersonalTrade.Orchestrator.Scheduler

/-!
# From ticks to orders

What the scheduled session makes of the ticks of its feed. The runner of an instrument receives the
bars of the ticks taken, one after another, whatever becomes of the transactions of their candles
(`runner_receives_bars`); and an order is created for a delivered candle only, at most one for
each, and none while the kill switch is tripped (`orders_created`).
-/

namespace PersonalTrade

variable {ω σ : Type}

/-- A runner has gone through some candles, each with a position. -/
def LiveStrategyRunner.Receives (sqrt : ℚ → ℚ) (before : LiveStrategyRunner σ)
    (candles : List CandleReceived) (after : LiveStrategyRunner σ) : Prop :=
  ∃ deliveries : List (CandleReceived × PositionView), deliveries.map Prod.fst = candles ∧
    after = deliveries.foldl (LiveStrategyRunner.deliver sqrt) before

namespace LiveStrategyRunner.Receives

variable {sqrt : ℚ → ℚ} {first second third : LiveStrategyRunner σ}
  {candles later : List CandleReceived}

theorem refl (sqrt : ℚ → ℚ) (runner : LiveStrategyRunner σ) : Receives sqrt runner [] runner :=
  ⟨[], rfl, rfl⟩

theorem single (sqrt : ℚ → ℚ) (runner : LiveStrategyRunner σ) (candle : CandleReceived)
    (position : PositionView) :
    Receives sqrt runner [candle] (runner.deliver sqrt (candle, position)) :=
  ⟨[(candle, position)], rfl, rfl⟩

theorem trans (earlier : Receives sqrt first candles second)
    (after : Receives sqrt second later third) : Receives sqrt first (candles ++ later) third := by
  rcases earlier with ⟨left, rfl, rfl⟩
  rcases after with ⟨right, rfl, rfl⟩
  exact ⟨left ++ right, List.map_append, List.foldl_append.symm⟩

/-- The buffer has every candle received, and the counter of bars has counted them. -/
theorem buffer (receives : Receives sqrt first candles second) :
    second.buffer = first.buffer ++ candles.map CandleReceived.row ∧
      second.barCount = first.barCount + candles.length := by
  rcases receives with ⟨deliveries, rfl, rfl⟩
  induction deliveries generalizing first with
  | nil => simp
  | cons delivery deliveries ih =>
      rcases exists_deliver_eq sqrt first delivery with ⟨memory, delivered⟩
      rcases @ih (first.deliver sqrt delivery) with ⟨rows, count⟩
      rw [List.foldl_cons]
      constructor
      · rw [rows, delivered]
        simp [LiveStrategyRunner.receive]
      · rw [count, delivered]
        simp [LiveStrategyRunner.receive]
        omega

end LiveStrategyRunner.Receives

/-- The candles of an instrument among published events. -/
def candlesOf (instrumentKey : String) (published : List FeedEvent) : List CandleReceived :=
  (published.filterMap FeedEvent.candle).filter fun candle => candle.instrumentKey = instrumentKey

theorem candlesOf_append (instrumentKey : String) (first second : List FeedEvent) :
    candlesOf instrumentKey (first ++ second) =
      candlesOf instrumentKey first ++ candlesOf instrumentKey second := by
  simp [candlesOf]

theorem candlesOf_received (instrumentKey : String) (candle : CandleReceived) :
    candlesOf instrumentKey [.candleReceived candle] =
      if candle.instrumentKey = instrumentKey then [candle] else [] := by
  change List.filter _ [candle] = _
  simp [List.filter_singleton]

namespace LiveSession

variable {setup : LiveSession ω} {start state : LiveState ω σ} {run : List (LiveEvent ω)}
  {instrumentKey : String} {instrument : Instrument}

/-! ## The bars of a runner -/

/-- Handled events reach the runner of their instrument. -/
theorem runners_handled (runs : setup.orchestrator.runners instrumentKey = some instrument)
    (state : LiveState ω σ) (events : List BusEvent) :
    (state.runners instrumentKey).Receives setup.sqrt
      (candlesOf instrumentKey (events.map Prod.fst))
      ((runSteps setup.handle state events).runners instrumentKey) := by
  induction events generalizing state with
  | nil => exact .refl _ _
  | cons event events ih =>
      have later := ih (setup.handle state event)
      rcases event with ⟨candle | stale, draw⟩
      · rw [List.map_cons, ← List.singleton_append, candlesOf_append]
        refine LiveStrategyRunner.Receives.trans ?_ later
        rw [candlesOf_received]
        simp only [handle, onCandle, runnersAfter]
        split_ifs with own
        · subst own
          simp only [runs, Function.update_self]
          exact .single _ _ _ _
        · cases setup.orchestrator.runners candle.instrumentKey with
          | none => exact .refl _ _
          | some other =>
              simp only [Function.update_of_ne (Ne.symm own)]
              exact .refl _ _
      · exact later

theorem runners_publish (runs : setup.orchestrator.runners instrumentKey = some instrument)
    (state : LiveState ω σ) (moved : LiveFeed × List FeedEvent) (draws : ℕ → Draw) :
    (state.runners instrumentKey).Receives setup.sqrt (candlesOf instrumentKey moved.2)
      ((setup.publish state moved draws).2.runners instrumentKey) := by
  have events : (drawn moved.2 draws).map Prod.fst = moved.2 := by
    rw [drawn, List.map_map]
    exact List.zipIdx_map_fst 0 moved.2
  have handled := runners_handled runs (state.move moved) (drawn moved.2 draws)
  rw [events] at handled
  rw [publish_eq]
  exact handled

/-- What an event publishes reaches the runners. -/
theorem runners_step (runs : setup.orchestrator.runners instrumentKey = some instrument)
    (state : LiveState ω σ) (event : LiveEvent ω) : ∃ events,
      (setup.step state event).published = state.published ++ events ∧
      (state.runners instrumentKey).Receives setup.sqrt (candlesOf instrumentKey events)
        ((setup.step state event).runners instrumentKey) := by
  have quiet : ∃ events, state.published = state.published ++ events ∧
      (state.runners instrumentKey).Receives setup.sqrt (candlesOf instrumentKey events)
        (state.runners instrumentKey) := ⟨[], (List.append_nil _).symm, .refl _ _⟩
  cases event with
  | tick quote draws =>
      simp only [step]
      split_ifs with running
      · refine ⟨(state.feed.onTick quote).2, ?_, ?_⟩
        · have published : (setup.publish state (state.feed.onTick quote) draws).2.published =
              state.published ++ (state.feed.onTick quote).2 := published_publish
          rw [← published, publish_eq]
        · have reached := runners_publish runs state (state.feed.onTick quote) draws
          rw [publish_eq] at reached ⊢
          exact reached
      · exact quiet
  | streamEnds | streamRaises error =>
      simp only [step]
      split_ifs <;> exact quiet
  | schedulerStart now begins | sessionStart now begins =>
      simp only [step, startFeed]
      split_ifs <;> exact quiet
  | sessionStop draws =>
      simp only [step, stopFeed]
      rcases state.task with _ | _ | _ | error
      · exact quiet
      · exact ⟨_, published_publish, runners_publish runs { state with task := none } _ draws⟩
      · exact ⟨_, published_publish, runners_publish runs { state with task := none } _ draws⟩
      · exact quiet
  | housekeeping clock now =>
      simp only [step, housekeeping]
      split_ifs
      · exact ⟨_, published_publish, runners_publish runs
          { state with session := setup.orchestrator.step state.session (.housekeeping clock) }
          (state.feed.checkStaleness now) _⟩
      · exact quiet
  | trip reason detail now | reset reason | outside act => exact quiet

theorem runners_run (runs : setup.orchestrator.runners instrumentKey = some instrument)
    (start : LiveState ω σ) (run : List (LiveEvent ω)) : ∃ events,
      (runSteps setup.step start run).published = start.published ++ events ∧
      (start.runners instrumentKey).Receives setup.sqrt (candlesOf instrumentKey events)
        ((runSteps setup.step start run).runners instrumentKey) := by
  induction run using List.reverseRecOn with
  | nil => exact ⟨[], (List.append_nil _).symm, .refl _ _⟩
  | append_singleton run event ih =>
      rcases ih with ⟨events, published, receives⟩
      rcases runners_step runs (runSteps setup.step start run) event with ⟨more, added, reached⟩
      rw [runSteps_concat]
      refine ⟨events ++ more, ?_, ?_⟩
      · rw [added, published, List.append_assoc]
      · rw [candlesOf_append]
        exact receives.trans reached

/-- An instrument that is subscribed with one interval only gets candles of that interval. -/
theorem candlesOf_eq_candles {pairs : List (String × Interval)} {interval : Interval}
    {arrivals : List (Arrival Quote)} {session : FeedSession}
    (once : pairs.filter (·.1 = instrumentKey) = [(instrumentKey, interval)])
    (summary : FeedSession.Summary pairs arrivals session) :
    candlesOf instrumentKey session.published = session.candles (instrumentKey, interval) := by
  rw [candlesOf, FeedSession.candles]
  apply List.filter_congr
  intro candle mem
  rw [decide_eq_decide, Prod.mk.injEq, iff_self_and]
  intro own
  have kept : (candle.instrumentKey, candle.interval) ∈ pairs.filter (·.1 = instrumentKey) :=
    List.mem_filter.mpr ⟨summary.kinds candle mem, by simpa using own⟩
  rw [once, List.mem_singleton, Prod.mk.injEq] at kept
  exact kept.2

/-- Whatever happens to the session and to the transactions of its candles, the runner of an
instrument that is subscribed once has received exactly the bars of the ticks that its feed has
taken, in their order. -/
theorem runner_receives_bars {subscriptions : List (String × List Interval)} {threshold : ℤ}
    {interval : Interval} {model : CandleAggregator}
    (created : LiveFeed.create subscriptions threshold = .ok start.feed)
    (once : (subscribed subscriptions).filter (·.1 = instrumentKey) = [(instrumentKey, interval)])
    (bars : CandleAggregator.create instrumentKey interval = .ok model)
    (runs : setup.orchestrator.runners instrumentKey = some instrument)
    (fresh : start.task = none) (silent : start.published = []) (run : List (LiveEvent ω)) :
    let final := runSteps setup.step start run
    let ticks := arrivalsFor instrumentKey
      ((feedView start).arrivals (projected setup.step setup.feedLabels start run))
    let received := (collected (bucketOf model.seconds) [] ticks).map fun group =>
      (barOf model group).received
    (start.runners instrumentKey).Receives setup.sqrt received (final.runners instrumentKey) ∧
      (final.runners instrumentKey).buffer =
        (start.runners instrumentKey).buffer ++ received.map CandleReceived.row := by
  intro final ticks received
  have view : feedView start = { feed := start.feed } := by
    rw [feedView, fresh, silent]
    rfl
  have summary := (LiveFeed.summary_of_create created).run
    (projected setup.step setup.feedLabels start run)
  rw [← view, ← (feedView_projects setup).run] at summary
  rcases runners_run runs start run with ⟨events, published, receives⟩
  rw [silent, List.nil_append] at published
  have tracks : TracksBars [] (instrumentKey, interval) model :=
    CandleAggregator.tracks_of_create bars
  have kind : (model.instrumentKey, model.interval) = (instrumentKey, interval) := tracks.key
  have key : model.instrumentKey = instrumentKey := congrArg Prod.fst kind
  have count : (subscribed subscriptions).count (instrumentKey, interval) = 1 := by
    rw [← List.count_filter (p := (·.1 = instrumentKey)) (by simp), once, List.count_singleton_self]
  have delivered : candlesOf instrumentKey events = received := by
    have candles := summary.published model
    rw [kind, count] at candles
    rw [← published]
    refine (candlesOf_eq_candles once summary).trans (candles.trans ?_)
    simp only [List.replicate_one, ← List.map_eq_flatMap, List.map_map]
    rw [key]
    rfl
  rw [delivered] at receives
  exact ⟨receives, receives.buffer.1⟩

/-- Two ticks of one minute and one of the next, in a session on a Monday. -/
theorem runner_receives_bars_sample :
    ((runSteps sample.step sampleState [.sessionStart mondayTen mondayTen,
        .tick ⟨"NSE_EQ|INFY", 100, 10, mondayTen⟩ fun _ => ⟨0, "", "", 0⟩,
        .tick ⟨"NSE_EQ|INFY", 102, 11, mondayTen + 1⟩ fun _ => ⟨0, "", "", 0⟩,
        .tick ⟨"NSE_EQ|INFY", 101, 12, mondayTen + minuteUs⟩ fun _ => ⟨0, "", "", 0⟩]).runners
      "NSE_EQ|INFY").buffer.map CandleRow.close = [102] := by
  have created : LiveFeed.create [("NSE_EQ|INFY", [.m1])] 30000000 = .ok sampleState.feed := rfl
  have once : (subscribed [("NSE_EQ|INFY", [.m1])]).filter (·.1 = "NSE_EQ|INFY") =
    [("NSE_EQ|INFY", .m1)] := by decide
  have received := (runner_receives_bars created once
    (rfl : CandleAggregator.create "NSE_EQ|INFY" .m1 = .ok infyBars)
    (rfl : sample.orchestrator.runners "NSE_EQ|INFY" = some _) rfl rfl
    [.sessionStart mondayTen mondayTen,
      .tick ⟨"NSE_EQ|INFY", 100, 10, mondayTen⟩ fun _ => ⟨0, "", "", 0⟩,
      .tick ⟨"NSE_EQ|INFY", 102, 11, mondayTen + 1⟩ fun _ => ⟨0, "", "", 0⟩,
      .tick ⟨"NSE_EQ|INFY", 101, 12, mondayTen + minuteUs⟩ fun _ => ⟨0, "", "", 0⟩]).2
  rw [received]
  decide +kernel

/-! ## The orders of a run -/

end LiveSession

namespace Orchestrator

variable {orchestrator : Orchestrator ω}

/-- A candle of an instrument that has a runner. -/
def hasRunner (orchestrator : Orchestrator ω) (candle : Candle) : Bool :=
  (orchestrator.runners candle.instrumentKey).isSome

/-- One event creates no order, or one for a candle with a runner while the kill switch is not
tripped. -/
theorem nextId_step (trades : orchestrator.mode ≠ .backtest) (state : SessionState ω)
    (event : SessionEvent ω) :
    (orchestrator.step state event).db.orders.nextId = state.db.orders.nextId ∨
      ((orchestrator.step state event).db.orders.nextId = state.db.orders.nextId + 1 ∧
        KillSwitch.isTripped state.db = false ∧
        event.received.any orchestrator.hasRunner = true) := by
  cases step_effect trades state event with
  | quiet same => exact .inl (congrArg RowTable.nextId same.orders)
  | traded trading => exact .inl trading.nextId
  | placed runner call order runs instrument decided placed =>
      refine .inr ⟨placed.nextId, placed.approves.gates.untripped, ?_⟩
      simp [SessionEvent.received, hasRunner, runs]

/-- The orders of a run are at most as many as its candles with a runner. -/
theorem nextId_run (trades : orchestrator.mode ≠ .backtest) (start : SessionState ω)
    (events : List (SessionEvent ω)) :
    (runSteps orchestrator.step start events).db.orders.nextId ≤ start.db.orders.nextId +
      (events.filterMap SessionEvent.received).countP orchestrator.hasRunner := by
  induction events using List.reverseRecOn with
  | nil => simp [runSteps]
  | append_singleton events event ih =>
      rw [runSteps_concat, List.filterMap_append, List.countP_append]
      rcases nextId_step trades (runSteps orchestrator.step start events) event with
        same | ⟨created, _, delivers⟩
      · omega
      · rw [created]
        cases received : event.received with
        | none => simp [received] at delivers
        | some candle =>
            have counted : [event].filterMap SessionEvent.received = [candle] := by
              simp [received]
            have runs : orchestrator.hasRunner candle = true := by simpa [received] using delivers
            rw [counted, List.countP_singleton, if_pos runs]
            omega

/-- The kill switch is tripped and no order was created. -/
structure Halted (start : DB) (state : SessionState ω) : Prop where
  tripped : KillSwitch.isTripped state.db = true
  orders : state.db.orders.nextId = start.orders.nextId

theorem Halted.step (trades : orchestrator.mode ≠ .backtest) {start : DB} {state : SessionState ω}
    {event : SessionEvent ω} (halted : Halted start state)
    (kept : ∀ reason, event ≠ .reset reason) : Halted start (orchestrator.step state event) := by
  refine ⟨isTripped_step trades kept halted.tripped, ?_⟩
  rcases nextId_step trades state event with same | ⟨_, untripped, _⟩
  · exact same.trans halted.orders
  · rw [halted.tripped] at untripped
    cases untripped

end Orchestrator

theorem Orchestrator.Halted.run {orchestrator : Orchestrator ω}
    (trades : orchestrator.mode ≠ .backtest) {start : DB} {state : SessionState ω}
    {events : List (SessionEvent ω)} (halted : Halted start state)
    (kept : ∀ event ∈ events, ∀ reason, event ≠ .reset reason) :
    Halted start (runSteps orchestrator.step state events) := by
  induction events generalizing state with
  | nil => exact halted
  | cons event events ih =>
      rcases List.forall_mem_cons.mp kept with ⟨first, rest⟩
      exact ih (halted.step trades first) rest

namespace LiveSession

variable {setup : LiveSession ω} {state : LiveState ω σ} {event : LiveEvent ω}
  {label : SessionEvent ω}

theorem not_reset_of_handled {events : List BusEvent}
    (mem : label ∈ projected setup.handle setup.busLabels state events) (reason : String) :
    label ≠ .reset reason := by
  induction events generalizing state with
  | nil => cases mem
  | cons event events ih =>
      rw [projected_cons, List.mem_append] at mem
      rcases mem with first | later
      · rcases event with ⟨candle | stale, draw⟩
        · rw [busLabels, List.mem_singleton] at first
          rw [first]
          intro same
          cases same
        · cases first
      · exact ih later

/-- Only a reset is a reset to the orchestrator. -/
theorem not_reset_of_mem (kept : ∀ reason, event ≠ .reset reason)
    (mem : label ∈ setup.sessionLabels state event) (reason : String) :
    label ≠ .reset reason := by
  cases event with
  | tick quote draws =>
      simp only [sessionLabels] at mem
      split_ifs at mem
      · exact not_reset_of_handled mem reason
      · cases mem
  | sessionStop draws =>
      simp only [sessionLabels] at mem
      rcases holds : state.task with _ | _ | _ | error <;> rw [holds] at mem
      · cases mem
      · exact not_reset_of_handled mem reason
      · exact not_reset_of_handled mem reason
      · cases mem
  | housekeeping clock now | trip _ detail now | outside act =>
      rw [sessionLabels, List.mem_singleton] at mem
      rw [mem]
      intro same
      cases same
  | reset again => exact absurd rfl (kept again)
  | streamEnds | streamRaises error | schedulerStart now begins | sessionStart now begins =>
      cases mem

/-- An order is created for a candle that the feed publishes for an instrument with a runner, at
most one for each; and none, whatever arrives, from the moment the kill switch is tripped until it
is reset. -/
theorem orders_created (trades : setup.orchestrator.mode ≠ .backtest) (start : LiveState ω σ)
    (run : List (LiveEvent ω)) :
    let final := runSteps setup.step start run
    let candles := fun published : List FeedEvent =>
      (publishedCandles published).countP setup.orchestrator.hasRunner
    final.session.db.orders.nextId + candles start.published ≤
        start.session.db.orders.nextId + candles final.published ∧
      (KillSwitch.isTripped start.session.db = true → (∀ reason, .reset reason ∉ run) →
        KillSwitch.isTripped final.session.db = true ∧
          final.session.db.orders.nextId = start.session.db.orders.nextId) := by
  intro final candles
  rcases liveSession_refines setup start run with ⟨session, _, published⟩
  constructor
  · have counted := congrArg (List.countP setup.orchestrator.hasRunner) published
    rw [List.countP_append] at counted
    have bound := Orchestrator.nextId_run trades start.session
      (projected setup.step setup.sessionLabels start run)
    rw [← session] at bound
    simp only [final, candles]
    omega
  · intro tripped kept
    have halted : Orchestrator.Halted start.session.db final.session := by
      rw [session]
      refine Orchestrator.Halted.run trades ⟨tripped, rfl⟩ fun label mem reason => ?_
      rcases List.mem_flatMap.mp mem with ⟨made, madeMem, labelMem⟩
      refine not_reset_of_mem (fun again same => kept again ?_) labelMem reason
      rcases exists_of_mem_runTrace madeMem with ⟨before, after, split, _⟩
      rw [split, same]
      exact List.mem_append_right _ (.head _)
    exact ⟨halted.tripped, halted.orders⟩

/-- A strategy that wants to buy at every bar. -/
def eager : Strategy Unit where
  warmupBars := 1
  requiredIndicators := []
  distinct := List.nodup_nil
  onCandle context memory := pure
    (context.candles.getLast?.map fun candle => ⟨.long, candle.close, []⟩, memory)

/-- The sample session with this strategy. -/
def eagerState : LiveState (List String) Unit :=
  { sampleState with runners _ := { strategy := eager, indicators := ⟨[], ∅, ∅⟩, memory := () } }

/-- Ticks of three minutes, which close two bars. -/
def twoBars : List (LiveEvent (List String)) :=
  [.sessionStart mondayTen mondayTen,
    .tick ⟨"NSE_EQ|INFY", 100, 10, mondayTen⟩ fun _ => ⟨0, "a", "a", 0⟩,
    .tick ⟨"NSE_EQ|INFY", 101, 11, mondayTen + minuteUs⟩ fun _ => ⟨0, "b", "b", 0⟩,
    .tick ⟨"NSE_EQ|INFY", 102, 12, mondayTen + 2 * minuteUs⟩ fun _ => ⟨0, "c", "c", 0⟩]

/-- The first of two bars is bought, and neither is when the switch is tripped before. -/
theorem orders_created_sample :
    let halted := { eagerState with
      session := Orchestrator.sampleRun .paper [.trip "manual" .none 0] }
    (runSteps sample.step eagerState twoBars).session.db.orders.nextId = 1 ∧
      (runSteps sample.step eagerState twoBars).session.db.orders.nextId ≤ 2 ∧
      (publishedCandles (runSteps sample.step halted twoBars).published).map Candle.close =
        [100, 101] ∧
      (runSteps sample.step halted twoBars).session.db.orders.nextId = 0 := by
  intro halted
  have trades : sample.orchestrator.mode ≠ .backtest := by decide
  have bound := (orders_created trades eagerState twoBars).1
  have published : (publishedCandles (runSteps sample.step eagerState twoBars).published).countP
      sample.orchestrator.hasRunner = 2 := by decide +kernel
  have kept : ∀ reason, LiveEvent.reset reason ∉ twoBars := by simp [twoBars]
  refine ⟨by decide +kernel, ?_, by decide +kernel, ?_⟩
  · simp only [published] at bound
    exact bound
  · exact ((orders_created trades halted twoBars).2 (by decide +kernel) kept).2

end LiveSession

end PersonalTrade
