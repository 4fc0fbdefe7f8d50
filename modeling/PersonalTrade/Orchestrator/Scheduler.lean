import PersonalTrade.Core.Events
import PersonalTrade.Core.MarketHours
import PersonalTrade.Library.Projection
import PersonalTrade.Orchestrator.Housekeeping
import PersonalTrade.Orchestrator.LiveContext

/-!
# The scheduled session

`orchestrator/scheduler.py` with the parts that `pt run` wires together: the jobs of the scheduler
start and stop the task of the feed, its ticks become candles, and the bus hands each candle to the
runner of its instrument and to the orchestrator, while the kill switch and the broker's side move
from outside.

Every run of this machine is at once a run of the feed and a run of the orchestrator
(`feedView_projects`, `session_projects`), and the candles of the second are those that the first
publishes (`liveSession_refines`).
-/

namespace PersonalTrade

variable {ω σ : Type}

/-- The task that `start_feed` creates: it reads the stream, has returned, or has raised. -/
inductive LiveTask where
  | running
  | returned
  | raised (error : PyError)
deriving DecidableEq

/-- The task as far as the feed is concerned. -/
def LiveTask.feedTask : LiveTask → FeedTask
  | .running => .running
  | .returned | .raised _ => .done

inductive EventType where
  | candleReceived
  | feedStale
deriving DecidableEq

/-- `type(event)`. -/
def FeedEvent.eventType : FeedEvent → EventType
  | .candleReceived _ => .candleReceived
  | .feedStale _ => .feedStale

/-- An event on the bus, with the clock readings and identifiers that are drawn while it is
handled. -/
abbrev BusEvent := FeedEvent × Draw

/-- What a process of `pt run` holds, and the events published so far. -/
structure LiveState (ω σ : Type) where
  session : SessionState ω
  runners : String → LiveStrategyRunner σ
  feed : LiveFeed
  task : Option LiveTask := none
  published : List FeedEvent := []

/-- The feed has moved. -/
def LiveState.move (state : LiveState ω σ) (moved : LiveFeed × List FeedEvent) : LiveState ω σ :=
  { state with feed := moved.1, published := state.published ++ moved.2 }

/-- What `pt run` composes. -/
structure LiveSession (ω : Type) where
  orchestrator : Orchestrator ω
  calendar : NSECalendar
  sqrt : ℚ → ℚ

/-- What can happen to it. A job that starts the feed reads the clock, and so does the task when it
begins to run. -/
inductive LiveEvent (ω : Type) where
  | tick (quote : Quote) (draws : ℕ → Draw)
  | streamEnds
  | streamRaises (error : PyError)
  | schedulerStart (now begins : ℤ)
  | sessionStart (now begins : ℤ)
  | sessionStop (draws : ℕ → Draw)
  | housekeeping (clock : ℕ → ℤ) (now : ℤ)
  | trip (reason : String) (detail : TripDetail) (now : ℤ)
  | reset (reason : String)
  | outside (act : ω → ω)

namespace LiveSession

variable (setup : LiveSession ω)

/-- The decision of the runner of a candle. -/
def decision (state : LiveState ω σ) (candle : CandleReceived) : Decision := fun position =>
  ((state.runners candle.instrumentKey).onCandle setup.sqrt candle position).map Prod.fst

/-- The runners after a candle: the one of its instrument goes on, with the position that the store
has for it, whatever becomes of the transaction. -/
def runnersAfter (state : LiveState ω σ) (candle : CandleReceived) :
    String → LiveStrategyRunner σ :=
  match setup.orchestrator.runners candle.instrumentKey with
  | none => state.runners
  | some instrument => Function.update state.runners candle.instrumentKey
      ((state.runners candle.instrumentKey).deliver setup.sqrt
        (candle, setup.orchestrator.positionView state.session.db instrument))

/-- `_on_candle`, with its runner. -/
def onCandle (state : LiveState ω σ) (candle : CandleReceived) (draw : Draw) : LiveState ω σ :=
  { state with
    session := setup.orchestrator.onCandle ⟨candle.instrumentKey, candle.close⟩
      (setup.decision state candle) draw state.session
    runners := setup.runnersAfter state candle }

/-- What an event on the bus does. -/
def handle (state : LiveState ω σ) : BusEvent → LiveState ω σ
  | (.candleReceived candle, draw) => setup.onCandle state candle draw
  | (.feedStale _, _) => state

/-- The bus after `Orchestrator.__init__`: `_on_candle` contains what it raises, and
`_on_feed_stale` only writes to the log. -/
def bus : EventBus EventType BusEvent (LiveState ω σ) :=
  (({} : EventBus EventType BusEvent (LiveState ω σ)).subscribe .candleReceived
      fun event state => (.ok (), setup.handle state event)).subscribe .feedStale
      fun _ state => (.ok (), state)

/-- The events that a feed publishes, with what is drawn for each. -/
def drawn (events : List FeedEvent) (draws : ℕ → Draw) : List BusEvent :=
  events.zipIdx.map fun event => (event.1, draws event.2)

/-- The feed moves and publishes its events. It does so one by one while it moves, which makes no
difference to handlers that neither raise nor touch the feed. -/
def publish (state : LiveState ω σ) (moved : LiveFeed × List FeedEvent) (draws : ℕ → Draw) :
    Except PyError Unit × LiveState ω σ :=
  setup.bus.publishAll (fun event => event.1.eventType) (drawn moved.2 draws) (state.move moved)

/-- `start_feed`, with the clock at which `run` asks whether the market is open. -/
def startFeed (state : LiveState ω σ) (begins : ℤ) : LiveState ω σ :=
  if state.task = some .running then state
  else { state with
    task := some (if setup.calendar.isOpenAt begins then .running else .returned) }

/-- `stop_feed`. A task that has raised raises again when it is awaited, and the rest of the
method is not reached. -/
def stopFeed (state : LiveState ω σ) (draws : ℕ → Draw) : Except PyError Unit × LiveState ω σ :=
  match state.task with
  | none => (.ok (), state)
  | some (.raised error) => (.error error, state)
  | some .running | some .returned =>
      setup.publish { state with task := none } state.feed.flush draws

/-- `run_housekeeping`. -/
def housekeeping (state : LiveState ω σ) (clock : ℕ → ℤ) (now : ℤ) : LiveState ω σ :=
  let stepped := { state with
    session := setup.orchestrator.step state.session (.housekeeping clock) }
  if setup.orchestrator.BrokerStepReturns clock state.session then
    (setup.publish stepped (state.feed.checkStaleness now) fun _ => ⟨now, "", "", now⟩).2
  else stepped

/-- One event. -/
def step (state : LiveState ω σ) : LiveEvent ω → LiveState ω σ
  | .tick quote draws =>
      if state.task = some .running then
        match setup.publish state (state.feed.onTick quote) draws with
        | (.ok (), after) => after
        | (.error raised, after) => { after with task := some (.raised raised) }
      else state
  | .streamEnds =>
      if state.task = some .running then { state with task := some .returned } else state
  | .streamRaises error =>
      if state.task = some .running then { state with task := some (.raised error) } else state
  | .schedulerStart now begins =>
      if setup.calendar.isOpenAt now then setup.startFeed state begins else state
  | .sessionStart now begins =>
      if setup.calendar.isTradingDay (istDate now) then setup.startFeed state begins else state
  | .sessionStop draws => (setup.stopFeed state draws).2
  | .housekeeping clock now => setup.housekeeping state clock now
  | .trip reason detail now =>
      { state with session := setup.orchestrator.step state.session (.trip reason detail now) }
  | .reset reason =>
      { state with session := setup.orchestrator.step state.session (.reset reason) }
  | .outside act =>
      { state with session := setup.orchestrator.step state.session (.outside act) }

/-! ## The two machines below -/

/-- The feed with its task. -/
def feedView (state : LiveState ω σ) : FeedSession :=
  ⟨state.feed, state.task.map LiveTask.feedTask, state.published⟩

/-- What an event is to the feed. -/
def feedLabels (state : LiveState ω σ) : LiveEvent ω → List FeedLabel
  | .tick quote _ => [.tick quote]
  | .streamEnds | .streamRaises _ => if state.task = some .running then [.streamEnds] else []
  | .schedulerStart now begins =>
      if setup.calendar.isOpenAt now then [.startFeed (setup.calendar.isOpenAt begins)] else []
  | .sessionStart now begins =>
      if setup.calendar.isTradingDay (istDate now) then
        [.startFeed (setup.calendar.isOpenAt begins)]
      else []
  | .sessionStop _ =>
      match state.task with
      | some (.raised _) => []
      | _ => [.stopFeed]
  | .housekeeping clock now =>
      if setup.orchestrator.BrokerStepReturns clock state.session then [.checkStaleness now] else []
  | .trip .. | .reset _ | .outside _ => []

/-- What an event on the bus is to the orchestrator. -/
def busLabels (state : LiveState ω σ) : BusEvent → List (SessionEvent ω)
  | (.candleReceived candle, draw) =>
      [.candle ⟨candle.instrumentKey, candle.close⟩ (setup.decision state candle) draw]
  | (.feedStale _, _) => []

/-- What the events of a move of the feed are to the orchestrator. -/
def delivered (state : LiveState ω σ) (moved : LiveFeed × List FeedEvent) (draws : ℕ → Draw) :
    List (SessionEvent ω) :=
  projected setup.handle setup.busLabels (state.move moved) (drawn moved.2 draws)

/-- What an event is to the orchestrator. -/
def sessionLabels (state : LiveState ω σ) : LiveEvent ω → List (SessionEvent ω)
  | .tick quote draws =>
      if state.task = some .running then setup.delivered state (state.feed.onTick quote) draws
      else []
  | .sessionStop draws =>
      match state.task with
      | none | some (.raised _) => []
      | some .running | some .returned =>
          setup.delivered { state with task := none } state.feed.flush draws
  | .housekeeping clock _ => [.housekeeping clock]
  | .trip reason detail now => [.trip reason detail now]
  | .reset reason => [.reset reason]
  | .outside act => [.outside act]
  | .streamEnds | .streamRaises _ | .schedulerStart .. | .sessionStart .. => []

section Bus

variable {setup : LiveSession ω} {state : LiveState ω σ} {moved : LiveFeed × List FeedEvent}
  {draws : ℕ → Draw}

theorem publish_bus (setup : LiveSession ω) (event : BusEvent) (state : LiveState ω σ) :
    setup.bus.publish event.1.eventType event state = (.ok (), setup.handle state event) := by
  rcases event with ⟨candle | stale, draw⟩ <;> rfl

/-- The bus never raises, and every event is handled in turn. -/
theorem publish_eq : setup.publish state moved draws =
    (.ok (), runSteps setup.handle (state.move moved) (drawn moved.2 draws)) :=
  EventBus.publishAll_of_contained (publish_bus setup) _ _

/-- Handling an event leaves the feed alone. -/
theorem feedView_handle (setup : LiveSession ω) (state : LiveState ω σ) (event : BusEvent) :
    feedView (setup.handle state event) = feedView state := by
  rcases event with ⟨candle | stale, draw⟩ <;> rfl

theorem task_handle (setup : LiveSession ω) (state : LiveState ω σ) (event : BusEvent) :
    (setup.handle state event).task = state.task := by
  rcases event with ⟨candle | stale, draw⟩ <;> rfl

theorem feedView_handled (events : List BusEvent) :
    feedView (runSteps setup.handle state events) = feedView state :=
  view_runSteps (feedView_handle setup) state events

theorem task_handled (events : List BusEvent) :
    (runSteps setup.handle state events).task = state.task :=
  view_runSteps (task_handle setup) state events

/-- Handling an event is a step of the orchestrator, or none. -/
theorem handle_projects (setup : LiveSession ω) : Projects (setup.handle (σ := σ))
    setup.orchestrator.step LiveState.session setup.busLabels := by
  rintro state ⟨candle | stale, draw⟩ <;> rfl

theorem session_publish : (setup.publish state moved draws).2.session =
    runSteps setup.orchestrator.step state.session (setup.delivered state moved draws) := by
  rw [publish_eq]
  exact (handle_projects setup).run _ _

theorem feedView_publish : feedView (setup.publish state moved draws).2 =
    (feedView state).publish moved := by
  rw [publish_eq]
  exact feedView_handled _

/-- A feed that goes stale says nothing to the orchestrator. -/
theorem delivered_checkStaleness (feed : LiveFeed) (now : ℤ) :
    setup.delivered state (feed.checkStaleness now) draws = [] := by
  rw [LiveFeed.checkStaleness]
  split_ifs <;> rfl

end Bus

/-- Every event is a run of the orchestrator. -/
theorem session_projects (setup : LiveSession ω) : Projects (setup.step (σ := σ))
    setup.orchestrator.step LiveState.session setup.sessionLabels := by
  intro state event
  cases event with
  | tick quote draws =>
      simp only [step, sessionLabels]
      split_ifs with running
      · rw [publish_eq, ← session_publish, publish_eq]
      · rfl
  | streamEnds | streamRaises error =>
      simp only [step]
      split_ifs <;> rfl
  | schedulerStart now begins | sessionStart now begins =>
      simp only [step, startFeed]
      split_ifs <;> rfl
  | sessionStop draws =>
      simp only [step, stopFeed, sessionLabels]
      rcases state.task with _ | _ | _ | error
      · rfl
      · exact session_publish
      · exact session_publish
      · rfl
  | housekeeping clock now =>
      simp only [step, housekeeping]
      split_ifs with returns
      · rw [session_publish, delivered_checkStaleness]
        rfl
      · rfl
  | trip reason detail now => rfl
  | reset reason => rfl
  | outside act => rfl

theorem feedTask_eq_running {task : Option LiveTask} :
    task.map LiveTask.feedTask = some .running ↔ task = some .running := by
  rcases task with _ | _ | _ | error <;> simp [LiveTask.feedTask]

theorem feedView_startFeed (setup : LiveSession ω) (state : LiveState ω σ) (begins : ℤ) :
    feedView (setup.startFeed state begins) =
      (feedView state).step (.startFeed (setup.calendar.isOpenAt begins)) := by
  have same : (feedView state).task = some .running ↔ state.task = some .running :=
    feedTask_eq_running
  simp only [startFeed, FeedSession.step, same]
  split_ifs <;> rfl

/-- Every event is a run of the feed. -/
theorem feedView_projects (setup : LiveSession ω) : Projects (setup.step (σ := σ))
    FeedSession.step feedView setup.feedLabels := by
  intro state event
  cases event with
  | tick quote draws =>
      have same : (feedView state).task = some .running ↔ state.task = some .running :=
        feedTask_eq_running
      simp only [step, feedLabels, runSteps, List.foldl_cons, List.foldl_nil, FeedSession.step, same]
      split_ifs with running
      · rw [publish_eq, ← feedView_publish, publish_eq]
        rfl
      · rfl
  | streamEnds | streamRaises error =>
      simp only [step, feedLabels]
      split_ifs with running
      · simp only [feedView, running]
        rfl
      · rfl
  | schedulerStart now begins | sessionStart now begins =>
      simp only [step, feedLabels]
      split_ifs
      · exact feedView_startFeed setup state begins
      · rfl
  | sessionStop draws =>
      simp only [step, stopFeed, feedLabels]
      rcases holds : state.task with _ | _ | _ | error
      · simp [runSteps, FeedSession.step, feedView, holds]
      · simp only [feedView_publish]
        simp [runSteps, FeedSession.step, feedView, holds]
      · simp only [feedView_publish]
        simp [runSteps, FeedSession.step, feedView, holds]
      · rfl
  | housekeeping clock now =>
      simp only [step, housekeeping, feedLabels]
      split_ifs
      · exact feedView_publish
      · rfl
  | trip reason detail now => rfl
  | reset reason => rfl
  | outside act => rfl

/-! ## The candles between them -/

end LiveSession

/-- What the orchestrator reads of a candle. -/
def CandleReceived.candle (candle : CandleReceived) : Candle := ⟨candle.instrumentKey, candle.close⟩

/-- The candle of an event. -/
def SessionEvent.received : SessionEvent ω → Option Candle
  | .candle received _ _ => some received
  | .housekeeping _ | .trip .. | .reset _ | .outside _ => none

/-- The candles of published events, as the orchestrator reads them. -/
def publishedCandles (published : List FeedEvent) : List Candle :=
  (published.filterMap FeedEvent.candle).map CandleReceived.candle

theorem publishedCandles_append (first second : List FeedEvent) :
    publishedCandles (first ++ second) = publishedCandles first ++ publishedCandles second := by
  simp [publishedCandles]

theorem publishedCandles_checkStaleness (feed : LiveFeed) (now : ℤ) :
    publishedCandles (feed.checkStaleness now).2 = [] := by
  rw [LiveFeed.checkStaleness]
  split_ifs <;> rfl

namespace LiveSession

variable {setup : LiveSession ω} {state : LiveState ω σ} {moved : LiveFeed × List FeedEvent}
  {draws : ℕ → Draw}

/-- Handled events deliver their candles. -/
theorem received_handled (setup : LiveSession ω) (state : LiveState ω σ)
    (events : List BusEvent) :
    (projected setup.handle setup.busLabels state events).filterMap SessionEvent.received =
      publishedCandles (events.map Prod.fst) := by
  induction events generalizing state with
  | nil => rfl
  | cons event events ih =>
      rw [projected_cons, List.filterMap_append, ih]
      rcases event with ⟨candle | stale, draw⟩ <;> rfl

theorem received_delivered : (setup.delivered state moved draws).filterMap SessionEvent.received =
    publishedCandles moved.2 := by
  rw [delivered, received_handled, drawn, List.map_map]
  exact congrArg publishedCandles (List.zipIdx_map_fst 0 moved.2)

theorem published_publish :
    (setup.publish state moved draws).2.published = state.published ++ moved.2 :=
  congrArg FeedSession.published feedView_publish

/-- The candles that an event publishes are the ones that it delivers to the orchestrator. -/
theorem published_step (setup : LiveSession ω) (state : LiveState ω σ) (event : LiveEvent ω) :
    publishedCandles (setup.step state event).published = publishedCandles state.published ++
      (setup.sessionLabels state event).filterMap SessionEvent.received := by
  have nothing : publishedCandles state.published = publishedCandles state.published ++ [] :=
    (List.append_nil _).symm
  cases event with
  | tick quote draws =>
      simp only [step, sessionLabels]
      split_ifs with running
      · have published : (setup.publish state (state.feed.onTick quote) draws).2.published =
            state.published ++ (state.feed.onTick quote).2 := published_publish
        rw [received_delivered, ← publishedCandles_append, ← published, publish_eq]
      · exact nothing
  | streamEnds | streamRaises error =>
      simp only [step]
      split_ifs <;> exact nothing
  | schedulerStart now begins | sessionStart now begins =>
      simp only [step, startFeed]
      split_ifs <;> exact nothing
  | sessionStop draws =>
      simp only [step, stopFeed, sessionLabels]
      rcases state.task with _ | _ | _ | error
      · exact nothing
      · rw [received_delivered, published_publish, publishedCandles_append]
      · rw [received_delivered, published_publish, publishedCandles_append]
      · exact nothing
  | housekeeping clock now =>
      simp only [step, housekeeping]
      split_ifs
      · rw [published_publish, publishedCandles_append, publishedCandles_checkStaleness]
        rfl
      · exact nothing
  | trip reason detail now | reset reason | outside act => exact nothing

/-- Every run of the scheduled session is a run of the orchestrator and a run of the feed, and the
candles of the first are those that the second publishes, in their order. -/
theorem liveSession_refines (setup : LiveSession ω) (start : LiveState ω σ)
    (run : List (LiveEvent ω)) :
    let final := runSteps setup.step start run
    let trades := projected setup.step setup.sessionLabels start run
    final.session = runSteps setup.orchestrator.step start.session trades ∧
      feedView final = runSteps FeedSession.step (feedView start)
        (projected setup.step setup.feedLabels start run) ∧
      publishedCandles final.published =
        publishedCandles start.published ++ trades.filterMap SessionEvent.received := by
  refine ⟨(session_projects setup).run start run, (feedView_projects setup).run start run, ?_⟩
  induction run using List.reverseRecOn with
  | nil => exact (List.append_nil _).symm
  | append_singleton run event ih =>
      rw [runSteps_concat, published_step, ih, projected_concat, List.filterMap_append,
        List.append_assoc]

/-! ## When the feed runs -/

end LiveSession

namespace LiveEvent

/-- The event calls `start_feed`. -/
def Starts (calendar : NSECalendar) : LiveEvent ω → Prop
  | .schedulerStart now _ => calendar.isOpenAt now = true
  | .sessionStart now _ => calendar.isTradingDay (istDate now) = true
  | _ => False

/-- The event calls `start_feed`, and the market is open when the task begins to run. -/
def Opens (calendar : NSECalendar) : LiveEvent ω → Prop
  | .schedulerStart now begins => calendar.isOpenAt now = true ∧ calendar.isOpenAt begins = true
  | .sessionStart now begins =>
      calendar.isTradingDay (istDate now) = true ∧ calendar.isOpenAt begins = true
  | _ => False

/-- The stream comes to its end or raises, or the session is stopped. -/
def Ends : LiveEvent ω → Prop
  | .streamEnds | .streamRaises _ | .sessionStop _ => True
  | _ => False

end LiveEvent

namespace LiveSession

variable {setup : LiveSession ω} {start : LiveState ω σ} {run : List (LiveEvent ω)}

/-- The feed was started in market hours, and nothing has ended it since. -/
def InSession (calendar : NSECalendar) (run : List (LiveEvent ω)) : Prop :=
  Since (fun _ event => event.Opens calendar) LiveEvent.Ends run

/-- The stream raised in a session, and the feed was not started since. -/
def Failed (calendar : NSECalendar) (run : List (LiveEvent ω)) : Prop :=
  Since (fun before event => InSession calendar before ∧ ∃ error, event = .streamRaises error)
    (LiveEvent.Starts calendar) run

/-- What an event does to the task. -/
def taskAfter (setup : LiveSession ω) (task : Option LiveTask) : LiveEvent ω → Option LiveTask
  | .streamEnds => if task = some .running then some .returned else task
  | .streamRaises error => if task = some .running then some (.raised error) else task
  | .schedulerStart now begins =>
      if setup.calendar.isOpenAt now = true ∧ task ≠ some .running then
        some (if setup.calendar.isOpenAt begins then .running else .returned)
      else task
  | .sessionStart now begins =>
      if setup.calendar.isTradingDay (istDate now) = true ∧ task ≠ some .running then
        some (if setup.calendar.isOpenAt begins then .running else .returned)
      else task
  | .sessionStop _ =>
      match task with
      | some (.raised error) => some (.raised error)
      | _ => none
  | .tick .. | .housekeeping .. | .trip .. | .reset _ | .outside _ => task

theorem task_publish {state : LiveState ω σ} {moved : LiveFeed × List FeedEvent}
    {draws : ℕ → Draw} : (setup.publish state moved draws).2.task = state.task := by
  rw [publish_eq]
  exact task_handled _

theorem task_step (setup : LiveSession ω) (state : LiveState ω σ) (event : LiveEvent ω) :
    (setup.step state event).task = setup.taskAfter state.task event := by
  cases event with
  | tick quote draws =>
      simp only [step, taskAfter]
      split_ifs
      · rw [publish_eq]
        exact task_handled _
      · rfl
  | streamEnds | streamRaises error =>
      simp only [step, taskAfter]
      split_ifs <;> rfl
  | schedulerStart now begins | sessionStart now begins =>
      simp only [step, taskAfter, startFeed]
      split_ifs <;> simp_all
  | sessionStop draws =>
      simp only [step, taskAfter, stopFeed]
      rcases holds : state.task with _ | _ | _ | error
      · exact holds
      · exact task_publish
      · exact task_publish
      · exact holds
  | housekeeping clock now =>
      simp only [step, taskAfter, housekeeping]
      split_ifs
      · exact task_publish
      · rfl
  | trip reason detail now | reset reason | outside act => rfl

theorem taskAfter_running_iff (setup : LiveSession ω) (task : Option LiveTask)
    (event : LiveEvent ω) : setup.taskAfter task event = some .running ↔
      event.Opens setup.calendar ∨ (¬ event.Ends ∧ task = some .running) := by
  cases event with
  | streamEnds | streamRaises error =>
      simp only [taskAfter, LiveEvent.Opens, LiveEvent.Ends]
      split_ifs with running <;> simp [running]
  | schedulerStart now begins | sessionStart now begins =>
      simp only [taskAfter, LiveEvent.Opens, LiveEvent.Ends]
      split_ifs with starts opened <;> simp_all
  | sessionStop draws =>
      rcases task with _ | _ | _ | error <;> simp [taskAfter, LiveEvent.Opens, LiveEvent.Ends]
  | tick quote draws | housekeeping clock now | trip reason detail now | reset reason
  | outside act => simp [taskAfter, LiveEvent.Opens, LiveEvent.Ends]

theorem taskAfter_raised_iff (setup : LiveSession ω) (task : Option LiveTask)
    (event : LiveEvent ω) : (∃ error, setup.taskAfter task event = some (.raised error)) ↔
      (task = some .running ∧ ∃ error, event = .streamRaises error) ∨
        (¬ event.Starts setup.calendar ∧ ∃ error, task = some (.raised error)) := by
  cases event with
  | streamEnds | streamRaises error =>
      simp only [taskAfter, LiveEvent.Starts]
      split_ifs with running <;> simp [running]
  | schedulerStart now begins | sessionStart now begins =>
      simp only [taskAfter, LiveEvent.Starts]
      split_ifs with starts opened
      · simp [starts]
      · simp [starts]
      · rw [not_and, not_not] at starts
        constructor
        · rintro ⟨error, raised⟩
          refine .inr ⟨fun started => ?_, error, raised⟩
          simp [starts started] at raised
        · rintro (⟨_, error, same⟩ | ⟨_, raised⟩)
          · cases same
          · exact raised
  | sessionStop draws =>
      rcases task with _ | _ | _ | error <;> simp [taskAfter, LiveEvent.Starts]
  | tick quote draws | housekeeping clock now | trip reason detail now | reset reason
  | outside act => simp [taskAfter, LiveEvent.Starts]

/-- The task runs exactly in a session. -/
theorem task_running_iff (fresh : start.task = none) (run : List (LiveEvent ω)) :
    (runSteps setup.step start run).task = some .running ↔ InSession setup.calendar run := by
  induction run using List.reverseRecOn with
  | nil => simp [runSteps, fresh, InSession]
  | append_singleton run event ih =>
      rw [runSteps_concat, task_step, taskAfter_running_iff, ih, InSession, InSession, since_concat]

/-- The task has raised exactly if its stream did, and nothing started it since. -/
theorem task_raised_iff (fresh : start.task = none) (run : List (LiveEvent ω)) :
    (∃ error, (runSteps setup.step start run).task = some (.raised error)) ↔
      Failed setup.calendar run := by
  induction run using List.reverseRecOn with
  | nil => simp [runSteps, fresh, Failed]
  | append_singleton run event ih =>
      rw [runSteps_concat, task_step, taskAfter_raised_iff, ih, task_running_iff fresh, Failed,
        Failed, since_concat]

theorem stopFeed_ok_iff (setup : LiveSession ω) (state : LiveState ω σ) (draws : ℕ → Draw) :
    (setup.stopFeed state draws).1 = .ok () ↔ ¬ ∃ error, state.task = some (.raised error) := by
  rw [stopFeed]
  rcases state.task with _ | _ | _ | error
  · simp
  · simp [publish_eq]
  · simp [publish_eq]
  · simp

/-- Whatever the order of the jobs, ticks and failures: the feed takes a tick exactly in a session,
which a job opened in market hours and nothing has ended since. Outside of it a tick changes
nothing. And the stop of a session fails, without a flush, exactly after a failure of the stream
that no start has followed. -/
theorem feed_lifecycle (fresh : start.task = none) (run : List (LiveEvent ω)) :
    let final := runSteps setup.step start run
    (final.task = some .running ↔ InSession setup.calendar run) ∧
      (InSession setup.calendar run → ∀ quote draws,
        (setup.step final (.tick quote draws)).feed = (final.feed.onTick quote).1) ∧
      (¬ InSession setup.calendar run → ∀ quote draws,
        setup.step final (.tick quote draws) = final) ∧
      (Failed setup.calendar run → ∀ draws, (setup.stopFeed final draws).1 ≠ .ok () ∧
        setup.step final (.sessionStop draws) = final) ∧
      (¬ Failed setup.calendar run → ∀ draws, (setup.stopFeed final draws).1 = .ok () ∧
        (setup.step final (.sessionStop draws)).task = none) := by
  intro final
  have runs : final.task = some .running ↔ InSession setup.calendar run :=
    task_running_iff fresh run
  have fails : (∃ error, final.task = some (.raised error)) ↔ Failed setup.calendar run :=
    task_raised_iff fresh run
  refine ⟨runs, ?_, ?_, ?_, ?_⟩
  · intro session quote draws
    rw [step, if_pos (runs.mpr session), publish_eq]
    exact congrArg FeedSession.feed (feedView_handled _)
  · intro outside quote draws
    rw [step, if_neg (mt runs.mp outside)]
  · intro failed draws
    rcases fails.mpr failed with ⟨error, raised⟩
    constructor
    · exact fun ok => (stopFeed_ok_iff setup final draws).mp ok ⟨error, raised⟩
    · simp [step, stopFeed, raised]
  · intro sound draws
    have unraised := mt fails.mp sound
    refine ⟨(stopFeed_ok_iff setup final draws).mpr unraised, ?_⟩
    rw [task_step, taskAfter]
    exact fun error raised => unraised ⟨error, raised⟩

/-- A paper session without holidays. -/
def sample : LiveSession (List String) where
  orchestrator := Orchestrator.sampleSession .paper
  calendar := ⟨∅⟩
  sqrt := id

/-- New bars of the sample instrument. -/
def infyBars : CandleAggregator :=
  { CandleAggregator.minuteBars with instrumentKey := "NSE_EQ|INFY" }

/-- A strategy that never decides anything. -/
def idle : Strategy Unit where
  warmupBars := 1
  requiredIndicators := []
  distinct := .nil
  onCandle _ memory := pure (none, memory)

/-- The sample session before its first event. -/
def sampleState : LiveState (List String) Unit where
  session := Orchestrator.sampleStart
  runners _ := { strategy := idle, indicators := ⟨[], ∅, ∅⟩, memory := () }
  feed := { aggregators := [infyBars], staleness := { threshold := 30000000 } }

/-- Ten o'clock in IST on the first Monday of 1970. -/
def mondayTen : ℤ := 4 * dayUs + 4 * hourUs + 30 * minuteUs

/-- A session that takes a tick and then loses its stream. -/
def lostSession : List (LiveEvent (List String)) :=
  [.sessionStart mondayTen mondayTen,
    .tick ⟨"NSE_EQ|INFY", 100, 10, mondayTen⟩ fun _ => ⟨0, "", "", 0⟩,
    .streamRaises (.runtimeError "closed")]

/-- The tick is taken, and after the failure the stop raises and changes nothing. -/
theorem feed_lifecycle_sample :
    (runSteps sample.step sampleState (lostSession.take 1)).task = some .running ∧
      (runSteps sample.step sampleState (lostSession.take 2)).feed.staleness.lastTickAt =
        some mondayTen ∧
      ∀ draws, (sample.stopFeed (runSteps sample.step sampleState lostSession) draws).1 ≠ .ok () ∧
        sample.step (runSteps sample.step sampleState lostSession) (.sessionStop draws) =
          runSteps sample.step sampleState lostSession := by
  have opens : (LiveEvent.sessionStart mondayTen mondayTen : LiveEvent (List String)).Opens
      sample.calendar := ⟨by decide +kernel, by decide +kernel⟩
  have opened : InSession sample.calendar (lostSession.take 1) :=
    ⟨[], _, [], rfl, opens, by simp⟩
  have ticked : InSession sample.calendar (lostSession.take 2) :=
    ⟨[], _, [_], rfl, opens, by simp [LiveEvent.Ends]⟩
  have failed : Failed sample.calendar lostSession :=
    ⟨lostSession.take 2, _, [], rfl, ⟨ticked, _, rfl⟩, by simp⟩
  rcases @feed_lifecycle _ _ sample sampleState rfl (lostSession.take 1) with ⟨runs, takes, _⟩
  refine ⟨runs.mpr opened, ?_, (feed_lifecycle rfl lostSession).2.2.2.1 failed⟩
  change (sample.step (runSteps sample.step sampleState (lostSession.take 1))
    (.tick ⟨"NSE_EQ|INFY", 100, 10, mondayTen⟩ fun _ => ⟨0, "", "", 0⟩)).feed.staleness.lastTickAt =
      some mondayTen
  rw [takes opened]
  rfl

end LiveSession

end PersonalTrade
