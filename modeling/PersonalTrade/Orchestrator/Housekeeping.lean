import PersonalTrade.Data.Staleness
import PersonalTrade.Orchestrator.Exposure

/-!
# Housekeeping

`run_housekeeping` as a whole: the broker step of a tick in a transaction of its own, and then
the check for staleness, both under one handler.
-/

namespace PersonalTrade

/-- The `FeedStale` of an event. -/
def FeedEvent.stale : FeedEvent → Option FeedStale
  | .candleReceived _ => none
  | .feedStale stale => some stale

/-- The `FeedStale` events published so far. -/
def FeedSession.staleEvents (session : FeedSession) : List FeedStale :=
  session.published.filterMap FeedEvent.stale

/-- A session with its feed, and whether `FeedStale` was published since the last tick received. -/
structure WatchedSession (ω : Type) where
  session : SessionState ω
  feed : FeedSession
  reported : Bool := false

/-- What happens to it; a housekeeping tick reads the clock for the check for staleness. -/
inductive WatchedEvent (ω : Type) where
  | feed (label : FeedLabel)
  | session (event : SessionEvent ω) (now : ℤ)

namespace WatchedSession

variable {ω : Type}

/-- A label of the feed. -/
def observe (state : WatchedSession ω) (label : FeedLabel) : WatchedSession ω :=
  let feed := state.feed.step label
  { state with
    feed
    reported := (state.feed.tradeTime label).isNone &&
      (state.reported || state.feed.staleEvents.length < feed.staleEvents.length) }

end WatchedSession

namespace Orchestrator

variable {ω : Type}

/-- The broker step of a housekeeping tick raises nothing. -/
def BrokerStepReturns (orchestrator : Orchestrator ω) (clock : ℕ → ℤ) (state : SessionState ω) :
    Prop :=
  ((orchestrator.housekeep state.quotes clock).commit state.db state.world).1.isOk = true

instance (orchestrator : Orchestrator ω) (clock : ℕ → ℤ) (state : SessionState ω) :
    Decidable (orchestrator.BrokerStepReturns clock state) := inferInstanceAs (Decidable (_ = true))

/-- One event; only a housekeeping tick whose broker step returns checks for staleness. -/
def watchedStep (orchestrator : Orchestrator ω) (state : WatchedSession ω) :
    WatchedEvent ω → WatchedSession ω
  | .feed label => state.observe label
  | .session event now =>
      let stepped := { state with session := orchestrator.step state.session event }
      match event with
      | .housekeeping clock =>
          if orchestrator.BrokerStepReturns clock state.session then
            stepped.observe (.checkStaleness now)
          else stepped
      | _ => stepped

end Orchestrator

/-- The events that a label adds. -/
theorem FeedSession.staleEvents_step (session : FeedSession) (label : FeedLabel) :
    (session.step label).staleEvents = session.staleEvents ++
      match label with
      | .checkStaleness now =>
          if session.feed.staleness.isStale now && !session.feed.staleNotified then
            [⟨none, session.feed.staleness.lastTickAt, now⟩]
          else []
      | _ => [] := by
  have candles : ∀ (feed : LiveFeed) (arrival : Arrival Quote),
      (feed.completed arrival).filterMap FeedEvent.stale = [] := by
    intro feed arrival
    simp [LiveFeed.completed, publishCandle, FeedEvent.stale, List.filterMap_eq_nil_iff]
  cases label with
  | tick quote =>
      simp only [step]
      split_ifs
      · simp [publish, staleEvents, LiveFeed.onTick, candles]
      · simp
  | streamEnds => simp [step, staleEvents]
  | startFeed marketOpen =>
      simp only [step]
      split_ifs <;> simp [staleEvents]
  | stopFeed =>
      simp only [step]
      split
      · simp
      · simp [publish, staleEvents, LiveFeed.flush, candles]
  | flush => simp [step, publish, staleEvents, LiveFeed.flush, candles]
  | checkStaleness now =>
      simp only [step, publish, staleEvents, LiveFeed.checkStaleness]
      split_ifs <;> simp [FeedEvent.stale]

namespace WatchedSession

variable {ω : Type} {state : WatchedSession ω}

/-- The notice of the feed says whether it reported. -/
def Tracked (state : WatchedSession ω) : Prop := state.feed.feed.staleNotified = state.reported

theorem Tracked.observe (tracked : state.Tracked) (label : FeedLabel) :
    (state.observe label).Tracked := by
  have events := state.feed.staleEvents_step label
  have notified := state.feed.staleNotified_step label
  rw [Tracked] at tracked
  rw [Tracked, WatchedSession.observe, notified, events]
  cases label with
  | checkStaleness now =>
      cases stale : state.feed.feed.staleness.isStale now <;>
        cases before : state.reported <;>
          simp [FeedSession.tradeTime, tracked, stale, before]
  | _ => simp [tracked, Bool.and_comm]

end WatchedSession

namespace Orchestrator

variable {ω : Type} {orchestrator : Orchestrator ω} {state start : WatchedSession ω}

theorem tracked_step (tracked : state.Tracked) (event : WatchedEvent ω) :
    (orchestrator.watchedStep state event).Tracked := by
  cases event with
  | feed label => exact tracked.observe label
  | session event now =>
      have stepped : { state with
          session := orchestrator.step state.session event : WatchedSession ω }.Tracked := tracked
      cases event with
      | housekeeping clock =>
          simp only [watchedStep]
          split_ifs
          · exact stepped.observe _
          · exact stepped
      | _ => exact stepped

/-- The notice of the feed is tracked in every run from a new feed. -/
theorem tracked_of_reaches {subscriptions : List (String × List Interval)} {threshold : ℤ}
    {feed : LiveFeed} (created : LiveFeed.create subscriptions threshold = .ok feed)
    {session : SessionState ω}
    (reached : Reaches orchestrator.watchedStep (fun _ _ => True) { session, feed := { feed } }
      state) : state.Tracked := by
  refine reached.invariant ?_ fun state event tracked _ => tracked_step tracked event
  rw [LiveFeed.create] at created
  split_ifs at created
  rcases except_bind_eq_ok.mp created with ⟨aggregators, -, ok⟩
  cases ok
  rfl

end Orchestrator

/-- A housekeeping tick that finds the feed stale, with no `FeedStale` since the last tick received,
publishes it if and only if its broker step returns. -/
theorem housekeeping_reports_iff {ω : Type} (orchestrator : Orchestrator ω)
    {subscriptions : List (String × List Interval)} {threshold : ℤ} {feed : LiveFeed}
    (created : LiveFeed.create subscriptions threshold = .ok feed) {session : SessionState ω}
    {state : WatchedSession ω}
    (reached : Reaches orchestrator.watchedStep (fun _ _ => True) { session, feed := { feed } }
      state)
    {clock : ℕ → ℤ} {now : ℤ} (stale : state.feed.feed.staleness.isStale now = true)
    (silent : state.reported = false) :
    (orchestrator.watchedStep state (.session (.housekeeping clock) now)).feed.staleEvents =
        state.feed.staleEvents ++ [⟨none, state.feed.feed.staleness.lastTickAt, now⟩] ↔
      orchestrator.BrokerStepReturns clock state.session := by
  have tracked : state.feed.feed.staleNotified = false :=
    (Orchestrator.tracked_of_reaches created reached).trans silent
  have events := state.feed.staleEvents_step (.checkStaleness now)
  simp only [stale, tracked, Bool.not_false, Bool.and_self, if_true] at events
  simp only [Orchestrator.watchedStep]
  split_ifs with returns
  · exact iff_of_true events returns
  · refine iff_of_false ?_ returns
    simp

/-- The sample session at its start, with a feed that is stale after thirty microseconds. -/
def watchedStart : WatchedSession (List String) :=
  { session := Orchestrator.sampleStart, feed := { feed := quickFeed } }

theorem housekeeping_reports_iff_sample :
    ((Orchestrator.sampleSession .paper).watchedStep watchedStart
      (.session (.housekeeping fun _ => 0) 100)).feed.staleEvents = [⟨none, none, 100⟩] := by
  have returns : (Orchestrator.sampleSession .paper).BrokerStepReturns (fun _ => 0) Orchestrator.sampleStart := by
    decide +kernel
  exact (housekeeping_reports_iff (Orchestrator.sampleSession .paper)
    (rfl : LiveFeed.create [("NSE_EQ|X", [.m1])] 30 = .ok quickFeed) .refl rfl rfl).mpr returns

/-- The sample session with servers whose answer to a poll has a list where the order should be. -/
def garbledSession : Orchestrator (List String) :=
  { Orchestrator.sampleSession .live with
    upstoxClient := some fun call world =>
      match call with
      | .getOrderDetails _ => (.ok (.positions []), world)
      | call => Orchestrator.sampleUpstox call world }

/-- A tick, a LONG candle, and housekeeping a hundred microseconds later. -/
def garbledRun : List (WatchedEvent (List String)) :=
  [.feed (.startFeed true), .feed (.tick ⟨"NSE_EQ|INFY", 100, 10, 0⟩),
    .session (Orchestrator.signalCandle "NSE_EQ|INFY" 100 .long "a") 1]

/-- The poll raises, and the stale feed is not reported. -/
theorem garbledPoll_masks :
    (runSteps garbledSession.watchedStep watchedStart garbledRun).feed.feed.staleness.isStale 100 =
        true ∧
      (runSteps garbledSession.watchedStep watchedStart garbledRun).reported = false ∧
      (runSteps garbledSession.watchedStep watchedStart
        (garbledRun ++ [.session (.housekeeping fun _ => 0) 100])).feed.staleEvents = [] := by
  refine ⟨?_, ?_, ?_⟩ <;> decide +kernel

end PersonalTrade
