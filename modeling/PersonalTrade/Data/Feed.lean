import Mathlib.Data.List.AList
import PersonalTrade.Data.Aggregator
import PersonalTrade.Library.Except
import PersonalTrade.Library.Run

/-!
# Live feed

`data/live/feed.py` and `data/live/staleness.py`, with the task that
`orchestrator/service.py` runs the feed in: ticks reach the feed while the task reads
the stream, and stopping the task flushes the feed.
-/

namespace PersonalTrade

/-- `CandleReceived`; as in the rows of a frame, `ts` counts milliseconds in UTC. -/
structure CandleReceived where
  instrumentKey : String
  interval : Interval
  ts : ℤ
  openPrice : ℚ
  high : ℚ
  low : ℚ
  close : ℚ
  volume : ℤ
deriving DecidableEq, Repr

structure FeedStale where
  instrumentKey : Option String
  lastTickAt : Option ℤ
  detectedAt : ℤ
deriving DecidableEq, Repr

/-- The events that the feed publishes. -/
inductive FeedEvent where
  | candleReceived (candle : CandleReceived)
  | feedStale (stale : FeedStale)
deriving DecidableEq, Repr

/-- The candle of an event. -/
def FeedEvent.candle : FeedEvent → Option CandleReceived
  | .candleReceived candle => some candle
  | .feedStale _ => none

structure StalenessDetector where
  threshold : ℤ
  lastTickAt : Option ℤ := none

/-- `record_tick`. -/
def StalenessDetector.recordTick (detector : StalenessDetector) (time : ℤ) : StalenessDetector :=
  { detector with lastTickAt := some time }

/-- `is_stale`. -/
def StalenessDetector.isStale (detector : StalenessDetector) (now : ℤ) : Bool :=
  match detector.lastTickAt with
  | none => true
  | some lastTickAt => detector.threshold ≤ now - lastTickAt

/-- `LiveFeed`, as far as it aggregates and watches for staleness. The dictionary of
aggregator lists is the list of its aggregators: the entry of an instrument is made of
those that carry its key. -/
structure LiveFeed where
  aggregators : List CandleAggregator
  staleness : StalenessDetector
  staleNotified : Bool := false

/-- The instruments and intervals that a dictionary of subscriptions, given by its items,
asks for. -/
def subscribed (subscriptions : List (String × List Interval)) : List (String × Interval) :=
  subscriptions.flatMap fun subscription => subscription.2.map fun interval =>
    (subscription.1, interval)

/-- The event of a bar, whose start is a whole second. -/
def AggregatedCandle.received (candle : AggregatedCandle) : CandleReceived :=
  { candle with ts := candle.ts / 1000 }

/-- `_publish_candle`. -/
def publishCandle (candle : AggregatedCandle) : FeedEvent := .candleReceived candle.received

namespace LiveFeed

/-- `LiveFeed.__init__`. -/
def create (subscriptions : List (String × List Interval)) (threshold : ℤ) :
    Except PyError LiveFeed :=
  if subscriptions = [] then .error .emptySubscriptions
  else do
    let aggregators ← (subscribed subscriptions).mapM fun bars =>
      CandleAggregator.create bars.1 bars.2
    pure { aggregators, staleness := { threshold } }

/-- The aggregators that an arrival reaches: those of the tick's instrument, or all. -/
def reaches (arrival : Arrival Quote) (aggregator : CandleAggregator) : Bool :=
  match arrival with
  | .item quote => aggregator.instrumentKey = quote.instrumentKey
  | .flush => true

/-- The aggregators after an arrival. -/
def aggregated (feed : LiveFeed) (arrival : Arrival Quote) : LiveFeed :=
  { feed with
    aggregators := feed.aggregators.map fun aggregator =>
      if reaches arrival aggregator then (aggregator.turn arrival).1 else aggregator }

/-- The candles published at an arrival. -/
def completed (feed : LiveFeed) (arrival : Arrival Quote) : List FeedEvent :=
  (feed.aggregators.filterMap fun aggregator =>
    if reaches arrival aggregator then (aggregator.turn arrival).2 else none).map publishCandle

/-- `on_tick`. -/
def onTick (feed : LiveFeed) (quote : Quote) : LiveFeed × List FeedEvent :=
  let recorded : LiveFeed := { feed with
    staleness := feed.staleness.recordTick quote.ltt, staleNotified := false }
  (recorded.aggregated (.item quote), recorded.completed (.item quote))

def flush (feed : LiveFeed) : LiveFeed × List FeedEvent :=
  (feed.aggregated .flush, feed.completed .flush)

/-- `check_staleness`, without its answer. -/
def checkStaleness (feed : LiveFeed) (now : ℤ) : LiveFeed × List FeedEvent :=
  if feed.staleness.isStale now && !feed.staleNotified then
    ({ feed with staleNotified := true },
      [.feedStale ⟨none, feed.staleness.lastTickAt, now⟩])
  else (feed, [])

end LiveFeed

/-- The task that `start_feed` creates. -/
inductive FeedTask where
  | running
  | done
deriving DecidableEq, Repr

/-- What happens to a feed: a tick or the end of the stream that its task reads, calls of
`start_feed` and `stop_feed`, of `flush` and of `check_staleness`. -/
inductive FeedLabel where
  | tick (quote : Quote)
  | streamEnds
  | startFeed (marketOpen : Bool)
  | stopFeed
  | flush
  | checkStaleness (now : ℤ)

/-- A feed with its task and the events published so far. -/
structure FeedSession where
  feed : LiveFeed
  task : Option FeedTask := none
  published : List FeedEvent := []

namespace FeedSession

/-- The feed moves and publishes. -/
def publish (session : FeedSession) (moved : LiveFeed × List FeedEvent) : FeedSession :=
  { session with feed := moved.1, published := session.published ++ moved.2 }

/-- One label. -/
def step (session : FeedSession) : FeedLabel → FeedSession
  | .tick quote =>
      if session.task = some .running then session.publish (session.feed.onTick quote)
      else session
  | .streamEnds =>
      { session with task := session.task.map fun _ => .done }
  | .startFeed marketOpen =>
      if session.task = some .running then session
      else { session with task := some (if marketOpen then .running else .done) }
  | .stopFeed =>
      match session.task with
      | none => session
      | some _ => ({ session with task := none }).publish session.feed.flush
  | .flush => session.publish session.feed.flush
  | .checkStaleness now => session.publish (session.feed.checkStaleness now)

/-- What reaches the aggregators at a label. -/
def arrival (session : FeedSession) : FeedLabel → Option (Arrival Quote)
  | .tick quote => if session.task = some .running then some (.item quote) else none
  | .stopFeed => session.task.map fun _ => .flush
  | .flush => some .flush
  | .streamEnds | .startFeed _ | .checkStaleness _ => none

/-- What reaches the aggregators along a run. -/
def arrivals (session : FeedSession) (labels : List FeedLabel) : List (Arrival Quote) :=
  (runTrace step session labels).filterMap fun turn => turn.1.arrival turn.2

/-- The candles published for an instrument and interval. -/
def candles (session : FeedSession) (bars : String × Interval) : List CandleReceived :=
  (session.published.filterMap FeedEvent.candle).filter fun candle =>
    (candle.instrumentKey, candle.interval) = bars

end FeedSession

/-- An arrival concerns an instrument. -/
def concerns (instrumentKey : String) : Arrival Quote → Bool
  | .item quote => instrumentKey = quote.instrumentKey
  | .flush => true

/-- The arrivals that concern an instrument. -/
def arrivalsFor (instrumentKey : String) (arrivals : List (Arrival Quote)) :
    List (Arrival Quote) :=
  arrivals.filter (concerns instrumentKey)

/-! ## The bars of a feed -/

/-- The aggregator has been fed the arrivals of its instrument. -/
structure TracksBars (arrivals : List (Arrival Quote)) (bars : String × Interval)
    (aggregator : CandleAggregator) : Prop where
  key : (aggregator.instrumentKey, aggregator.interval) = bars
  holds : aggregator.Holds
    (openGroup (bucketOf aggregator.seconds) (arrivalsFor aggregator.instrumentKey arrivals))

/-- The bar that an arrival completes for bars of one kind. -/
def emission (model : CandleAggregator) (arrivals : List (Arrival Quote))
    (arrival : Arrival Quote) : Option AggregatedCandle :=
  if concerns model.instrumentKey arrival then
    (gather (bucketOf model.seconds)
      (openGroup (bucketOf model.seconds) (arrivalsFor model.instrumentKey arrivals))
      arrival).2.map (barOf model)
  else none

theorem arrivalsFor_concat (instrumentKey : String) (arrivals : List (Arrival Quote))
    (arrival : Arrival Quote) : arrivalsFor instrumentKey (arrivals ++ [arrival]) =
      arrivalsFor instrumentKey arrivals ++
        if concerns instrumentKey arrival then [arrival] else [] := by
  rw [arrivalsFor, List.filter_append, List.filter_singleton, arrivalsFor, cond_eq_ite]

theorem reaches_eq_concerns (arrival : Arrival Quote) (aggregator : CandleAggregator) :
    LiveFeed.reaches arrival aggregator = concerns aggregator.instrumentKey arrival := by
  cases arrival <;> rfl

/-- The bars collected so far and the bar that an arrival completes. -/
theorem collected_arrivalsFor_concat (model : CandleAggregator) (arrivals : List (Arrival Quote))
    (arrival : Arrival Quote) :
    (collected (bucketOf model.seconds) []
        (arrivalsFor model.instrumentKey (arrivals ++ [arrival]))).map (barOf model) =
      (collected (bucketOf model.seconds) []
        (arrivalsFor model.instrumentKey arrivals)).map (barOf model) ++
        (emission model arrivals arrival).toList := by
  rw [arrivalsFor_concat, emission]
  split_ifs with concerned
  · rw [collected_concat, List.map_append, Option.toList_map]
  · rw [List.append_nil, Option.toList_none, List.append_nil]

namespace TracksBars

variable {arrivals : List (Arrival Quote)} {bars : String × Interval}
  {aggregator : CandleAggregator}

/-- The aggregator after an arrival that may or may not concern it. -/
theorem turn (tracks : TracksBars arrivals bars aggregator) (arrival : Arrival Quote) :
    TracksBars (arrivals ++ [arrival]) bars
      (if LiveFeed.reaches arrival aggregator then (aggregator.turn arrival).1
        else aggregator) := by
  rw [reaches_eq_concerns]
  split_ifs with concerned
  · have same := aggregator.sameBars_turn arrival
    constructor
    · rw [same.instrumentKey, same.interval, tracks.key]
    · rw [same.instrumentKey, same.seconds, arrivalsFor_concat, if_pos concerned,
        openGroup_concat]
      exact (CandleAggregator.turn_holds arrival tracks.holds).1
  · refine ⟨tracks.key, ?_⟩
    rw [arrivalsFor_concat, if_neg concerned, List.append_nil]
    exact tracks.holds

theorem turn_emits (tracks : TracksBars arrivals bars aggregator) (arrival : Arrival Quote) :
    (if LiveFeed.reaches arrival aggregator then (aggregator.turn arrival).2 else none) =
      emission aggregator arrivals arrival := by
  rw [reaches_eq_concerns, emission]
  split_ifs with concerned
  · exact (CandleAggregator.turn_holds arrival tracks.holds).2
  · rfl

end TracksBars

theorem emission_congr {model other : CandleAggregator} (same : model.SameBars other)
    (arrivals : List (Arrival Quote)) (arrival : Arrival Quote) :
    emission model arrivals arrival = emission other arrivals arrival := by
  rw [emission, emission, same.seconds, same.instrumentKey, same.barOf]

theorem key_of_mem_emission {model : CandleAggregator} {arrivals : List (Arrival Quote)}
    {arrival : Arrival Quote} {candle : AggregatedCandle}
    (mem : candle ∈ emission model arrivals arrival) :
    (candle.instrumentKey, candle.interval) = (model.instrumentKey, model.interval) := by
  rw [emission] at mem
  split_ifs at mem with concerned
  · rcases Option.map_eq_some_iff.mp mem with ⟨group, _, rfl⟩
    cases group <;> rfl
  · cases mem

/-- Among the bars that an arrival completes, those of one kind are as many as the
aggregators of that kind. -/
theorem filter_completed {arrivals : List (Arrival Quote)} {pairs : List (String × Interval)}
    {aggregators : List CandleAggregator} (model : CandleAggregator)
    (tracks : List.Forall₂ (TracksBars arrivals) pairs aggregators) (arrival : Arrival Quote) :
    (aggregators.filterMap fun aggregator =>
        if LiveFeed.reaches arrival aggregator then (aggregator.turn arrival).2 else none).filter
        (fun candle => (candle.instrumentKey, candle.interval) =
          (model.instrumentKey, model.interval)) =
      (emission model arrivals arrival).toList.flatMap
        (List.replicate (pairs.count (model.instrumentKey, model.interval))) := by
  induction tracks with
  | nil => cases emission model arrivals arrival <;> rfl
  | @cons bars aggregator pairs aggregators own rest ih =>
      rw [List.filterMap_cons, own.turn_emits arrival]
      by_cases ofKind : bars = (model.instrumentKey, model.interval)
      · have kind := own.key.trans ofKind
        rw [Prod.mk.injEq] at kind
        rw [emission_congr ⟨kind.1, kind.2⟩, ofKind, List.count_cons_self]
        cases completed : emission model arrivals arrival with
        | none => simpa [completed] using ih
        | some candle =>
            rw [completed] at ih
            simp only [Option.toList_some, List.flatMap_singleton] at ih ⊢
            rw [List.filter_cons_of_pos (by simpa using key_of_mem_emission completed), ih,
              List.replicate_succ]
      · rw [List.count_cons_of_ne (by simpa using ofKind)]
        cases completed : emission aggregator arrivals arrival with
        | none => exact ih
        | some candle =>
            have key := (key_of_mem_emission completed).trans own.key
            rw [List.filter_cons_of_neg (by rw [key]; simpa using ofKind)]
            exact ih

/-! ## The candles of a run -/

namespace FeedSession

/-- The state of a session after what has reached its aggregators. -/
structure Summary (pairs : List (String × Interval)) (arrivals : List (Arrival Quote))
    (session : FeedSession) : Prop where
  tracks : List.Forall₂ (TracksBars arrivals) pairs session.feed.aggregators
  published : ∀ model : CandleAggregator,
    session.candles (model.instrumentKey, model.interval) =
      ((collected (bucketOf model.seconds) []
        (arrivalsFor model.instrumentKey arrivals)).map (barOf model)).flatMap fun candle =>
          List.replicate (pairs.count (model.instrumentKey, model.interval)) candle.received
  kinds : ∀ candle ∈ session.published.filterMap FeedEvent.candle,
    (candle.instrumentKey, candle.interval) ∈ pairs

variable {pairs : List (String × Interval)} {arrivals : List (Arrival Quote)}
  {session : FeedSession}

theorem candles_publish (session : FeedSession) (moved : LiveFeed × List FeedEvent)
    (bars : String × Interval) :
    (session.publish moved).candles bars = session.candles bars ++
      (moved.2.filterMap FeedEvent.candle).filter fun candle =>
        (candle.instrumentKey, candle.interval) = bars := by
  simp only [candles, publish, List.filterMap_append, List.filter_append]

/-- What the aggregators publish at an arrival. -/
theorem Summary.arrives (summary : Summary pairs arrivals session) (arrival : Arrival Quote)
    {moved : LiveFeed × List FeedEvent}
    (aggregators : moved.1.aggregators = (session.feed.aggregated arrival).aggregators)
    (events : moved.2 = session.feed.completed arrival) :
    Summary pairs (arrivals ++ [arrival]) (session.publish moved) := by
  have received : (moved.2.filterMap FeedEvent.candle) =
      (session.feed.aggregators.filterMap fun aggregator =>
        if LiveFeed.reaches arrival aggregator then (aggregator.turn arrival).2
        else none).map AggregatedCandle.received := by
    rw [events, LiveFeed.completed, List.filterMap_map]
    exact List.filterMap_eq_map ▸ rfl
  constructor
  · simp only [publish, aggregators, LiveFeed.aggregated, List.forall₂_map_right_iff]
    exact summary.tracks.imp fun bars aggregator tracks => tracks.turn arrival
  · intro model
    have completed := filter_completed model summary.tracks arrival
    rw [candles_publish, received, List.filter_map, summary.published model,
      collected_arrivalsFor_concat, List.flatMap_append]
    congr 1
    refine (congrArg (List.map AggregatedCandle.received) completed).trans ?_
    rw [List.map_flatMap]
    simp only [List.map_replicate]
  · intro candle mem
    rw [publish, List.filterMap_append, List.mem_append, received] at mem
    rcases mem with old | new
    · exact summary.kinds candle old
    · rcases List.mem_map.mp new with ⟨completed, completedMem, rfl⟩
      rcases List.mem_filterMap.mp completedMem with ⟨aggregator, own, emitted⟩
      rcases (exists_of_forall₂ summary.tracks).2 aggregator own with ⟨kind, kindMem, tracks⟩
      rw [tracks.turn_emits arrival] at emitted
      rw [← tracks.key] at kindMem
      have key := key_of_mem_emission emitted
      rw [← key] at kindMem
      exact kindMem

theorem Summary.quiet (summary : Summary pairs arrivals session)
    {moved : LiveFeed × List FeedEvent}
    (aggregators : moved.1.aggregators = session.feed.aggregators)
    (events : moved.2.filterMap FeedEvent.candle = []) :
    Summary pairs arrivals (session.publish moved) := by
  constructor
  · simpa only [publish, aggregators] using summary.tracks
  · intro model
    rw [candles_publish, events, List.filter_nil, List.append_nil]
    exact summary.published model
  · rw [publish, List.filterMap_append, events, List.append_nil]
    exact summary.kinds

/-- One label extends what has reached the aggregators by its arrival. -/
theorem Summary.step (summary : Summary pairs arrivals session) (label : FeedLabel) :
    Summary pairs (arrivals ++ (session.arrival label).toList) (session.step label) := by
  cases label with
  | tick quote =>
      rw [FeedSession.step, FeedSession.arrival]
      split_ifs with running
      · exact summary.arrives (.item quote) rfl rfl
      · simpa using summary
  | streamEnds =>
      rw [FeedSession.arrival, Option.toList_none, List.append_nil]
      exact ⟨summary.tracks, summary.published, summary.kinds⟩
  | startFeed marketOpen =>
      rw [FeedSession.arrival, Option.toList_none, List.append_nil, FeedSession.step]
      by_cases running : session.task = some .running
      · rw [if_pos running]
        exact summary
      · rw [if_neg running]
        exact ⟨summary.tracks, summary.published, summary.kinds⟩
  | stopFeed =>
      rw [FeedSession.step, FeedSession.arrival]
      cases session.task with
      | none => simpa using summary
      | some task =>
          have stopped : Summary pairs arrivals { session with task := none } :=
            ⟨summary.tracks, summary.published, summary.kinds⟩
          exact stopped.arrives .flush rfl rfl
  | flush => exact summary.arrives .flush rfl rfl
  | checkStaleness now =>
      rw [FeedSession.arrival, Option.toList_none, List.append_nil, FeedSession.step,
        LiveFeed.checkStaleness]
      split_ifs with stale
      · exact summary.quiet rfl rfl
      · exact summary.quiet rfl rfl

theorem Summary.run (summary : Summary pairs [] session) (labels : List FeedLabel) :
    Summary pairs (session.arrivals labels) (runSteps FeedSession.step session labels) := by
  induction labels using List.reverseRecOn with
  | nil => exact summary
  | append_singleton labels label ih =>
      have extended := ih.step label
      have arrived : session.arrivals (labels ++ [label]) = session.arrivals labels ++
          ((runSteps FeedSession.step session labels).arrival label).toList := by
        rw [FeedSession.arrivals, runTrace_concat, List.filterMap_append]
        cases reached : (runSteps FeedSession.step session labels).arrival label <;>
          simp [FeedSession.arrivals, reached]
      rw [runSteps_concat, arrived]
      exact extended

end FeedSession

theorem CandleAggregator.tracks_of_create {bars : String × Interval}
    {aggregator : CandleAggregator} (created : create bars.1 bars.2 = .ok aggregator) :
    TracksBars [] bars aggregator := by
  rw [create] at created
  split at created
  · cases created
    exact ⟨rfl, .closed rfl⟩
  · cases created

theorem LiveFeed.summary_of_create {subscriptions : List (String × List Interval)}
    {threshold : ℤ} {feed : LiveFeed} (created : create subscriptions threshold = .ok feed) :
    FeedSession.Summary (subscribed subscriptions) [] { feed } := by
  rw [create] at created
  split_ifs at created with empty
  cases built : (subscribed subscriptions).mapM fun bars =>
    CandleAggregator.create bars.1 bars.2 with
  | error raised => simp [built, bind, Except.bind] at created
  | ok aggregators =>
      simp only [built, bind, Except.bind, pure, Except.pure, Except.ok.injEq] at created
      subst created
      constructor
      · exact (forall₂_of_mapM built).imp fun bars aggregator made =>
          CandleAggregator.tracks_of_create made
      · intro model
        rfl
      · exact fun candle mem => absurd mem List.not_mem_nil

/-- The candles have strictly increasing timestamps. -/
def Ascending (candles : List CandleReceived) : Prop :=
  candles.Pairwise fun earlier later => earlier.ts < later.ts

/-- Nothing is subscribed or has arrived, or it is subscribed once and the buckets of the
ticks never go back, nor come again after a flush. -/
def FedInOrder (pairs : List (String × Interval)) (bars : String × Interval)
    (arrivals : List (Arrival Quote)) : Prop :=
  pairs.count bars = 0 ∨ (∀ quote, .item quote ∉ arrivalsFor bars.1 arrivals) ∨
    (pairs.count bars = 1 ∧
      InOrder (bucketOf ((intervalSeconds bars.2).getD 0)) (arrivalsFor bars.1 arrivals))

/-- Buckets start at whole seconds, so that their milliseconds are in the same order. -/
theorem bucketOf_lt_iff {seconds : ℤ} {earlier later : Quote} :
    bucketOf seconds earlier / 1000 < bucketOf seconds later / 1000 ↔
      bucketOf seconds earlier < bucketOf seconds later := by
  simp only [bucketOf, bucketStartFor]
  omega

/-- Bars of successive groups have increasing timestamps. -/
theorem pairwise_barOf_iff (model : CandleAggregator) (arrivals : List (Arrival Quote)) :
    ((groups (bucketOf model.seconds) arrivals).map (barOf model)).Pairwise
        (fun earlier later => earlier.received.ts < later.received.ts) ↔
      InOrder (bucketOf model.seconds) arrivals := by
  rw [← pairwise_precedes_iff, List.pairwise_map]
  apply List.Pairwise.iff_of_mem
  intro earlier later earlierMem laterMem
  rcases List.exists_mem_of_ne_nil earlier (ne_nil_of_mem_groups earlierMem) with ⟨left, leftMem⟩
  rcases List.exists_mem_of_ne_nil later (ne_nil_of_mem_groups laterMem) with ⟨right, rightMem⟩
  have earlierTs : ∀ quote ∈ earlier, (barOf model earlier).ts = bucketOf model.seconds quote :=
    fun _ mem => CandleAggregator.ts_barOf (uniform_of_mem_groups earlierMem) mem
  have laterTs : ∀ quote ∈ later, (barOf model later).ts = bucketOf model.seconds quote :=
    fun _ mem => CandleAggregator.ts_barOf (uniform_of_mem_groups laterMem) mem
  constructor
  · intro before first firstMem last lastMem
    apply bucketOf_lt_iff.mp
    rw [← earlierTs first firstMem, ← laterTs last lastMem]
    exact before
  · intro precedes
    have before := bucketOf_lt_iff.mpr (precedes left leftMem right rightMem)
    rwa [← earlierTs left leftMem, ← laterTs right rightMem] at before

theorem ascending_replicate_iff (bars : List AggregatedCandle) (count : ℕ) :
    Ascending (bars.flatMap fun candle => List.replicate count candle.received) ↔
      count = 0 ∨ bars = [] ∨
        (count = 1 ∧
          bars.Pairwise fun earlier later => earlier.received.ts < later.received.ts) := by
  rcases count with _ | _ | count
  · have silent : bars.flatMap (fun candle => List.replicate 0 candle.received) = [] := by
      rw [List.flatMap_eq_nil_iff]
      exact fun candle _ => rfl
    rw [silent]
    exact iff_of_true .nil (.inl rfl)
  · have single : bars.flatMap (fun candle => List.replicate 1 candle.received) =
        bars.map AggregatedCandle.received := by
      simp only [List.replicate_one, List.map_eq_flatMap]
    rw [Ascending, single, List.pairwise_map]
    constructor
    · intro ascending
      exact .inr (.inr ⟨rfl, ascending⟩)
    · rintro (none | rfl | ⟨_, ascending⟩)
      · omega
      · exact .nil
      · exact ascending
  · -- a bar that is published twice does not succeed itself
    cases bars with
    | nil => simp [Ascending]
    | cons first rest => simp [Ascending, List.replicate_succ]

namespace FeedSession.Summary

variable {pairs : List (String × Interval)} {arrivals : List (Arrival Quote)}
  {session : FeedSession} {bars : String × Interval}

theorem candles_eq_nil (summary : Summary pairs arrivals session) (absent : bars ∉ pairs) :
    session.candles bars = [] := by
  rw [candles, List.filter_eq_nil_iff]
  intro candle mem kind
  have listed := summary.kinds candle mem
  rw [of_decide_eq_true kind] at listed
  exact absent listed

/-- The candles of a flushed session. -/
theorem ascending_iff (summary : Summary pairs (arrivals ++ [.flush]) session)
    {model : CandleAggregator} (key : (model.instrumentKey, model.interval) = bars) :
    Ascending (session.candles bars) ↔ FedInOrder pairs bars arrivals := by
  subst key
  have ended : arrivalsFor model.instrumentKey (arrivals ++ [.flush]) =
      arrivalsFor model.instrumentKey arrivals ++ [.flush] :=
    arrivalsFor_concat _ _ _
  have seconds : (intervalSeconds model.interval).getD 0 = model.seconds := by
    rw [CandleAggregator.seconds, Option.get_eq_getD]
  rw [summary.published model, ended, collected_flush, ascending_replicate_iff,
    List.map_eq_nil_iff, groups_eq_nil, pairwise_barOf_iff, FedInOrder, seconds]

end FeedSession.Summary

/-- After a closing flush the candles of an instrument and interval are in strict order if
and only if its aggregators were fed in order, and then they are so in every state. -/
theorem candles_ascending_iff {subscriptions : List (String × List Interval)} {threshold : ℤ}
    {feed : LiveFeed} (created : LiveFeed.create subscriptions threshold = .ok feed)
    (bars : String × Interval) (labels : List FeedLabel) :
    let session : FeedSession := { feed }
    let fed := FedInOrder (subscribed subscriptions) bars (session.arrivals labels)
    (Ascending ((runSteps FeedSession.step session (labels ++ [.flush])).candles bars) ↔ fed) ∧
      (fed → Ascending ((runSteps FeedSession.step session labels).candles bars)) := by
  intro session fed
  have summary := (LiveFeed.summary_of_create created).run labels
  have flushed := summary.step .flush
  rw [← runSteps_concat FeedSession.step] at flushed
  by_cases kept : (subscribed subscriptions).count bars = 0
  · have none := summary.candles_eq_nil (List.count_eq_zero.mp kept)
    have noneFlushed := flushed.candles_eq_nil (List.count_eq_zero.mp kept)
    rw [none, noneFlushed]
    exact ⟨iff_of_true .nil (.inl kept), fun _ => .nil⟩
  · have mem := List.count_pos_iff.mp (Nat.pos_of_ne_zero kept)
    rcases (exists_of_forall₂ summary.tracks).1 bars mem with ⟨model, _, tracks⟩
    have ascends := flushed.ascending_iff tracks.key
    refine ⟨ascends, ?_⟩
    intro ordered
    -- the candles so far are the first ones of the flushed session
    have whole := ascends.mpr ordered
    rw [runSteps_concat, FeedSession.step, FeedSession.candles_publish] at whole
    exact whole.sublist (List.sublist_append_left _ _)

/-- A feed of one-minute bars of one instrument. -/
def minuteFeed : LiveFeed :=
  { aggregators := [CandleAggregator.minuteBars], staleness := ⟨30000000, none⟩ }

/-- A minute, the next minute, and a stop. -/
theorem candles_ascending_iff_sample :
    let session : FeedSession := { feed := minuteFeed }
    let labels := [.startFeed true, .tick ⟨"NSE_EQ|X", 100, 10, 0⟩,
      .tick ⟨"NSE_EQ|X", 101, 5, 60000000⟩, .stopFeed]
    let fed := FedInOrder (subscribed [("NSE_EQ|X", [.m1])]) ("NSE_EQ|X", .m1)
      (session.arrivals labels)
    (Ascending ((runSteps FeedSession.step session (labels ++ [.flush])).candles
        ("NSE_EQ|X", .m1)) ↔ fed) ∧
      (fed → Ascending ((runSteps FeedSession.step session labels).candles
        ("NSE_EQ|X", .m1))) := by
  apply candles_ascending_iff
    (rfl : LiveFeed.create [("NSE_EQ|X", [.m1])] 30000000 = .ok minuteFeed)

/-- A tick of a closed minute, or a restart within a minute, repeats a bucket. -/
theorem lateTick_repeats :
    ∃ feed, LiveFeed.create [("NSE_EQ|X", [.m1])] 30000000 = .ok feed ∧
      ¬ Ascending ((runSteps FeedSession.step { feed }
        [.startFeed true, .tick ⟨"NSE_EQ|X", 100, 10, 59000000⟩,
          .tick ⟨"NSE_EQ|X", 101, 5, 60000000⟩, .tick ⟨"NSE_EQ|X", 99, 7, 59900000⟩,
          .stopFeed]).candles ("NSE_EQ|X", .m1)) ∧
      ¬ Ascending ((runSteps FeedSession.step { feed }
        [.startFeed true, .tick ⟨"NSE_EQ|X", 100, 10, 0⟩, .stopFeed, .startFeed true,
          .tick ⟨"NSE_EQ|X", 101, 5, 1000000⟩, .stopFeed]).candles ("NSE_EQ|X", .m1)) := by
  refine ⟨minuteFeed, rfl, ?_, ?_⟩
  · rw [Ascending]
    decide +kernel
  · rw [Ascending]
    decide +kernel

end PersonalTrade
