import PersonalTrade.Data.Feed

/-!
# Staleness

When the feed counts as stale along a run, and when it says so: what `is_stale` answers
compared with all ticks received, and the events that `check_staleness` publishes.
-/

namespace PersonalTrade

/-- What happens to a feed, and the clock at which it does. -/
structure TimedLabel where
  clock : ℤ
  label : FeedLabel

/-- The instant of a label; a call of `check_staleness` brings its own. -/
def TimedLabel.instant (timed : TimedLabel) : ℤ :=
  match timed.label with
  | .checkStaleness now => now
  | _ => timed.clock

namespace FeedSession

/-- One label with its clock. -/
def timedStep (session : FeedSession) (timed : TimedLabel) : FeedSession :=
  session.step timed.label

/-- The trade time of the tick received at a label. -/
def tradeTime (session : FeedSession) : FeedLabel → Option ℤ
  | .tick quote => if session.task = some .running then some quote.ltt else none
  | .streamEnds | .startFeed _ | .stopFeed | .flush | .checkStaleness _ => none

/-- The trade times of the ticks received along a run. -/
def received (session : FeedSession) (labels : List TimedLabel) : List ℤ :=
  (runTrace timedStep session labels).filterMap fun made => made.1.tradeTime made.2.label

/-- The label publishes `FeedStale`. -/
def PublishesStale (session : FeedSession) (label : FeedLabel) : Prop :=
  ∃ now, label = .checkStaleness now ∧ (session.feed.checkStaleness now).2 ≠ []

end FeedSession

/-- No tick was traded after the threshold before an instant. -/
def NoneSince (threshold : ℤ) (received : List ℤ) (now : ℤ) : Prop :=
  ∀ time ∈ received, time ≤ now - threshold

/-- In every state of a run, `is_stale` answers whether no tick was traded since the threshold. -/
def StalenessExact (session : FeedSession) (labels : List TimedLabel) : Prop :=
  ∀ before after, labels = before ++ after → ∀ now,
    ((runSteps FeedSession.timedStep session before).feed.staleness.isStale now = true ↔
      NoneSince session.feed.staleness.threshold (session.received before) now)

/-- Between two labels that publish `FeedStale` there is one at whose instant, with the ticks
received up to it, the feed is not stale. -/
def StaleEventsSeparated (session : FeedSession) (labels : List TimedLabel) : Prop :=
  ∀ before first between second after,
    labels = before ++ first :: (between ++ second :: after) →
    (runSteps FeedSession.timedStep session before).PublishesStale first.label →
    (runSteps FeedSession.timedStep session (before ++ first :: between)).PublishesStale
      second.label →
    ∃ earlier fresh later, between = earlier ++ fresh :: later ∧
      ¬ NoneSince session.feed.staleness.threshold
        (session.received (before ++ first :: (earlier ++ [fresh]))) fresh.instant

/-- A tick that is received was not traded before the last one; and after a `FeedStale` it was
traded less than the threshold ago. -/
def FeedSession.Timely (session : FeedSession) (timed : TimedLabel) : Prop :=
  ∀ time ∈ session.tradeTime timed.label,
    (∀ last ∈ session.feed.staleness.lastTickAt, last ≤ time) ∧
      (session.feed.staleNotified = true →
        timed.clock - session.feed.staleness.threshold < time)

namespace FeedSession

variable {session : FeedSession} {labels : List TimedLabel}

/-- What a label does to the detector: only a tick that is received is recorded. -/
theorem staleness_step (session : FeedSession) (label : FeedLabel) :
    (session.step label).feed.staleness =
      (session.tradeTime label).elim session.feed.staleness session.feed.staleness.recordTick := by
  cases label with
  | tick quote =>
      by_cases running : session.task = some .running
      · simp only [step, tradeTime, if_pos running]
        rfl
      · simp only [step, tradeTime, if_neg running, Option.elim_none]
  | streamEnds => rfl
  | startFeed marketOpen =>
      rw [step]
      split_ifs <;> rfl
  | stopFeed =>
      rw [step]
      split <;> rfl
  | flush => rfl
  | checkStaleness now =>
      simp only [step, publish, LiveFeed.checkStaleness, tradeTime, Option.elim_none]
      split_ifs <;> rfl

/-- What a label does to the notice: a tick that is received takes it back, and a poll of a stale
feed gives it. -/
theorem staleNotified_step (session : FeedSession) (label : FeedLabel) :
    (session.step label).feed.staleNotified =
      match label with
      | .checkStaleness now =>
          session.feed.staleness.isStale now || session.feed.staleNotified
      | _ => session.feed.staleNotified && (session.tradeTime label).isNone := by
  cases label with
  | tick quote =>
      by_cases running : session.task = some .running
      · simp only [step, tradeTime, if_pos running]
        simp [publish, LiveFeed.onTick, LiveFeed.aggregated]
      · simp [step, tradeTime, running]
  | streamEnds => simp [step, tradeTime]
  | startFeed marketOpen =>
      simp only [step, tradeTime]
      split_ifs <;> simp
  | stopFeed =>
      simp only [step, tradeTime]
      split <;> simp [publish, LiveFeed.flush, LiveFeed.aggregated]
  | flush => simp [step, tradeTime, publish, LiveFeed.flush, LiveFeed.aggregated]
  | checkStaleness now =>
      simp only [step, publish, LiveFeed.checkStaleness]
      cases session.feed.staleness.isStale now <;>
        cases notified : session.feed.staleNotified <;> simp [notified]

/-- A label publishes `FeedStale` when it finds the feed stale without a notice, which it gives. -/
theorem publishesStale_iff {label : FeedLabel} : session.PublishesStale label ↔
    ∃ now, label = .checkStaleness now ∧ session.feed.staleness.isStale now = true ∧
      session.feed.staleNotified = false := by
  apply exists_congr
  intro now
  apply and_congr_right
  intro _
  rw [LiveFeed.checkStaleness]
  cases session.feed.staleness.isStale now <;> cases session.feed.staleNotified <;> simp

theorem received_concat (session : FeedSession) (labels : List TimedLabel) (timed : TimedLabel) :
    session.received (labels ++ [timed]) = session.received labels ++
      ((runSteps timedStep session labels).tradeTime timed.label).toList := by
  rw [received, runTrace_concat, List.filterMap_append]
  cases time : (runSteps timedStep session labels).tradeTime timed.label <;>
    simp [received, time]

/-- In an ordered list the last element is the greatest. -/
theorem le_of_getLast? {times : List ℤ} {time last : ℤ} (ordered : times.Pairwise (· ≤ ·))
    (mem : time ∈ times) (ends : times.getLast? = some last) : time ≤ last := by
  rcases List.getLast?_eq_some_iff.mp ends with ⟨earlier, rfl⟩
  rcases List.mem_append.mp mem with before | here
  · exact (List.pairwise_append.mp ordered).2.2 time before last (.head _)
  · rw [List.mem_singleton.mp here]

/-- The detector after a run whose ticks come in the order of their trade times. -/
structure Watched (session : FeedSession) (labels : List TimedLabel) : Prop where
  staleness : (runSteps timedStep session labels).feed.staleness =
    { session.feed.staleness with lastTickAt := (session.received labels).getLast? }
  ordered : (session.received labels).Pairwise (· ≤ ·)

/-- A tick that is not older than the last one received keeps the order. -/
theorem Watched.concat {timed : TimedLabel} (watched : Watched session labels)
    (timely : (runSteps timedStep session labels).Timely timed) :
    Watched session (labels ++ [timed]) := by
  have moved := staleness_step (runSteps timedStep session labels) timed.label
  rcases traded : (runSteps timedStep session labels).tradeTime timed.label with _ | time
  · have same : session.received (labels ++ [timed]) = session.received labels := by
      rw [received_concat, traded, Option.toList_none, List.append_nil]
    refine ⟨?_, same ▸ watched.ordered⟩
    rw [runSteps_concat, same, timedStep, moved, traded]
    exact watched.staleness
  · have more : session.received (labels ++ [timed]) = session.received labels ++ [time] := by
      rw [received_concat, traded, Option.toList_some]
    refine ⟨?_, ?_⟩
    · rw [runSteps_concat, more, List.getLast?_concat, timedStep, moved, traded, Option.elim_some,
        StalenessDetector.recordTick, watched.staleness]
    · have notBefore := (timely time traded).1
      rw [watched.staleness] at notBefore
      rw [more, List.pairwise_append]
      refine ⟨watched.ordered, List.pairwise_singleton _ _, ?_⟩
      rintro earlier mem last (_ | ⟨_, ⟨⟩⟩)
      rcases ends : (session.received labels).getLast? with _ | latest
      · rw [List.getLast?_eq_none_iff.mp ends] at mem
        cases mem
      · exact (le_of_getLast? watched.ordered mem ends).trans (notBefore latest ends)

theorem watched_of_timely (fresh : session.feed.staleness.lastTickAt = none)
    (timely : ∀ made ∈ runTrace timedStep session labels, made.1.Timely made.2) :
    Watched session labels := by
  induction labels using List.reverseRecOn with
  | nil =>
      refine ⟨?_, .nil⟩
      rcases staleness : session.feed.staleness with ⟨threshold, lastTickAt⟩
      rw [staleness] at fresh
      obtain rfl : lastTickAt = none := fresh
      exact staleness
  | append_singleton labels timed ih =>
      rw [runTrace_concat] at timely
      exact (ih fun made mem => timely made (List.mem_append_left _ mem)).concat
        (timely _ (List.mem_append_right _ (.head _)))

/-- An ordered run is stale exactly when nothing was traded since the threshold. -/
theorem Watched.isStale_iff (watched : Watched session labels) (now : ℤ) :
    (runSteps timedStep session labels).feed.staleness.isStale now = true ↔
      NoneSince session.feed.staleness.threshold (session.received labels) now := by
  rw [watched.staleness, StalenessDetector.isStale, NoneSince]
  rcases ends : (session.received labels).getLast? with _ | last
  · rw [List.getLast?_eq_none_iff.mp ends]
    simp
  · simp only [decide_eq_true_eq]
    constructor
    · intro old time mem
      have notAfter := le_of_getLast? watched.ordered mem ends
      omega
    · intro none
      have old := none last (List.mem_of_getLast? ends)
      omega

/-- A notice is only taken back by a tick that is received. -/
theorem exists_tick_of_notified (notified : session.feed.staleNotified = true)
    (taken : (runSteps timedStep session labels).feed.staleNotified = false) :
    ∃ earlier tick later time, labels = earlier ++ tick :: later ∧
      (runSteps timedStep session earlier).feed.staleNotified = true ∧
      (runSteps timedStep session earlier).tradeTime tick.label = some time := by
  induction labels generalizing session with
  | nil =>
      rw [show (runSteps timedStep session []) = session from rfl, notified] at taken
      cases taken
  | cons timed labels ih =>
      rcases traded : session.tradeTime timed.label with _ | time
      · have kept : (session.timedStep timed).feed.staleNotified = true := by
          rw [timedStep, staleNotified_step, notified, traded]
          split <;> simp
        rcases ih kept taken with ⟨earlier, tick, later, time, rfl, still, received⟩
        exact ⟨timed :: earlier, tick, later, time, rfl, still, received⟩
      · exact ⟨[], timed, labels, time, rfl, notified, traded⟩

end FeedSession

/-- In a run whose ticks are received in the order of their trade times, and after a `FeedStale`
less than the threshold late, staleness is exact, and the feed was not stale at some instant
between two `FeedStale`. -/
theorem staleness_exact {subscriptions : List (String × List Interval)} {threshold : ℤ}
    {feed : LiveFeed} (created : LiveFeed.create subscriptions threshold = .ok feed)
    {labels : List TimedLabel}
    (timely : ∀ made ∈ runTrace FeedSession.timedStep { feed } labels, made.1.Timely made.2) :
    StalenessExact { feed } labels ∧ StaleEventsSeparated { feed } labels := by
  have fresh : feed.staleness.lastTickAt = none := by
    rw [LiveFeed.create] at created
    split_ifs at created
    rcases except_bind_eq_ok.mp created with ⟨aggregators, -, ok⟩
    cases ok
    rfl
  have earlierTimely : ∀ before after, labels = before ++ after →
      ∀ made ∈ runTrace FeedSession.timedStep { feed } before, made.1.Timely made.2 := by
    rintro before after rfl made mem
    rw [runTrace_append] at timely
    exact timely made (List.mem_append_left _ mem)
  constructor
  · intro before after split now
    exact (FeedSession.watched_of_timely fresh (earlierTimely before after split)).isStale_iff now
  · intro before first between second after split firstPublishes secondPublishes
    rcases FeedSession.publishesStale_iff.mp firstPublishes with ⟨now, label, stale, -⟩
    rcases FeedSession.publishesStale_iff.mp secondPublishes with ⟨-, -, -, taken⟩
    have notified : (runSteps FeedSession.timedStep { feed }
        (before ++ [first])).feed.staleNotified = true := by
      rw [runSteps_concat, FeedSession.timedStep, FeedSession.staleNotified_step, label]
      simp only [stale, Bool.true_or]
    rw [List.append_cons, runSteps_append] at taken
    rcases FeedSession.exists_tick_of_notified notified taken with
      ⟨earlier, tick, later, time, rfl, still, traded⟩
    rw [← runSteps_append, ← List.append_cons] at still traded
    have whole : labels = (before ++ first :: earlier) ++ tick :: (later ++ second :: after) := by
      rw [split]
      simp
    have tickTimely := timely _ (whole ▸ mem_runTrace FeedSession.timedStep { feed } _ tick _)
    have watched := FeedSession.watched_of_timely fresh (earlierTimely _ _ whole)
    refine ⟨earlier, tick, later, rfl, ?_⟩
    intro none
    have recent := (tickTimely time traded).2 still
    have old := none time (by
      rw [← List.cons_append, ← List.append_assoc, FeedSession.received_concat, traded]
      exact List.mem_append_right _ (.head _))
    rw [watched.staleness] at recent
    rcases tick with ⟨clock, _ | _ | _ | _ | _ | _⟩
    · simp only [TimedLabel.instant] at old recent
      omega
    all_goals cases traded

/-- A tick on time, a poll after it, and a tick on time again before the next poll. -/
def timelyTicks : List TimedLabel :=
  [⟨0, .startFeed true⟩, ⟨10, .tick ⟨"NSE_EQ|X", 100, 10, 5⟩⟩, ⟨40, .checkStaleness 40⟩,
    ⟨50, .tick ⟨"NSE_EQ|Y", 200, 10, 45⟩⟩, ⟨90, .checkStaleness 90⟩]

/-- A feed of one-minute bars that is stale after thirty microseconds. -/
def quickFeed : LiveFeed :=
  { aggregators := [CandleAggregator.minuteBars], staleness := ⟨30, none⟩ }

theorem staleness_exact_sample :
    StalenessExact { feed := quickFeed } timelyTicks ∧
      StaleEventsSeparated { feed := quickFeed } timelyTicks := by
  apply staleness_exact (rfl : LiveFeed.create [("NSE_EQ|X", [.m1])] 30 = .ok quickFeed)
  intro made mem time traded
  simp only [timelyTicks, runTrace, List.mem_cons, List.not_mem_nil, or_false] at mem
  rcases mem with rfl | rfl | rfl | rfl | rfl
  · cases traded
  · cases traded
    decide
  · cases traded
  · cases traded
    decide
  · cases traded

/-- A tick that was traded before the last one. -/
def olderTick : List TimedLabel :=
  [⟨0, .startFeed true⟩, ⟨100, .tick ⟨"NSE_EQ|X", 100, 10, 100⟩⟩,
    ⟨101, .tick ⟨"NSE_EQ|Y", 200, 10, 50⟩⟩]

/-- A tick that arrives a hundred microseconds late, between two polls. -/
def lateTick : List TimedLabel :=
  [⟨0, .startFeed true⟩, ⟨0, .checkStaleness 0⟩, ⟨200, .tick ⟨"NSE_EQ|X", 100, 10, 100⟩⟩,
    ⟨201, .checkStaleness 201⟩]

/-- The older tick makes the feed stale again, and the late one takes back a notice though the
feed stays stale. -/
theorem olderTick_stale_lateTick_repeats :
    LiveFeed.create [("NSE_EQ|X", [.m1])] 30 = .ok quickFeed ∧
      ¬ StalenessExact { feed := quickFeed } olderTick ∧
      ¬ StaleEventsSeparated { feed := quickFeed } lateTick := by
  refine ⟨rfl, ?_, ?_⟩
  · intro exact
    have answers := exact olderTick [] (List.append_nil _).symm 125
    have stale : (runSteps FeedSession.timedStep { feed := quickFeed }
        olderTick).feed.staleness.isStale 125 = true := by decide
    have received : (FeedSession.received { feed := quickFeed } olderTick) = [100, 50] := by decide
    have none := answers.mp stale 100 (by rw [received]; exact .head _)
    revert none
    decide
  · intro separated
    rcases separated [⟨0, .startFeed true⟩] ⟨0, .checkStaleness 0⟩
      [⟨200, .tick ⟨"NSE_EQ|X", 100, 10, 100⟩⟩] ⟨201, .checkStaleness 201⟩ [] rfl
      ⟨0, rfl, by decide⟩ ⟨201, rfl, by decide⟩ with ⟨earlier, tick, later, split, recent⟩
    rcases earlier with _ | ⟨first, earlier⟩
    · rw [List.nil_append, List.cons.injEq] at split
      rcases split with ⟨rfl, -⟩
      apply recent
      intro time mem
      have received : FeedSession.received { feed := quickFeed } ([⟨0, .startFeed true⟩] ++
          ⟨0, .checkStaleness 0⟩ :: ([] ++ [⟨200, .tick ⟨"NSE_EQ|X", 100, 10, 100⟩⟩])) = [100] := by
        decide
      rw [received] at mem
      obtain rfl := List.mem_singleton.mp mem
      decide
    · rw [List.cons_append, List.cons.injEq] at split
      exact absurd split.2 (by simp)

end PersonalTrade
