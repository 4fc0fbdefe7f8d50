import PersonalTrade.Core.Enums
import PersonalTrade.Library.Grouping
import PersonalTrade.Library.Rounding

/-!
# Tick aggregation

`data/live/aggregator.py`: the ticks of one instrument are folded into the open bar of
their bucket. Trade times and bucket starts are microseconds since the epoch. The
aggregator is a collector of ticks by bucket that keeps the figures of its open group
in place of the group (`CandleAggregator.Holds`).
-/

namespace PersonalTrade

/-- `Quote`, as far as the aggregator and the feed read it. -/
structure Quote where
  instrumentKey : String
  ltp : ℚ
  ltq : ℤ
  ltt : ℤ
deriving DecidableEq, Repr

/-- `_INTERVAL_SECONDS`. -/
def intervalSeconds : Interval → Option ℤ
  | .m1 => some 60
  | .m15 => some (15 * 60)
  | .d1 => none

structure AggregatedCandle where
  instrumentKey : String
  interval : Interval
  ts : ℤ
  openPrice : ℚ
  high : ℚ
  low : ℚ
  close : ℚ
  volume : ℤ
deriving DecidableEq, Repr

/-- `CandleAggregator`; its constructor refuses the intervals without seconds. -/
structure CandleAggregator where
  instrumentKey : String
  interval : Interval
  buildable : (intervalSeconds interval).isSome
  bucketStart : Option ℤ := none
  openPrice : ℚ := 0
  high : ℚ := 0
  low : ℚ := 0
  close : ℚ := 0
  volume : ℤ := 0

/-- `timestamp()`: the double next to the seconds since the epoch. -/
def timestamp (ts : ℤ) : ℚ := nearestDouble (ts / 1000000)

/-- `int(ts.timestamp())`: the fraction of a second is cut off towards the epoch. -/
def epochSeconds (ts : ℤ) : ℤ :=
  if 0 ≤ timestamp ts then ⌊timestamp ts⌋ else ⌈timestamp ts⌉

/-- The first microsecond after the last `datetime`. -/
def datetimeEnd : ℤ := 253402300800000000

/-- The bucket of a trade time, for bars of some seconds. -/
def bucketStartFor (seconds ts : ℤ) : ℤ :=
  (epochSeconds ts - epochSeconds ts % seconds) * 1000000

namespace CandleAggregator

/-- `CandleAggregator.__init__`. -/
def create (instrumentKey : String) (interval : Interval) : Except PyError CandleAggregator :=
  if buildable : (intervalSeconds interval).isSome then
    .ok { instrumentKey, interval, buildable }
  else .error (.unsupportedInterval interval)

/-- The length of the bars. -/
def seconds (aggregator : CandleAggregator) : ℤ :=
  (intervalSeconds aggregator.interval).get aggregator.buildable

/-- `_snapshot`, for an open bar. -/
def snapshot (aggregator : CandleAggregator) (bucketStart : ℤ) : AggregatedCandle :=
  { aggregator with ts := bucketStart }

/-- The completed bar, when the bucket of a tick is not the one in progress. -/
def rollover (aggregator : CandleAggregator) (bucket : ℤ) :
    CandleAggregator × Option AggregatedCandle :=
  match aggregator.bucketStart with
  | none => (aggregator, none)
  | some current =>
      if bucket ≠ current then
        ({ aggregator with bucketStart := none }, some (aggregator.snapshot current))
      else (aggregator, none)

/-- Start a bar unless one is in progress. -/
def ensureOpen (aggregator : CandleAggregator) (bucket : ℤ) (ltp : ℚ) : CandleAggregator :=
  match aggregator.bucketStart with
  | some _ => aggregator
  | none => { aggregator with
      bucketStart := some bucket, openPrice := ltp, high := ltp, low := ltp, volume := 0 }

/-- The tick enters the bar in progress. -/
def absorb (aggregator : CandleAggregator) (quote : Quote) : CandleAggregator :=
  { aggregator with
    high := max aggregator.high quote.ltp
    low := min aggregator.low quote.ltp
    close := quote.ltp
    volume := aggregator.volume + quote.ltq }

/-- `add_tick`, for a tick of the aggregator's instrument in a bucket that is a `datetime`. -/
def accept (aggregator : CandleAggregator) (quote : Quote) :
    CandleAggregator × Option AggregatedCandle :=
  let bucket := bucketStartFor aggregator.seconds quote.ltt
  let rolled := aggregator.rollover bucket
  ((rolled.1.ensureOpen bucket quote.ltp).absorb quote, rolled.2)

/-- `add_tick`; `fromtimestamp` refuses the double that the last trade times of the year 9999
are rounded to. -/
def addTick (aggregator : CandleAggregator) (quote : Quote) :
    Except PyError (CandleAggregator × Option AggregatedCandle) :=
  if quote.instrumentKey ≠ aggregator.instrumentKey then
    .error (.wrongInstrument quote.instrumentKey aggregator.instrumentKey)
  else if datetimeEnd ≤ bucketStartFor aggregator.seconds quote.ltt then
    .error (.yearOutOfRange 10000)
  else .ok (aggregator.accept quote)

def flush (aggregator : CandleAggregator) : CandleAggregator × Option AggregatedCandle :=
  match aggregator.bucketStart with
  | none => (aggregator, none)
  | some current => ({ aggregator with bucketStart := none }, some (aggregator.snapshot current))

/-- A tick or a flush. -/
def receive (aggregator : CandleAggregator) :
    Arrival Quote → Except PyError (CandleAggregator × Option AggregatedCandle)
  | .item quote => aggregator.addTick quote
  | .flush => .ok aggregator.flush

/-- A tick of the aggregator's instrument or a flush. -/
def turn (aggregator : CandleAggregator) :
    Arrival Quote → CandleAggregator × Option AggregatedCandle
  | .item quote => aggregator.accept quote
  | .flush => aggregator.flush

/-- The bars emitted along a run. -/
def run (aggregator : CandleAggregator) :
    List (Arrival Quote) → Except PyError (CandleAggregator × List AggregatedCandle)
  | [] => .ok (aggregator, [])
  | arrival :: arrivals => do
      let received ← aggregator.receive arrival
      let later ← run received.1 arrivals
      pure (later.1, received.2.toList ++ later.2)

end CandleAggregator

/-! ## Bars of groups of ticks -/

/-- The ticks of a bucket. -/
def bucketOf (seconds : ℤ) (quote : Quote) : ℤ := bucketStartFor seconds quote.ltt

/-- The bar of a group of ticks; no tick has the figures of a new aggregator. -/
def barOf (aggregator : CandleAggregator) : List Quote → AggregatedCandle
  | [] => { aggregator with ts := 0, openPrice := 0, high := 0, low := 0, close := 0, volume := 0 }
  | first :: rest => { aggregator with
      ts := bucketOf aggregator.seconds first
      openPrice := first.ltp
      high := (rest.map Quote.ltp).foldl max first.ltp
      low := (rest.map Quote.ltp).foldl min first.ltp
      close := ((first :: rest).getLast (List.cons_ne_nil _ _)).ltp
      volume := ((first :: rest).map Quote.ltq).sum }

/-- Open, high, low, close and volume of a bar are those of its ticks. -/
structure Summarizes (candle : AggregatedCandle) (group : List Quote) : Prop where
  openPrice : group.head?.map Quote.ltp = some candle.openPrice
  high : IsGreatest {price | price ∈ group.map Quote.ltp} candle.high
  low : IsLeast {price | price ∈ group.map Quote.ltp} candle.low
  close : group.getLast?.map Quote.ltp = some candle.close
  volume : candle.volume = (group.map Quote.ltq).sum

theorem foldl_max_isGreatest (first : ℚ) (rest : List ℚ) :
    IsGreatest {price | price ∈ first :: rest} (rest.foldl max first) := by
  induction rest using List.reverseRecOn with
  | nil => simp [isGreatest_singleton]
  | append_singleton rest last ih =>
      have extended : {price | price ∈ first :: (rest ++ [last])} =
          {price | price ∈ first :: rest} ∪ {last} := by
        ext price
        simp only [List.mem_cons, List.mem_append, List.not_mem_nil, or_false, Set.mem_ofPred_eq,
          Set.mem_union, Set.mem_singleton_iff, or_assoc]
      rw [extended, List.foldl_concat]
      exact ih.union isGreatest_singleton

theorem foldl_min_isLeast (first : ℚ) (rest : List ℚ) :
    IsLeast {price | price ∈ first :: rest} (rest.foldl min first) := by
  induction rest using List.reverseRecOn with
  | nil => simp [isLeast_singleton]
  | append_singleton rest last ih =>
      have extended : {price | price ∈ first :: (rest ++ [last])} =
          {price | price ∈ first :: rest} ∪ {last} := by
        ext price
        simp only [List.mem_cons, List.mem_append, List.not_mem_nil, or_false, Set.mem_ofPred_eq,
          Set.mem_union, Set.mem_singleton_iff, or_assoc]
      rw [extended, List.foldl_concat]
      exact ih.union isLeast_singleton

theorem summarizes_barOf (aggregator : CandleAggregator) {group : List Quote}
    (nonempty : group ≠ []) : Summarizes (barOf aggregator group) group := by
  cases group with
  | nil => exact absurd rfl nonempty
  | cons first rest =>
      constructor
      · rfl
      · exact foldl_max_isGreatest first.ltp (rest.map Quote.ltp)
      · exact foldl_min_isLeast first.ltp (rest.map Quote.ltp)
      · rw [List.getLast?_eq_some_getLast (List.cons_ne_nil _ _)]
        rfl
      · rfl

namespace CandleAggregator

/-- The aggregator's fields are those of the bar of its open group. -/
inductive Holds (aggregator : CandleAggregator) : List Quote → Prop where
  | closed (none : aggregator.bucketStart = none) : Holds aggregator []
  | opened {first : Quote} {rest : List Quote}
      (bucket : aggregator.bucketStart = some (bucketOf aggregator.seconds first))
      (figures : aggregator.snapshot (bucketOf aggregator.seconds first) =
        barOf aggregator (first :: rest)) : Holds aggregator (first :: rest)

/-- Two aggregators of one kind of bars. -/
structure SameBars (aggregator other : CandleAggregator) : Prop where
  instrumentKey : aggregator.instrumentKey = other.instrumentKey
  interval : aggregator.interval = other.interval

namespace SameBars

variable {aggregator other : CandleAggregator}

theorem seconds (same : SameBars aggregator other) : aggregator.seconds = other.seconds := by
  simp only [CandleAggregator.seconds, same.interval]

theorem barOf (same : SameBars aggregator other) :
    PersonalTrade.barOf aggregator = PersonalTrade.barOf other := by
  funext group
  cases group with
  | nil => simp only [PersonalTrade.barOf, same.instrumentKey, same.interval]
  | cons first rest =>
      simp only [PersonalTrade.barOf, same.instrumentKey, same.interval, same.seconds]

theorem trans {third : CandleAggregator} (first : SameBars aggregator other)
    (second : SameBars other third) : SameBars aggregator third :=
  ⟨first.instrumentKey.trans second.instrumentKey, first.interval.trans second.interval⟩

end SameBars

theorem sameBars_rollover (aggregator : CandleAggregator) (bucket : ℤ) :
    SameBars (aggregator.rollover bucket).1 aggregator := by
  rw [rollover]
  cases aggregator.bucketStart with
  | none => exact ⟨rfl, rfl⟩
  | some current => by_cases other : bucket ≠ current <;> simp [other] <;> exact ⟨rfl, rfl⟩

theorem sameBars_ensureOpen (aggregator : CandleAggregator) (bucket : ℤ) (ltp : ℚ) :
    SameBars (aggregator.ensureOpen bucket ltp) aggregator := by
  rw [ensureOpen]
  cases aggregator.bucketStart <;> exact ⟨rfl, rfl⟩

theorem sameBars_absorb (aggregator : CandleAggregator) (quote : Quote) :
    SameBars (aggregator.absorb quote) aggregator := ⟨rfl, rfl⟩

theorem sameBars_turn (aggregator : CandleAggregator) (arrival : Arrival Quote) :
    SameBars (aggregator.turn arrival).1 aggregator := by
  cases arrival with
  | flush =>
      simp only [turn, flush]
      cases aggregator.bucketStart <;> exact ⟨rfl, rfl⟩
  | item quote =>
      exact (sameBars_absorb _ quote).trans
        ((sameBars_ensureOpen _ _ _).trans (sameBars_rollover aggregator _))

variable {aggregator : CandleAggregator} {group : List Quote}

theorem holds_opened (bucket : ℤ) (quote : Quote) (closed : aggregator.bucketStart = none)
    (own : bucket = bucketOf aggregator.seconds quote) :
    ((aggregator.ensureOpen bucket quote.ltp).absorb quote).Holds [quote] := by
  subst own
  apply Holds.opened
  · simp only [ensureOpen, closed, absorb]
    rfl
  · simp only [ensureOpen, closed, absorb, snapshot, barOf]
    simp [bucketOf, seconds]

theorem holds_extended {first quote : Quote} {rest : List Quote}
    (holds : aggregator.Holds (first :: rest)) :
    (aggregator.absorb quote).Holds ((first :: rest) ++ [quote]) := by
  cases holds with
  | opened bucket figures =>
      simp only [snapshot, barOf, AggregatedCandle.mk.injEq] at figures
      rcases figures with ⟨_, _, _, openPrice, high, low, _, volume⟩
      apply Holds.opened
      · exact bucket
      · simp only [List.append_eq, snapshot, absorb, barOf, AggregatedCandle.mk.injEq,
          openPrice, high, low, volume]
        simp [add_assoc]

/-- One arrival moves the aggregator like a collector of ticks by bucket. -/
theorem turn_holds (arrival : Arrival Quote) (holds : aggregator.Holds group) :
    (aggregator.turn arrival).1.Holds (gather (bucketOf aggregator.seconds) group arrival).1 ∧
      (aggregator.turn arrival).2 =
        (gather (bucketOf aggregator.seconds) group arrival).2.map (barOf aggregator) := by
  cases arrival with
  | flush =>
      cases holds with
      | closed none =>
          simp only [turn, flush, none]
          exact ⟨.closed none, rfl⟩
      | @opened first rest bucket figures =>
          simp only [turn, flush, bucket, figures]
          exact ⟨.closed rfl, rfl⟩
  | item quote =>
      cases holds with
      | closed none =>
          have started := holds_opened (bucketOf aggregator.seconds quote) quote none rfl
          simp only [turn, accept, rollover, none]
          exact ⟨started, rfl⟩
      | @opened first rest bucket figures =>
          by_cases same : bucketOf aggregator.seconds quote = bucketOf aggregator.seconds first
          · have current : bucketStartFor aggregator.seconds quote.ltt =
                bucketOf aggregator.seconds first := same
            have extended : (aggregator.absorb quote).Holds ((first :: rest) ++ [quote]) :=
              holds_extended (.opened bucket figures)
            simp only [turn, accept, rollover, bucket, current, ne_eq, not_true_eq_false, if_false,
              ensureOpen, gather, if_pos same]
            exact ⟨extended, rfl⟩
          · -- the bar in progress is completed by the tick of another bucket
            have other : bucketStartFor aggregator.seconds quote.ltt ≠
                bucketOf aggregator.seconds first := same
            let emptied : CandleAggregator := { aggregator with bucketStart := none }
            have started : ((emptied.ensureOpen (bucketOf aggregator.seconds quote)
                quote.ltp).absorb quote).Holds [quote] :=
              holds_opened _ quote rfl rfl
            simp only [turn, accept, rollover, bucket, if_pos other, gather, if_neg same, figures]
            exact ⟨started, rfl⟩

/-- A tick that the aggregator takes: of its instrument, and in a bucket that is a `datetime`. -/
structure Takes (aggregator : CandleAggregator) (quote : Quote) : Prop where
  keyed : quote.instrumentKey = aggregator.instrumentKey
  fits : bucketOf aggregator.seconds quote < datetimeEnd

theorem receive_eq_turn {arrival : Arrival Quote}
    (takes : ∀ quote, arrival = .item quote → aggregator.Takes quote) :
    aggregator.receive arrival = .ok (aggregator.turn arrival) := by
  cases arrival with
  | flush => rfl
  | item quote =>
      rcases takes quote rfl with ⟨keyed, fits⟩
      rw [receive, addTick, if_neg (not_not.mpr keyed), ← bucketOf, if_neg (not_le.mpr fits)]
      rfl

theorem Takes.turn {quote : Quote} (takes : aggregator.Takes quote) (arrival : Arrival Quote) :
    (aggregator.turn arrival).1.Takes quote := by
  have same := sameBars_turn aggregator arrival
  constructor
  · rw [same.instrumentKey]
    exact takes.keyed
  · rw [same.seconds]
    exact takes.fits

/-- A run emits the bars of the groups that the collector lets go. -/
theorem run_holds {arrivals : List (Arrival Quote)} (holds : aggregator.Holds group)
    (takes : ∀ quote, .item quote ∈ arrivals → aggregator.Takes quote) :
    ∃ final, aggregator.run arrivals = .ok (final,
      (collected (bucketOf aggregator.seconds) group arrivals).map (barOf aggregator)) := by
  induction arrivals generalizing aggregator group with
  | nil => exact ⟨aggregator, rfl⟩
  | cons arrival arrivals ih =>
      have first : ∀ quote, arrival = .item quote → aggregator.Takes quote := by
        rintro quote rfl
        exact takes quote List.mem_cons_self
      have same := sameBars_turn aggregator arrival
      rcases turn_holds arrival holds with ⟨kept, emitted⟩
      have later : ∀ quote, .item quote ∈ arrivals → (aggregator.turn arrival).1.Takes quote :=
        fun quote mem => (takes quote (List.mem_cons_of_mem _ mem)).turn arrival
      rcases ih kept later with ⟨final, ran⟩
      rw [same.seconds, same.barOf] at ran
      refine ⟨final, ?_⟩
      simp only [run, receive_eq_turn first, emitted, ran, bind, Except.bind, pure, Except.pure,
        collected, List.map_append, Option.toList_map]

/-- A tick of the aggregator's instrument is taken, unless its bucket is no `datetime`. -/
theorem receive_cases {arrival : Arrival Quote}
    (keyed : ∀ quote, arrival = .item quote → quote.instrumentKey = aggregator.instrumentKey) :
    aggregator.receive arrival = .error (.yearOutOfRange 10000) ∨
      aggregator.receive arrival = .ok (aggregator.turn arrival) ∧
        ∀ quote, arrival = .item quote → aggregator.Takes quote := by
  cases arrival with
  | flush => exact .inr ⟨rfl, fun quote same => by cases same⟩
  | item quote =>
      have own := keyed quote rfl
      rcases lt_or_ge (bucketOf aggregator.seconds quote) datetimeEnd with fits | beyond
      · have takes : ∀ other, Arrival.item quote = .item other → aggregator.Takes other := by
          intro other same
          cases same
          exact ⟨own, fits⟩
        exact .inr ⟨receive_eq_turn takes, takes⟩
      · left
        rw [receive, addTick, if_neg (not_not.mpr own)]
        exact if_pos beyond

/-- A tick in a bucket that is no `datetime` ends the run. -/
theorem run_raises {arrivals : List (Arrival Quote)}
    (keyed : ∀ quote, .item quote ∈ arrivals → quote.instrumentKey = aggregator.instrumentKey)
    {late : Quote} (mem : .item late ∈ arrivals)
    (outside : datetimeEnd ≤ bucketOf aggregator.seconds late) :
    aggregator.run arrivals = .error (.yearOutOfRange 10000) := by
  induction arrivals generalizing aggregator with
  | nil => cases mem
  | cons arrival arrivals ih =>
      have first : ∀ quote, arrival = .item quote →
          quote.instrumentKey = aggregator.instrumentKey := by
        rintro quote rfl
        exact keyed quote List.mem_cons_self
      rcases receive_cases first with raised | ⟨taken, takes⟩
      · rw [run, raised]
        rfl
      · have later : .item late ∈ arrivals := by
          apply (List.mem_cons.mp mem).resolve_left
          intro same
          exact absurd outside (not_le.mpr (takes late same.symm).fits)
        have same := sameBars_turn aggregator arrival
        have ran : (aggregator.turn arrival).1.run arrivals = .error (.yearOutOfRange 10000) := by
          apply ih _ later
          · rw [same.seconds]
            exact outside
          · intro quote quoteMem
            rw [same.instrumentKey]
            exact keyed quote (List.mem_cons_of_mem _ quoteMem)
        simp only [run, taken, ran, bind, Except.bind]

theorem holds_of_create {instrumentKey : String} {interval : Interval}
    (created : create instrumentKey interval = .ok aggregator) :
    aggregator.instrumentKey = instrumentKey ∧ aggregator.Holds [] := by
  rw [create] at created
  split at created
  · cases created
    exact ⟨rfl, .closed rfl⟩
  · cases created

/-- A new aggregator that is flushed at the end of its run emits one bar for each run of
ticks of one bucket between the flushes. -/
theorem run_of_create {instrumentKey : String} {interval : Interval}
    (created : create instrumentKey interval = .ok aggregator) {arrivals : List (Arrival Quote)}
    (takes : ∀ quote, .item quote ∈ arrivals → aggregator.Takes quote) :
    ∃ final, aggregator.run (arrivals ++ [.flush]) = .ok (final,
      (groups (bucketOf aggregator.seconds) arrivals).map (barOf aggregator)) := by
  rcases holds_of_create created with ⟨_, fresh⟩
  have flushed : ∀ quote, .item quote ∈ arrivals ++ [.flush] → aggregator.Takes quote := by
    intro quote mem
    apply takes quote
    simpa using mem
  rcases run_holds fresh flushed with ⟨final, ran⟩
  rw [collected_flush] at ran
  exact ⟨final, ran⟩

theorem seconds_pos (aggregator : CandleAggregator) : 0 < aggregator.seconds := by
  rcases aggregator with ⟨instrumentKey, interval, buildable⟩
  cases interval with
  | m1 => exact (by decide : (0 : ℤ) < 60)
  | m15 => exact (by decide : (0 : ℤ) < 15 * 60)
  | d1 => cases buildable

end CandleAggregator

/-! ## Time buckets -/

/-- The trade time of a tick lies in the bar's bucket. -/
def InBucket (seconds : ℤ) (candle : AggregatedCandle) (quote : Quote) : Prop :=
  candle.ts ≤ quote.ltt ∧ quote.ltt < candle.ts + seconds * 1000000

/-- A trade time is a `datetime`, of the years 1 to 9999. -/
structure IsDated (ts : ℤ) : Prop where
  lower : -62135596800000000 ≤ ts
  upper : ts < datetimeEnd

/-- The start of the bucket after the one of a trade time, in seconds. -/
def nextBucket (seconds ts : ℤ) : ℤ := (ts / 1000000 / seconds + 1) * seconds

/-- Neither the double nor the cut leads a trade time out of its bucket: from the epoch on
the double is not that of the next bucket, and before the epoch it is not later than the
last whole second of the bucket. -/
def CutInside (seconds ts : ℤ) : Prop :=
  if 0 ≤ ts then timestamp ts < nextBucket seconds ts
  else timestamp ts ≤ nextBucket seconds ts - 1

instance (seconds ts : ℤ) : Decidable (CutInside seconds ts) :=
  inferInstanceAs (Decidable (ite _ _ _))

theorem IsDated.small {ts : ℤ} (dated : IsDated ts) : |(ts / 1000000 : ℚ)| < 2 ^ 53 := by
  rcases dated with ⟨lower, upper⟩
  have above : (-62135596800000000 : ℚ) ≤ ts := by exact_mod_cast lower
  have below : (ts : ℚ) < 253402300800000000 := by exact_mod_cast upper
  rw [abs_lt]
  constructor <;> linarith

theorem seconds_bounds (ts : ℤ) :
    ((ts / 1000000 : ℤ) : ℚ) ≤ ts / 1000000 ∧ (ts / 1000000 : ℚ) ≤ (ts / 1000000 + 1 : ℤ) := by
  have below : ((ts / 1000000 * 1000000 : ℤ) : ℚ) ≤ ts := by
    exact_mod_cast (by omega : ts / 1000000 * 1000000 ≤ ts)
  have above : (ts : ℚ) ≤ ((ts / 1000000 + 1) * 1000000 : ℤ) := by
    exact_mod_cast (by omega : ts ≤ (ts / 1000000 + 1) * 1000000)
  push_cast at below above ⊢
  constructor
  · rw [le_div_iff₀ (by norm_num)]
    exact below
  · rw [div_le_iff₀ (by norm_num)]
    exact above

/-- The double is between the whole seconds next to the trade time. -/
theorem epochSeconds_bounds {ts : ℤ} (dated : IsDated ts) :
    ts / 1000000 ≤ epochSeconds ts ∧ epochSeconds ts ≤ ts / 1000000 + 1 := by
  have below := le_nearestDouble dated.small (seconds_bounds ts).1
  have above := nearestDouble_le dated.small (seconds_bounds ts).2
  rw [epochSeconds, timestamp]
  split_ifs
  · exact ⟨Int.le_floor.mpr below, Int.floor_le_iff.mpr (by linarith)⟩
  · exact ⟨Int.le_ceil_iff.mpr (by linarith), Int.ceil_le.mpr above⟩

/-- The cut stays inside if and only if the seconds that are left are before the next
bucket. -/
theorem cutInside_iff {seconds ts : ℤ} (dated : IsDated ts) :
    CutInside seconds ts ↔ epochSeconds ts < nextBucket seconds ts := by
  rw [CutInside, epochSeconds]
  by_cases recent : 0 ≤ ts
  · have nonneg : 0 ≤ timestamp ts := by
      have zero : ((0 : ℤ) : ℚ) ≤ ts / 1000000 := by
        rw [Int.cast_zero]
        exact div_nonneg (by exact_mod_cast recent) (by norm_num)
      have rounded := le_nearestDouble dated.small zero
      rwa [Int.cast_zero] at rounded
    rw [if_pos recent, if_pos nonneg, Int.floor_lt]
  · have nonpos : timestamp ts ≤ 0 := by
      have zero : (ts / 1000000 : ℚ) ≤ ((0 : ℤ) : ℚ) := by
        rw [Int.cast_zero]
        exact div_nonpos_of_nonpos_of_nonneg (by exact_mod_cast (not_le.mp recent).le) (by norm_num)
      have rounded := nearestDouble_le dated.small zero
      rwa [Int.cast_zero] at rounded
    have cut : (if 0 ≤ timestamp ts then ⌊timestamp ts⌋ else ⌈timestamp ts⌉) = ⌈timestamp ts⌉ := by
      split_ifs with nonneg
      · rw [le_antisymm nonpos nonneg, Int.floor_zero, Int.ceil_zero]
      · rfl
    rw [if_neg recent, cut, ← Int.le_sub_one_iff, Int.ceil_le]
    push_cast
    rfl

/-- One microsecond before a minute of the year 2600, the double is that minute. -/
example : ¬ CutInside 60 19880933399999999 := by decide +kernel

theorem bucketStartFor_bounds {seconds ts : ℤ} (positive : 0 < seconds) (dated : IsDated ts) :
    (bucketStartFor seconds ts ≤ ts ↔ CutInside seconds ts) ∧
      ts < bucketStartFor seconds ts + seconds * 1000000 := by
  rcases epochSeconds_bounds dated with ⟨lower, upper⟩
  have smaller := Int.emod_lt_of_pos (epochSeconds ts) positive
  have aligned : epochSeconds ts - epochSeconds ts % seconds =
      epochSeconds ts / seconds * seconds := by
    have divided := Int.ediv_mul_add_emod (epochSeconds ts) seconds
    omega
  constructor
  · calc
      bucketStartFor seconds ts ≤ ts ↔ epochSeconds ts / seconds * seconds ≤ ts / 1000000 := by
        rw [bucketStartFor, aligned]
        omega
      _ ↔ epochSeconds ts / seconds < ts / 1000000 / seconds + 1 := by
        rw [← Int.le_ediv_iff_mul_le positive, Int.lt_add_one_iff]
      _ ↔ epochSeconds ts < nextBucket seconds ts := by
        rw [Int.ediv_lt_iff_lt_mul positive, nextBucket]
      _ ↔ CutInside seconds ts := (cutInside_iff dated).symm
  · rw [bucketStartFor]
    omega

/-! ## Bars and ticks -/

/-- The bars stand for consecutive groups of the ticks, one part for each stretch between
flushes. -/
structure AccountsFor (arrivals : List (Arrival Quote)) (candles : List AggregatedCandle)
    (parts : List (List (AggregatedCandle × List Quote))) : Prop where
  partition : parts.map (fun part => part.flatMap Prod.snd) = segments arrivals
  bars : parts.flatten.map Prod.fst = candles
  nonempty : ∀ bar ∈ parts.flatten, bar.2 ≠ []
  figures : ∀ bar ∈ parts.flatten, Summarizes bar.1 bar.2
  rollover : ∀ part ∈ parts, part.IsChain fun earlier later => earlier.1.ts ≠ later.1.ts

/-- Every tick lies in the bucket of the bar of its group. -/
def TicksInBucket (seconds : ℤ) (parts : List (List (AggregatedCandle × List Quote))) : Prop :=
  ∀ bar ∈ parts.flatten, ∀ quote ∈ bar.2, InBucket seconds bar.1 quote

namespace CandleAggregator

/-- The groups of a run with their bars. -/
def parts (aggregator : CandleAggregator) (arrivals : List (Arrival Quote)) :
    List (List (AggregatedCandle × List Quote)) :=
  (segments arrivals).map fun segment =>
    (segment.splitBy (sameKey (bucketOf aggregator.seconds))).map fun group =>
      (barOf aggregator group, group)

variable {aggregator : CandleAggregator}

theorem ts_barOf {group : List Quote} {quote : Quote}
    (uniform : Uniform (bucketOf aggregator.seconds) group) (mem : quote ∈ group) :
    (barOf aggregator group).ts = bucketOf aggregator.seconds quote := by
  cases group with
  | nil => exact absurd mem List.not_mem_nil
  | cons first rest => exact uniform first List.mem_cons_self quote mem

theorem mem_parts {arrivals : List (Arrival Quote)} {bar : AggregatedCandle × List Quote}
    (mem : bar ∈ (aggregator.parts arrivals).flatten) :
    bar.2 ∈ groups (bucketOf aggregator.seconds) arrivals ∧ bar.1 = barOf aggregator bar.2 := by
  rcases List.mem_flatten.mp mem with ⟨part, partMem, barMem⟩
  rcases List.mem_map.mp partMem with ⟨segment, segmentMem, rfl⟩
  rcases List.mem_map.mp barMem with ⟨group, groupMem, rfl⟩
  exact ⟨List.mem_flatMap_of_mem segmentMem groupMem, rfl⟩

theorem accountsFor_parts (aggregator : CandleAggregator) (arrivals : List (Arrival Quote)) :
    AccountsFor arrivals
      ((groups (bucketOf aggregator.seconds) arrivals).map (barOf aggregator))
      (aggregator.parts arrivals) where
  partition := by
    simp [parts, List.flatMap_map, Function.comp_def, List.flatMap_id']
  bars := by
    simp [parts, groups, List.flatMap_def, List.map_flatten, Function.comp_def]
  nonempty bar mem := ne_nil_of_mem_groups (mem_parts mem).1
  figures bar mem := by
    rcases mem_parts mem with ⟨groupMem, figures⟩
    rw [figures]
    exact summarizes_barOf aggregator (ne_nil_of_mem_groups groupMem)
  rollover part mem := by
    rcases List.mem_map.mp mem with ⟨segment, _, rfl⟩
    rw [List.isChain_map]
    apply (isChain_splitBy segment).imp_of_mem_imp
    intro earlier later earlierMem laterMem differ
    rcases List.exists_mem_of_ne_nil earlier (List.ne_nil_of_mem_splitBy earlierMem) with
      ⟨left, leftMem⟩
    rcases List.exists_mem_of_ne_nil later (List.ne_nil_of_mem_splitBy laterMem) with
      ⟨right, rightMem⟩
    rw [ts_barOf (uniform_of_mem_splitBy earlierMem) leftMem,
      ts_barOf (uniform_of_mem_splitBy laterMem) rightMem]
    exact differ left leftMem right rightMem

theorem ticksInBucket_parts (aggregator : CandleAggregator) {arrivals : List (Arrival Quote)}
    (dated : ∀ quote, .item quote ∈ arrivals → IsDated quote.ltt) :
    TicksInBucket aggregator.seconds (aggregator.parts arrivals) ↔
      ∀ quote, .item quote ∈ arrivals → CutInside aggregator.seconds quote.ltt := by
  have covered := (accountsFor_parts aggregator arrivals).partition
  have arrived : ∀ bar ∈ (aggregator.parts arrivals).flatten, ∀ quote ∈ bar.2,
      .item quote ∈ arrivals := by
    intro bar barMem quote quoteMem
    rw [← mem_flatten_segments, ← covered]
    rcases List.mem_flatten.mp barMem with ⟨part, partMem, inPart⟩
    exact List.mem_flatten_of_mem (List.mem_map_of_mem partMem)
      (List.mem_flatMap_of_mem inPart quoteMem)
  have bucketed : ∀ bar ∈ (aggregator.parts arrivals).flatten, ∀ quote ∈ bar.2,
      (InBucket aggregator.seconds bar.1 quote ↔ CutInside aggregator.seconds quote.ltt) := by
    intro bar barMem quote quoteMem
    rcases mem_parts barMem with ⟨groupMem, figures⟩
    rcases bucketStartFor_bounds aggregator.seconds_pos
      (dated quote (arrived bar barMem quote quoteMem)) with ⟨start, finish⟩
    rw [InBucket, figures, ts_barOf (uniform_of_mem_groups groupMem) quoteMem, ← start]
    exact and_iff_left finish
  constructor
  · intro inside quote mem
    rw [← mem_flatten_segments, ← covered] at mem
    rcases List.mem_flatten.mp mem with ⟨segment, segmentMem, quoteMem⟩
    rcases List.mem_map.mp segmentMem with ⟨part, partMem, rfl⟩
    rcases List.mem_flatMap.mp quoteMem with ⟨bar, barMem, quoteMem⟩
    have listed := List.mem_flatten_of_mem partMem barMem
    exact (bucketed bar listed quote quoteMem).mp (inside bar listed quote quoteMem)
  · intro regular bar barMem quote quoteMem
    apply (bucketed bar barMem quote quoteMem).mpr
    exact regular quote (arrived bar barMem quote quoteMem)

/-- One bar for each group, and every tick in its bar's bucket if and only if no trade time is
led out of its bucket; a run that raises instead has a trade time that is. -/
theorem run_accountsFor {instrumentKey : String} {interval : Interval}
    (created : create instrumentKey interval = .ok aggregator) {arrivals : List (Arrival Quote)}
    (keyed : ∀ quote, .item quote ∈ arrivals → quote.instrumentKey = instrumentKey)
    (dated : ∀ quote, .item quote ∈ arrivals → IsDated quote.ltt) :
    (∃ final candles parts, aggregator.run (arrivals ++ [.flush]) = .ok (final, candles) ∧
      AccountsFor arrivals candles parts ∧
      (TicksInBucket aggregator.seconds parts ↔
        ∀ quote, .item quote ∈ arrivals → CutInside aggregator.seconds quote.ltt)) ∨
    aggregator.run (arrivals ++ [.flush]) = .error (.yearOutOfRange 10000) ∧
      ¬ ∀ quote, .item quote ∈ arrivals → CutInside aggregator.seconds quote.ltt := by
  rcases holds_of_create created with ⟨ownKey, _⟩
  have own : ∀ quote, .item quote ∈ arrivals → quote.instrumentKey = aggregator.instrumentKey :=
    fun quote mem => (keyed quote mem).trans ownKey.symm
  by_cases fits : ∀ quote, .item quote ∈ arrivals →
      bucketOf aggregator.seconds quote < datetimeEnd
  · rcases run_of_create created fun quote mem => ⟨own quote mem, fits quote mem⟩ with ⟨final, ran⟩
    exact .inl ⟨final, _, aggregator.parts arrivals, ran,
      accountsFor_parts aggregator arrivals, ticksInBucket_parts aggregator dated⟩
  · simp only [not_forall, not_lt] at fits
    rcases fits with ⟨late, mem, outside⟩
    refine .inr ⟨run_raises ?_ (List.mem_append_left _ mem) outside, fun inside => ?_⟩
    · intro quote flushed
      apply own quote
      simpa using flushed
    · have start := (bucketStartFor_bounds aggregator.seconds_pos (dated late mem)).1.mpr
        (inside late mem)
      exact absurd (outside.trans start) (not_le.mpr (dated late mem).upper)

/-- A new aggregator of one-minute bars. -/
def minuteBars : CandleAggregator where
  instrumentKey := "NSE_EQ|X"
  interval := .m1
  buildable := rfl

/-- Two ticks of a minute, a flush and a tick of the next minute. -/
theorem run_accountsFor_sample :
    let arrivals := [.item ⟨"NSE_EQ|X", 100, 10, 0⟩, .item ⟨"NSE_EQ|X", 105, 5, 20000000⟩,
      .flush, .item ⟨"NSE_EQ|X", 98, 7, 60000000⟩]
    ∃ final candles parts, minuteBars.run (arrivals ++ [.flush]) = .ok (final, candles) ∧
      AccountsFor arrivals candles parts ∧ TicksInBucket minuteBars.seconds parts := by
  intro arrivals
  have ticks : ∀ quote, .item quote ∈ arrivals →
      quote.instrumentKey = "NSE_EQ|X" ∧ IsDated quote.ltt ∧ CutInside 60 quote.ltt := by
    intro quote mem
    simp only [arrivals, List.mem_cons, Arrival.item.injEq, reduceCtorEq, List.not_mem_nil,
      or_false, false_or] at mem
    rcases mem with rfl | rfl | rfl <;>
      exact ⟨rfl, ⟨by decide, by decide⟩, by decide +kernel⟩
  rcases run_accountsFor (rfl : create "NSE_EQ|X" .m1 = .ok minuteBars)
    (fun quote mem => (ticks quote mem).1) (fun quote mem => (ticks quote mem).2.1) with
    ⟨final, candles, parts, ran, accounts, inside⟩ | ⟨_, outside⟩
  · exact ⟨final, candles, parts, ran, accounts, inside.mpr fun quote mem => (ticks quote mem).2.2⟩
  · exact absurd (fun quote mem => (ticks quote mem).2.2) outside

/-- A bar that starts after the trade of its only tick has it outside its bucket. -/
theorem not_inBucket_of_single {seconds : ℤ} {quote : Quote} {candle : AggregatedCandle}
    (late : quote.ltt < candle.ts) :
    ¬ ∃ parts, AccountsFor [.item quote] [candle] parts ∧ TicksInBucket seconds parts := by
  rintro ⟨parts, accounts, inside⟩
  have covered := accounts.partition
  simp only [segments, List.modifyHead_cons] at covered
  rcases List.map_eq_singleton_iff.mp covered with ⟨part, rfl, ticks⟩
  have bars := accounts.bars
  rw [List.flatten_singleton] at bars
  rcases List.map_eq_singleton_iff.mp bars with ⟨bar, rfl, rfl⟩
  simp only [List.flatMap_cons, List.flatMap_nil, List.append_nil] at ticks
  have early := (inside bar (by simp) quote (by rw [ticks]; exact List.mem_singleton_self _)).1
  exact absurd early (not_le.mpr late)

/-- A single trade of some time, and the bar that a flush makes of it: the trade is not in the
bucket of the bar. -/
def Escapes (ts : ℤ) : Prop :=
  let arrivals := [.item ⟨"NSE_EQ|X", 100, 10, ts⟩]
  ∃ candles, (minuteBars.run (arrivals ++ [.flush])).map Prod.snd = .ok candles ∧
    ¬ ∃ parts, AccountsFor arrivals candles parts ∧ TicksInBucket minuteBars.seconds parts

/-- A trade half a second before the epoch is aggregated into the minute after it, and so is
the trade one microsecond before a minute of the year 2600, whose double is that minute. -/
theorem lastSecond_escapes : Escapes (-500000) ∧ Escapes 19880933399999999 := by
  have bars : ∀ ts ∈ [-500000, 19880933399999999],
      (minuteBars.run [.item ⟨"NSE_EQ|X", 100, 10, ts⟩, .flush]).map Prod.snd =
        .ok [⟨"NSE_EQ|X", .m1, (ts / 60000000 + 1) * 60000000, 100, 100, 100, 100, 10⟩] := by
    decide +kernel
  have late : ∀ ts ∈ [-500000, 19880933399999999], Escapes ts := by
    intro ts mem
    refine ⟨_, bars ts mem, not_inBucket_of_single ?_⟩
    change ts < (ts / 60000000 + 1) * 60000000
    omega
  exact ⟨late _ (.head _), late _ (.tail _ (.head _))⟩

end CandleAggregator

end PersonalTrade
