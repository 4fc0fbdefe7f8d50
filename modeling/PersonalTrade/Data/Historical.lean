import PersonalTrade.Data.CandleFrame
import PersonalTrade.Library.Except
import PersonalTrade.Library.Tiling

/-!
# Historical candles

The request loop of `data/providers/upstox.py`: a range of dates is fetched backwards in
windows of the interval's chunk size. A date has the range of `datetime.date`, so that
stepping before its first day raises.
-/

namespace PersonalTrade

/-- `date.min`, as its number of days since the epoch. -/
def dateMin : ℤ := -719162

/-- `date.max`. -/
def dateMax : ℤ := 2932896

/-- A `date`. -/
structure Date where
  day : ℤ
  dateMin_le : dateMin ≤ day
  le_dateMax : day ≤ dateMax
deriving DecidableEq

namespace Date

theorem ext_day {left right : Date} (same : left.day = right.day) : left = right := by
  cases left
  cases right
  congr

instance : LinearOrder Date := LinearOrder.lift' day fun _ _ => ext_day

theorem le_def {left right : Date} : left ≤ right ↔ left.day ≤ right.day := .rfl

theorem day_max (left right : Date) : (max left right).day = max left.day right.day := by
  rcases le_total left right with below | above
  · rw [max_eq_right below, max_eq_right (le_def.mp below)]
  · rw [max_eq_left above, max_eq_left (le_def.mp above)]

/-- `date - timedelta(days)`. -/
def subDays (date : Date) (days : ℤ) : Except PyError Date :=
  if within : dateMin ≤ date.day - days ∧ date.day - days ≤ dateMax then
    .ok ⟨date.day - days, within.1, within.2⟩
  else .error .overflowError

theorem subDays_eq_ok {date earlier : Date} {days : ℤ} :
    date.subDays days = .ok earlier ↔ earlier.day = date.day - days := by
  rw [subDays]
  split_ifs with within
  · simp only [Except.ok.injEq]
    constructor
    · rintro rfl
      rfl
    · intro same
      exact ext_day same.symm
  · simp only [false_iff]
    intro same
    exact within ⟨same ▸ earlier.dateMin_le, same ▸ earlier.le_dateMax⟩

/-- Stepping back raises exactly before the first day. -/
theorem subDays_eq_error {date : Date} {days : ℤ} {raised : PyError} (back : 0 ≤ days) :
    date.subDays days = .error raised ↔ date.day - days < dateMin ∧ raised = .overflowError := by
  have last := date.le_dateMax
  rw [subDays]
  split_ifs with within
  · simp only [false_iff, not_and]
    omega
  · simp only [Except.error.injEq, eq_comm, iff_and_self]
    omega

end Date

/-- The chunk of `_INTERVAL_MAP`: the most days of one request. -/
def Interval.chunkDays : Interval → ℤ
  | .d1 => 365
  | .m15 => 30
  | .m1 => 7

theorem Interval.chunkDays_pos (interval : Interval) : 0 < interval.chunkDays := by
  cases interval <;> decide

/-- The request of `_fetch_chunk`, given by its first and its last date: a frame, or what it
raises. -/
abbrev FetchChunk := Date → Date → Except PyError (List CandleRow)

/-- What a loop has asked for, in order, and the frames or the exception that it ends with. -/
structure Requested where
  windows : List Window
  outcome : Except PyError (List (List CandleRow))

/-- A request before those of the rest of the loop. -/
def Requested.after (chunkStart chunkEnd : Date) (rest : Requested) : Requested :=
  { rest with windows := ⟨chunkStart.day, chunkEnd.day⟩ :: rest.windows }

/-- The loop of `get_historical_candles`, from the frames fetched so far. -/
def requestChunks (fetch : FetchChunk) (interval : Interval) (fromDate chunkEnd : Date)
    (frames : List (List CandleRow)) : Requested :=
  if _inRange : fromDate ≤ chunkEnd then
    match _reached : chunkEnd.subDays (interval.chunkDays - 1) with
    | .error raised => ⟨[], .error raised⟩
    | .ok earliest =>
        match fetch (max fromDate earliest) chunkEnd with
        | .error raised => .after (max fromDate earliest) chunkEnd ⟨[], .error raised⟩
        | .ok frame =>
            match _stepped : (max fromDate earliest).subDays 1 with
            | .error raised => .after (max fromDate earliest) chunkEnd ⟨[], .error raised⟩
            | .ok chunkEnd' => .after (max fromDate earliest) chunkEnd
                (requestChunks fetch interval fromDate chunkEnd' (frames ++ [frame]))
  else ⟨[], .ok frames⟩
termination_by (chunkEnd.day - fromDate.day + 1).toNat
decreasing_by
  have positive := interval.chunkDays_pos
  have start := Date.day_max fromDate earliest
  rw [Date.subDays_eq_ok] at _reached _stepped
  rw [Date.le_def] at _inRange
  omega

/-- `get_historical_candles`: the windows that it requests, and what it returns. -/
def getHistoricalCandles (fetch : FetchChunk) (interval : Interval) (fromDate toDate : Date) :
    List Window × Except PyError (List CandleRow) :=
  if toDate < fromDate then
    ([], .error (.marketDataError (.reversedRange toDate.day fromDate.day)))
  else
    let requested := requestChunks fetch interval fromDate toDate []
    (requested.windows, requested.outcome.map fun frames => normalizeCandleFrame frames.flatten)

/-- The loop steps back from its last window by a day, and reaches back from each by a whole
chunk; both stay within the calendar. -/
def StaysInCalendar (interval : Interval) (fromDate chunkEnd : Date) : Prop :=
  dateMin < fromDate.day ∧
    dateMin + (interval.chunkDays - 1) ≤
      chunkEnd.day - (chunkEnd.day - fromDate.day) / interval.chunkDays * interval.chunkDays

section Loop

variable {fetch : FetchChunk} {interval : Interval} {fromDate chunkEnd : Date}
  (frames : List (List CandleRow))

theorem requestChunks_of_passed (passed : chunkEnd < fromDate) :
    requestChunks fetch interval fromDate chunkEnd frames = ⟨[], .ok frames⟩ := by
  rw [requestChunks, dif_neg (not_le.mpr passed)]

/-- One turn of the loop, when the request is answered. -/
theorem requestChunks_turn (answered : ∀ first last, ∃ frame, fetch first last = .ok frame)
    (inRange : fromDate ≤ chunkEnd) :
    (∃ chunkStart chunkEnd' frame, dateMin ≤ chunkEnd.day - (interval.chunkDays - 1) ∧
        chunkStart.day = max fromDate.day (chunkEnd.day - (interval.chunkDays - 1)) ∧
        chunkEnd'.day = chunkStart.day - 1 ∧
        requestChunks fetch interval fromDate chunkEnd frames = .after chunkStart chunkEnd
          (requestChunks fetch interval fromDate chunkEnd' (frames ++ [frame]))) ∨
      ((chunkEnd.day - (interval.chunkDays - 1) < dateMin ∨ fromDate.day = dateMin ∧
        chunkEnd.day - (interval.chunkDays - 1) ≤ dateMin) ∧
        (requestChunks fetch interval fromDate chunkEnd frames).outcome =
          .error .overflowError) := by
  have positive := interval.chunkDays_pos
  rw [requestChunks, dif_pos inRange]
  split
  · rename_i raised reached
    rcases (Date.subDays_eq_error (by omega)).mp reached with ⟨before, rfl⟩
    exact .inr ⟨.inl before, rfl⟩
  · rename_i earliest reached
    have start := Date.day_max fromDate earliest
    rw [Date.subDays_eq_ok.mp reached] at start
    rcases answered (max fromDate earliest) chunkEnd with ⟨frame, ok⟩
    simp only [ok]
    split
    · rename_i raised stepped
      rcases (Date.subDays_eq_error (by omega)).mp stepped with ⟨before, rfl⟩
      have first := fromDate.dateMin_le
      refine .inr ⟨.inr ?_, rfl⟩
      omega
    · rename_i chunkEnd' stepped
      have first := earliest.dateMin_le
      rw [Date.subDays_eq_ok.mp reached] at first
      exact .inl ⟨_, _, frame, first, start, Date.subDays_eq_ok.mp stepped, rfl⟩

/-- A turn that is not the last one keeps the end of the last window. -/
theorem staysInCalendar_step {chunkEnd' : Date}
    (start : chunkEnd'.day =
      max fromDate.day (chunkEnd.day - (interval.chunkDays - 1)) - 1)
    (inRange : fromDate ≤ chunkEnd') :
    StaysInCalendar interval fromDate chunkEnd' ↔ StaysInCalendar interval fromDate chunkEnd := by
  rw [Date.le_def] at inRange
  cases interval <;>
    · simp only [StaysInCalendar, Interval.chunkDays] at *
      omega

/-- Within the calendar the loop returns, and its windows are laid from the end of the range down
to its start. -/
theorem requestChunks_tiles (answered : ∀ first last, ∃ frame, fetch first last = .ok frame)
    (stays : fromDate ≤ chunkEnd → StaysInCalendar interval fromDate chunkEnd) :
    (∃ fetched, (requestChunks fetch interval fromDate chunkEnd frames).outcome = .ok fetched) ∧
      TilesDown interval.chunkDays fromDate.day chunkEnd.day
        (requestChunks fetch interval fromDate chunkEnd frames).windows := by
  have positive := interval.chunkDays_pos
  -- the range that is left gets shorter by a day or more
  induction length : (chunkEnd.day - fromDate.day + 1).toNat using Nat.strong_induction_on
    generalizing chunkEnd frames with
  | _ _ ih =>
    rcases lt_or_ge chunkEnd fromDate with passed | inRange
    · rw [requestChunks_of_passed frames passed]
      exact ⟨⟨frames, rfl⟩, .done passed⟩
    · have order := Date.le_def.mp inRange
      rcases @requestChunks_turn fetch interval fromDate chunkEnd frames answered inRange with
        ⟨chunkStart, chunkEnd', frame, reached, start, stepped, turn⟩ | ⟨leaves, _⟩
      · have later : fromDate ≤ chunkEnd' → StaysInCalendar interval fromDate chunkEnd' :=
          fun remaining => (staysInCalendar_step (by omega) remaining).mpr (stays inRange)
        rcases ih _ (by omega) (frames ++ [frame]) later rfl with
          ⟨⟨fetched, ok⟩, tiles⟩
        rw [turn]
        refine ⟨⟨fetched, ok⟩, .next (by omega) (by omega) (by omega) ?_⟩
        rw [← stepped]
        exact tiles
      · have within := stays inRange
        exfalso
        cases interval <;>
          · simp only [StaysInCalendar, Interval.chunkDays] at *
            omega

/-- Otherwise the loop raises. -/
theorem requestChunks_overflows (answered : ∀ first last, ∃ frame, fetch first last = .ok frame)
    (inRange : fromDate ≤ chunkEnd) (leaves : ¬ StaysInCalendar interval fromDate chunkEnd) :
    (requestChunks fetch interval fromDate chunkEnd frames).outcome = .error .overflowError := by
  have positive := interval.chunkDays_pos
  induction length : (chunkEnd.day - fromDate.day + 1).toNat using Nat.strong_induction_on
    generalizing chunkEnd frames with
  | _ _ ih =>
    have order := Date.le_def.mp inRange
    rcases @requestChunks_turn fetch interval fromDate chunkEnd frames answered inRange with
      ⟨chunkStart, chunkEnd', frame, reached, start, stepped, turn⟩ | ⟨_, raised⟩
    · rw [turn]
      have first := fromDate.dateMin_le
      have within := chunkEnd'.dateMin_le
      have remaining : fromDate ≤ chunkEnd' := by
        rw [Date.le_def]
        by_contra last
        apply leaves
        cases interval <;>
          · simp only [StaysInCalendar, Interval.chunkDays] at *
            omega
      exact ih _ (by omega) _ remaining
        (fun stays => leaves ((staysInCalendar_step (by omega) remaining).mp stays)) rfl
    · exact raised

end Loop

/-- When all requests are answered, the loop returns after requesting windows that tile the range
if and only if it stays within the calendar. -/
theorem getHistoricalCandles_tiles_iff {fetch : FetchChunk} {interval : Interval}
    {fromDate toDate : Date} (answered : ∀ first last, ∃ frame, fetch first last = .ok frame)
    (ordered : fromDate ≤ toDate) :
    (∃ frame, (getHistoricalCandles fetch interval fromDate toDate).2 = .ok frame) ∧
        Tiling interval.chunkDays fromDate.day toDate.day
          (getHistoricalCandles fetch interval fromDate toDate).1 ↔
      StaysInCalendar interval fromDate toDate := by
  rw [getHistoricalCandles, if_neg (not_lt.mpr ordered)]
  simp only
  constructor
  · rintro ⟨⟨frame, returned⟩, _⟩
    by_contra leaves
    rw [requestChunks_overflows [] answered ordered leaves] at returned
    cases returned
  · intro stays
    rcases requestChunks_tiles [] answered fun _ => stays with ⟨⟨fetched, ok⟩, tiles⟩
    rw [ok]
    exact ⟨⟨_, rfl⟩, tiles.tiling⟩

/-- Every request is answered with an empty frame. -/
def emptyAnswers : FetchChunk := fun _ _ => .ok []

/-- New Year's Day of 2024, and nine days later. -/
def newYear : Date := ⟨19723, by decide, by decide⟩
def tenthOfJanuary : Date := ⟨19732, by decide, by decide⟩

theorem getHistoricalCandles_tiles_iff_sample :
    (∃ frame, (getHistoricalCandles emptyAnswers .m1 newYear tenthOfJanuary).2 = .ok frame) ∧
      Tiling 7 19723 19732 (getHistoricalCandles emptyAnswers .m1 newYear tenthOfJanuary).1 := by
  refine (getHistoricalCandles_tiles_iff (fun _ _ => ⟨[], rfl⟩) ?_).mpr ?_
  · exact Date.le_def.mpr (by decide)
  · exact ⟨by decide, by decide⟩

/-- The first day of the calendar. -/
def firstDate : Date := ⟨dateMin, le_rfl, by decide⟩

/-- On the first day of the calendar the chunk reaches back before it, and nothing is requested. -/
theorem firstDate_overflows :
    getHistoricalCandles emptyAnswers .d1 firstDate firstDate = ([], .error .overflowError) ∧
      ¬ ((∃ frame, (getHistoricalCandles emptyAnswers .d1 firstDate firstDate).2 = .ok frame) ∧
        Tiling 365 firstDate.day firstDate.day
          (getHistoricalCandles emptyAnswers .d1 firstDate firstDate).1) := by
  have raised : getHistoricalCandles emptyAnswers .d1 firstDate firstDate =
      ([], .error .overflowError) := by
    have back : firstDate.subDays (Interval.d1.chunkDays - 1) = .error .overflowError := rfl
    rw [getHistoricalCandles, if_neg (lt_irrefl _), requestChunks, dif_pos le_rfl]
    split
    · rename_i raised reached
      rw [back, Except.error.injEq] at reached
      rw [← reached]
      rfl
    · rename_i earliest reached
      rw [back] at reached
      cases reached
  refine ⟨raised, ?_⟩
  rintro ⟨⟨frame, returned⟩, _⟩
  rw [raised] at returned
  cases returned

end PersonalTrade
