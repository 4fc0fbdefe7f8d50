import PersonalTrade.Core.TradingDays

/-!
# Market hours

The functions of `core/calendar.py` that read a time of day in IST. A time is its number of
microseconds since the epoch, the resolution of a `datetime`.
-/

namespace PersonalTrade

/-- Microseconds of a day, of an hour and of a minute. -/
def dayUs : ℤ := 86400000000
def hourUs : ℤ := 3600000000
def minuteUs : ℤ := 60000000

/-- IST is half an hour past five hours ahead of UTC. -/
def istOffsetUs : ℤ := 5 * hourUs + 30 * minuteUs

/-- `ts_utc.astimezone(IST).date()`. -/
def istDate (time : ℤ) : ℤ := (time + istOffsetUs) / dayUs

/-- `ts_utc.astimezone(IST).time()`, since midnight. -/
def istClock (time : ℤ) : ℤ := (time + istOffsetUs) % dayUs

/-- `datetime.combine(date, clock, tzinfo=IST)`, in UTC. -/
def istCombine (date clock : ℤ) : ℤ := date * dayUs + clock - istOffsetUs

/-- `MARKET_OPEN` and `MARKET_CLOSE`. -/
def marketOpen : ℤ := 9 * hourUs + 15 * minuteUs
def marketClose : ℤ := 15 * hourUs + 30 * minuteUs

/-- `is_open_at`. -/
def NSECalendar.isOpenAt (calendar : NSECalendar) (time : ℤ) : Bool :=
  calendar.isTradingDay (istDate time) && marketOpen ≤ istClock time && istClock time ≤ marketClose

/-- `ist_week_start_utc`. -/
def istWeekStartUtc (time : ℤ) : ℤ := istCombine (istDate time - weekday (istDate time)) 0

/-- `UPSTOX_TOKEN_EXPIRY_TIME`. -/
def upstoxTokenExpiryTime : ℤ := 3 * hourUs + 30 * minuteUs

/-- `upstox_token_expiry_utc`. -/
def upstoxTokenExpiryUtc (obtainedAt : ℤ) : ℤ :=
  let candidate := istCombine (istDate obtainedAt) upstoxTokenExpiryTime
  if candidate ≤ obtainedAt then candidate + dayUs else candidate

/-- The expiry of a token is the first half past three in the morning, IST, after it was
obtained. -/
theorem isLeast_upstoxTokenExpiryUtc (obtainedAt : ℤ) :
    IsLeast {time | obtainedAt < time ∧ istClock time = upstoxTokenExpiryTime}
      (upstoxTokenExpiryUtc obtainedAt) := by
  unfold upstoxTokenExpiryUtc istCombine istDate istClock upstoxTokenExpiryTime istOffsetUs dayUs
    hourUs minuteUs
  simp only
  constructor
  · simp only [Set.mem_ofPred_eq]
    split_ifs <;> omega
  · rintro time ⟨later, clock⟩
    split_ifs <;> omega

end PersonalTrade
