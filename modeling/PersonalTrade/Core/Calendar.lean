import PersonalTrade.Core.Config

/-!
# Dates

A date is its number of days since the epoch. `core/calendar.py` counts the days of
the exchange in IST; the bounds of a backtest and the partitions of the candle store
count them in UTC.
-/

namespace PersonalTrade

/-- The UTC date of a time. -/
def utcDate (time : ℤ) : ℤ := time / dayMs

/-- `ist_trading_date`. -/
def istTradingDate (time : ℤ) : ℤ := (time + istOffsetMs) / dayMs

/-- `datetime.combine(date, datetime.min.time(), tzinfo=UTC)`. -/
def dayStart (date : ℤ) : ℤ := date * dayMs

/-- `datetime.combine(date, datetime.max.time(), tzinfo=UTC)`, the last millisecond of the
day. -/
def dayEnd (date : ℤ) : ℤ := (date + 1) * dayMs - 1

/-- The year of the first of March on or before a date, and the days since then. A cycle of 400
years has 146097 days, and its years are counted from March, so that a leap day ends its year. -/
def sinceMarch (date : ℤ) : ℤ × ℤ :=
  let shifted := date + 719468
  let dayOfEra := shifted % 146097
  let yearOfEra := (dayOfEra - dayOfEra / 1460 + dayOfEra / 36524 - dayOfEra / 146096) / 365
  (shifted / 146097 * 400 + yearOfEra,
    dayOfEra - (365 * yearOfEra + yearOfEra / 4 - yearOfEra / 100))

/-- The year of a date in the Gregorian calendar. -/
def yearOf (date : ℤ) : ℤ :=
  let (year, days) := sinceMarch date
  if days < 306 then year else year + 1

/-- The day of its month of a date; five months from March on have 153 days. -/
def dayOfMonth (date : ℤ) : ℤ :=
  let days := (sinceMarch date).2
  days - (153 * ((5 * days + 2) / 153) + 2) / 5 + 1

-- The last day of 2023, and the days around the leap day of 2024.
example : [19722, 19723, 19781, 19782, 20088, 20089].map yearOf =
    [2023, 2024, 2024, 2024, 2024, 2025] := by decide

example : [19722, 19723, 19781, 19782, 20088, 20089].map dayOfMonth = [31, 1, 28, 29, 31, 1] := by
  decide

theorem dayStart_le_iff {date time : ℤ} : dayStart date ≤ time ↔ date ≤ utcDate time := by
  unfold dayStart utcDate dayMs
  omega

theorem le_dayEnd_iff {date time : ℤ} : time ≤ dayEnd date ↔ utcDate time ≤ date := by
  unfold dayEnd utcDate dayMs
  omega

/-- Time in UTC at which the trading day of the next date begins. -/
def rolloverMs : ℤ := dayMs - istOffsetMs

/-- A trading day begins in the evening of the UTC day before it. -/
theorem istTradingDate_eq (time : ℤ) : istTradingDate time =
    if rolloverMs ≤ time % dayMs then utcDate time + 1 else utcDate time := by
  unfold istTradingDate utcDate rolloverMs dayMs istOffsetMs
  split_ifs <;> omega

end PersonalTrade
