import PersonalTrade.Core.Calendar
import PersonalTrade.Library.Search

/-!
# Trading days

`NSECalendar` of `core/calendar.py`, on dates counted as integers. The loops that look for the next
and the previous trading day have no bound. They end because among three days in a row there is a
weekday, so that a stretch without a trading day uses up a holiday for every three of its days.
-/

namespace PersonalTrade

structure NSECalendar where
  holidays : Finset ℤ

/-- `date.weekday()`; the epoch is a Thursday. -/
def weekday (date : ℤ) : ℤ := (date + 3) % 7

namespace NSECalendar

/-- `is_trading_day`. -/
def isTradingDay (calendar : NSECalendar) (date : ℤ) : Bool :=
  weekday date < 5 ∧ date ∉ calendar.holidays

/-- The loop of `trading_days_between`. -/
def tradingDaysFrom (calendar : NSECalendar) (last current : ℤ) : List ℤ :=
  if current ≤ last then
    if calendar.isTradingDay current then current :: calendar.tradingDaysFrom last (current + 1)
    else calendar.tradingDaysFrom last (current + 1)
  else []
termination_by (last + 1 - current).toNat
decreasing_by all_goals omega

/-- `trading_days_between`. -/
def tradingDaysBetween (calendar : NSECalendar) (start last : ℤ) : List ℤ :=
  if last < start then [] else calendar.tradingDaysFrom last start

/-- `previous_trading_day`, with a bound on the tests of its loop. -/
def previousTradingDay (calendar : NSECalendar) (fuel : ℕ) (date : ℤ) : Option ℤ :=
  searchFrom calendar.isTradingDay (· - 1) fuel (date - 1)

/-- `next_trading_day`, with a bound on the tests of its loop. -/
def nextTradingDay (calendar : NSECalendar) (fuel : ℕ) (date : ℤ) : Option ℤ :=
  searchFrom calendar.isTradingDay (· + 1) fuel (date + 1)

-- A holiday on a Friday: the next trading day after Thursday, the first of January 1970, is Monday.
example : nextTradingDay ⟨{1}⟩ 4 0 = some 4 ∧ previousTradingDay ⟨{1}⟩ 4 4 = some 0 := by decide

/-- A number of tests that always suffices. -/
def searchBound (calendar : NSECalendar) : ℕ := 3 * (calendar.holidays.card + 1)

variable {calendar : NSECalendar} {date day : ℤ}

theorem isTradingDay_iff : calendar.isTradingDay day = true ↔
    weekday day < 5 ∧ day ∉ calendar.holidays := by
  simp [isTradingDay]

/-! ## The searches end -/

/-- The first weekday of the three days from a date on, in a direction. -/
def firstWeekday (direction date : ℤ) : ℤ :=
  if weekday date < 5 then date
  else if weekday (date + direction) < 5 then date + direction
  else date + direction * 2

theorem weekday_firstWeekday {direction : ℤ} (oneWay : direction = 1 ∨ direction = -1) (date : ℤ) :
    weekday (firstWeekday direction date) < 5 := by
  unfold firstWeekday weekday
  split_ifs with first second
  · exact first
  · exact second
  · rcases oneWay with rfl | rfl <;> omega

theorem exists_firstWeekday (direction date : ℤ) :
    ∃ offset : ℕ, offset < 3 ∧ firstWeekday direction date = date + direction * offset := by
  unfold firstWeekday
  split_ifs
  · exact ⟨0, by omega, by simp⟩
  · exact ⟨1, by omega, by simp⟩
  · exact ⟨2, by omega, by simp⟩

/-- Within the bound there is a trading day on either side. -/
theorem exists_tradingDay (calendar : NSECalendar) {direction : ℤ}
    (oneWay : direction = 1 ∨ direction = -1) (start : ℤ) :
    ∃ count < calendar.searchBound,
      calendar.isTradingDay (start + direction * (count : ℤ)) = true := by
  by_contra missing
  push Not at missing
  -- otherwise the first weekdays of the triples of days are more holidays than there are
  let weekdayOf (triple : ℕ) : ℤ := firstWeekday direction (start + direction * (3 * triple : ℕ))
  have shown : ∀ triple, ∃ offset : ℕ, offset < 3 ∧
      weekdayOf triple = start + direction * (3 * triple + offset : ℕ) := by
    intro triple
    rcases exists_firstWeekday direction (start + direction * (3 * triple : ℕ)) with
      ⟨offset, small, first⟩
    refine ⟨offset, small, first.trans ?_⟩
    push_cast
    ring
  have holiday : ∀ triple ∈ Finset.range (calendar.holidays.card + 1),
      weekdayOf triple ∈ calendar.holidays := by
    intro triple mem
    rcases shown triple with ⟨offset, small, first⟩
    have within : 3 * triple + offset < calendar.searchBound := by
      have := Finset.mem_range.mp mem
      unfold searchBound
      omega
    have closed := missing (3 * triple + offset) within
    rw [← first, Ne, isTradingDay_iff, not_and_not_right] at closed
    exact closed (weekday_firstWeekday oneWay _)
  have injective : Set.InjOn weekdayOf (Finset.range (calendar.holidays.card + 1)) := by
    intro triple _ triple' _ same
    rcases shown triple with ⟨offset, small, first⟩
    rcases shown triple' with ⟨offset', small', first'⟩
    rw [first, first'] at same
    rcases oneWay with rfl | rfl <;> omega
  have counted := Finset.card_le_card_of_injOn weekdayOf holiday injective
  rw [Finset.card_range] at counted
  omega

theorem iterate_add (count : ℕ) (start : ℤ) : (· + 1)^[count] start = start + 1 * (count : ℤ) := by
  simp [add_right_iterate]

theorem iterate_sub (count : ℕ) (start : ℤ) :
    (· - 1)^[count] start = start + -1 * (count : ℤ) := by
  simp only [sub_eq_add_neg, add_right_iterate]
  simp

/-- `next_trading_day` ends at the least later trading day. -/
theorem nextTradingDay_isLeast (calendar : NSECalendar) (date : ℤ) :
    ∃ next, (∀ fuel ≥ calendar.searchBound, calendar.nextTradingDay fuel date = some next) ∧
      IsLeast {day | date < day ∧ calendar.isTradingDay day = true} next := by
  rcases calendar.exists_tradingDay (.inl rfl) (date + 1) with ⟨count, within, trading⟩
  rw [← iterate_add] at trading
  rcases exists_endsAfter trading with ⟨steps, upTo, ends⟩
  refine ⟨_, fun fuel enough => searchFrom_of_endsAfter ends (by omega), ⟨?_, ends.accepted⟩, ?_⟩
  · rw [iterate_add]
    omega
  · rintro day ⟨later, open_⟩
    by_contra before
    rw [iterate_add] at before
    have rejected := ends.first (day - (date + 1)).toNat (by omega)
    rw [iterate_add, Int.toNat_of_nonneg (by omega), one_mul, add_sub_cancel, open_] at rejected
    cases rejected

/-- `previous_trading_day` ends at the greatest earlier trading day. -/
theorem previousTradingDay_isGreatest (calendar : NSECalendar) (date : ℤ) :
    ∃ previous,
      (∀ fuel ≥ calendar.searchBound, calendar.previousTradingDay fuel date = some previous) ∧
      IsGreatest {day | day < date ∧ calendar.isTradingDay day = true} previous := by
  rcases calendar.exists_tradingDay (.inr rfl) (date - 1) with ⟨count, within, trading⟩
  rw [← iterate_sub] at trading
  rcases exists_endsAfter trading with ⟨steps, upTo, ends⟩
  refine ⟨_, fun fuel enough => searchFrom_of_endsAfter ends (by omega), ⟨?_, ends.accepted⟩, ?_⟩
  · rw [iterate_sub]
    omega
  · rintro day ⟨earlier, open_⟩
    by_contra after
    rw [iterate_sub] at after
    have rejected := ends.first (date - 1 - day).toNat (by omega)
    rw [iterate_sub, Int.toNat_of_nonneg (by omega), neg_one_mul, neg_sub, add_sub_cancel,
      open_] at rejected
    cases rejected

/-! ## Neighbours -/

/-- The trading day before the next one. -/
theorem isGreatest_before_next {next previous : ℤ} (trading : calendar.isTradingDay date = true)
    (least : IsLeast {day | date < day ∧ calendar.isTradingDay day = true} next)
    (greatest : IsGreatest {day | day < next ∧ calendar.isTradingDay day = true} previous) :
    previous = date := by
  apply le_antisymm
  · by_contra later
    exact absurd (least.2 ⟨not_le.mp later, greatest.1.2⟩) (not_le.mpr greatest.1.1)
  · exact greatest.2 ⟨least.1.1, trading⟩

/-- The trading day after the previous one. -/
theorem isLeast_after_previous {next previous : ℤ} (trading : calendar.isTradingDay date = true)
    (greatest : IsGreatest {day | day < date ∧ calendar.isTradingDay day = true} previous)
    (least : IsLeast {day | previous < day ∧ calendar.isTradingDay day = true} next) :
    next = date := by
  apply le_antisymm
  · exact least.2 ⟨greatest.1.1, trading⟩
  · by_contra earlier
    exact absurd (greatest.2 ⟨not_le.mp earlier, least.1.2⟩) (not_le.mpr least.1.1)

/-! ## Ranges -/

theorem mem_tradingDaysFrom {last current : ℤ} : day ∈ calendar.tradingDaysFrom last current ↔
    current ≤ day ∧ day ≤ last ∧ calendar.isTradingDay day = true := by
  fun_induction calendar.tradingDaysFrom last current with
  | case1 current within trading ih =>
      rw [List.mem_cons, ih]
      constructor
      · rintro (rfl | later)
        · exact ⟨le_rfl, within, trading⟩
        · exact ⟨by omega, later.2⟩
      · rintro ⟨from_, upTo, open_⟩
        rcases eq_or_lt_of_le from_ with rfl | later
        · exact .inl rfl
        · exact .inr ⟨later, upTo, open_⟩
  | case2 current within closed ih =>
      rw [ih]
      constructor
      · rintro ⟨later, rest⟩
        exact ⟨by omega, rest⟩
      · rintro ⟨from_, upTo, open_⟩
        rcases eq_or_lt_of_le from_ with rfl | later
        · exact absurd open_ closed
        · exact ⟨later, upTo, open_⟩
  | case3 current passed =>
      simp only [List.not_mem_nil, false_iff]
      omega

theorem tradingDaysFrom_ascending (calendar : NSECalendar) (last current : ℤ) :
    (calendar.tradingDaysFrom last current).Pairwise (· < ·) := by
  fun_induction calendar.tradingDaysFrom last current with
  | case1 current _ _ ih =>
      refine .cons (fun day mem => ?_) ih
      have later := (mem_tradingDaysFrom.mp mem).1
      omega
  | case2 _ _ _ ih => exact ih
  | case3 => exact .nil

theorem mem_tradingDaysBetween {start last : ℤ} : day ∈ calendar.tradingDaysBetween start last ↔
    start ≤ day ∧ day ≤ last ∧ calendar.isTradingDay day = true := by
  rw [tradingDaysBetween]
  split_ifs with reversed
  · simp only [List.not_mem_nil, false_iff]
    omega
  · exact mem_tradingDaysFrom

theorem tradingDaysBetween_ascending (calendar : NSECalendar) (start last : ℤ) :
    (calendar.tradingDaysBetween start last).Pairwise (· < ·) := by
  rw [tradingDaysBetween]
  split_ifs
  · exact .nil
  · exact calendar.tradingDaysFrom_ascending last start

/-- With enough tests the searches undo each other on trading days. -/
theorem neighbours_inverse (trading : calendar.isTradingDay date = true) {fuel : ℕ}
    (enough : calendar.searchBound ≤ fuel) :
    (calendar.nextTradingDay fuel date).bind (calendar.previousTradingDay fuel) = some date ∧
      (calendar.previousTradingDay fuel date).bind (calendar.nextTradingDay fuel) = some date := by
  constructor
  · rcases calendar.nextTradingDay_isLeast date with ⟨next, forwards, least⟩
    rcases calendar.previousTradingDay_isGreatest next with ⟨back, backwards, greatest⟩
    rw [forwards fuel enough, Option.bind_some, backwards fuel enough,
      isGreatest_before_next trading least greatest]
  · rcases calendar.previousTradingDay_isGreatest date with ⟨previous, backwards, greatest⟩
    rcases calendar.nextTradingDay_isLeast previous with ⟨forth, forwards, least⟩
    rw [backwards fuel enough, Option.bind_some, forwards fuel enough,
      isLeast_after_previous trading greatest least]

/-- The searches end at the neighbouring trading days, undo each other on trading days, and a range
lists its trading days in order. -/
theorem navigates (calendar : NSECalendar) :
    (∀ date, ∃ next previous,
      (∀ fuel ≥ calendar.searchBound, calendar.nextTradingDay fuel date = some next ∧
        calendar.previousTradingDay fuel date = some previous) ∧
      IsLeast {day | date < day ∧ calendar.isTradingDay day = true} next ∧
      IsGreatest {day | day < date ∧ calendar.isTradingDay day = true} previous) ∧
    (∀ date, calendar.isTradingDay date = true → ∀ fuel ≥ calendar.searchBound,
      (calendar.nextTradingDay fuel date).bind (calendar.previousTradingDay fuel) = some date ∧
      (calendar.previousTradingDay fuel date).bind (calendar.nextTradingDay fuel) = some date) ∧
    ∀ start last, (calendar.tradingDaysBetween start last).Pairwise (· < ·) ∧
      ∀ day, day ∈ calendar.tradingDaysBetween start last ↔
        start ≤ day ∧ day ≤ last ∧ calendar.isTradingDay day = true := by
  refine ⟨fun date => ?_, fun date trading fuel enough => neighbours_inverse trading enough,
    fun start last => ⟨calendar.tradingDaysBetween_ascending start last,
      fun day => mem_tradingDaysBetween⟩⟩
  rcases calendar.nextTradingDay_isLeast date with ⟨next, forwards, least⟩
  rcases calendar.previousTradingDay_isGreatest date with ⟨previous, backwards, greatest⟩
  exact ⟨next, previous, fun fuel enough => ⟨forwards fuel enough, backwards fuel enough⟩, least,
    greatest⟩

theorem navigates_sample :
    (nextTradingDay ⟨{1}⟩ 6 0).bind (previousTradingDay ⟨{1}⟩ 6) = some 0 :=
  ((navigates ⟨{1}⟩).2.1 0 (by decide) 6 (by decide)).1

end NSECalendar

end PersonalTrade
