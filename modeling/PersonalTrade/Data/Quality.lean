import PersonalTrade.Core.TradingDays
import PersonalTrade.Data.CandleFrame

/-!
# Data quality

`data/historical/quality.py` over exact prices. A report is clean exactly when the frame keeps its
contract, every row is possible, no close jumps and no trading day is absent (`checkCandles_iff`).
-/

namespace PersonalTrade

/-- `SPIKE_THRESHOLDS`. -/
def Interval.spikeThreshold : Interval → ℚ
  | .d1 => 1 / 4
  | .m15 => 1 / 10
  | .m1 => 1 / 20

/-- `_MAX_LISTED`. -/
def maxListed : ℕ := 10

/-- `Finding`, by its kind, with the counts and examples of its detail. -/
inductive Finding where
  | empty
  | duplicates (count : ℕ)
  | unsorted
  | badOhlc (count : ℕ) (examples : List ℤ)
  | negativeVolume (count : ℕ)
  | priceSpike (count : ℕ) (threshold : ℚ) (examples : List ℤ)
  | missingDays (count : ℕ) (examples : List ℤ)
deriving DecidableEq

/-- The severity is `error`, not `warning`. -/
def Finding.isError : Finding → Bool
  | .empty | .duplicates _ | .unsorted | .badOhlc _ _ | .negativeVolume _ => true
  | .priceSpike _ _ _ | .missingDays _ _ => false

structure QualityReport where
  findings : List Finding
deriving DecidableEq

namespace QualityReport

/-- `has_errors`. -/
def hasErrors (report : QualityReport) : Bool := report.findings.any Finding.isError

def status (report : QualityReport) : String :=
  if report.hasErrors then "errors"
  else if report.findings = [] then "ok"
  else "warnings"

theorem status_eq_errors {report : QualityReport} :
    report.status = "errors" ↔ report.hasErrors = true := by
  rw [status]
  split_ifs with errors none
  · simp [errors]
  · simp [errors]
  · simp [errors]

theorem status_eq_ok {report : QualityReport} : report.status = "ok" ↔ report.findings = [] := by
  rw [status, hasErrors]
  split_ifs with errors none
  · refine iff_of_false (by decide) fun none => ?_
    rw [none] at errors
    cases errors
  · exact iff_of_true rfl none
  · exact iff_of_false (by decide) none

end QualityReport

namespace CandleRow

/-- The row is one that `check_candles` collects in `bad_ohlc`. -/
def badOhlc (row : CandleRow) : Bool :=
  decide (row.high < max (max row.openPrice row.close) row.low) ||
    decide (min (min row.openPrice row.close) row.high < row.low) ||
    [row.openPrice, row.high, row.low, row.close].any fun price => decide (price ≤ 0)

/-- The row is counted in `negative_volume`. -/
def negativeVolume (row : CandleRow) : Bool := decide (row.volume < 0)

/-- The prices of the row are those of trades. -/
structure PossiblePrices (row : CandleRow) : Prop where
  low_pos : 0 < row.low
  low_le_open : row.low ≤ row.openPrice
  low_le_close : row.low ≤ row.close
  open_le_high : row.openPrice ≤ row.high
  close_le_high : row.close ≤ row.high

/-- The row is one that can have been traded. -/
structure Possible (row : CandleRow) : Prop extends PossiblePrices row where
  volume_nonneg : 0 ≤ row.volume

theorem badOhlc_eq_false {row : CandleRow} : row.badOhlc = false ↔ row.PossiblePrices := by
  simp only [badOhlc, Bool.or_eq_false_iff, decide_eq_false_iff_not, not_lt, max_le_iff, le_min_iff,
    List.any_cons, List.any_nil, not_le]
  constructor
  · rintro ⟨⟨⟨⟨open', close'⟩, _⟩, ⟨low, low'⟩, _⟩, _, _, positive, _⟩
    exact ⟨positive, low, low', open', close'⟩
  · rintro ⟨positive, low, low', open', close'⟩
    have high := low.trans open'
    exact ⟨⟨⟨⟨open', close'⟩, high⟩, ⟨low, low'⟩, high⟩, positive.trans_le low,
      positive.trans_le high, positive, positive.trans_le low', trivial⟩

theorem possible_iff {row : CandleRow} :
    row.Possible ↔ row.badOhlc = false ∧ row.negativeVolume = false := by
  rw [badOhlc_eq_false, negativeVolume, decide_eq_false_iff_not, not_lt]
  constructor
  · rintro ⟨prices, volume⟩
    exact ⟨prices, volume⟩
  · rintro ⟨prices, volume⟩
    exact ⟨prices, volume⟩

end CandleRow

/-- `pct_change().abs() > threshold`; a change from zero is infinite or not a number. -/
def jumps (threshold before after : ℚ) : Bool :=
  if before = 0 then decide (after ≠ 0) else decide (threshold < |after / before - 1|)

/-- The rows whose close jumps from that of the row before. -/
def spikes (threshold : ℚ) (frame : List CandleRow) : List CandleRow :=
  ((frame.zip frame.tail).filter fun pair => jumps threshold pair.1.close pair.2.close).map
    Prod.snd

/-- The days of a frame in IST. -/
def daysOf (frame : List CandleRow) : List ℤ := frame.map fun row => istTradingDate row.ts

/-- The trading days that a frame of daily candles leaves out. -/
def missingDays (calendar : NSECalendar) (frame : List CandleRow) : List ℤ :=
  match (daysOf frame).min?, (daysOf frame).max? with
  | some first, some last =>
      (calendar.tradingDaysBetween first last).filter fun day => day ∉ daysOf frame
  | _, _ => []

/-- A finding, if there is something to list. -/
def listed {α : Type} (found : List α) (finding : Finding) : List Finding :=
  if found = [] then [] else [finding]

/-- The expected days that are absent, for daily candles and when there is a calendar. -/
def absentDays (frame : List CandleRow) (interval : Interval) (calendar : Option NSECalendar) :
    List ℤ :=
  match calendar with
  | none => []
  | some calendar => if interval = .d1 ∧ 1 < frame.length then missingDays calendar frame else []

/-- `check_candles`. -/
def checkCandles (frame : List CandleRow) (interval : Interval) (calendar : Option NSECalendar) :
    QualityReport :=
  if frame = [] then ⟨[.empty]⟩
  else
    let times := frame.map CandleRow.ts
    let dup := times.length - times.dedup.length
    let badOhlc := frame.filter CandleRow.badOhlc
    let negative := frame.filter CandleRow.negativeVolume
    let jumped := spikes interval.spikeThreshold frame
    let missing := absentDays frame interval calendar
    ⟨(if dup = 0 then [] else [.duplicates dup]) ++
      (if times.Pairwise (· ≤ ·) then [] else [.unsorted]) ++
      listed badOhlc (.badOhlc badOhlc.length ((badOhlc.map CandleRow.ts).take maxListed)) ++
      listed negative (.negativeVolume negative.length) ++
      listed jumped (.priceSpike jumped.length interval.spikeThreshold
        ((jumped.map CandleRow.ts).take maxListed)) ++
      listed missing (.missingDays missing.length (missing.take maxListed))⟩

/-! ## What a report says -/

section Report

variable {frame : List CandleRow} {interval : Interval} {calendar : Option NSECalendar}

theorem listed_eq_nil {α : Type} {found : List α} {finding : Finding} :
    listed found finding = [] ↔ found = [] := by
  rw [listed]
  split_ifs with none
  · simp [none]
  · simp [none]

/-- Timestamps are ascending if they are sorted and none is counted as a duplicate. -/
theorem frameContract_iff : FrameContract frame ↔
    (frame.map CandleRow.ts).length - (frame.map CandleRow.ts).dedup.length = 0 ∧
      (frame.map CandleRow.ts).Pairwise (· ≤ ·) := by
  have distinct : (frame.map CandleRow.ts).length - (frame.map CandleRow.ts).dedup.length = 0 ↔
      (frame.map CandleRow.ts).Nodup := by
    have sublist := List.dedup_sublist (frame.map CandleRow.ts)
    rw [Nat.sub_eq_zero_iff_le, ← List.dedup_eq_self]
    constructor
    · exact fun le => sublist.eq_of_length_le le
    · intro same
      rw [same]
  rw [distinct, FrameContract, List.Nodup, ← List.pairwise_and_iff, List.pairwise_map]
  constructor
  · intro ascending
    exact ascending.imp fun earlier => ⟨earlier.ne, earlier.le⟩
  · intro both
    exact both.imp fun apart => lt_of_le_of_ne apart.2 apart.1

theorem spikes_eq_nil {threshold : ℚ} : spikes threshold frame = [] ↔
    frame.IsChain fun before after => jumps threshold before.close after.close = false := by
  induction frame with
  | nil => simp [spikes]
  | cons before frame ih =>
      cases frame with
      | nil => simp [spikes]
      | cons after frame =>
          rw [List.isChain_cons_cons, ← ih]
          simp only [spikes, List.tail_cons, List.zip_cons_cons, List.map_eq_nil_iff]
          rw [List.filter_cons]
          cases jumps threshold before.close after.close <;> simp

theorem possible_of_filters : (∀ row ∈ frame, row.Possible) ↔
    frame.filter CandleRow.badOhlc = [] ∧ frame.filter CandleRow.negativeVolume = [] := by
  simp only [List.filter_eq_nil_iff, Bool.not_eq_true, ← forall_and, CandleRow.possible_iff]

/-- Every trading day between two days of the frame is one of them. -/
def Complete (calendar : NSECalendar) (frame : List CandleRow) : Prop :=
  ∀ first ∈ daysOf frame, ∀ last ∈ daysOf frame, ∀ day, first ≤ day → day ≤ last →
    calendar.isTradingDay day = true → day ∈ daysOf frame

theorem missingDays_eq_nil {calendar : NSECalendar} (nonempty : frame ≠ []) :
    missingDays calendar frame = [] ↔ Complete calendar frame := by
  have days : daysOf frame ≠ [] := by
    rw [daysOf, Ne, List.map_eq_nil_iff]
    exact nonempty
  rcases earliest : (daysOf frame).min? with _ | first
  · exact absurd (List.min?_eq_none_iff.mp earliest) days
  rcases latest : (daysOf frame).max? with _ | last
  · exact absurd (List.max?_eq_none_iff.mp latest) days
  rcases List.min?_eq_some_iff.mp earliest with ⟨firstMem, least⟩
  rcases List.max?_eq_some_iff.mp latest with ⟨lastMem, greatest⟩
  simp only [missingDays, earliest, latest]
  rw [List.filter_eq_nil_iff]
  constructor
  · intro none early earlyMem late lateMem day after before trading
    have between : day ∈ calendar.tradingDaysBetween first last :=
      NSECalendar.mem_tradingDaysBetween.mpr
        ⟨(least _ earlyMem).trans after, before.trans (greatest _ lateMem), trading⟩
    simpa using none day between
  · intro complete day mem
    rcases NSECalendar.mem_tradingDaysBetween.mp mem with ⟨after, before, trading⟩
    simpa using complete first firstMem last lastMem day after before trading

/-- The calendar is consulted for daily candles only. -/
theorem absentDays_eq_nil (nonempty : frame ≠ []) :
    absentDays frame interval calendar = [] ↔
      ∀ given ∈ calendar, interval = .d1 → Complete given frame := by
  cases calendar with
  | none => simp [absentDays]
  | some given =>
      simp only [absentDays, Option.mem_def, Option.some.injEq, forall_eq']
      split_ifs with applies
      · rw [missingDays_eq_nil nonempty]
        exact ⟨fun complete _ => complete, fun complete => complete applies.1⟩
      · refine iff_of_true rfl fun daily first firstMem last lastMem day after before _ => ?_
        -- a single row is complete by itself
        have single : frame.length = 1 := by
          have positive := List.length_pos_iff.mpr nonempty
          have few : ¬ 1 < frame.length := fun many => applies ⟨daily, many⟩
          omega
        rcases List.length_eq_one_iff.mp single with ⟨row, rfl⟩
        simp only [daysOf, List.map_cons, List.map_nil, List.mem_singleton] at *
        omega

theorem any_listed {α : Type} {found : List α} {finding : Finding} :
    (listed found finding).any Finding.isError = true ↔ finding.isError = true ∧ found ≠ [] := by
  rw [listed]
  split_ifs with none
  · simp [none]
  · simp [none]

theorem unless_eq_nil {condition : Prop} [Decidable condition] {finding : Finding} :
    (if condition then [] else [finding]) = [] ↔ condition := by
  split_ifs with holds
  · simp [holds]
  · simp [holds]

theorem any_unless {condition : Prop} [Decidable condition] {finding : Finding} :
    (if condition then [] else [finding]).any Finding.isError = true ↔
      finding.isError = true ∧ ¬ condition := by
  split_ifs with holds
  · simp [holds]
  · simp [holds]

/-- A report has errors exactly for a frame that is empty, breaks the contract or has a row that
cannot have been traded. -/
theorem hasErrors_iff : (checkCandles frame interval calendar).hasErrors = true ↔
    frame = [] ∨ ¬ FrameContract frame ∨ ∃ row ∈ frame, ¬ row.Possible := by
  by_cases empty : frame = []
  · subst frame
    simp [checkCandles, QualityReport.hasErrors, Finding.isError]
  have impossible : (∃ row ∈ frame, ¬ row.Possible) ↔
      frame.filter CandleRow.badOhlc ≠ [] ∨ frame.filter CandleRow.negativeVolume ≠ [] := by
    rw [ne_eq, ne_eq, ← not_and_or, ← possible_of_filters]
    simp
  rw [checkCandles, if_neg empty, frameContract_iff, impossible]
  simp only [QualityReport.hasErrors, List.any_append, Bool.or_eq_true, any_listed, any_unless, empty,
    false_or, Finding.isError, Bool.false_eq_true, false_and, or_false, true_and, not_and_or,
    or_assoc]

/-- A report is clean exactly when the frame is not empty and keeps its contract, all its rows can
have been traded, no close jumps, and daily candles leave out no trading day. -/
theorem status_eq_ok_iff : (checkCandles frame interval calendar).status = "ok" ↔
    frame ≠ [] ∧ FrameContract frame ∧ (∀ row ∈ frame, row.Possible) ∧
      (frame.IsChain fun before after =>
        jumps interval.spikeThreshold before.close after.close = false) ∧
      ∀ given ∈ calendar, interval = .d1 → Complete given frame := by
  rw [QualityReport.status_eq_ok]
  by_cases empty : frame = []
  · subst frame
    simp [checkCandles]
  rw [checkCandles, if_neg empty, frameContract_iff, possible_of_filters, ← spikes_eq_nil,
    ← absentDays_eq_nil empty]
  simp only [List.append_eq_nil_iff, listed_eq_nil, unless_eq_nil, ne_eq, empty, not_false_eq_true,
    true_and, and_assoc]

/-- A row with a negative volume is an error, though its prices are possible. -/
example : (checkCandles [⟨0, 10, 12, 8, 11, -5, 0⟩] .d1 none).status = "errors" := by
  decide +kernel

/-- What the two statuses at the ends of the scale mean, with the jumps of the closes exact. -/
theorem checkCandles_iff (frame : List CandleRow) (interval : Interval)
    (calendar : Option NSECalendar) :
    ((checkCandles frame interval calendar).status = "errors" ↔
      frame = [] ∨ ¬ FrameContract frame ∨ ∃ row ∈ frame, ¬ row.Possible) ∧
    ((checkCandles frame interval calendar).status = "ok" ↔
      frame ≠ [] ∧ FrameContract frame ∧ (∀ row ∈ frame, row.Possible) ∧
        (frame.IsChain fun before after =>
          jumps interval.spikeThreshold before.close after.close = false) ∧
        ∀ given ∈ calendar, interval = .d1 → Complete given frame) :=
  ⟨QualityReport.status_eq_errors.trans hasErrors_iff, status_eq_ok_iff⟩

end Report

end PersonalTrade
