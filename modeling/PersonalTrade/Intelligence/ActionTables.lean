import PersonalTrade.Backtest.Engine
import PersonalTrade.Intelligence.Merge
import PersonalTrade.Risk.Engine

/-!
# Three readings of a signal

The backtest, the risk engine and the recommendations each decide from the position and
the direction of a signal whether to buy or to sell. The first two agree on every input.
The advice is theirs too, unless the signal is opposite to an open position: there both of
them wait for an `EXIT`, and the recommendation says `BUY` or `SELL`.
-/

namespace PersonalTrade

/-- The side that an action takes in the market. -/
def RecommendationAction.side : RecommendationAction → Option Side
  | .buy => some .buy
  | .sell => some .sell
  | .hold => none
  | .avoid => none

/-- An entry against an open position. -/
def SignalDirection.Opposes (direction : SignalDirection) (positionQty : ℤ) : Prop :=
  (direction = .long ∧ positionQty < 0) ∨ (direction = .short ∧ 0 < positionQty)

/-- The side that the backtest takes on a signal. -/
def backtestSide (direction : SignalDirection) (positionQty : ℤ) : Option Side :=
  (resolveAction positionQty direction).map Prod.fst

/-- The advice takes the side of the backtest unless the signal opposes the position. -/
theorem advisedSide_eq_iff (direction : SignalDirection) (positionQty : ℤ) :
    (deterministicAction direction positionQty).side = backtestSide direction positionQty ↔
      ¬ direction.Opposes positionQty := by
  rcases lt_trichotomy positionQty 0 with short | flat | long
  · have notLong : ¬ 0 < positionQty := short.asymm
    cases direction <;>
      simp [deterministicAction, backtestSide, resolveAction, RecommendationAction.side,
        SignalDirection.Opposes, short, short.ne, notLong]
  · subst flat
    cases direction <;>
      simp [deterministicAction, backtestSide, resolveAction, RecommendationAction.side,
        SignalDirection.Opposes]
  · have notShort : ¬ positionQty < 0 := long.asymm
    cases direction <;>
      simp [deterministicAction, backtestSide, resolveAction, RecommendationAction.side,
        SignalDirection.Opposes, long, long.ne', notShort]

namespace RiskEngine

variable {engine : RiskEngine} {signal : Signal} {instrument : Instrument} {mode : Mode}
  {equity dailyRealizedPnl : ℚ} {liveOrdersEnabled : Bool} {clientOrderId : String} {db : DB}

/-- No limit is in the way of an entry. -/
structure Slack (engine : RiskEngine) (signal : Signal) (instrument : Instrument) (mode : Mode)
    (equity dailyRealizedPnl : ℚ) (liveOrdersEnabled : Bool) (db : DB) : Prop where
  gates : PassesGates engine.config mode equity dailyRealizedPnl liveOrdersEnabled db
  below : db.countOpen mode < engine.config.maxOpenPositions
  sized : 0 < engine.sizer equity (toTickDecimal signal.refPrice instrument.tickSize)

/-- The side of the order in an answer of the gate. -/
def answeredSide : Except Rejection ApprovedOrder → Option Side
  | .ok order => some order.side
  | .error _ => none

/-- The side of the order that the gate answers with. -/
def orderedSide (engine : RiskEngine) (signal : Signal) (instrument : Instrument) (mode : Mode)
    (equity dailyRealizedPnl : ℚ) (liveOrdersEnabled : Bool) (clientOrderId : String) (db : DB) :
    Option Side :=
  answeredSide (engine.evaluate signal instrument mode equity dailyRealizedPnl liveOrdersEnabled
    clientOrderId db).1

/-- Within its limits the gate takes the side of the backtest. -/
theorem orderedSide_eq (slack : engine.Slack signal instrument mode equity dailyRealizedPnl
      liveOrdersEnabled db) :
    engine.orderedSide signal instrument mode equity dailyRealizedPnl liveOrdersEnabled
      clientOrderId db = backtestSide signal.direction (db.positionQty instrument.id mode) := by
  rcases slack with ⟨⟨untripped, enabled, withinLoss⟩, below, sized⟩
  have qtyEq : (KillSwitch.touch db).positionQty instrument.id mode =
      db.positionQty instrument.id mode := rfl
  have countEq : (KillSwitch.touch db).countOpen mode = db.countOpen mode := rfl
  have trippedEq : KillSwitch.isTripped (KillSwitch.touch db) = KillSwitch.isTripped db := rfl
  have allowed : ¬ (mode = .live ∧ liveOrdersEnabled = false) := by
    rintro ⟨live, disabled⟩
    simp [enabled live] at disabled
  have room : exceedsMaxOpenPositions (db.countOpen mode) engine.config.maxOpenPositions =
      false := by
    simpa [exceedsMaxOpenPositions] using below
  simp only [orderedSide, evaluate, qtyEq, countEq, trippedEq, untripped, withinLoss, allowed,
    room, not_le.mpr sized, if_false, Bool.false_eq_true, backtestSide]
  generalize db.positionQty instrument.id mode = positionQty
  cases direction : signal.direction with
  | exit =>
      rcases lt_trichotomy positionQty 0 with short | flat | long
      · simp [resolveAction, answeredSide, approve, short, short.ne, short.asymm]
      · simp [resolveAction, answeredSide, reject, flat]
      · simp [resolveAction, answeredSide, approve, long, long.ne']
  | long =>
      by_cases flat : positionQty = 0 <;>
        simp [resolveAction, answeredSide, approve, reject, flat]
  | short =>
      by_cases flat : positionQty = 0 <;>
        simp [resolveAction, answeredSide, approve, reject, flat]

/-- The backtest, the gate and the advice take the same side, or none of them takes one. -/
structure SidesAgree (engine : RiskEngine) (signal : Signal) (instrument : Instrument)
    (mode : Mode) (equity dailyRealizedPnl : ℚ) (liveOrdersEnabled : Bool) (clientOrderId : String)
    (db : DB) : Prop where
  ordered : engine.orderedSide signal instrument mode equity dailyRealizedPnl liveOrdersEnabled
    clientOrderId db = backtestSide signal.direction (db.positionQty instrument.id mode)
  advised : (deterministicAction signal.direction (db.positionQty instrument.id mode)).side =
    backtestSide signal.direction (db.positionQty instrument.id mode)

/-- Within the limits, the three agree exactly on the signals that do not oppose the position. -/
theorem sidesAgree_iff (slack : engine.Slack signal instrument mode equity dailyRealizedPnl
      liveOrdersEnabled db) :
    engine.SidesAgree signal instrument mode equity dailyRealizedPnl liveOrdersEnabled
        clientOrderId db ↔
      ¬ signal.direction.Opposes (db.positionQty instrument.id mode) := by
  rw [← advisedSide_eq_iff]
  exact ⟨SidesAgree.advised, fun advised => ⟨orderedSide_eq slack, advised⟩⟩

/-- An engine whose sizer always answers one share. -/
def oneShareEngine : RiskEngine := ⟨default, fun _ _ => 1⟩

/-- A signal at 100. -/
def sampleSignal (direction : SignalDirection) : Signal := { direction, refPrice := 100 }

/-- A store with a position of this size. -/
def holding (positionQty : ℤ) : DB where
  instruments := [⟨1, "INFY", "NSE_EQ|INFY", 1 / 20⟩]
  positions := AList.singleton ⟨1, .paper⟩ { qty := positionQty, avgPrice := 100 }

/-- Its instrument. -/
def heldInstrument : Instrument := ⟨1, "INFY", "NSE_EQ|INFY", 1 / 20⟩

theorem slack_of_holding (direction : SignalDirection) {positionQty : ℤ}
    (below : (holding positionQty).countOpen .paper < 5) :
    oneShareEngine.Slack (sampleSignal direction) heldInstrument .paper 1000 0 false
      (holding positionQty) :=
  ⟨⟨rfl, nofun, by decide +kernel⟩, below, show (0 : ℤ) < 1 by decide⟩

theorem sidesAgree_iff_sample :
    oneShareEngine.SidesAgree (sampleSignal .exit) heldInstrument .paper 1000 0 false "k"
      (holding (-5)) :=
  (sidesAgree_iff (slack_of_holding .exit (by decide))).mpr (by
    simp [SignalDirection.Opposes, sampleSignal])

/-- A LONG signal on a short position: the gate rejects it, the backtest does nothing, and the
advice is BUY. -/
theorem longOnShort_advised :
    oneShareEngine.Slack (sampleSignal .long) heldInstrument .paper 1000 0 false (holding (-5)) ∧
    oneShareEngine.orderedSide (sampleSignal .long) heldInstrument .paper 1000 0 false "k"
      (holding (-5)) = none ∧
    resolveAction (-5) .long = none ∧ deterministicAction .long (-5) = .buy ∧
    ¬ oneShareEngine.SidesAgree (sampleSignal .long) heldInstrument .paper 1000 0 false "k"
      (holding (-5)) := by
  refine ⟨slack_of_holding .long (by decide), by decide +kernel, by decide, by decide, ?_⟩
  intro agree
  have advised : some Side.buy = none := agree.advised
  cases advised

end RiskEngine

end PersonalTrade
