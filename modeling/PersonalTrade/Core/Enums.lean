import Mathlib.Tactic
import PersonalTrade.Library.Exposure

/-!
# Domain enums and exceptions

The enumerations of `core/enums.py`, the order state machine of
`ALLOWED_ORDER_TRANSITIONS`, and the exceptions the modelled code can raise with
the values interpolated into their messages.
-/

namespace PersonalTrade

/-- A text whose characters are looked at, as the list of them. -/
abbrev Text := List Char

inductive Mode where
  | paper
  | live
  | backtest
deriving DecidableEq, Repr

inductive Side where
  | buy
  | sell
deriving DecidableEq, Repr

inductive OrderType where
  | market
  | limit
  | sl
deriving DecidableEq, Repr

/-- `OrderState`; `opened` is the source's `OPEN`. -/
inductive OrderState where
  | pendingRisk
  | rejectedRisk
  | submitting
  | submitted
  | failed
  | rejectedBroker
  | opened
  | partiallyFilled
  | filled
  | cancelled
  | expired
deriving DecidableEq, Repr

inductive Segment where
  | delivery
  | intraday
deriving DecidableEq, Repr

inductive Interval where
  | m1
  | m15
  | d1
deriving DecidableEq, Repr

inductive SignalDirection where
  | long
  | short
  | exit
deriving DecidableEq, Repr

inductive SignalStatus where
  | new
  | approved
  | rejected
  | expired
deriving DecidableEq, Repr

inductive RecommendationAction where
  | buy
  | sell
  | hold
  | avoid
deriving DecidableEq, Repr

inductive RiskEventKind where
  | limitBreach
  | killSwitch
  | killSwitchReset
  | rejection
deriving DecidableEq, Repr

/-- `ALLOWED_ORDER_TRANSITIONS`. -/
def allowedOrderTransitions : OrderState → List OrderState
  | .pendingRisk => [.rejectedRisk, .submitting]
  | .submitting => [.submitted, .failed]
  | .submitted => [.opened, .rejectedBroker, .failed]
  | .opened => [.partiallyFilled, .filled, .cancelled, .expired]
  | .partiallyFilled => [.partiallyFilled, .filled, .cancelled, .expired]
  | .rejectedRisk => []
  | .failed => []
  | .rejectedBroker => []
  | .filled => []
  | .cancelled => []
  | .expired => []

/-- `TERMINAL_ORDER_STATES`. -/
def OrderState.isTerminal (state : OrderState) : Bool := (allowedOrderTransitions state).isEmpty

/-- The `open_states` of `OrderRepository.list_open`. -/
def openStates : List OrderState := [.submitting, .submitted, .opened, .partiallyFilled]

/-- The state is one of the `open_states`. -/
def OrderState.isOpen (state : OrderState) : Bool := openStates.contains state

/-- Only `PENDING_RISK` is neither terminal nor listed as open. -/
theorem OrderState.isTerminal_or_isOpen {state : OrderState} (past : state ≠ .pendingRisk) :
    state.isTerminal = !state.isOpen := by
  cases state <;> first | rfl | exact absurd rfl past

/-- No transition leads back to `PENDING_RISK`. -/
theorem ne_pendingRisk_of_mem {source target : OrderState}
    (allowed : target ∈ allowedOrderTransitions source) : target ≠ .pendingRisk := by
  rintro rfl
  cases source <;> simp [allowedOrderTransitions] at allowed

/-- The direction in which a side moves a position. -/
def Side.direction : Side → Direction
  | .buy => .up
  | .sell => .down

/-- The sign of one share traded on a side. -/
def Side.sign (side : Side) : ℤ := side.direction.sign

@[simp]
theorem Side.sign_buy : Side.buy.sign = 1 := rfl

@[simp]
theorem Side.sign_sell : Side.sell.sign = -1 := rfl

/-- The messages of `NoDataForSymbol`; a date is its number of days since the epoch. -/
inductive NoDataForSymbol where
  | noSymbols
  | notListed (symbol exchange : String)
  | noCandles (interval : Interval) (symbol : String) (fromDate toDate : ℤ)
deriving DecidableEq, Repr

/-- The messages of `InvalidSweepGrid`. -/
inductive InvalidSweepGrid where
  | oosFraction (got : ℚ)
  | noCombinations
  | noRoom (oosFraction : ℚ) (fromDate toDate : ℤ)
deriving DecidableEq, Repr

/-- The messages of `MarketDataError`. -/
inductive MarketDataError where
  | reversedRange (toDate fromDate : ℤ)
  | fetch (message : String)
deriving DecidableEq, Repr

/-- The exceptions raised by the modelled code, with the values that their
messages interpolate. -/
inductive PyError where
  | unknownInstrument (instrumentId : ℕ)
  | unknownOrder (clientOrderId : String)
  | invalidOrderTransition (clientOrderId : String) (fromState toState : OrderState)
  | upstoxBrokerError (message : String)
  | killSwitchNotTripped
  | integrityError (constraint : String)
  | valueError (message : String) (got : ℚ)
  | keyError (key : String)
  | indexError (message : String)
  | typeError (message : String)
  | attributeError (message : String)
  | overflowError
  | assertionError (message : String)
  | runtimeError (message : String)
  | strategyError (message : String)
  | unknownIndicatorKind (kind name : String)
  | noStreamingImplementation (kind name : String)
  | backtestError (message : String)
  | noDataForSymbol (problem : NoDataForSymbol)
  | invalidSweepGrid (problem : InvalidSweepGrid)
  | wrongInstrument (tickKey aggregatorKey : String)
  | unsupportedInterval (interval : Interval)
  | yearOutOfRange (year : ℕ)
  | emptySubscriptions
  | marketDataError (problem : MarketDataError)
deriving DecidableEq, Repr

end PersonalTrade
