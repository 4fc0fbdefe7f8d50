import PersonalTrade.Core.Config
import PersonalTrade.Library.Table
import PersonalTrade.Library.Transaction

/-!
# The state store

The rows of `data/store/models.py` that the trading core reads or writes, and the
database they live in. Money is an exact rational. Orders and signals are never
deleted, so their primary keys count rows; positions are unique for an instrument
and a mode; the audit tables are append-only lists.
-/

namespace PersonalTrade

structure Instrument where
  id : ℕ
  symbol : String
  instrumentKey : String
  tickSize : ℚ
deriving DecidableEq, Repr

/-- `Signal`, the persisted row of a strategy's signal. -/
structure SignalRow where
  instrumentId : ℕ
  strategyRunId : ℕ
  direction : SignalDirection
  refPrice : ℚ
  status : SignalStatus
deriving DecidableEq, Repr

structure Order where
  clientOrderId : String
  brokerOrderId : Option String
  instrumentId : ℕ
  signalId : Option ℕ
  side : Side
  orderType : OrderType
  qty : ℕ
  filledQty : ℕ
  limitPrice : Option ℚ
  state : OrderState
  mode : Mode
  /-- `ck_order_filled_qty_bounds`. -/
  filledQty_le : filledQty ≤ qty
deriving DecidableEq

/-- What is still to be filled. -/
def Order.remaining (order : Order) : ℕ := order.qty - order.filledQty

/-- The order with its filled quantity rewritten. -/
def Order.withFilled (order : Order) (filled : ℕ) (within : filled ≤ order.qty) : Order :=
  { order with filledQty := filled, filledQty_le := within }

/-- The JSON payloads that transitions record. -/
inductive EventPayload where
  | empty
  | reason (text : String)
  | fill (qty : ℕ) (fillPrice : ℚ)
  | upstoxStatus (status : String)
deriving DecidableEq, Repr

structure OrderEvent where
  orderId : ℕ
  fromState : Option OrderState
  toState : OrderState
  payload : EventPayload
deriving DecidableEq, Repr

/-- `Trade`: one fill with its cost breakdown. -/
structure Trade where
  orderId : ℕ
  price : ℚ
  qty : ℕ
  brokerage : ℚ
  stt : ℚ
  stampDuty : ℚ
  gst : ℚ
  exchangeCharges : ℚ
  sebiCharges : ℚ
  netAmount : ℚ
  realizedPnl : Option ℚ
  executedAt : ℤ
deriving DecidableEq, Repr

/-- The unique key of a position. -/
structure PositionKey where
  instrumentId : ℕ
  mode : Mode
deriving DecidableEq, Repr

/-- `Position`; the defaults are those of the column definitions. -/
structure Position where
  qty : ℤ := 0
  avgPrice : ℚ := 0
  realizedPnl : ℚ := 0
deriving DecidableEq, Repr

/-- `RejectionReason` of the risk engine. -/
inductive RejectionReason where
  | killSwitchTripped
  | liveOrdersDisabled
  | maxDailyLoss
  | maxOpenPositions
  | alreadyInPosition
  | noOpenPosition
  | zeroQuantity
deriving DecidableEq, Repr

/-- The detail text of a rejection, as its template and the values in it. -/
inductive RejectionDetail where
  | killSwitchTripped
  | liveOrdersDisabled
  | maxDailyLoss (dailyRealizedPnl limitPct equity : ℚ)
  | noOpenPosition
  | alreadyInPosition (direction : SignalDirection) (qty : ℤ)
  | maxOpenPositions (openCount limit : ℕ)
  | zeroQuantity (qty : ℤ) (equity price : ℚ)
deriving DecidableEq, Repr

/-- `SignalDirection` as the source prints it. -/
def SignalDirection.text : SignalDirection → String
  | .long => "LONG"
  | .short => "SHORT"
  | .exit => "EXIT"

/-- The text itself, given how a Decimal prints. -/
def RejectionDetail.render (decimal : ℚ → String) : RejectionDetail → String
  | .killSwitchTripped => "kill switch is tripped"
  | .liveOrdersDisabled =>
      "trading.mode=live but trading.live_orders_enabled=false (ADR-008)"
  | .maxDailyLoss dailyRealizedPnl limitPct equity =>
      "today's realized P&L " ++ decimal dailyRealizedPnl ++ " exceeds " ++
        decimal limitPct ++ "% of equity " ++ decimal equity
  | .noOpenPosition => "EXIT signal but no open position"
  | .alreadyInPosition direction qty =>
      direction.text ++ " signal but already in a position (qty=" ++ toString qty ++ ")"
  | .maxOpenPositions openCount limit =>
      toString openCount ++ " open position(s) >= max " ++ toString limit
  | .zeroQuantity qty equity price =>
      "sizer produced qty=" ++ toString qty ++ " at equity=" ++ decimal equity ++ " price=" ++
        decimal price

/-- The extra fields a trip of the kill switch records. -/
inductive TripDetail where
  | none
  | source (origin : String)
  | consecutiveErrors (count : ℕ)
deriving DecidableEq, Repr

/-- The JSON details of the risk events written by the modelled code. -/
inductive RiskDetail where
  | killSwitch (reason : String) (detail : TripDetail)
  | killSwitchReset (reason : String)
  | rejection (reason : RejectionReason) (detail : RejectionDetail)
  | stuckOrder (clientOrderId : String) (wasState : OrderState)
  | positionMismatch (instrumentId : ℕ) (localQtyWas brokerQty : ℤ)
deriving DecidableEq, Repr

structure RiskEvent where
  kind : RiskEventKind
  detail : RiskDetail
deriving DecidableEq, Repr

/-- `KillSwitchState`, the singleton row; the defaults are those of the columns. -/
structure KillSwitchState where
  tripped : Bool := false
  reason : Option String := none
  trippedAt : Option ℤ := none
  consecutiveErrors : ℕ := 0
deriving DecidableEq, Repr

/-- `PaperAccount`, the singleton row. -/
structure PaperAccount where
  cash : ℚ
deriving DecidableEq, Repr

/-- The tables of the state store. -/
structure DB where
  instruments : List Instrument
  signals : RowTable SignalRow := .empty
  orders : RowTable Order := .empty
  orderEvents : List OrderEvent := []
  trades : List Trade := []
  positions : AList (fun _ : PositionKey => Position) := ∅
  riskEvents : List RiskEvent := []
  killSwitchState : Option KillSwitchState := none
  paperAccount : Option PaperAccount := none

/-- Work inside one session, without any request to the outside. -/
abbrev Session := Transaction DB Unit PyError

end PersonalTrade
