import PersonalTrade.Risk.KillSwitch
import PersonalTrade.Risk.Limits
import PersonalTrade.Strategy.Base

/-!
# Risk engine

`risk/engine.py`: the gate between a strategy's signal and an order. `evaluate`
keeps the order of the source's gates. `Approves` says in one formula when the
gate approves, and `evaluate_cases` is everything an evaluation can do: approve
without writing an event, or reject and write exactly one.
-/

namespace PersonalTrade

structure ApprovedOrder where
  clientOrderId : String
  instrumentId : ℕ
  side : Side
  orderType : OrderType
  qty : ℕ
  limitPrice : Option ℚ
deriving DecidableEq, Repr

structure Rejection where
  reason : RejectionReason
  detail : RejectionDetail
deriving DecidableEq, Repr

/-- `RiskEngine`: its configuration and its sizer. -/
structure RiskEngine where
  config : RiskConfig
  sizer : PositionSizer

/-- `_approve`: a market order under a new idempotency key. -/
def RiskEngine.approve (instrument : Instrument) (side : Side) (qty : ℕ) (clientOrderId : String)
    (db : DB) : Except Rejection ApprovedOrder × DB :=
  (.ok { clientOrderId, instrumentId := instrument.id, side, orderType := .market, qty
         limitPrice := none }, db)

/-- `_reject`: persist the rejection. -/
def RiskEngine.reject (reason : RejectionReason) (detail : RejectionDetail) (kind : RiskEventKind)
    (db : DB) : Except Rejection ApprovedOrder × DB :=
  (.error ⟨reason, detail⟩, db.addRiskEvent ⟨kind, .rejection reason detail⟩)

/-- `RiskEngine.evaluate`; `clientOrderId` is the fresh `uuid4`. -/
def RiskEngine.evaluate (engine : RiskEngine) (signal : Signal) (instrument : Instrument)
    (mode : Mode) (equity dailyRealizedPnl : ℚ) (liveOrdersEnabled : Bool)
    (clientOrderId : String) (db : DB) : Except Rejection ApprovedOrder × DB :=
  let db := KillSwitch.touch db
  let qty := db.positionQty instrument.id mode
  let openCount := db.countOpen mode
  let price := toTickDecimal signal.refPrice instrument.tickSize
  let size := engine.sizer equity price
  if KillSwitch.isTripped db then
    reject .killSwitchTripped .killSwitchTripped .rejection db
  else if mode = .live ∧ liveOrdersEnabled = false then
    reject .liveOrdersDisabled .liveOrdersDisabled .rejection db
  else if exceedsMaxDailyLoss dailyRealizedPnl equity engine.config.maxDailyLossPct then
    reject .maxDailyLoss (.maxDailyLoss dailyRealizedPnl engine.config.maxDailyLossPct equity)
      .limitBreach db
  else if signal.direction = .exit then
    if qty = 0 then
      reject .noOpenPosition .noOpenPosition .rejection db
    else
      approve instrument (if 0 < qty then .sell else .buy) qty.natAbs clientOrderId db
  -- no pyramiding, no same-bar reversal: an entry needs a flat position
  else if qty ≠ 0 then
    reject .alreadyInPosition (.alreadyInPosition signal.direction qty) .rejection db
  else if exceedsMaxOpenPositions openCount engine.config.maxOpenPositions then
    reject .maxOpenPositions (.maxOpenPositions openCount engine.config.maxOpenPositions)
      .limitBreach db
  else if size ≤ 0 then
    reject .zeroQuantity (.zeroQuantity size equity price) .rejection db
  else
    approve instrument (if signal.direction = .long then .buy else .sell) size.toNat
      clientOrderId db

namespace RiskEngine

variable {engine : RiskEngine} {signal : Signal} {instrument : Instrument} {mode : Mode}
  {equity dailyRealizedPnl : ℚ} {liveOrdersEnabled : Bool} {clientOrderId : String} {db : DB}

/-- The three gates in front of every signal. -/
structure PassesGates (config : RiskConfig) (mode : Mode) (equity dailyRealizedPnl : ℚ)
    (liveOrdersEnabled : Bool) (db : DB) : Prop where
  untripped : KillSwitch.isTripped db = false
  enabled : mode = .live → liveOrdersEnabled = true
  withinLoss : exceedsMaxDailyLoss dailyRealizedPnl equity config.maxDailyLossPct = false

/-- An exit of the position of `order.instrumentId`. -/
structure IsExit (signal : Signal) (db : DB) (mode : Mode) (order : ApprovedOrder) : Prop where
  direction : signal.direction = .exit
  nonflat : db.positionQty order.instrumentId mode ≠ 0
  side : order.side = if 0 < db.positionQty order.instrumentId mode then .sell else .buy
  qty : order.qty = (db.positionQty order.instrumentId mode).natAbs

/-- An entry on a flat instrument, sized by the engine. -/
structure IsEntry (engine : RiskEngine) (signal : Signal) (tickSize equity : ℚ) (db : DB)
    (mode : Mode) (order : ApprovedOrder) : Prop where
  direction : signal.direction ≠ .exit
  flat : db.positionQty order.instrumentId mode = 0
  below : db.countOpen mode < engine.config.maxOpenPositions
  side : order.side = if signal.direction = .long then .buy else .sell
  qty_pos : 0 < order.qty
  qty : engine.sizer equity (toTickDecimal signal.refPrice tickSize) = order.qty

/-- Everything that makes `order` the answer of the gate. -/
structure Approves (engine : RiskEngine) (signal : Signal) (instrument : Instrument) (mode : Mode)
    (equity dailyRealizedPnl : ℚ) (liveOrdersEnabled : Bool) (clientOrderId : String) (db : DB)
    (order : ApprovedOrder) : Prop where
  gates : PassesGates engine.config mode equity dailyRealizedPnl liveOrdersEnabled db
  clientOrderId : order.clientOrderId = clientOrderId
  instrumentId : order.instrumentId = instrument.id
  orderType : order.orderType = .market
  limitPrice : order.limitPrice = none
  purpose : IsExit signal db mode order ∨
    IsEntry engine signal instrument.tickSize equity db mode order

theorem Approves.qty_pos {order : ApprovedOrder}
    (approves : Approves engine signal instrument mode equity dailyRealizedPnl liveOrdersEnabled
      clientOrderId db order) : 0 < order.qty := by
  rcases approves.purpose with exit | entry
  · rw [exit.qty]
    exact Int.natAbs_pos.mpr exit.nonflat
  · exact entry.qty_pos

theorem Approves.congr {db' : DB} {order : ApprovedOrder} (positions : db'.positions = db.positions)
    (killSwitch : db'.killSwitch = db.killSwitch)
    (approves : Approves engine signal instrument mode equity dailyRealizedPnl liveOrdersEnabled
      clientOrderId db order) :
    Approves engine signal instrument mode equity dailyRealizedPnl liveOrdersEnabled
      clientOrderId db' order := by
  have qtyEq : ∀ instrumentId, db'.positionQty instrumentId mode =
      db.positionQty instrumentId mode := by
    intro instrumentId
    simp only [DB.positionQty, DB.positionFor, positions]
  have countEq : db'.countOpen mode = db.countOpen mode := by
    simp only [DB.countOpen, DB.listOpenPositions, positions]
  rcases approves with ⟨⟨untripped, enabled, withinLoss⟩, keyEq, instrumentEq, typeEq, limitEq,
    purpose⟩
  refine ⟨⟨by rw [KillSwitch.isTripped, killSwitch]; exact untripped, enabled, withinLoss⟩, keyEq,
    instrumentEq, typeEq, limitEq, ?_⟩
  rcases purpose with ⟨direction, nonflat, side, qty⟩ | ⟨direction, flat, below, side, pos, qty⟩
  · exact .inl ⟨direction, by rwa [qtyEq], by rwa [qtyEq], by rwa [qtyEq]⟩
  · exact .inr ⟨direction, by rwa [qtyEq], by rwa [countEq], side, pos, qty⟩

/-- All an evaluation can do: approve and write no event, or reject and write one. -/
theorem evaluate_cases (engine : RiskEngine) (signal : Signal) (instrument : Instrument)
    (mode : Mode) (equity dailyRealizedPnl : ℚ) (liveOrdersEnabled : Bool)
    (clientOrderId : String) (db : DB) :
    (∃ order, engine.evaluate signal instrument mode equity dailyRealizedPnl liveOrdersEnabled
          clientOrderId db = (.ok order, KillSwitch.touch db) ∧
        Approves engine signal instrument mode equity dailyRealizedPnl liveOrdersEnabled
          clientOrderId db order) ∨
      ∃ rejection kind, engine.evaluate signal instrument mode equity dailyRealizedPnl
          liveOrdersEnabled clientOrderId db =
        (.error rejection, (KillSwitch.touch db).addRiskEvent
          ⟨kind, .rejection rejection.reason rejection.detail⟩) := by
  have qtyEq : (KillSwitch.touch db).positionQty instrument.id mode =
      db.positionQty instrument.id mode := rfl
  have countEq : (KillSwitch.touch db).countOpen mode = db.countOpen mode := rfl
  have trippedEq : KillSwitch.isTripped (KillSwitch.touch db) = KillSwitch.isTripped db := rfl
  simp only [evaluate, qtyEq, countEq, trippedEq]
  -- keep the sides folded, so that only the gates split
  obtain ⟨exitSide, exitSideEq⟩ : ∃ side, side =
    if 0 < db.positionQty instrument.id mode then Side.sell else .buy := ⟨_, rfl⟩
  obtain ⟨entrySide, entrySideEq⟩ : ∃ side, side =
    if signal.direction = .long then Side.buy else .sell := ⟨_, rfl⟩
  rw [← exitSideEq, ← entrySideEq]
  split_ifs with tripped disabled loss isExit flat nonflat full zero
  · exact .inr ⟨_, _, rfl⟩
  · exact .inr ⟨_, _, rfl⟩
  · exact .inr ⟨_, _, rfl⟩
  · exact .inr ⟨_, _, rfl⟩
  · refine .inl ⟨_, rfl, ⟨⟨by simpa using tripped, fun live => ?_, by simpa using loss⟩,
      rfl, rfl, rfl, rfl, .inl ⟨isExit, flat, exitSideEq, rfl⟩⟩⟩
    simpa [live] using disabled
  · exact .inr ⟨_, _, rfl⟩
  · exact .inr ⟨_, _, rfl⟩
  · exact .inr ⟨_, _, rfl⟩
  · refine .inl ⟨_, rfl, ⟨⟨by simpa using tripped, fun live => ?_, by simpa using loss⟩,
      rfl, rfl, rfl, rfl,
      .inr ⟨isExit, not_not.mp nonflat, ?_, entrySideEq, ?_, ?_⟩⟩⟩
    · simpa [live] using disabled
    · simpa [exceedsMaxOpenPositions] using full
    · exact Int.pos_iff_toNat_pos.mp (not_le.mp zero)
    · exact (Int.toNat_of_nonneg (le_of_lt (not_le.mp zero))).symm

/-- Whatever satisfies `Approves` is what the gate answers. -/
theorem evaluate_of_approves {order : ApprovedOrder}
    (approves : Approves engine signal instrument mode equity dailyRealizedPnl liveOrdersEnabled
      clientOrderId db order) :
    engine.evaluate signal instrument mode equity dailyRealizedPnl liveOrdersEnabled
      clientOrderId db = (.ok order, KillSwitch.touch db) := by
  rcases approves with ⟨⟨untripped, enabled, withinLoss⟩, keyEq, instrumentEq, typeEq, limitEq,
    purpose⟩
  rcases order with ⟨key, instrumentId, side, orderType, qty, limitPrice⟩
  simp only at keyEq instrumentEq typeEq limitEq
  subst keyEq instrumentEq typeEq limitEq
  have qtyEq : (KillSwitch.touch db).positionQty instrument.id mode =
      db.positionQty instrument.id mode := rfl
  have countEq : (KillSwitch.touch db).countOpen mode = db.countOpen mode := rfl
  have trippedEq : KillSwitch.isTripped (KillSwitch.touch db) = KillSwitch.isTripped db := rfl
  have allowed : ¬ (mode = .live ∧ liveOrdersEnabled = false) := by
    rintro ⟨live, disabled⟩
    simp [enabled live] at disabled
  simp only [evaluate, qtyEq, countEq, trippedEq, untripped, withinLoss, allowed, if_false,
    Bool.false_eq_true]
  rcases purpose with ⟨isExit, nonflat, sideEq, sizeEq⟩ | ⟨isEntry, flat, below, sideEq, pos, sizeEq⟩
  · simp only at nonflat sideEq sizeEq
    simp [isExit, nonflat, approve, sideEq, sizeEq]
  · simp only at flat sideEq pos sizeEq
    simp [isEntry, flat, exceedsMaxOpenPositions, below, approve, sideEq, sizeEq, pos.ne']

theorem evaluate_ok_iff {order : ApprovedOrder} :
    (engine.evaluate signal instrument mode equity dailyRealizedPnl liveOrdersEnabled
        clientOrderId db).1 = .ok order ↔
      Approves engine signal instrument mode equity dailyRealizedPnl liveOrdersEnabled
        clientOrderId db order := by
  constructor
  · intro approved
    rcases evaluate_cases engine signal instrument mode equity dailyRealizedPnl liveOrdersEnabled
      clientOrderId db with ⟨answer, evaluated, approves⟩ | ⟨rejection, kind, evaluated⟩
    · rw [evaluated, Except.ok.injEq] at approved
      exact approved ▸ approves
    · rw [evaluated] at approved
      cases approved
  · intro approves
    rw [evaluate_of_approves approves]

end RiskEngine

end PersonalTrade
