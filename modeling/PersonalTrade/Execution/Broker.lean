import PersonalTrade.Backtest.Costs
import PersonalTrade.Store.Book

/-!
# The broker contract

The DTOs of `execution/broker.py`, the `Broker` protocol as far as the
orchestrator calls it, and what the two brokers share: the position arithmetic of
one fill and its booking.
-/

namespace PersonalTrade

open Transaction

structure OrderRequest where
  clientOrderId : String
  instrumentId : ℕ
  side : Side
  orderType : OrderType
  qty : ℕ
  limitPrice : Option ℚ
deriving DecidableEq, Repr

structure OrderAck where
  clientOrderId : String
  brokerOrderId : String
deriving DecidableEq, Repr

structure Funds where
  cash : ℚ
  equity : ℚ
deriving DecidableEq, Repr

structure BrokerPosition where
  instrumentId : ℕ
  qty : ℤ
  avgPrice : ℚ
deriving DecidableEq, Repr

structure OrderUpdate where
  clientOrderId : String
  brokerOrderId : Option String
  toState : OrderState
  filledQty : ℤ
  fillPrice : Option ℚ
  time : ℤ
deriving DecidableEq, Repr

/-- The part of the `Broker` protocol that handles a signal. -/
structure Broker (ω : Type) where
  getFunds : Transaction DB ω PyError Funds
  placeOrder : OrderRequest → Transaction DB ω PyError OrderAck

/-- The order row of a request, as both brokers build it. -/
def OrderRequest.row (request : OrderRequest) (brokerOrderId : Option String) (mode : Mode) :
    Order where
  clientOrderId := request.clientOrderId
  brokerOrderId := brokerOrderId
  instrumentId := request.instrumentId
  signalId := none
  side := request.side
  orderType := request.orderType
  qty := request.qty
  filledQty := 0
  limitPrice := request.limitPrice
  state := .pendingRisk
  mode := mode
  filledQty_le := Nat.zero_le _

/-! ## Position arithmetic -/

/-- `_apply_fill_to_position` without the cash lines of the paper broker: the
position after a fill and the profit that a closing leg realizes. -/
def Position.applyFill (position : Position) (side : Side) (qty : ℕ) (netAmount : ℚ) :
    Position × Option ℚ :=
  let costBasisPerShare := netAmount / qty
  if position.qty = 0 ∨ (0 < position.qty ↔ side = .buy) then
    let avgPrice :=
      if position.qty = 0 then costBasisPerShare
      else
        (position.avgPrice * |position.qty| + costBasisPerShare * qty) / (|position.qty| + qty)
    ({ position with qty := position.qty + side.sign * qty, avgPrice }, none)
  else
    let realized :=
      if side = .sell then netAmount - position.avgPrice * qty
      else position.avgPrice * qty - netAmount
    let newQty := position.qty + side.sign * qty
    ({ qty := newQty
       avgPrice := if newQty = 0 then 0 else position.avgPrice
       realizedPnl := position.realizedPnl + realized }, some realized)

/-- Whatever the branch, a fill moves the quantity by its signed size. -/
@[simp]
theorem Position.applyFill_qty (position : Position) (side : Side) (qty : ℕ) (netAmount : ℚ) :
    (position.applyFill side qty netAmount).1.qty = position.qty + side.sign * qty := by
  simp only [applyFill]
  split_ifs <;> rfl

/-- The database with a fill booked on its position and in the trades. -/
def DB.bookFill (db : DB) (mode : Mode) (orderId : ℕ) (order : Order) (qty : ℕ) (price : ℚ)
    (costs : TradeCosts) (executedAt : ℤ) : DB :=
  let booked :=
    (db.getOrCreatePosition order.instrumentId mode).applyFill order.side qty costs.netAmount
  let trade : Trade :=
    { orderId, price, qty, brokerage := costs.brokerage, stt := costs.stt
      stampDuty := costs.stampDuty, gst := costs.gst, exchangeCharges := costs.exchangeCharges
      sebiCharges := costs.sebiCharges, netAmount := costs.netAmount, realizedPnl := booked.2
      executedAt }
  { db.setPosition order.instrumentId mode booked.1 with trades := db.trades ++ [trade] }

theorem DB.positionQty_bookFill (db : DB) (mode otherMode : Mode) (orderId other : ℕ)
    (order : Order) (qty : ℕ) (price : ℚ) (costs : TradeCosts) (executedAt : ℤ) :
    (db.bookFill mode orderId order qty price costs executedAt).positionQty other otherMode =
      db.positionQty other otherMode +
        if other = order.instrumentId ∧ otherMode = mode then order.side.sign * qty else 0 := by
  change (db.setPosition order.instrumentId mode _).positionQty other otherMode = _
  rw [DB.positionQty_setPosition]
  split_ifs with same
  · rcases same with ⟨rfl, rfl⟩
    rw [Position.applyFill_qty, DB.getOrCreatePosition_qty]
  · rw [add_zero]

theorem DB.tradedQty_bookFill (db : DB) (mode : Mode) (orderId other : ℕ) (order : Order) (qty : ℕ)
    (price : ℚ) (costs : TradeCosts) (executedAt : ℤ) :
    (db.bookFill mode orderId order qty price costs executedAt).tradedQty other =
      db.tradedQty other + if other = orderId then qty else 0 := by
  simp only [tradedQty, tradesOf, bookFill, List.filter_append, List.map_append,
    List.sum_append]
  by_cases same : other = orderId
  · simp [same]
  · simp [same, Ne.symm same]

/-- Rewrite the filled quantity of a row; the table refuses more than its quantity. -/
def setFilledQty (id : ℕ) (filled : ℕ) : Session Unit := do
  let db ← read
  match db.orders.get? id with
  | none => raise (.assertionError "order row exists")
  | some order =>
      if within : filled ≤ order.qty then
        modify fun db => db.updateOrder id fun _ => order.withFilled filled within
      else
        raise (.integrityError "ck_order_filled_qty_bounds")

@[simp]
theorem yields_setFilledQty {id filled : ℕ} {db db' : DB} {result : Unit} {world world' : Unit} :
    (setFilledQty id filled).Yields db world result db' world' ↔
      ∃ order, ∃ within : filled ≤ order.qty, db.orders.get? id = some order ∧
        db' = db.updateOrder id fun _ => order.withFilled filled within := by
  simp only [setFilledQty, yields_bind, yields_read]
  constructor
  · rintro ⟨_, _, _, ⟨rfl, rfl, _⟩, yields⟩
    split at yields
    · simp at yields
    · rename_i order found
      split_ifs at yields with within
      · simp only [yields_modify] at yields
        exact ⟨order, within, found, yields.1⟩
      · simp at yields
  · rintro ⟨order, within, found, rfl⟩
    exact ⟨db, db, world, ⟨rfl, rfl, trivial⟩, by simp [found, within]⟩

/-- Exactly when a filled quantity is refused. -/
theorem raises_setFilledQty {id filled : ℕ} {db : DB} {order : Order} {exception : PyError}
    {world world' : Unit} (found : db.orders.get? id = some order) :
    (setFilledQty id filled).Raises db world exception world' ↔
      order.qty < filled ∧ exception = .integrityError "ck_order_filled_qty_bounds" := by
  simp only [setFilledQty, raises_bind, raises_read, yields_read, false_or]
  constructor
  · rintro ⟨_, _, _, ⟨rfl, rfl, _⟩, raises⟩
    simp only [found] at raises
    split_ifs at raises with within
    · simp at raises
    · simp only [raises_raise] at raises
      exact ⟨not_le.mp within, raises.1⟩
  · rintro ⟨beyond, rfl⟩
    refine ⟨db, db, world, ⟨rfl, rfl, trivial⟩, ?_⟩
    simp [found, not_le.mpr beyond]

/-- Booking a fill and counting it on the row is a fill of the exposure. -/
theorem DB.exposure_fill {db : DB} {mode : Mode} {id : ℕ} {order : Order}
    (found : db.orders.get? id = some order) (working : order.isWorking mode = true) {qty : ℕ}
    (within : order.filledQty + qty ≤ order.qty) (price : ℚ) (costs : TradeCosts)
    (executedAt : ℤ) :
    ((db.bookFill mode id order qty price costs executedAt).updateOrder id fun _ =>
        order.withFilled (order.filledQty + qty) within).exposure mode =
      (db.exposure mode).fill id order.working qty := by
  have foundBooked : (db.bookFill mode id order qty price costs executedAt).orders.get? id =
      some order := found
  have stillWorking : (order.withFilled (order.filledQty + qty) within).isWorking mode = true :=
    working
  rw [exposure_updateOrder foundBooked]
  simp only [Option.filter_some, stillWorking, if_true, Option.map_some, Exposure.fill,
    Exposure.mk.injEq]
  refine ⟨funext fun other => ?_, ?_⟩
  · rw [exposure_net, positionQty_bookFill]
    by_cases same : other = order.instrumentId
    · subst other
      simp [Order.working, Side.sign]
    · simp [same, Order.working, Function.update_of_ne]
  · have workingEq : ((db.bookFill mode id order qty price costs executedAt).exposure mode).working =
        (db.exposure mode).working := rfl
    rw [workingEq]
    congr 2
    simp only [Order.working, Order.remaining, Order.withFilled, Working.mk.injEq, true_and]
    omega

/-! ## Trading steps -/

/-- What trading never changes about an order. -/
structure OrderTerms where
  clientOrderId : String
  brokerOrderId : Option String
  instrumentId : ℕ
  signalId : Option ℕ
  side : Side
  orderType : OrderType
  qty : ℕ
  limitPrice : Option ℚ
  mode : Mode

/-- The terms of an order. -/
def Order.terms (order : Order) : OrderTerms :=
  { order with }

/-- All that fills and cancellations can do to the store: the exposure makes
progress, orders keep their terms and do not return to `PENDING_RISK`, signals, the kill
switch and the instruments are left alone. -/
structure Trading (mode : Mode) (db db' : DB) : Prop where
  progresses : Exposure.Progresses (db.exposure mode) (db'.exposure mode)
  terms : ∀ id, (db'.orders.get? id).map Order.terms = (db.orders.get? id).map Order.terms
  pending : ∀ id, (db'.orders.get? id).map Order.state = some .pendingRisk →
    (db.orders.get? id).map Order.state = some .pendingRisk
  nextId : db'.orders.nextId = db.orders.nextId
  signals : db'.signals = db.signals
  killSwitch : db'.killSwitch = db.killSwitch
  instruments : db'.instruments = db.instruments

namespace Trading

variable {mode : Mode} {db db' db'' : DB} {id : ℕ} {order : Order}

theorem refl (mode : Mode) (db : DB) : Trading mode db db :=
  ⟨.refl, fun _ => rfl, fun _ pending => pending, rfl, rfl, rfl, rfl⟩

theorem trans (first : Trading mode db db') (second : Trading mode db' db'') :
    Trading mode db db'' :=
  ⟨first.progresses.trans second.progresses, fun id => (second.terms id).trans (first.terms id),
    fun id pending => first.pending id (second.pending id pending),
    second.nextId.trans first.nextId, second.signals.trans first.signals,
    second.killSwitch.trans first.killSwitch, second.instruments.trans first.instruments⟩

/-- Writes outside the orders, the positions, the signals, the kill switch and the
instruments. -/
theorem of_same (orders : db'.orders = db.orders) (positions : db'.positions = db.positions)
    (signals : db'.signals = db.signals) (killSwitch : db'.killSwitchState = db.killSwitchState)
    (instruments : db'.instruments = db.instruments) : Trading mode db db' :=
  ⟨DB.exposure_congr orders positions mode ▸ .refl, fun _ => by rw [orders],
    fun _ pending => by rwa [orders] at pending, by rw [orders], signals,
    by rw [DB.killSwitch, killSwitch, DB.killSwitch], instruments⟩

theorem terms_update (found : db.orders.get? id = some order) {change : Order → Order}
    (sameTerms : (change order).terms = order.terms) (other : ℕ) :
    ((db.orders.update id change).get? other).map Order.terms =
      (db.orders.get? other).map Order.terms := by
  by_cases same : other = id
  · subst other
    simp [found, sameTerms]
  · rw [RowTable.get?_update_of_ne same]

theorem pending_update (found : db.orders.get? id = some order) {change : Order → Order}
    (born : (change order).state = .pendingRisk → order.state = .pendingRisk) (other : ℕ)
    (pending : ((db.orders.update id change).get? other).map Order.state = some .pendingRisk) :
    (db.orders.get? other).map Order.state = some .pendingRisk := by
  by_cases same : other = id
  · subst other
    simp only [RowTable.get?_update_self, found, Option.map_some, Option.some.injEq] at pending ⊢
    exact born pending
  · rwa [RowTable.get?_update_of_ne same] at pending

theorem fill (found : db.orders.get? id = some order) (working : order.isWorking mode = true)
    {qty : ℕ} (positive : 0 < qty) (within : order.filledQty + qty ≤ order.qty) (price : ℚ)
    (costs : TradeCosts) (executedAt : ℤ) :
    Trading mode db ((db.bookFill mode id order qty price costs executedAt).updateOrder id fun _ =>
      order.withFilled (order.filledQty + qty) within) := by
  refine ⟨?_, terms_update found rfl, pending_update found fun same => same,
    RowTable.nextId_update .., rfl, rfl, rfl⟩
  rw [DB.exposure_fill found working within]
  refine .single (.fill (DB.exposure_working_eq_some.mpr ⟨order, found, working, rfl⟩) positive ?_)
  simp only [Order.working, Order.remaining]
  omega

theorem move (found : db.orders.get? id = some order) (working : order.isWorking mode = true)
    {toState : OrderState} (born : toState ≠ .pendingRisk) (payload : EventPayload) :
    Trading mode db (db.moveOrder id order.state toState payload) := by
  have isOpen : order.state.isOpen = true := by
    simp only [Order.isWorking, Bool.and_eq_true] at working
    exact working.1
  refine ⟨?_, terms_update found rfl, pending_update found fun back => absurd back born,
    RowTable.nextId_update .., rfl, rfl, rfl⟩
  cases target : toState.isOpen with
  | false =>
      rw [DB.exposure_moveOrder_closed found target payload mode]
      exact .single (.retire (DB.exposure_working_eq_some.mpr ⟨order, found, working, rfl⟩))
  | true =>
      rw [DB.exposure_moveOrder_open found (target.trans isOpen.symm) payload mode]

/-- An order row after trading has the terms of the row before. -/
theorem terms_eq (trading : Trading mode db db') {order' : Order}
    (found : db.orders.get? id = some order) (found' : db'.orders.get? id = some order') :
    order'.terms = order.terms := by
  simpa [found, found'] using trading.terms id

theorem exists_before (trading : Trading mode db db') {order' : Order}
    (found' : db'.orders.get? id = some order') :
    ∃ order, db.orders.get? id = some order ∧ order'.terms = order.terms := by
  have sameTerms := trading.terms id
  rw [found', Option.map_some, eq_comm, Option.map_eq_some_iff] at sameTerms
  rcases sameTerms with ⟨order, found, termsEq⟩
  exact ⟨order, found, termsEq.symm⟩

theorem orderIds (trading : Trading mode db db') : db'.orderIds = db.orderIds := by
  rw [DB.orderIds, trading.nextId, DB.orderIds]

theorem isTripped (trading : Trading mode db db') :
    db'.killSwitch.tripped = db.killSwitch.tripped := by
  rw [trading.killSwitch]

end Trading

/-! ## Births of orders -/

/-- All that the birth of an order does to the store: `order` is the row under the
next primary key. -/
structure Opening (db db' : DB) (order : Order) : Prop where
  orders : ∀ id, db'.orders.get? id =
    if id = db.orders.nextId then some order else db.orders.get? id
  nextId : db'.orders.nextId = db.orders.nextId + 1
  positions : db'.positions = db.positions
  trades : db'.trades = db.trades
  signals : db'.signals = db.signals
  killSwitch : db'.killSwitch = db.killSwitch

namespace Opening

variable {mode : Mode} {db db' : DB} {order : Order}

theorem create (db : DB) (order : Order) : Opening db (db.createOrder order) order :=
  ⟨RowTable.get?_insert db.orders order, RowTable.nextId_insert .., rfl, rfl, rfl, rfl⟩

theorem get?_new (opening : Opening db db' order) :
    db'.orders.get? db.orders.nextId = some order := by
  rw [opening.orders, if_pos rfl]

theorem get?_old (opening : Opening db db' order) {id : ℕ} (old : id ≠ db.orders.nextId) :
    db'.orders.get? id = db.orders.get? id := by
  rw [opening.orders, if_neg old]

theorem update (opening : Opening db db' order) (change : Order → Order) :
    Opening db (db'.updateOrder db.orders.nextId change) (change order) := by
  refine ⟨fun id => ?_, opening.nextId ▸ RowTable.nextId_update .., opening.positions,
    opening.trades, opening.signals, opening.killSwitch⟩
  by_cases new : id = db.orders.nextId
  · subst id
    simp [DB.updateOrder, opening.get?_new]
  · simp [DB.updateOrder, RowTable.get?_update_of_ne new, opening.get?_old new, new]

theorem move (opening : Opening db db' order) (fromState toState : OrderState)
    (payload : EventPayload) :
    Opening db (db'.moveOrder db.orders.nextId fromState toState payload)
      { order with state := toState } :=
  ⟨(opening.update fun order => { order with state := toState }).orders,
    (opening.update fun order => { order with state := toState }).nextId, opening.positions,
    opening.trades, opening.signals, opening.killSwitch⟩

/-- The birth of an order that can trade is a submission to the exposure. -/
theorem exposure (opening : Opening db db' order) (working : order.isWorking mode = true) :
    db'.exposure mode = (db.exposure mode).submit db.orders.nextId order.working := by
  simp only [DB.exposure, Exposure.submit, Exposure.mk.injEq]
  refine ⟨by simp only [DB.positionQty, DB.positionFor, opening.positions], funext fun id => ?_⟩
  by_cases new : id = db.orders.nextId
  · subst id
    simp [opening.get?_new, working]
  · simp [opening.get?_old new, Function.update_of_ne new]

theorem fresh (db : DB) (mode : Mode) : (db.exposure mode).working db.orders.nextId = none := by
  simp [DB.exposure]

end Opening

end PersonalTrade
