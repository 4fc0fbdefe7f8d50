import PersonalTrade.Store.Repos

/-!
# The exposure of the store

The abstract view of one mode of the database: its signed position quantities and
its orders that may still trade. The writes of the trading core are moves of this
exposure; everything else they store leaves it alone.
-/

namespace PersonalTrade

/-- An order row as a working order. -/
def Order.working (order : Order) : Working ℕ :=
  ⟨order.instrumentId, order.side.direction, order.remaining⟩

/-- The row can still trade in `mode`. -/
def Order.isWorking (order : Order) (mode : Mode) : Bool :=
  order.state.isOpen && order.mode = mode

namespace DB

/-- The exposure of a mode. -/
def exposure (db : DB) (mode : Mode) : Exposure ℕ ℕ where
  net instrumentId := db.positionQty instrumentId mode
  working id := ((db.orders.get? id).filter (Order.isWorking · mode)).map Order.working

/-- The primary keys in use. -/
def orderIds (db : DB) : Finset ℕ := Finset.range db.orders.nextId

/-- The quantity resting on one side of an instrument. -/
def resting (db : DB) (mode : Mode) (instrumentId : ℕ) (side : Side) : ℕ :=
  (db.exposure mode).resting db.orderIds instrumentId side.direction

/-- The instruments with a position or an open order. -/
def occupied (db : DB) (mode : Mode) : Finset ℕ :=
  db.openInstruments mode ∪ (db.listOpenOrders mode).toFinset.biUnion fun id =>
    (((db.orders.get? id).map Order.instrumentId).toList).toFinset

@[simp]
theorem exposure_net (db : DB) (mode : Mode) (instrumentId : ℕ) :
    (db.exposure mode).net instrumentId = db.positionQty instrumentId mode := rfl

theorem exposure_working_eq_some {db : DB} {mode : Mode} {id : ℕ} {working : Working ℕ} :
    (db.exposure mode).working id = some working ↔
      ∃ order, db.orders.get? id = some order ∧ order.isWorking mode = true ∧
        order.working = working := by
  simp [exposure, Option.filter_eq_some_iff, and_assoc]

theorem mem_listOpenOrders {db : DB} {mode : Mode} {id : ℕ} :
    id ∈ db.listOpenOrders mode ↔
      ∃ order, db.orders.get? id = some order ∧ order.isWorking mode = true := by
  simp [listOpenOrders, Order.isWorking]

theorem supportedBy_orderIds (db : DB) (mode : Mode) :
    (db.exposure mode).SupportedBy db.orderIds := by
  intro id working present
  rcases exposure_working_eq_some.mp present with ⟨order, found, _⟩
  exact Finset.mem_range.mpr (RowTable.lt_nextId_of_get? found)

theorem coe_occupied (db : DB) (mode : Mode) :
    (db.occupied mode : Set ℕ) = (db.exposure mode).occupied := by
  ext instrumentId
  simp only [occupied, Finset.coe_union, Set.mem_union, Finset.mem_coe, mem_openInstruments,
    Finset.mem_biUnion, List.mem_toFinset, mem_listOpenOrders, Option.mem_toList,
    Option.map_eq_some_iff, Exposure.occupied, Set.mem_ofPred_eq, exposure_net,
    exposure_working_eq_some]
  refine or_congr_right ⟨?_, ?_⟩
  · rintro ⟨id, ⟨order, found, working⟩, other, otherFound, rfl⟩
    rw [found, Option.some.injEq] at otherFound
    exact ⟨id, order.working, ⟨order, found, working, rfl⟩, by rw [← otherFound]; rfl⟩
  · rintro ⟨id, _, ⟨order, found, working, rfl⟩, rfl⟩
    exact ⟨id, ⟨order, found, working⟩, order, found, rfl⟩

/-- Without open orders nothing works. -/
theorem exposure_working_eq_none {db : DB} {mode : Mode} (noOrders : db.listOpenOrders mode = [])
    (id : ℕ) : (db.exposure mode).working id = none := by
  rcases entry : (db.exposure mode).working id with _ | working
  · rfl
  · rcases exposure_working_eq_some.mp entry with ⟨order, found, isWorking, _⟩
    have mem := mem_listOpenOrders.mpr ⟨order, found, isWorking⟩
    rw [noOrders] at mem
    cases mem

/-! ## Writes as moves of the exposure -/

/-- The exposure reads nothing but the orders and the positions. -/
theorem exposure_congr {db db' : DB} (orders : db'.orders = db.orders)
    (positions : db'.positions = db.positions) (mode : Mode) :
    db'.exposure mode = db.exposure mode := by
  simp [exposure, positionQty, positionFor, orders, positions]

/-- Rewriting one row rewrites one entry of the working table. -/
theorem exposure_updateOrder {db : DB} {id : ℕ} {order : Order}
    (found : db.orders.get? id = some order) (change : Order → Order) (mode : Mode) :
    (db.updateOrder id change).exposure mode =
      { db.exposure mode with
        working := Function.update (db.exposure mode).working id
          (((some (change order)).filter (Order.isWorking · mode)).map Order.working) } := by
  simp only [exposure, updateOrder, Exposure.mk.injEq]
  refine ⟨rfl, funext fun other => ?_⟩
  by_cases same : other = id
  · subst other
    simp [found]
  · simp [RowTable.get?_update_of_ne same, Function.update_of_ne same]

/-- A rewrite that a working order survives unchanged leaves the exposure alone. -/
theorem exposure_updateOrder_self {db : DB} {id : ℕ} {order : Order}
    (found : db.orders.get? id = some order) (change : Order → Order) (mode : Mode)
    (sameWorking : (change order).isWorking mode = order.isWorking mode)
    (sameView : (change order).working = order.working) :
    (db.updateOrder id change).exposure mode = db.exposure mode := by
  rw [exposure_updateOrder found]
  have entry : ((some (change order)).filter (Order.isWorking · mode)).map Order.working =
      (db.exposure mode).working id := by
    simp only [exposure, found, Option.filter_some, sameWorking]
    split_ifs <;> simp [sameView]
  rw [entry, Function.update_eq_self]

/-- A move between two open states leaves the exposure alone. -/
theorem exposure_moveOrder_open {db : DB} {id : ℕ} {order : Order}
    (found : db.orders.get? id = some order) {toState : OrderState}
    (sameOpen : toState.isOpen = order.state.isOpen) (payload : EventPayload) (mode : Mode) :
    (db.moveOrder id order.state toState payload).exposure mode = db.exposure mode := by
  rw [← exposure_updateOrder_self found (fun order => { order with state := toState }) mode
    (by simp [Order.isWorking, sameOpen]) rfl]
  exact exposure_congr rfl rfl mode

/-- A move of a working order to a closed state retires it. -/
theorem exposure_moveOrder_closed {db : DB} {id : ℕ} {order : Order}
    (found : db.orders.get? id = some order) {toState : OrderState}
    (closed : toState.isOpen = false) (payload : EventPayload) (mode : Mode) :
    (db.moveOrder id order.state toState payload).exposure mode =
      (db.exposure mode).retire id := by
  have updated := exposure_updateOrder found (fun order => { order with state := toState }) mode
  simp only [Order.isWorking, closed, Bool.false_and, Option.filter_some, Bool.false_eq_true,
    if_false, Option.map_none] at updated
  rw [Exposure.retire, ← updated]
  exact exposure_congr rfl rfl mode

end DB

end PersonalTrade
