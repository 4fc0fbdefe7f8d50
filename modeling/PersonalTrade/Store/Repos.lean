import PersonalTrade.Store.Models

/-!
# Repositories

The queries and writes of `data/store/repos.py`. Queries are functions of the
database; writes are session bodies that raise what the constraints of the tables
and the order state machine raise. Each write has one rule stating exactly when
it returns and what it leaves.
-/

namespace PersonalTrade

open Transaction

/-! ## Instruments -/

/-- `InstrumentRepository.get`. -/
def DB.instrument (db : DB) (id : ℕ) : Option Instrument :=
  db.instruments.find? fun instrument => instrument.id = id

/-- A row of `instruments` with its exchange. -/
structure ListedInstrument extends Instrument where
  exchange : String
deriving DecidableEq, Repr

/-- `InstrumentRepository.get_by_symbol`; the symbol and the exchange are a unique key. -/
def getBySymbol (instruments : List ListedInstrument) (symbol exchange : String) :
    Option ListedInstrument :=
  instruments.find? fun instrument =>
    instrument.symbol = symbol ∧ instrument.exchange = exchange

/-- `InstrumentRepository.get_by_instrument_key`. -/
def DB.instrumentByKey (db : DB) (key : String) : Option Instrument :=
  db.instruments.find? fun instrument => instrument.instrumentKey = key

/-! ## Orders -/

/-- `OrderRepository.get_by_client_order_id`, as the primary key of the row. -/
def DB.orderByClientId (db : DB) (clientOrderId : String) : Option ℕ :=
  (db.orders.select fun order => order.clientOrderId = clientOrderId).head?

/-- `OrderRepository.list_open`, as the primary keys of the rows. -/
def DB.listOpenOrders (db : DB) (mode : Mode) : List ℕ :=
  db.orders.select fun order => order.state.isOpen && order.mode = mode

/-- The database with an order in a new state and the event recording the move. -/
def DB.moveOrder (db : DB) (id : ℕ) (fromState toState : OrderState) (payload : EventPayload) :
    DB :=
  { db with
    orders := db.orders.update id fun order => { order with state := toState }
    orderEvents := db.orderEvents ++ [⟨id, some fromState, toState, payload⟩] }

/-- The database with a new order and its birth event. -/
def DB.createOrder (db : DB) (order : Order) : DB :=
  { db with
    orders := db.orders.insert order
    orderEvents := db.orderEvents ++ [⟨db.orders.nextId, none, order.state, .empty⟩] }

/-- The database with one order row rewritten. -/
def DB.updateOrder (db : DB) (id : ℕ) (change : Order → Order) : DB :=
  { db with orders := db.orders.update id change }

/-- Some row already carries the idempotency key. -/
def DB.usesClientId (db : DB) (clientOrderId : String) : Bool :=
  db.orders.rows.any fun order => order.clientOrderId = clientOrderId

/-- `OrderRepository.record_created`: the new row must pass the constraints of the
table. -/
def recordCreated (order : Order) : Session ℕ := do
  let db ← read
  if order.qty = 0 then
    raise (.integrityError "ck_order_qty_positive")
  else if db.usesClientId order.clientOrderId then
    raise (.integrityError "orders.client_order_id")
  else do
    modify fun db => db.createOrder order
    pure db.orders.nextId

def transition (id : ℕ) (toState : OrderState) (payload : EventPayload := .empty) :
    Session Unit := do
  let db ← read
  match db.orders.get? id with
  | none => raise (.assertionError "order row exists")
  | some order =>
      if toState ∈ allowedOrderTransitions order.state then
        modify fun db => db.moveOrder id order.state toState payload
      else
        raise (.invalidOrderTransition order.clientOrderId order.state toState)

@[simp]
theorem yields_recordCreated {order : Order} {db db' : DB} {id : ℕ} {world world' : Unit} :
    (recordCreated order).Yields db world id db' world' ↔
      order.qty ≠ 0 ∧ db.usesClientId order.clientOrderId = false ∧
        id = db.orders.nextId ∧ db' = db.createOrder order := by
  simp only [recordCreated, yields_bind, yields_read]
  constructor
  · rintro ⟨_, _, _, ⟨rfl, rfl, _⟩, yields⟩
    split_ifs at yields with zero used
    · simp at yields
    · simp at yields
    · simp only [yields_bind, yields_modify, yields_pure] at yields
      rcases yields with ⟨_, _, _, ⟨rfl, _⟩, rfl, rfl, _⟩
      exact ⟨zero, by simpa using used, rfl, rfl⟩
  · rintro ⟨nonzero, unused, rfl, rfl⟩
    refine ⟨db, db, world, ⟨rfl, rfl, trivial⟩, ?_⟩
    simp [nonzero, unused]

@[simp]
theorem yields_transition {id : ℕ} {toState : OrderState} {payload : EventPayload} {db db' : DB}
    {result : Unit} {world world' : Unit} :
    (transition id toState payload).Yields db world result db' world' ↔
      ∃ order, db.orders.get? id = some order ∧
        toState ∈ allowedOrderTransitions order.state ∧
        db' = db.moveOrder id order.state toState payload := by
  simp only [transition, yields_bind, yields_read]
  constructor
  · rintro ⟨_, _, _, ⟨rfl, rfl, _⟩, yields⟩
    split at yields
    · simp at yields
    · rename_i order found
      split_ifs at yields with allowed
      · simp only [yields_modify] at yields
        exact ⟨order, found, allowed, yields.1⟩
      · simp at yields
  · rintro ⟨order, found, allowed, rfl⟩
    exact ⟨db, db, world, ⟨rfl, rfl, trivial⟩, by simp [found, allowed]⟩

/-- Exactly when a transition is refused. -/
theorem raises_transition {id : ℕ} {toState : OrderState} {payload : EventPayload} {db : DB}
    {order : Order} {exception : PyError} {world world' : Unit}
    (found : db.orders.get? id = some order) :
    (transition id toState payload).Raises db world exception world' ↔
      toState ∉ allowedOrderTransitions order.state ∧
        exception = .invalidOrderTransition order.clientOrderId order.state toState := by
  simp only [transition, raises_bind, raises_read, yields_read, false_or]
  constructor
  · rintro ⟨_, _, _, ⟨rfl, rfl, _⟩, raises⟩
    simp only [found] at raises
    split_ifs at raises with allowed
    · simp at raises
    · simp only [raises_raise] at raises
      exact ⟨allowed, raises.1⟩
  · rintro ⟨refused, rfl⟩
    refine ⟨db, db, world, ⟨rfl, rfl, trivial⟩, ?_⟩
    simp [found, refused]

/-! ## Positions -/

/-- `PositionRepository.get_for`. -/
def DB.positionFor (db : DB) (instrumentId : ℕ) (mode : Mode) : Option Position :=
  db.positions.lookup ⟨instrumentId, mode⟩

/-- The signed quantity of a position, zero without a row. -/
def DB.positionQty (db : DB) (instrumentId : ℕ) (mode : Mode) : ℤ :=
  ((db.positionFor instrumentId mode).map Position.qty).getD 0

/-- `PositionRepository.get_or_create`, as the row it returns. -/
def DB.getOrCreatePosition (db : DB) (instrumentId : ℕ) (mode : Mode) : Position :=
  (db.positionFor instrumentId mode).getD {}

/-- Store a position. -/
def DB.setPosition (db : DB) (instrumentId : ℕ) (mode : Mode) (position : Position) : DB :=
  { db with positions := db.positions.insert ⟨instrumentId, mode⟩ position }

/-- `PositionRepository.list_open`. -/
def DB.listOpenPositions (db : DB) (mode : Mode) : List (ℕ × Position) :=
  (db.positions.entries.filter fun entry => entry.1.mode = mode ∧ entry.2.qty ≠ 0).map
    fun entry => (entry.1.instrumentId, entry.2)

/-- `PositionRepository.count_open`. -/
def DB.countOpen (db : DB) (mode : Mode) : ℕ := (db.listOpenPositions mode).length

theorem DB.getOrCreatePosition_qty (db : DB) (instrumentId : ℕ) (mode : Mode) :
    (db.getOrCreatePosition instrumentId mode).qty = db.positionQty instrumentId mode := by
  unfold getOrCreatePosition positionQty
  cases db.positionFor instrumentId mode <;> rfl

@[simp]
theorem DB.positionFor_setPosition_self (db : DB) (instrumentId : ℕ) (mode : Mode)
    (position : Position) :
    (db.setPosition instrumentId mode position).positionFor instrumentId mode = some position := by
  simp [positionFor, setPosition]

theorem DB.positionFor_setPosition_of_ne {db : DB} {instrumentId other : ℕ} {mode otherMode : Mode}
    {position : Position} (ne : (⟨other, otherMode⟩ : PositionKey) ≠ ⟨instrumentId, mode⟩) :
    (db.setPosition instrumentId mode position).positionFor other otherMode =
      db.positionFor other otherMode := by
  simp [positionFor, setPosition, AList.lookup_insert_ne ne]

theorem DB.positionQty_setPosition (db : DB) (instrumentId other : ℕ) (mode otherMode : Mode)
    (position : Position) :
    (db.setPosition instrumentId mode position).positionQty other otherMode =
      if other = instrumentId ∧ otherMode = mode then position.qty
      else db.positionQty other otherMode := by
  unfold positionQty
  split_ifs with same
  · rcases same with ⟨rfl, rfl⟩
    simp
  · rw [positionFor_setPosition_of_ne]
    simpa using same

/-- The instruments with a non-zero position in a mode. -/
def DB.openInstruments (db : DB) (mode : Mode) : Finset ℕ :=
  (db.positions.keysWhere fun key position => key.mode = mode ∧ position.qty ≠ 0).image
    PositionKey.instrumentId

theorem DB.mem_openInstruments {db : DB} {mode : Mode} {instrumentId : ℕ} :
    instrumentId ∈ db.openInstruments mode ↔ db.positionQty instrumentId mode ≠ 0 := by
  simp only [openInstruments, Finset.mem_image, AList.mem_keysWhere, decide_eq_true_eq,
    positionQty, positionFor]
  constructor
  · rintro ⟨⟨_, _⟩, ⟨position, found, rfl, open_⟩, rfl⟩
    simpa [found] using open_
  · intro open_
    rcases found : db.positions.lookup ⟨instrumentId, mode⟩ with _ | position
    · simp [found] at open_
    · exact ⟨⟨instrumentId, mode⟩, ⟨position, found, rfl, by simpa [found] using open_⟩, rfl⟩

theorem DB.mem_listOpenPositions {db : DB} {mode : Mode} {instrumentId : ℕ} :
    instrumentId ∈ (db.listOpenPositions mode).map Prod.fst ↔
      db.positionQty instrumentId mode ≠ 0 := by
  rw [← mem_openInstruments]
  simp only [openInstruments, AList.keysWhere, listOpenPositions, Finset.mem_image,
    List.mem_toFinset, List.mem_map, List.mem_filter]
  constructor
  · rintro ⟨_, ⟨entry, ⟨present, isOpen⟩, rfl⟩, rfl⟩
    exact ⟨entry.1, ⟨entry, ⟨present, isOpen⟩, rfl⟩, rfl⟩
  · rintro ⟨_, ⟨entry, ⟨present, isOpen⟩, rfl⟩, rfl⟩
    exact ⟨_, ⟨entry, ⟨present, isOpen⟩, rfl⟩, rfl⟩

/-- Positions are unique for an instrument and a mode, so `count_open` counts
instruments. -/
theorem DB.countOpen_eq_card (db : DB) (mode : Mode) :
    db.countOpen mode = (db.openInstruments mode).card := by
  rw [openInstruments, Finset.card_image_of_injOn, AList.card_keysWhere]
  · simp [countOpen, listOpenPositions]
  · intro first firstMem second secondMem sameInstrument
    simp only [Finset.mem_coe, AList.mem_keysWhere, decide_eq_true_eq] at firstMem secondMem
    rcases first with ⟨_, _⟩
    rcases second with ⟨_, _⟩
    rcases firstMem with ⟨_, _, rfl, _⟩
    rcases secondMem with ⟨_, _, rfl, _⟩
    simpa using sameInstrument

/-! ## Trades -/

/-- `TradeRepository.list_realized_since`. -/
def DB.listRealizedSince (db : DB) (mode : Mode) (since : ℤ) : List Trade :=
  db.trades.filter fun trade =>
    (db.orders.get? trade.orderId).any (fun order => order.mode = mode) &&
      decide (since ≤ trade.executedAt) && trade.realizedPnl.isSome

/-- `TradeRepository.sum_realized_pnl_since`. -/
def DB.sumRealizedPnlSince (db : DB) (mode : Mode) (since : ℤ) : ℚ :=
  ((db.listRealizedSince mode since).map fun trade => trade.realizedPnl.getD 0).sum

/-- The trades of one order. -/
def DB.tradesOf (db : DB) (orderId : ℕ) : List Trade :=
  db.trades.filter fun trade => trade.orderId = orderId

/-- The quantity of the trades of one order. -/
def DB.tradedQty (db : DB) (orderId : ℕ) : ℕ := ((db.tradesOf orderId).map Trade.qty).sum

/-! ## Singletons -/

/-- `KillSwitchStateRepository.get_or_create`, as the row it returns. -/
def DB.killSwitch (db : DB) : KillSwitchState := db.killSwitchState.getD {}

/-- Append a risk event. -/
def DB.addRiskEvent (db : DB) (event : RiskEvent) : DB :=
  { db with riskEvents := db.riskEvents ++ [event] }

end PersonalTrade
