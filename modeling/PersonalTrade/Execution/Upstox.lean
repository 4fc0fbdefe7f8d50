import PersonalTrade.Execution.UpstoxHttp

/-!
# Upstox broker

`execution/upstox/broker.py`: orders placed over HTTP and fills learned by polling.
What one report does to the store is stated once, in `yields_applyOrderUpdate`, and
a whole poll is a `Trading` step whatever the servers answer: the check constraint
on the filled quantity refuses a report of more than the order.
-/

namespace PersonalTrade

open Transaction

/-- `_SEGMENT_TO_PRODUCT`. -/
def segmentToProduct : Segment → String
  | .delivery => "D"
  | .intraday => "I"

/-- `_SIDE_TO_TRANSACTION_TYPE`. -/
def sideToTransactionType : Side → String
  | .buy => "BUY"
  | .sell => "SELL"

/-- `_ORDER_TYPE_TO_UPSTOX`. -/
def orderTypeToUpstox : OrderType → String
  | .market => "MARKET"
  | .limit => "LIMIT"
  | .sl => "SL-M"

/-- `str.lower` on the characters that can become ASCII letters: the capital
letters and the Kelvin sign. -/
def lowerChar (c : Char) : Char := if c = Char.ofNat 0x212A then 'k' else c.toLower

/-- `_TERMINAL_STATUS`. -/
def terminalStatus (status : String) : Option OrderState :=
  if status = "complete" then some .filled
  else if status = "rejected" then some .rejectedBroker
  else if status = "cancelled" then some .cancelled
  else if status = "cancelled after market order" then some .cancelled
  else none

/-- `_map_status`; the quantity is not used. -/
def mapStatus (status : String) (filledQty _qty : ℤ) : OrderState :=
  match terminalStatus (String.ofList (status.toList.map lowerChar)) with
  | some terminal => terminal
  | none => if 0 < filledQty then .partiallyFilled else .opened

/-- `UpstoxBroker`, built on a session. -/
structure UpstoxBroker (ω : Type) where
  transport : Transport ω
  cfg : UpstoxConfig
  costRates : CostConfig

namespace UpstoxBroker

variable {ω : Type}

/-- `_request`. -/
def request (broker : UpstoxBroker ω) (call : HttpRequest) : ω → Except PyError Payload × ω :=
  sendRequest broker.transport broker.cfg.maxRetries call

/-! ## Placing orders -/

/-- The body of a place-order request. -/
def orderBody (broker : UpstoxBroker ω) (request : OrderRequest) (instrument : Instrument) :
    OrderBody where
  quantity := request.qty
  product := segmentToProduct broker.cfg.segment
  validity := "DAY"
  price := if request.orderType = .limit then request.limitPrice.getD 0 else 0
  tag := prefixOf 20 request.clientOrderId
  instrumentToken := instrument.instrumentKey
  orderType := orderTypeToUpstox request.orderType
  transactionType := sideToTransactionType request.side
  disclosedQuantity := 0
  triggerPrice := if request.orderType = .sl then request.limitPrice.getD 0 else 0
  isAmo := false
  marketProtection := -1

/-- Persist the intent before the network call. -/
def persistIntent (request : OrderRequest) : Session ℕ := do
  let id ← recordCreated (request.row none .live)
  transition id .submitting
  pure id

/-- Record the identifier that the broker assigned. -/
def acknowledge (id : ℕ) (brokerOrderId : String) : Session Unit := do
  modify fun db => db.updateOrder id fun order =>
    { order with brokerOrderId := some brokerOrderId }
  transition id .submitted

/-- The text of the exceptions that `place_order` catches. -/
def caughtText : PyError → Option String
  | .upstoxBrokerError message => some message
  | .keyError key => some ("'" ++ key ++ "'")
  | .typeError message => some message
  | _ => none

/-- `place_order`. -/
def placeOrder (broker : UpstoxBroker ω) (request : OrderRequest) :
    Transaction DB ω PyError OrderAck := do
  let db ← read
  match db.instrument request.instrumentId with
  | none => raise (.unknownInstrument request.instrumentId)
  | some instrument => do
      let id ← persistIntent request
      let answered ← external (broker.request (.placeOrder (broker.orderBody request instrument)))
      match answered.bind Payload.orderId with
      | .ok brokerOrderId => do
          acknowledge id brokerOrderId
          pure ⟨request.clientOrderId, brokerOrderId⟩
      | .error raised =>
          match caughtText raised with
          | some text => do
              transition id .failed (.reason text)
              raise (.upstoxBrokerError ("place_order failed: " ++ text))
          | none => raise raised

/-- `cancel_order`. -/
def cancelOrder (broker : UpstoxBroker ω) (clientOrderId : String) :
    Transaction DB ω PyError Unit := do
  let db ← read
  match (db.orderByClientId clientOrderId).bind db.orders.get? with
  | none => raise (.unknownOrder clientOrderId)
  | some order =>
      match order.brokerOrderId with
      | none => raise (.unknownOrder clientOrderId)
      | some brokerOrderId =>
          if order.state = .opened ∨ order.state = .partiallyFilled then do
            let answered ← external (broker.request (.cancelOrder brokerOrderId))
            let _ ← ofExcept answered
            pure ()
          else pure ()

/-! ## Positions and funds -/

/-- `_raw_positions`. -/
def rawPositions (broker : UpstoxBroker ω) : Transaction DB ω PyError (List PositionRow) := do
  let answered ← external (broker.request .getPositions)
  ofExcept (answered.bind Payload.rows)

/-- One row of `get_positions`: unknown instruments and flat rows are skipped. -/
def toBrokerPosition (db : DB) (row : PositionRow) : Option BrokerPosition :=
  match db.instrumentByKey (row.instrumentToken.getD "") with
  | none => none
  | some instrument =>
      if row.quantity.getD 0 = 0 then none
      else some ⟨instrument.id, row.quantity.getD 0, row.averagePrice.getD 0⟩

/-- `get_positions`. -/
def getPositions (broker : UpstoxBroker ω) : Transaction DB ω PyError (List BrokerPosition) := do
  let rows ← broker.rawPositions
  let db ← read
  pure (rows.filterMap (toBrokerPosition db))

/-- The value of a row at its last price; a row without one counts nothing. -/
def PositionRow.marked (row : PositionRow) : ℚ :=
  match row.lastPrice with
  | none => 0
  | some lastPrice => row.quantity.getD 0 * lastPrice

/-- `get_funds`. -/
def getFunds (broker : UpstoxBroker ω) : Transaction DB ω PyError Funds := do
  let answered ← external (broker.request .getFunds)
  let cash ← ofExcept (answered.bind Payload.availableMargin)
  let rows ← broker.rawPositions
  pure ⟨cash, cash + (rows.map PositionRow.marked).sum⟩

/-! ## Polling -/

/-- `_record_fill`. -/
def recordFill (broker : UpstoxBroker ω) (id : ℕ) (order : Order) (qty : ℕ) (fillPrice : ℚ)
    (time : ℤ) : Session Unit := do
  let db ← read
  match db.instrument order.instrumentId with
  | none => raise (.assertionError "order references a deleted instrument")
  | some _ => do
      let costs ← ofExcept
        (calculateCosts order.side fillPrice qty broker.cfg.segment broker.costRates)
      modify fun db => db.bookFill .live id order qty fillPrice costs time

end UpstoxBroker

namespace OrderReport

/-- The cumulative filled quantity of a report. -/
def filled (report : OrderReport) : ℤ := report.filledQuantity.getD 0

/-- The status text of a report. -/
def statusText (report : OrderReport) : String := report.status.getD ""

/-- The average price of a report; a missing or zero one is no price. -/
def fillPrice (report : OrderReport) : Option ℚ := report.averagePrice.filter fun price => price ≠ 0

/-- The state that a report means for an order. -/
def stateFor (report : OrderReport) (order : Order) : OrderState :=
  mapStatus report.statusText report.filled (report.quantity.getD order.qty)

/-- What a report adds to the filled quantity of an order. -/
def newlyFilled (report : OrderReport) (order : Order) : ℤ := report.filled - order.filledQty

end OrderReport

namespace UpstoxBroker

variable {ω : Type}

/-- The booking of an order update: nothing without a new fill or without a price. -/
def bookReported (broker : UpstoxBroker ω) (id : ℕ) (order : Order) (report : OrderReport)
    (time : ℤ) : Session Unit :=
  match report.fillPrice with
  | none => pure ()
  | some fillPrice =>
      if 0 < report.newlyFilled order then do
        broker.recordFill id order (report.newlyFilled order).toNat fillPrice time
        setFilledQty id report.filled.toNat
      else pure ()

/-- The transitions of an order update: from `SUBMITTED` only `OPEN`,
`REJECTED_BROKER` and `FAILED` are reached directly. -/
def advance (id : ℕ) (state newState : OrderState) (payload : EventPayload) : Session Unit :=
  if newState = state then pure ()
  else if state = .submitted ∧ newState ∉ [.opened, .rejectedBroker, .failed] then do
    transition id .opened payload
    transition id newState payload
  else transition id newState payload

/-- `_apply_order_update`. -/
def applyOrderUpdate (broker : UpstoxBroker ω) (id : ℕ) (report : OrderReport) (time : ℤ) :
    Session (Option OrderUpdate) := do
  let db ← read
  match db.orders.get? id with
  | none => raise (.assertionError "order row exists")
  | some order =>
      if report.stateFor order = order.state ∧ report.newlyFilled order ≤ 0 then pure none
      else do
        broker.bookReported id order report time
        advance id order.state (report.stateFor order) (.upstoxStatus report.statusText)
        pure (some ⟨order.clientOrderId, order.brokerOrderId, report.stateFor order,
          report.filled, report.fillPrice, time⟩)

/-- One turn of `poll_and_apply_fills`; `clock` reads the time for each order. -/
def pollOrder (broker : UpstoxBroker ω) (clock : ℕ → ℤ) (id : ℕ) :
    Transaction DB ω PyError (Option OrderUpdate) := do
  let db ← read
  match db.orders.get? id with
  | none => raise (.assertionError "order row exists")
  | some order =>
      match order.brokerOrderId with
      | none => pure none
      | some brokerOrderId => do
          let answered ← external (broker.request (.getOrderDetails brokerOrderId))
          match answered with
          | .error (.upstoxBrokerError _) => pure none
          | .error raised => raise raised
          | .ok payload => do
              let report ← ofExcept payload.report
              lift (broker.applyOrderUpdate id report (clock id))

/-- `poll_and_apply_fills`. -/
def pollAndApplyFills (broker : UpstoxBroker ω) (clock : ℕ → ℤ) :
    Transaction DB ω PyError (List OrderUpdate) := do
  let db ← read
  collect (broker.pollOrder clock) (db.listOpenOrders .live)

end UpstoxBroker

/-- What applying a report does to the store: the row takes the reported state and
counts `booked` more shares, which its position and its trades get as well. -/
structure Applies (report : OrderReport) (id : ℕ) (order : Order) (booked : ℕ) (db db' : DB) :
    Prop where
  booked_eq : booked = if report.fillPrice.isSome then (report.newlyFilled order).toNat else 0
  within : order.filledQty + booked ≤ order.qty
  row : db'.orders.get? id = some { order with
    filledQty := order.filledQty + booked, filledQty_le := within, state := report.stateFor order }
  others : ∀ other, other ≠ id → db'.orders.get? other = db.orders.get? other
  position : ∀ instrumentId mode, db'.positionQty instrumentId mode =
    db.positionQty instrumentId mode +
      if instrumentId = order.instrumentId ∧ mode = .live then order.side.sign * booked else 0
  traded : ∀ other, db'.tradedQty other = db.tradedQty other + if other = id then booked else 0

namespace UpstoxBroker

variable {ω : Type} {broker : UpstoxBroker ω} {db db' : DB} {id : ℕ} {order : Order}
  {report : OrderReport} {time : ℤ}

/-! ## What the calls do -/

section Moves

variable {rel : ω → ω → Prop} [IsPreorder ω rel]

/-- Placing an order moves the outside along every preorder along which its answers move it. -/
theorem moves_placeOrder (moved : ∀ call world, rel world (broker.transport call world).2)
    (request : OrderRequest) : Moves rel (broker.placeOrder request) := by
  unfold placeOrder
  refine moves_bind moves_read fun _ _ db _ _ _ => ?_
  split
  · exact moves_raise _
  · refine moves_bind (moves_lift _) fun _ _ _ _ _ _ => moves_bind
      (moves_external fun world => sendRequest_moves (moved _) _ world) fun _ _ _ _ _ _ => ?_
    split
    · exact moves_bind (moves_lift _) fun _ _ _ _ _ _ => moves_pure _
    · split
      · exact moves_bind (moves_lift _) fun _ _ _ _ _ _ => moves_raise _
      · exact moves_raise _

theorem moves_cancelOrder (moved : ∀ call world, rel world (broker.transport call world).2)
    (clientOrderId : String) : Moves rel (broker.cancelOrder clientOrderId) := by
  unfold cancelOrder
  refine moves_bind moves_read fun _ _ db _ _ _ => ?_
  split
  · exact moves_raise _
  · split
    · exact moves_raise _
    · split_ifs
      · exact moves_bind (moves_external fun world => sendRequest_moves (moved _) _ world)
          fun _ _ _ _ _ _ => moves_bind (moves_ofExcept _) fun _ _ _ _ _ _ => moves_pure _
      · exact moves_pure _

theorem moves_pollOrder (moved : ∀ call world, rel world (broker.transport call world).2)
    (clock : ℕ → ℤ) (id : ℕ) : Moves rel (broker.pollOrder clock id) := by
  unfold pollOrder
  refine moves_bind moves_read fun _ _ db _ _ _ => ?_
  split
  · exact moves_raise _
  · split
    · exact moves_pure _
    · refine moves_bind (moves_external fun world => sendRequest_moves (moved _) _ world)
        fun _ _ _ _ _ _ => ?_
      split
      · exact moves_pure _
      · exact moves_raise _
      · exact moves_bind (moves_ofExcept _) fun _ _ _ _ _ _ => moves_lift _

theorem moves_pollAndApplyFills (moved : ∀ call world, rel world (broker.transport call world).2)
    (clock : ℕ → ℤ) : Moves rel (broker.pollAndApplyFills clock) :=
  moves_bind moves_read fun _ _ _ _ _ _ => moves_collect (moves_pollOrder moved clock) _

end Moves

/-- What a returning `cancel_order` has done: it sent a request for an order that is open on
the books, and nothing for any other. -/
theorem yields_cancelOrder {clientOrderId : String} {world world' : ω} {result : Unit} :
    (broker.cancelOrder clientOrderId).Yields db world result db' world' ↔
      db' = db ∧ ∃ order brokerOrderId,
        (db.orderByClientId clientOrderId).bind db.orders.get? = some order ∧
        order.brokerOrderId = some brokerOrderId ∧
        if order.state = .opened ∨ order.state = .partiallyFilled then
          ∃ payload, broker.request (.cancelOrder brokerOrderId) world = (.ok payload, world')
        else world' = world := by
  simp only [cancelOrder, yields_bind, yields_read]
  constructor
  · rintro ⟨_, _, _, ⟨rfl, rfl, rfl⟩, yields⟩
    split at yields
    · simp at yields
    · rename_i order found
      split at yields
      · simp at yields
      · rename_i brokerOrderId acknowledged
        split_ifs at yields with working
        · simp only [yields_bind, yields_external, yields_ofExcept, yields_pure] at yields
          rcases yields with ⟨_, _, _, ⟨sent, rfl⟩, payload, _, _, ⟨rfl, rfl, rfl⟩, _, rfl, rfl⟩
          refine ⟨rfl, order, brokerOrderId, found, acknowledged, ?_⟩
          rw [if_pos working]
          exact ⟨payload, sent⟩
        · simp only [yields_pure] at yields
          refine ⟨yields.2.1, order, brokerOrderId, found, acknowledged, ?_⟩
          rw [if_neg working]
          exact yields.2.2
  · rintro ⟨rfl, order, brokerOrderId, found, acknowledged, done⟩
    refine ⟨db', db', world, ⟨rfl, rfl, rfl⟩, ?_⟩
    simp only [found, acknowledged]
    split_ifs at done ⊢ with working
    · rcases done with ⟨payload, sent⟩
      simp only [yields_bind, yields_external, yields_ofExcept, yields_pure]
      exact ⟨_, _, _, ⟨sent, rfl⟩, payload, _, _, ⟨rfl, rfl, rfl⟩, trivial, rfl, rfl⟩
    · simp only [yields_pure]
      exact ⟨trivial, trivial, done⟩

/-- Exactly what booking a report does. -/
theorem yields_bookReported {world world' : Unit} {result : Unit}
    (found : db.orders.get? id = some order)
    (yields : (broker.bookReported id order report time).Yields db world result db' world') :
    (db' = db ∧ (report.fillPrice = none ∨ report.newlyFilled order ≤ 0)) ∨
      ∃ fillPrice costs qty, ∃ within : order.filledQty + qty ≤ order.qty,
        report.fillPrice = some fillPrice ∧ report.newlyFilled order = qty ∧ 0 < qty ∧
        calculateCosts order.side fillPrice qty broker.cfg.segment broker.costRates = .ok costs ∧
        db' = (db.bookFill .live id order qty fillPrice costs time).updateOrder id fun _ =>
          order.withFilled (order.filledQty + qty) within := by
  unfold bookReported at yields
  split at yields
  · rename_i unpriced
    simp only [yields_pure] at yields
    exact .inl ⟨yields.2.1, .inl unpriced⟩
  · rename_i fillPrice priced
    split_ifs at yields with grown
    · simp only [yields_bind, recordFill, yields_read] at yields
      rcases yields with ⟨_, _, _, ⟨_, _, _, ⟨rfl, rfl, _⟩, recorded⟩, counted⟩
      split at recorded
      · simp at recorded
      · simp only [yields_bind, yields_ofExcept, yields_modify] at recorded
        rcases recorded with ⟨costs, _, _, ⟨costsEq, rfl, _⟩, rfl, _⟩
        simp only [yields_setFilledQty] at counted
        rcases counted with ⟨row, within, rowFound, rfl⟩
        have rowEq : row = order := by
          have sameRow : some row = some order := rowFound.symm.trans found
          simpa using sameRow
        subst row
        have filledEq : report.filled.toNat =
            order.filledQty + (report.newlyFilled order).toNat := by
          unfold OrderReport.newlyFilled at grown ⊢
          omega
        have grownEq : report.newlyFilled order = ((report.newlyFilled order).toNat : ℤ) := by omega
        refine .inr ⟨fillPrice, costs, (report.newlyFilled order).toNat, filledEq ▸ within, priced,
          grownEq, by omega, costsEq, ?_⟩
        congr 1
        funext _
        congr 1
    · simp only [yields_pure] at yields
      exact .inl ⟨yields.2.1, .inr (not_lt.mp grown)⟩

/-- The transitions of an update rewrite the state of one row. -/
theorem yields_advance {newState : OrderState} {payload : EventPayload} {world world' : Unit}
    {result : Unit} (found : db.orders.get? id = some order)
    (yields : (advance id order.state newState payload).Yields db world result db' world') :
    db'.orders.get? id = some { order with state := newState } ∧
      (∀ other, other ≠ id → db'.orders.get? other = db.orders.get? other) ∧
      db'.positions = db.positions ∧ db'.trades = db.trades := by
  unfold advance at yields
  split_ifs at yields with same indirect
  · simp only [yields_pure] at yields
    rcases yields with ⟨_, rfl, _⟩
    exact ⟨by rw [found, same], fun _ _ => rfl, rfl, rfl⟩
  · simp only [yields_bind, yields_transition] at yields
    rcases yields with ⟨_, _, _, ⟨row, rowFound, _, rfl⟩, second, secondFound, _, rfl⟩
    refine ⟨by simp [DB.moveOrder, found], fun other ne => ?_, rfl, rfl⟩
    simp [DB.moveOrder, RowTable.get?_update_of_ne ne]
  · simp only [yields_transition] at yields
    rcases yields with ⟨row, rowFound, _, rfl⟩
    refine ⟨by simp [DB.moveOrder, found], fun other ne => ?_, rfl, rfl⟩
    simp [DB.moveOrder, RowTable.get?_update_of_ne ne]

theorem trading_advance {newState : OrderState} {payload : EventPayload} {world world' : Unit}
    {result : Unit} (found : db.orders.get? id = some order)
    (working : order.isWorking .live = true)
    (yields : (advance id order.state newState payload).Yields db world result db' world') :
    Trading .live db db' := by
  unfold advance at yields
  split_ifs at yields with same indirect
  · simp only [yields_pure] at yields
    rcases yields with ⟨_, rfl, _⟩
    exact .refl _ _
  · simp only [yields_bind, yields_transition] at yields
    rcases yields with ⟨_, _, _, ⟨row, rowFound, _, rfl⟩, second, secondFound, allowed, rfl⟩
    rw [found, Option.some.injEq] at rowFound
    subst row
    have openedFound : (db.moveOrder id order.state .opened payload).orders.get? id =
        some { order with state := .opened } := by
      simp [DB.moveOrder, found]
    rw [openedFound, Option.some.injEq] at secondFound
    subst second
    have openedWorking : ({ order with state := .opened } : Order).isWorking .live = true := by
      simp only [Order.isWorking, Bool.and_eq_true] at working ⊢
      exact ⟨rfl, working.2⟩
    exact (Trading.move found working (by decide) _).trans
      (Trading.move openedFound openedWorking (ne_pendingRisk_of_mem allowed) _)
  · simp only [yields_transition] at yields
    rcases yields with ⟨row, rowFound, allowed, rfl⟩
    rw [found, Option.some.injEq] at rowFound
    subst row
    exact Trading.move found working (ne_pendingRisk_of_mem allowed) _

theorem get?_booked (found : db.orders.get? id = some order) {qty : ℕ}
    (within : order.filledQty + qty ≤ order.qty) (fillPrice : ℚ) (costs : TradeCosts) (time : ℤ) :
    ((db.bookFill .live id order qty fillPrice costs time).updateOrder id fun _ =>
      order.withFilled (order.filledQty + qty) within).orders.get? id =
      some (order.withFilled (order.filledQty + qty) within) := by
  have kept : (db.bookFill .live id order qty fillPrice costs time).orders = db.orders := rfl
  simp [DB.updateOrder, kept, found]

/-- What an order update does: nothing when nothing changed, else a booking and the
transitions. -/
theorem applyOrderUpdate_parts {world world' : Unit} {update : Option OrderUpdate}
    (found : db.orders.get? id = some order)
    (yields : (broker.applyOrderUpdate id report time).Yields db world update db' world') :
    (report.stateFor order = order.state ∧ report.newlyFilled order ≤ 0 ∧ db' = db) ∨
      ∃ middle, (broker.bookReported id order report time).Yields db () () middle () ∧
        (advance id order.state (report.stateFor order) (.upstoxStatus report.statusText)).Yields
          middle () () db' () := by
  simp only [applyOrderUpdate, yields_bind, yields_read] at yields
  rcases yields with ⟨_, _, _, ⟨rfl, rfl, _⟩, yields⟩
  simp only [found] at yields
  split_ifs at yields with unchanged
  · simp only [yields_pure] at yields
    exact .inl ⟨unchanged.1, unchanged.2, yields.2.1⟩
  · simp only [yields_bind, yields_pure] at yields
    rcases yields with ⟨_, middle, _, booked, _, _, _, advanced, _, rfl, _⟩
    exact .inr ⟨middle, booked, advanced⟩

theorem yields_applyOrderUpdate {world world' : Unit} {update : Option OrderUpdate}
    (found : db.orders.get? id = some order)
    (yields : (broker.applyOrderUpdate id report time).Yields db world update db' world') :
    ∃ booked, Applies report id order booked db db' := by
  rcases applyOrderUpdate_parts found yields with ⟨same, shrunk, rfl⟩ | ⟨middle, booked, advanced⟩
  · refine ⟨0, ⟨?_, order.filledQty_le, by rw [found, same]; rfl, fun _ _ => rfl,
      by simp, by simp⟩⟩
    split_ifs <;> omega
  · rcases yields_bookReported found booked with ⟨rfl, unbooked⟩ |
      ⟨fillPrice, costs, qty, within, priced, grown, positive, _, rfl⟩
    · rcases yields_advance found advanced with ⟨row, others, positions, trades⟩
      refine ⟨0, ⟨?_, order.filledQty_le, row, others, fun instrumentId mode => ?_,
        fun other => ?_⟩⟩
      · rcases unbooked with unpriced | shrunk
        · simp [unpriced]
        · split_ifs <;> omega
      · simp [DB.positionQty, DB.positionFor, positions]
      · simp [DB.tradedQty, DB.tradesOf, trades]
    · have counted := get?_booked found within fillPrice costs time
      rcases yields_advance counted advanced with ⟨row, others, positions, trades⟩
      refine ⟨qty, ⟨by simp [priced, grown], within, row, fun other ne => ?_,
        fun instrumentId mode => ?_, fun other => ?_⟩⟩
      · rw [others other ne]
        exact RowTable.get?_update_of_ne ne
      · rw [← DB.positionQty_bookFill db .live mode id instrumentId order qty fillPrice costs time]
        simp only [DB.positionQty, DB.positionFor, positions]
        rfl
      · rw [← DB.tradedQty_bookFill db .live id other order qty fillPrice costs time]
        simp only [DB.tradedQty, DB.tradesOf, trades]
        rfl

theorem trading_applyOrderUpdate {world world' : Unit} {update : Option OrderUpdate}
    (found : db.orders.get? id = some order) (working : order.isWorking .live = true)
    (yields : (broker.applyOrderUpdate id report time).Yields db world update db' world') :
    Trading .live db db' := by
  rcases applyOrderUpdate_parts found yields with ⟨_, _, rfl⟩ | ⟨middle, booked, advanced⟩
  · exact .refl _ _
  · rcases yields_bookReported found booked with ⟨rfl, _⟩ |
      ⟨fillPrice, costs, qty, within, _, _, positive, _, rfl⟩
    · exact trading_advance found working advanced
    · have counted := get?_booked found within fillPrice costs time
      have stillWorking : (order.withFilled (order.filledQty + qty) within).isWorking .live =
          true := working
      exact (Trading.fill found working positive within fillPrice costs time).trans
        (trading_advance counted stillWorking advanced)

/-- What polling one order does: nothing without a broker identifier or an answer,
else the update of the report it got. -/
theorem yields_pollOrder {clock : ℕ → ℤ} {world world' : ω} {update : Option OrderUpdate}
    (yields : (broker.pollOrder clock id).Yields db world update db' world') :
    ∃ order, db.orders.get? id = some order ∧
      ((order.brokerOrderId = none ∧ db' = db ∧ world' = world) ∨
        ∃ brokerOrderId, order.brokerOrderId = some brokerOrderId ∧
          ((∃ message, broker.request (.getOrderDetails brokerOrderId) world =
              (.error (.upstoxBrokerError message), world') ∧ db' = db) ∨
            ∃ payload report, broker.request (.getOrderDetails brokerOrderId) world =
                (.ok payload, world') ∧ payload.report = .ok report ∧
              (broker.applyOrderUpdate id report (clock id)).Yields db () update db' ())) := by
  simp only [pollOrder, yields_bind, yields_read] at yields
  rcases yields with ⟨_, _, _, ⟨rfl, rfl, rfl⟩, yields⟩
  split at yields
  · simp at yields
  · rename_i order found
    refine ⟨order, found, ?_⟩
    split at yields
    · rename_i unacknowledged
      simp only [yields_pure] at yields
      exact .inl ⟨unacknowledged, yields.2⟩
    · rename_i brokerOrderId acknowledged
      simp only [yields_bind, yields_external] at yields
      rcases yields with ⟨answered, _, _, ⟨sent, rfl⟩, yields⟩
      refine .inr ⟨brokerOrderId, acknowledged, ?_⟩
      split at yields
      · rename_i message
        simp only [yields_pure] at yields
        rcases yields with ⟨_, rfl, rfl⟩
        exact .inl ⟨message, sent, rfl⟩
      · simp at yields
      · rename_i payload
        simp only [yields_bind, yields_ofExcept, yields_lift] at yields
        rcases yields with ⟨report, _, _, ⟨reported, rfl, rfl⟩, applied, rfl⟩
        exact .inr ⟨payload, report, sent, reported, applied⟩

/-- Polling an order that can trade touches no other row and only trades. -/
theorem trading_pollOrder {clock : ℕ → ℤ} {world world' : ω} {update : Option OrderUpdate}
    (found : db.orders.get? id = some order) (working : order.isWorking .live = true)
    (yields : (broker.pollOrder clock id).Yields db world update db' world') :
    Trading .live db db' ∧ ∀ other, other ≠ id → db'.orders.get? other = db.orders.get? other := by
  rcases yields_pollOrder yields with ⟨row, rowFound, ⟨_, rfl, _⟩ |
    ⟨_, _, ⟨_, _, rfl⟩ | ⟨_, report, _, _, applied⟩⟩⟩
  · exact ⟨.refl _ _, fun _ _ => rfl⟩
  · exact ⟨.refl _ _, fun _ _ => rfl⟩
  · rcases yields_applyOrderUpdate rowFound applied with ⟨_, applies⟩
    exact ⟨trading_applyOrderUpdate found working applied, applies.others⟩

/-- A poll reaches an order with this store and world. -/
def Polls (broker : UpstoxBroker ω) (clock : ℕ → ℤ) (db : DB) (world : ω) (id : ℕ) (middle : DB)
    (middleWorld : ω) : Prop :=
  Visits (broker.pollOrder clock) (db.listOpenOrders .live) db world id middle middleWorld

/-- A poll visits each open order once, in a state where it can still trade. A
property kept by each visit is kept by the poll; it may speak of the orders left. -/
theorem pollAndApplyFills_invariant {motive : List ℕ → DB → ω → Prop} {clock : ℕ → ℤ}
    {world world' : ω}
    (visit : ∀ id rest order middle middleWorld update next nextWorld,
      motive (id :: rest) middle middleWorld → id ∉ rest →
      broker.Polls clock db world id middle middleWorld →
      middle.orders.get? id = some order → order.isWorking .live = true →
      (broker.pollOrder clock id).Yields middle middleWorld update next nextWorld →
      motive rest next nextWorld)
    {updates : List OrderUpdate} (initial : motive (db.listOpenOrders .live) db world)
    (yields : (broker.pollAndApplyFills clock).Yields db world updates db' world') :
    motive [] db' world' := by
  simp only [pollAndApplyFills, yields_bind, yields_read] at yields
  rcases yields with ⟨_, _, _, ⟨rfl, rfl, rfl⟩, yields⟩
  refine (collect_invariant (motive := fun rest later laterWorld => motive rest later laterWorld ∧
    rest.Nodup ∧ ∀ id ∈ rest, ∃ order, later.orders.get? id = some order ∧
      order.isWorking .live = true)
    ?_ ⟨initial, RowTable.nodup_select _ _, fun id mem => DB.mem_listOpenOrders.mp mem⟩ yields).1
  rintro id rest later world update later' world' polls ⟨holds, distinct, waiting⟩ polled
  rcases waiting id List.mem_cons_self with ⟨order, found, working⟩
  have untouched := (trading_pollOrder found working polled).2
  have last := (List.nodup_cons.mp distinct).1
  refine ⟨visit _ _ _ _ _ _ _ _ holds last polls found working polled, distinct.of_cons,
    fun other mem => ?_⟩
  rw [untouched other fun same => last (same ▸ mem)]
  exact waiting other (List.mem_cons_of_mem _ mem)

/-- `poll_and_apply_fills` is a trading step whatever is answered. -/
theorem trading_pollAndApplyFills {clock : ℕ → ℤ} {world world' : ω} {updates : List OrderUpdate}
    (yields : (broker.pollAndApplyFills clock).Yields db world updates db' world') :
    Trading .live db db' :=
  pollAndApplyFills_invariant (motive := fun _ later _ => Trading .live db later)
    (fun _ _ _ _ _ _ _ _ soFar _ _ found working polled =>
      soFar.trans (trading_pollOrder found working polled).1) (.refl _ _) yields

/-- The row that a successful `place_order` leaves. -/
def submittedRow (request : OrderRequest) (brokerOrderId : String) : Order :=
  { request.row (some brokerOrderId) .live with state := .submitted }

/-- When `place_order` returns, its last answer carried an identifier, and all it
did to the store is the birth of the order. -/
theorem yields_placeOrder {request : OrderRequest} {world world' : ω} {ack : OrderAck}
    (yields : (broker.placeOrder request).Yields db world ack db' world') :
    ∃ instrument answered brokerOrderId, db.instrument request.instrumentId = some instrument ∧
      request.qty ≠ 0 ∧ db.usesClientId request.clientOrderId = false ∧
      broker.request (.placeOrder (broker.orderBody request instrument)) world =
        (answered, world') ∧
      answered.bind Payload.orderId = .ok brokerOrderId ∧
      ack = ⟨request.clientOrderId, brokerOrderId⟩ ∧
      Opening db db' (submittedRow request brokerOrderId) := by
  simp only [placeOrder, yields_bind, yields_read] at yields
  rcases yields with ⟨_, _, _, ⟨rfl, rfl, rfl⟩, yields⟩
  split at yields
  · simp at yields
  · rename_i instrument known
    simp only [yields_bind, monadLift_eq, yields_lift, persistIntent,
      yields_recordCreated, yields_transition, yields_pure, yields_external] at yields
    rcases yields with ⟨_, _, _, ⟨⟨_, _, _, ⟨positive, unused, rfl, rfl⟩, _, _, _,
      ⟨_, _, _, rfl⟩, rfl, rfl, _⟩, rfl⟩, answered, _, _, ⟨sent, rfl⟩, yields⟩
    split at yields
    · rename_i brokerOrderId accepted
      simp only [yields_bind, yields_lift, acknowledge, yields_modify, yields_transition,
        yields_pure] at yields
      rcases yields with ⟨_, _, _, ⟨⟨_, _, _, ⟨rfl, _⟩, _, _, _, rfl⟩, rfl⟩, rfl, rfl, rfl⟩
      refine ⟨instrument, answered, brokerOrderId, known, positive, unused, sent, accepted, rfl, ?_⟩
      exact (((Opening.create _ _).move _ .submitting _).update
        fun order => { order with brokerOrderId := some brokerOrderId }).move _ .submitted _
    · split at yields
      · simp at yields
      · simp at yields

end UpstoxBroker

end PersonalTrade
