import PersonalTrade.Execution.Upstox
import PersonalTrade.Library.Run

/-!
# Polling many orders in one unit of work

Successive polls against servers that answer each order with a report or not at all. One
report that the transition table does not cover raises `InvalidOrderTransition` and takes
the fills of every other order with it. When all reports are covered, a poll does to each
order what it would do if that order alone were answered.
-/

namespace PersonalTrade

open Transaction

/-- What a poll is answered: a report under the identifier of an order, none for a request
that fails. -/
structure Poll where
  reports : String → Option OrderReport
  clock : ℕ → ℤ

namespace Poll

/-- The servers that answer a poll. -/
def transport (poll : Poll) : Transport Unit
  | .getOrderDetails orderId, _ =>
      match poll.reports orderId with
      | some report => (.ok (.orderDetails report), ())
      | none => (.transportError "no answer", ())
  | _, _ => (.transportError "no answer", ())

/-- The report on an order. -/
def answer (poll : Poll) (order : Order) : Option OrderReport :=
  order.brokerOrderId.bind poll.reports

/-- The poll in which only this order is answered. -/
def alone (poll : Poll) (order : Order) : Poll :=
  { poll with reports := fun orderId =>
      if order.brokerOrderId = some orderId then poll.reports orderId else none }

/-- The servers report at most the quantity of an order, and no negative price. -/
def WellFormed (poll : Poll) (db : DB) : Prop :=
  ∀ id order report, db.orders.get? id = some order → order.isWorking .live = true →
    poll.answer order = some report →
      report.filled ≤ order.qty ∧ ∀ price, report.averagePrice = some price → 0 ≤ price

end Poll

/-- A report that the transition table does not allow for an order. -/
def OrderReport.Uncovered (report : OrderReport) (order : Order) : Prop :=
  ((order.state = .opened ∨ order.state = .partiallyFilled) ∧
      report.stateFor order = .rejectedBroker) ∨
    (order.state = .partiallyFilled ∧ report.stateFor order = .opened)

/-- Every polled order gets a report that the transition table allows. -/
def Poll.Covered (poll : Poll) (db : DB) : Prop :=
  ∀ id order report, db.orders.get? id = some order → order.isWorking .live = true →
    poll.answer order = some report → ¬ report.Uncovered order

/-- What `place_order` guarantees of the LIVE orders that can trade. -/
structure Pollable (db : DB) : Prop where
  known : ∀ id order, db.orders.get? id = some order → order.isWorking .live = true →
    (db.instrument order.instrumentId).isSome
  acknowledged : ∀ id order, db.orders.get? id = some order → order.isWorking .live = true →
    order.state = .submitting → order.brokerOrderId = none
  distinct : ∀ id id' order order' orderId, db.orders.get? id = some order →
    db.orders.get? id' = some order' → order.isWorking .live = true →
    order'.isWorking .live = true → order.brokerOrderId = some orderId →
    order'.brokerOrderId = some orderId → id = id'

/-- What a trade records of its execution; the profit depends on the position it closes. -/
def Trade.execution (trade : Trade) : Trade := { trade with realizedPnl := none }

namespace OrderReport

/-- The quantity that applying a report books. -/
def booked (report : OrderReport) (order : Order) : ℕ :=
  if report.fillPrice.isSome then (report.newlyFilled order).toNat else 0

end OrderReport

/-- The row of an order once its report is applied. -/
def Order.reported (order : Order) : Option OrderReport → Order
  | none => order
  | some report =>
      if within : order.filledQty + report.booked order ≤ order.qty then
        { order with filledQty := order.filledQty + report.booked order, filledQty_le := within
                     state := report.stateFor order }
      else order

/-- The quantity that an answer books for an order. -/
def Order.bookedBy (order : Order) (answer : Option OrderReport) : ℕ :=
  (answer.map fun report => report.booked order).getD 0

namespace UpstoxBroker

variable {ω : Type}

/-- The trade that applying a report books on a position. -/
def bookedTrade (broker : UpstoxBroker ω) (id : ℕ) (order : Order) (report : OrderReport)
    (time : ℤ) (position : Position) : Option Trade :=
  match report.fillPrice with
  | none => none
  | some fillPrice =>
      let qty := (report.newlyFilled order).toNat
      if qty = 0 then none
      else
        let costs := costStack order.side fillPrice qty broker.cfg.segment broker.costRates
        some
          { orderId := id, price := fillPrice, qty, brokerage := costs.brokerage, stt := costs.stt
            stampDuty := costs.stampDuty, gst := costs.gst
            exchangeCharges := costs.exchangeCharges, sebiCharges := costs.sebiCharges
            netAmount := costs.netAmount
            realizedPnl := (position.applyFill order.side qty costs.netAmount).2
            executedAt := time }

/-- The trade that an answer books, if any. -/
def answeredTrade (broker : UpstoxBroker ω) (id : ℕ) (order : Order) (answer : Option OrderReport)
    (time : ℤ) (position : Position) : Option Trade :=
  answer.bind fun report => broker.bookedTrade id order report time position

variable {broker : UpstoxBroker ω} {db db' : DB} {id : ℕ} {order : Order} {report : OrderReport}
  {time : ℤ}

/-- The execution of a booked trade does not depend on the position. -/
theorem execution_answeredTrade (answer : Option OrderReport) (position position' : Position) :
    (broker.answeredTrade id order answer time position).toList.map Trade.execution =
      (broker.answeredTrade id order answer time position').toList.map Trade.execution := by
  cases answer with
  | none => rfl
  | some report =>
      simp only [answeredTrade, Option.bind_some, bookedTrade]
      split
      · rfl
      · split_ifs <;> rfl

theorem orderId_answeredTrade {answer : Option OrderReport} {position : Position} {trade : Trade}
    (booked : broker.answeredTrade id order answer time position = some trade) :
    trade.orderId = id := by
  cases answer with
  | none => cases booked
  | some report =>
      simp only [answeredTrade, Option.bind_some, bookedTrade] at booked
      split at booked
      · cases booked
      · split_ifs at booked
        rw [← Option.some.inj booked]

/-- Nothing is booked of a report without new priced fills. -/
theorem bookedTrade_of_unbooked (unbooked : report.fillPrice = none ∨ report.newlyFilled order ≤ 0)
    (position : Position) : broker.bookedTrade id order report time position = none := by
  unfold bookedTrade
  rcases unbooked with unpriced | shrunk
  · rw [unpriced]
  · have zero : (report.newlyFilled order).toNat = 0 := by omega
    split
    · rfl
    · rw [if_pos zero]

/-- All that applying a report books. -/
structure Books (broker : UpstoxBroker ω) (id : ℕ) (order : Order) (report : OrderReport)
    (time : ℤ) (db db' : DB) : Prop where
  trades : db'.trades = db.trades ++
    (broker.bookedTrade id order report time
      (db.getOrCreatePosition order.instrumentId .live)).toList
  positions : ∀ instrumentId, (instrumentId = order.instrumentId → report.booked order = 0) →
    db'.positionFor instrumentId .live = db.positionFor instrumentId .live

theorem books_applyOrderUpdate {world world' : Unit} {update : Option OrderUpdate}
    (found : db.orders.get? id = some order)
    (yields : (broker.applyOrderUpdate id report time).Yields db world update db' world') :
    Books broker id order report time db db' := by
  rcases applyOrderUpdate_parts found yields with ⟨_, shrunk, rfl⟩ | ⟨middle, booked, advanced⟩
  · exact ⟨by simp [bookedTrade_of_unbooked (.inr shrunk)], fun _ _ => rfl⟩
  · rcases yields_bookReported found booked with ⟨rfl, unbooked⟩ |
      ⟨fillPrice, costs, qty, within, priced, grown, positive, charged, rfl⟩
    · rcases yields_advance found advanced with ⟨_, _, positions, trades⟩
      refine ⟨by simp [bookedTrade_of_unbooked unbooked, trades], fun instrumentId _ => ?_⟩
      rw [DB.positionFor, positions, DB.positionFor]
    · rcases calculateCosts_eq_ok.mp charged with ⟨_, _, rfl⟩
      rcases yields_advance (get?_booked found within fillPrice _ _) advanced with
        ⟨_, _, positions, trades⟩
      have qtyEq : (report.newlyFilled order).toNat = qty := by omega
      refine ⟨?_, fun instrumentId elsewhere => ?_⟩
      · rw [trades]
        simp only [bookedTrade, priced, qtyEq, if_neg positive.ne']
        rfl
      · have other : instrumentId ≠ order.instrumentId := by
          intro same
          have zero := elsewhere same
          simp only [OrderReport.booked, priced, Option.isSome_some, if_true] at zero
          omega
        rw [DB.positionFor, positions]
        change (db.setPosition order.instrumentId .live _).positionFor instrumentId .live = _
        exact DB.positionFor_setPosition_of_ne (by simp [other])

/-! ## Reports that are refused -/

/-- A status never means a state before the exchange or a rejection by the gate. -/
theorem stateFor_cases (report : OrderReport) (order : Order) :
    report.stateFor order = .filled ∨ report.stateFor order = .rejectedBroker ∨
      report.stateFor order = .cancelled ∨ report.stateFor order = .partiallyFilled ∨
      report.stateFor order = .opened := by
  simp only [OrderReport.stateFor, mapStatus, terminalStatus]
  split_ifs <;> simp

/-- An acknowledged order that can trade has reached the exchange. -/
theorem reached_of_acknowledged {orderId : String} (pollable : Pollable db)
    (found : db.orders.get? id = some order) (working : order.isWorking .live = true)
    (acknowledged : order.brokerOrderId = some orderId) :
    order.state = .submitted ∨ order.state = .opened ∨ order.state = .partiallyFilled := by
  have unsubmitted := pollable.acknowledged id order found working
  rw [acknowledged] at unsubmitted
  simp only [Order.isWorking, Bool.and_eq_true] at working
  rcases order with ⟨⟩
  simp only [OrderState.isOpen, openStates, List.contains_eq_mem, decide_eq_true_eq,
    List.mem_cons, List.not_mem_nil, or_false] at working unsubmitted ⊢
  tauto

/-- Through `OPEN` a submitted order moves on to all that follows it. -/
theorem not_raises_through_opened {newState : OrderState} {payload : EventPayload}
    {exception : PyError} {world world' : Unit} (found : db.orders.get? id = some order)
    (submitted : order.state = .submitted) (allowed : newState ∈ allowedOrderTransitions .opened) :
    ¬ (do transition id .opened payload; transition id newState payload : Session Unit).Raises db
      world exception world' := by
  rw [raises_bind]
  rintro (refused | ⟨_, middle, _, moved, refused⟩)
  · rw [raises_transition found, submitted] at refused
    simp [allowedOrderTransitions] at refused
  · rw [yields_transition] at moved
    rcases moved with ⟨row, rowFound, _, rfl⟩
    have opened : (db.moveOrder id row.state .opened payload).orders.get? id =
        some { order with state := .opened } := by
      simp [DB.moveOrder, found]
    rw [raises_transition opened] at refused
    exact refused.1 allowed

/-- The transitions of an update are refused exactly on an uncovered report. -/
theorem raises_advance {exception : PyError} {payload : EventPayload} {world world' : Unit}
    (found : db.orders.get? id = some order)
    (reached : order.state = .submitted ∨ order.state = .opened ∨ order.state = .partiallyFilled) :
    (advance id order.state (report.stateFor order) payload).Raises db world exception world' ↔
      report.Uncovered order ∧ exception =
        .invalidOrderTransition order.clientOrderId order.state (report.stateFor order) := by
  rcases reached with submitted | opened | partly
  · -- from SUBMITTED every state is reached, through OPEN if need be
    refine iff_of_false (fun raises => ?_) fun uncovered => ?_
    · unfold advance at raises
      split_ifs at raises with same indirect
      · simp at raises
      · refine not_raises_through_opened found submitted ?_ raises
        rcases stateFor_cases report order with new | new | new | new | new <;>
          simp [new, allowedOrderTransitions] at indirect ⊢
      · rw [raises_transition found, submitted] at raises
        rcases stateFor_cases report order with new | new | new | new | new <;>
          simp [new, submitted, allowedOrderTransitions] at indirect raises
    · simp [OrderReport.Uncovered, submitted] at uncovered
  · unfold advance
    rcases stateFor_cases report order with new | new | new | new | new <;>
      simp [new, raises_transition found, opened, allowedOrderTransitions, OrderReport.Uncovered]
  · unfold advance
    rcases stateFor_cases report order with new | new | new | new | new <;>
      simp [new, raises_transition found, partly, allowedOrderTransitions, OrderReport.Uncovered]

/-- Booking a well-formed report on a known instrument raises nothing. -/
theorem not_raises_bookReported {exception : PyError} {world world' : Unit}
    (found : db.orders.get? id = some order) (known : (db.instrument order.instrumentId).isSome)
    (within : report.filled ≤ order.qty)
    (priced : ∀ price, report.averagePrice = some price → 0 ≤ price) :
    ¬ (broker.bookReported id order report time).Raises db world exception world' := by
  unfold bookReported
  split
  · simp
  · rename_i fillPrice fillPriceEq
    have positive : 0 < fillPrice := by
      simp only [OrderReport.fillPrice, Option.filter_eq_some_iff, decide_eq_true_eq] at fillPriceEq
      exact lt_of_le_of_ne (priced _ fillPriceEq.1) (Ne.symm fillPriceEq.2)
    split_ifs with grown
    · rcases Option.isSome_iff_exists.mp known with ⟨instrument, instrumentEq⟩
      have grew : (report.newlyFilled order).toNat ≠ 0 := by omega
      have costed : calculateCosts order.side fillPrice (report.newlyFilled order).toNat
          broker.cfg.segment broker.costRates = .ok (costStack order.side fillPrice
            (report.newlyFilled order).toNat broker.cfg.segment broker.costRates) :=
        calculateCosts_eq_ok.mpr ⟨positive, Nat.pos_of_ne_zero grew, rfl⟩
      rw [raises_bind]
      rintro (raises | ⟨_, booked, _, yields, raises⟩)
      · simp only [recordFill, raises_bind, raises_read, yields_read, false_or] at raises
        rcases raises with ⟨_, _, _, ⟨rfl, rfl, _⟩, raises⟩
        simp [instrumentEq, costed] at raises
      · simp only [recordFill, yields_bind, yields_read] at yields
        rcases yields with ⟨_, _, _, ⟨rfl, rfl, _⟩, yields⟩
        simp only [instrumentEq, costed, yields_bind, yields_modify, yields_ofExcept] at yields
        rcases yields with ⟨costs, _, _, ⟨_, rfl, _⟩, bookedEq, _⟩
        have kept : booked.orders.get? id = some order := by
          rw [bookedEq]
          exact found
        have beyond := ((raises_setFilledQty kept).mp raises).1
        omega
    · simp

/-- The transitions after a booking are refused as they would be before it. -/
theorem raises_advance_of_booked {exception : PyError} {middle : DB} {result : Unit}
    {world middleWorld world' : Unit} (found : db.orders.get? id = some order)
    (reached : order.state = .submitted ∨ order.state = .opened ∨ order.state = .partiallyFilled)
    (booked : (broker.bookReported id order report time).Yields db world result middle middleWorld) :
    (advance id order.state (report.stateFor order) (.upstoxStatus report.statusText)).Raises middle
        middleWorld exception world' ↔
      report.Uncovered order ∧ exception =
        .invalidOrderTransition order.clientOrderId order.state (report.stateFor order) := by
  rcases yields_bookReported found booked with ⟨rfl, _⟩ | ⟨_, _, qty, within, _, _, _, _, rfl⟩
  · exact raises_advance found reached
  · -- the row that is counted up has the state and the key of the row before
    let row := order.withFilled (order.filledQty + qty) within
    have counted : ∀ later : DB, later.orders = db.orders →
        (later.updateOrder id fun _ => row).orders.get? id = some row := by
      intro later same
      simp [DB.updateOrder, same, found]
    have refused : ∀ later : DB, later.orders = db.orders →
        ((advance id row.state (report.stateFor row) (.upstoxStatus report.statusText)).Raises
          (later.updateOrder id fun _ => row) middleWorld exception world' ↔
            report.Uncovered row ∧ exception =
              .invalidOrderTransition row.clientOrderId row.state (report.stateFor row)) :=
      fun later same => raises_advance (counted later same) reached
    exact refused _ rfl

/-- An order update is refused exactly on an uncovered report. -/
theorem raises_applyOrderUpdate {exception : PyError} {world world' : Unit}
    (found : db.orders.get? id = some order)
    (known : (db.instrument order.instrumentId).isSome)
    (reached : order.state = .submitted ∨ order.state = .opened ∨ order.state = .partiallyFilled)
    (within : report.filled ≤ order.qty)
    (priced : ∀ price, report.averagePrice = some price → 0 ≤ price) :
    (broker.applyOrderUpdate id report time).Raises db world exception world' ↔
      report.Uncovered order ∧ exception =
        .invalidOrderTransition order.clientOrderId order.state (report.stateFor order) := by
  simp only [applyOrderUpdate, raises_bind, raises_read, yields_read, false_or]
  constructor
  · rintro ⟨_, _, _, ⟨rfl, rfl, _⟩, raises⟩
    simp only [found] at raises
    split_ifs at raises with unchanged
    · simp at raises
    · simp only [raises_bind, raises_pure, and_false, exists_false, or_false] at raises
      rcases raises with booking | ⟨_, middle, _, booked, refused⟩
      · exact absurd booking (not_raises_bookReported found known within priced)
      · exact (raises_advance_of_booked found reached booked).mp refused
  · rintro ⟨uncovered, rfl⟩
    refine ⟨db, db, world, ⟨rfl, rfl, trivial⟩, ?_⟩
    have changed : ¬ (report.stateFor order = order.state ∧ report.newlyFilled order ≤ 0) := by
      rintro ⟨same, _⟩
      rcases uncovered with ⟨opened | partly, rejected⟩ | ⟨partly, reopened⟩
      · simp [opened, rejected] at same
      · simp [partly, rejected] at same
      · simp [partly, reopened] at same
    simp only [found, if_neg changed, raises_bind, raises_pure, and_false, exists_false, or_false]
    rcases yields_or_raises (broker.bookReported id order report time) db world with
      ⟨_, middle, middleWorld, booked⟩ | ⟨_, _, booking⟩
    · exact .inr ⟨(), middle, middleWorld, booked,
        (raises_advance_of_booked found reached booked).mpr ⟨uncovered, rfl⟩⟩
    · exact absurd booking (not_raises_bookReported found known within priced)

end UpstoxBroker

/-! ## One poll -/

namespace Poll

/-- The broker of a poll. -/
def broker (poll : Poll) (cfg : UpstoxConfig) (costRates : CostConfig) : UpstoxBroker Unit :=
  ⟨poll.transport, cfg, costRates⟩

/-- A poll as the unit of work of `run_housekeeping`. -/
def run (poll : Poll) (cfg : UpstoxConfig) (costRates : CostConfig) (db : DB) :
    Except PyError (List OrderUpdate) × DB :=
  match ((poll.broker cfg costRates).pollAndApplyFills poll.clock).commit db () with
  | (result, db', _) => (result, db')

variable {poll : Poll} {cfg : UpstoxConfig} {costRates : CostConfig} {db db' : DB} {id : ℕ}
  {order : Order}

/-- A request for a report gets it at once, or fails at once. -/
theorem request_getOrderDetails (poll : Poll) (cfg : UpstoxConfig) (costRates : CostConfig)
    (orderId : String) :
    (poll.reports orderId = none ∧ ∃ message, (poll.broker cfg costRates).request
        (.getOrderDetails orderId) () = (.error (.upstoxBrokerError message), ())) ∨
      ∃ report, poll.reports orderId = some report ∧ (poll.broker cfg costRates).request
        (.getOrderDetails orderId) () = (.ok (.orderDetails report), ()) := by
  simp only [UpstoxBroker.request, sendRequest, broker]
  rw [Retry.retry.eq_def]
  cases reported : poll.reports orderId with
  | none =>
      exact .inl ⟨rfl, by simp [attemptRequest, transport, reported, HttpAnswer.verdict]⟩
  | some report =>
      exact .inr ⟨report, rfl, by simp [attemptRequest, transport, reported, HttpAnswer.verdict]⟩

/-- Polling one order without an answer does nothing; with one it applies the report. -/
theorem pollOrder_eq (found : db.orders.get? id = some order) :
    (poll.answer order = none ∧
      (poll.broker cfg costRates).pollOrder poll.clock id db () = (.ok (none, db), ())) ∨
      ∃ report, poll.answer order = some report ∧
        (poll.broker cfg costRates).pollOrder poll.clock id db () =
          (poll.broker cfg costRates).applyOrderUpdate id report (poll.clock id) db () := by
  simp only [UpstoxBroker.pollOrder, bind_run, Transaction.read, found, answer]
  cases order.brokerOrderId with
  | none => exact .inl ⟨rfl, rfl⟩
  | some orderId =>
      simp only [Option.bind_some, bind_run, external]
      rcases request_getOrderDetails poll cfg costRates orderId with ⟨silent, message, asked⟩ |
        ⟨report, reported, asked⟩
      · exact .inl ⟨silent, by rw [asked]; rfl⟩
      · exact .inr ⟨report, reported, by rw [asked]; rfl⟩

/-- All that the turn of one order does to the store. -/
structure Turned (poll : Poll) (cfg : UpstoxConfig) (costRates : CostConfig) (id : ℕ)
    (order : Order) (db db' : DB) : Prop where
  row : db'.orders.get? id = some (order.reported (poll.answer order))
  others : ∀ other, other ≠ id → db'.orders.get? other = db.orders.get? other
  instruments : db'.instruments = db.instruments
  gain : ∀ instrumentId, db'.positionQty instrumentId .live =
    db.positionQty instrumentId .live + if instrumentId = order.instrumentId then
      order.side.sign * order.bookedBy (poll.answer order) else 0
  trades : db'.trades = db.trades ++
    ((poll.broker cfg costRates).answeredTrade id order (poll.answer order) (poll.clock id)
      (db.getOrCreatePosition order.instrumentId .live)).toList
  positions : ∀ instrumentId,
    (instrumentId = order.instrumentId → order.bookedBy (poll.answer order) = 0) →
      db'.positionFor instrumentId .live = db.positionFor instrumentId .live

theorem turned_of_yields {update : Option OrderUpdate} {world world' : Unit}
    (found : db.orders.get? id = some order) (working : order.isWorking .live = true)
    (yields : ((poll.broker cfg costRates).pollOrder poll.clock id).Yields db world update db'
      world') : Turned poll cfg costRates id order db db' := by
  cases world
  rcases pollOrder_eq found with ⟨silent, ran⟩ | ⟨report, reported, ran⟩
  · rw [Yields, ran] at yields
    cases yields
    refine ⟨by rw [found, silent]; rfl, fun _ _ => rfl, rfl, fun instrumentId => ?_, ?_,
      fun _ _ => rfl⟩
    · simp [silent, Order.bookedBy]
    · simp [silent, UpstoxBroker.answeredTrade]
  · rw [Yields, ran] at yields
    rcases UpstoxBroker.yields_applyOrderUpdate found yields with ⟨booked, applies⟩
    have trading := UpstoxBroker.trading_applyOrderUpdate found working yields
    have books := UpstoxBroker.books_applyOrderUpdate found yields
    have bookedEq : booked = report.booked order := applies.booked_eq
    subst booked
    refine ⟨?_, applies.others, trading.instruments, fun instrumentId => ?_, ?_,
      fun instrumentId elsewhere => books.positions instrumentId ?_⟩
    · rw [applies.row, reported, Order.reported, dif_pos applies.within]
    · rw [applies.position, reported]
      simp [Order.bookedBy]
    · rw [books.trades, reported]
      rfl
    · simpa [reported, Order.bookedBy] using elsewhere

/-- The order is ready for its turn: nothing but an uncovered report is refused. -/
def Ready (poll : Poll) (db : DB) (id : ℕ) : Prop :=
  ∃ order, db.orders.get? id = some order ∧ order.isWorking .live = true ∧
    (db.instrument order.instrumentId).isSome ∧
    ∀ report, poll.answer order = some report →
      (order.state = .submitted ∨ order.state = .opened ∨ order.state = .partiallyFilled) ∧
        report.filled ≤ order.qty ∧ ∀ price, report.averagePrice = some price → 0 ≤ price

/-- The turn of the order is refused. -/
def Refuses (poll : Poll) (db : DB) (id : ℕ) : Prop :=
  ∃ order report, db.orders.get? id = some order ∧ poll.answer order = some report ∧
    report.Uncovered order

/-- A turn is refused exactly on an uncovered report. -/
theorem raises_pollOrder {exception : PyError} {world world' : Unit} (ready : poll.Ready db id) :
    ((poll.broker cfg costRates).pollOrder poll.clock id).Raises db world exception world' ↔
      ∃ order report, db.orders.get? id = some order ∧ poll.answer order = some report ∧
        report.Uncovered order ∧ exception =
          .invalidOrderTransition order.clientOrderId order.state (report.stateFor order) := by
  cases world
  rcases ready with ⟨order, found, working, known, answered⟩
  rcases pollOrder_eq found with ⟨silent, ran⟩ | ⟨report, reported, ran⟩
  · rw [Raises, ran]
    constructor
    · intro raises
      cases raises
    · rintro ⟨row, report, rowFound, reported, _⟩
      rw [found, Option.some.injEq] at rowFound
      subst row
      rw [silent] at reported
      cases reported
  · rcases answered report reported with ⟨reached, within, priced⟩
    rw [Raises, ran]
    refine (UpstoxBroker.raises_applyOrderUpdate found known reached within priced).trans ?_
    constructor
    · rintro ⟨uncovered, raised⟩
      exact ⟨order, report, found, reported, uncovered, raised⟩
    · rintro ⟨row, other, rowFound, otherReported, uncovered, raised⟩
      rw [found, Option.some.injEq] at rowFound
      subst row
      rw [reported, Option.some.injEq] at otherReported
      subst other
      exact ⟨uncovered, raised⟩

/-- What one order adds to the position of an instrument. -/
def gainOf (poll : Poll) (db : DB) (instrumentId id : ℕ) : ℤ :=
  match db.orders.get? id with
  | none => 0
  | some order =>
      if instrumentId = order.instrumentId then
        order.side.sign * order.bookedBy (poll.answer order)
      else 0

/-- No other order of the instrument gets new fills. -/
def SoleFill (poll : Poll) (db : DB) (ids : List ℕ) (id : ℕ) (order : Order) : Prop :=
  ∀ other ∈ ids, other ≠ id → ∀ row, db.orders.get? other = some row →
    row.instrumentId = order.instrumentId → row.bookedBy (poll.answer row) = 0

/-- All that the turns of some orders do to the store. -/
structure Polled (poll : Poll) (cfg : UpstoxConfig) (costRates : CostConfig) (ids : List ℕ)
    (db db' : DB) : Prop where
  rows : ∀ id order, db.orders.get? id = some order → db'.orders.get? id =
    some (if id ∈ ids then order.reported (poll.answer order) else order)
  gain : ∀ instrumentId, db'.positionQty instrumentId .live =
    db.positionQty instrumentId .live + (ids.map (poll.gainOf db instrumentId)).sum
  trades : ∀ id order, id ∈ ids → db.orders.get? id = some order → ∃ position,
    db'.tradesOf id = db.tradesOf id ++ ((poll.broker cfg costRates).answeredTrade id order
      (poll.answer order) (poll.clock id) position).toList ∧
      (poll.SoleFill db ids id order → position = db.getOrCreatePosition order.instrumentId .live)
  unread : ∀ id, id ∉ ids → db'.tradesOf id = db.tradesOf id
  positions : ∀ instrumentId, (∀ id ∈ ids, ∀ row, db.orders.get? id = some row →
    row.instrumentId = instrumentId → row.bookedBy (poll.answer row) = 0) →
      db'.positionFor instrumentId .live = db.positionFor instrumentId .live

theorem Turned.tradesOf (turned : Turned poll cfg costRates id order db db') (other : ℕ) :
    db'.tradesOf other = db.tradesOf other ++ if other = id then
      ((poll.broker cfg costRates).answeredTrade id order (poll.answer order) (poll.clock id)
        (db.getOrCreatePosition order.instrumentId .live)).toList else [] := by
  rw [DB.tradesOf, turned.trades, List.filter_append, DB.tradesOf]
  congr 1
  rcases booked : (poll.broker cfg costRates).answeredTrade id order (poll.answer order)
    (poll.clock id) (db.getOrCreatePosition order.instrumentId .live) with _ | trade
  · simp
  · have own := UpstoxBroker.orderId_answeredTrade booked
    by_cases same : other = id
    · simp [own, same]
    · simp [own, same, Ne.symm same]

/-- A turn of another order leaves what the turn of an order depends on, but for the
position. -/
theorem Turned.ready (turned : Turned poll cfg costRates id order db db') {other : ℕ}
    (ne : other ≠ id) (ready : poll.Ready db other) : poll.Ready db' other := by
  rcases ready with ⟨row, found, working, known, answered⟩
  refine ⟨row, (turned.others other ne).trans found, working, ?_, answered⟩
  rwa [DB.instrument, turned.instruments]

theorem Turned.gainOf (turned : Turned poll cfg costRates id order db db') {other : ℕ}
    (ne : other ≠ id) (instrumentId : ℕ) :
    poll.gainOf db' instrumentId other = poll.gainOf db instrumentId other := by
  rw [Poll.gainOf, turned.others other ne, Poll.gainOf]

/-- The turns of a list of orders, from the first turn and the others. -/
theorem Turned.polled {ids : List ℕ} {middle : DB} (found : db.orders.get? id = some order)
    (unseen : id ∉ ids) (turned : Turned poll cfg costRates id order db middle)
    (rest : Polled poll cfg costRates ids middle db') :
    Polled poll cfg costRates (id :: ids) db db' := by
  have apart : ∀ other ∈ ids, other ≠ id := by
    rintro other mem rfl
    exact unseen mem
  have kept : ∀ other ∈ ids, middle.orders.get? other = db.orders.get? other :=
    fun other mem => turned.others other (apart other mem)
  refine ⟨fun other row rowFound => ?_, fun instrumentId => ?_, fun other row mem rowFound => ?_,
    fun other absent => ?_, fun instrumentId unbooked => ?_⟩
  · by_cases same : other = id
    · subst other
      rw [found, Option.some.injEq] at rowFound
      subst row
      rw [rest.rows id _ turned.row, if_neg unseen, if_pos List.mem_cons_self]
    · rw [rest.rows other row ((turned.others other same).trans rowFound)]
      simp [same]
  · have own : poll.gainOf db instrumentId id = if instrumentId = order.instrumentId then
        order.side.sign * order.bookedBy (poll.answer order) else 0 := by
      simp only [Poll.gainOf, found]
    have restGain : ids.map (poll.gainOf middle instrumentId) =
        ids.map (poll.gainOf db instrumentId) :=
      List.map_congr_left fun other mem => turned.gainOf (apart other mem) instrumentId
    rw [rest.gain, turned.gain, restGain, List.map_cons, List.sum_cons, own]
    ring
  · rcases List.mem_cons.mp mem with rfl | mem
    · rw [found, Option.some.injEq] at rowFound
      subst row
      refine ⟨_, ?_, fun _ => rfl⟩
      rw [rest.unread _ unseen, turned.tradesOf, if_pos rfl]
    · rcases rest.trades other row mem ((kept other mem).trans rowFound) with
        ⟨position, tradesEq, sole⟩
      refine ⟨position, ?_, fun soleFill => ?_⟩
      · rw [tradesEq, turned.tradesOf, if_neg (apart other mem), List.append_nil]
      · have soleRest : poll.SoleFill middle ids other row := fun next nextMem ne nextRow nextFound =>
          soleFill next (List.mem_cons_of_mem _ nextMem) ne nextRow
            ((kept next nextMem).symm.trans nextFound)
        rw [sole soleRest, DB.getOrCreatePosition, turned.positions row.instrumentId,
          DB.getOrCreatePosition]
        intro same
        exact soleFill id List.mem_cons_self (Ne.symm (apart other mem)) order found same.symm
  · rw [List.mem_cons, not_or] at absent
    rw [rest.unread other absent.2, turned.tradesOf, if_neg absent.1, List.append_nil]
  · rw [rest.positions instrumentId, turned.positions instrumentId]
    · intro same
      exact unbooked id List.mem_cons_self order found same.symm
    · intro other mem row rowFound
      exact unbooked other (List.mem_cons_of_mem _ mem) row ((kept other mem).symm.trans rowFound)

theorem polled_nil (db : DB) : Polled poll cfg costRates [] db db :=
  ⟨fun _ _ found => by simpa using found, fun _ => by simp, fun _ _ mem => by simp at mem,
    fun _ _ => rfl, fun _ _ => rfl⟩

/-- The turns of orders that are ready: all are taken when none is refused, else the first
refusal ends them. -/
theorem collect_pollOrder {ids : List ℕ} (distinct : ids.Nodup)
    (ready : ∀ id ∈ ids, poll.Ready db id) :
    ((∀ id ∈ ids, ¬ poll.Refuses db id) ∧ ∃ updates db',
        (collect ((poll.broker cfg costRates).pollOrder poll.clock) ids).Yields db () updates db' () ∧
          Polled poll cfg costRates ids db db') ∨
      ((∃ id ∈ ids, poll.Refuses db id) ∧ ∃ clientOrderId fromState toState,
        (collect ((poll.broker cfg costRates).pollOrder poll.clock) ids).Raises db ()
          (.invalidOrderTransition clientOrderId fromState toState) ()) := by
  induction ids generalizing db with
  | nil => exact .inl ⟨by simp, [], db, by simp [collect], polled_nil db⟩
  | cons id ids ih =>
      rcases ready id List.mem_cons_self with ⟨order, found, working, _⟩
      rcases yields_or_raises ((poll.broker cfg costRates).pollOrder poll.clock id) db () with
        ⟨update, middle, _, yields⟩ | ⟨exception, _, raises⟩
      · have turned := turned_of_yields found working yields
        have unseen := (List.nodup_cons.mp distinct).1
        have apart : ∀ other ∈ ids, other ≠ id := by
          rintro other mem rfl
          exact unseen mem
        have refuses : ∀ other ∈ ids, poll.Refuses middle other ↔ poll.Refuses db other := by
          intro other mem
          rw [Refuses, turned.others other (apart other mem), Refuses]
        have accepted : ¬ poll.Refuses db id := by
          rintro ⟨row, report, rowFound, reported, uncovered⟩
          have raises : ((poll.broker cfg costRates).pollOrder poll.clock id).Raises db () _ () :=
            (raises_pollOrder (ready id List.mem_cons_self)).mpr
              ⟨row, report, rowFound, reported, uncovered, rfl⟩
          rw [Raises, yields] at raises
          cases raises
        have readyRest : ∀ other ∈ ids, poll.Ready middle other := fun other mem =>
          turned.ready (apart other mem) (ready other (List.mem_cons_of_mem _ mem))
        rcases ih distinct.of_cons readyRest with ⟨covered, updates, db', restYields, polled⟩ |
          ⟨⟨other, mem, refused⟩, clientOrderId, fromState, toState, restRaises⟩
        · refine .inl ⟨fun other mem => ?_, update.toList ++ updates, db', ?_,
            turned.polled found unseen polled⟩
          · rcases List.mem_cons.mp mem with rfl | mem
            · exact accepted
            · exact fun refused => covered other mem ((refuses other mem).mpr refused)
          · exact yields_bind.mpr ⟨update, middle, (), yields,
              yields_bind.mpr ⟨updates, db', (), restYields, yields_pure.mpr ⟨rfl, rfl, rfl⟩⟩⟩
        · exact .inr ⟨⟨other, List.mem_cons_of_mem _ mem, (refuses other mem).mp refused⟩,
            clientOrderId, fromState, toState, raises_bind.mpr (.inr ⟨update, middle, (), yields,
              raises_bind.mpr (.inl restRaises)⟩)⟩
      · rcases (raises_pollOrder (ready id List.mem_cons_self)).mp raises with
          ⟨row, report, rowFound, reported, uncovered, rfl⟩
        exact .inr ⟨⟨id, List.mem_cons_self, row, report, rowFound, reported, uncovered⟩, _, _, _,
          raises_bind.mpr (.inl raises)⟩

/-! ## Runs of polls -/

/-- The orders of a pollable store are ready for a well-formed poll. -/
theorem ready_of_pollable (pollable : Pollable db) (wellFormed : poll.WellFormed db)
    (listed : id ∈ db.listOpenOrders .live) : poll.Ready db id := by
  rcases DB.mem_listOpenOrders.mp listed with ⟨order, found, working⟩
  refine ⟨order, found, working, pollable.known id order found working, fun report reported => ?_⟩
  rcases Option.bind_eq_some_iff.mp reported with ⟨orderId, acknowledged, _⟩
  exact ⟨UpstoxBroker.reached_of_acknowledged pollable found working acknowledged,
    wellFormed id order report found working reported⟩

theorem covered_iff : poll.Covered db ↔ ∀ id ∈ db.listOpenOrders .live, ¬ poll.Refuses db id := by
  constructor
  · rintro covered id listed ⟨order, report, found, reported, uncovered⟩
    rcases DB.mem_listOpenOrders.mp listed with ⟨row, rowFound, working⟩
    rw [found, Option.some.injEq] at rowFound
    subst row
    exact covered id order report found working reported uncovered
  · intro accepted id order report found working reported uncovered
    exact accepted id (DB.mem_listOpenOrders.mpr ⟨order, found, working⟩)
      ⟨order, report, found, reported, uncovered⟩

/-- A poll takes the turns of all open orders when it is covered, else it is refused and rolled
back. -/
theorem run_cases (poll : Poll) (cfg : UpstoxConfig) (costRates : CostConfig)
    (pollable : Pollable db) (wellFormed : poll.WellFormed db) :
    (poll.Covered db ∧ (∃ updates, (poll.run cfg costRates db).1 = .ok updates) ∧
      Polled poll cfg costRates (db.listOpenOrders .live) db (poll.run cfg costRates db).2) ∨
      (¬ poll.Covered db ∧ (poll.run cfg costRates db).2 = db ∧
        ∃ clientOrderId fromState toState, (poll.run cfg costRates db).1 =
          .error (.invalidOrderTransition clientOrderId fromState toState)) := by
  have ready : ∀ id ∈ db.listOpenOrders .live, poll.Ready db id := fun id listed =>
    ready_of_pollable pollable wellFormed listed
  have distinct : (db.listOpenOrders .live).Nodup := RowTable.nodup_select _ _
  have runEq : poll.run cfg costRates db =
      match (collect ((poll.broker cfg costRates).pollOrder poll.clock)
        (db.listOpenOrders .live)).commit db () with
      | (result, db', _) => (result, db') := rfl
  rw [covered_iff]
  rcases collect_pollOrder distinct ready with ⟨accepted, updates, db', yields, polled⟩ |
    ⟨⟨id, listed, refused⟩, clientOrderId, fromState, toState, raises⟩
  · rw [runEq, commit_of_yields yields]
    exact .inl ⟨accepted, ⟨updates, rfl⟩, polled⟩
  · rw [runEq, commit_of_raises raises]
    exact .inr ⟨fun accepted => accepted id listed refused, rfl, clientOrderId, fromState, toState,
      rfl⟩

theorem answer_alone_self (poll : Poll) (order : Order) :
    (poll.alone order).answer order = poll.answer order := by
  simp only [answer, alone]
  cases order.brokerOrderId <;> simp

/-- Alone, an order leaves the others without an answer. -/
theorem answer_alone_of_ne {other : ℕ} {row : Order} (pollable : Pollable db)
    (found : db.orders.get? id = some order) (working : order.isWorking .live = true)
    (rowFound : db.orders.get? other = some row) (rowWorking : row.isWorking .live = true)
    (ne : other ≠ id) : (poll.alone order).answer row = none := by
  simp only [answer, alone]
  rcases acknowledged : row.brokerOrderId with _ | orderId
  · rfl
  · rw [Option.bind_some, if_neg]
    intro same
    exact ne (pollable.distinct other id row order orderId rowFound found rowWorking working
      acknowledged same)

/-- An answer of a poll in which one order is answered is the answer of the poll. -/
theorem answer_of_alone {row : Order} {report : OrderReport}
    (reported : (poll.alone order).answer row = some report) : poll.answer row = some report := by
  simp only [answer, alone, Option.bind_eq_some_iff] at reported ⊢
  rcases reported with ⟨orderId, acknowledged, reported⟩
  split_ifs at reported
  exact ⟨orderId, acknowledged, reported⟩

theorem wellFormed_alone (wellFormed : poll.WellFormed db) (order : Order) :
    (poll.alone order).WellFormed db := fun id row report found working reported =>
  wellFormed id row report found working (answer_of_alone reported)

theorem covered_alone (covered : poll.Covered db) (order : Order) :
    (poll.alone order).Covered db := fun id row report found working reported =>
  covered id row report found working (answer_of_alone reported)

theorem polled_of_covered (pollable : Pollable db) (wellFormed : poll.WellFormed db)
    (covered : poll.Covered db) :
    Polled poll cfg costRates (db.listOpenOrders .live) db (poll.run cfg costRates db).2 := by
  rcases poll.run_cases cfg costRates pollable wellFormed with ⟨_, _, polled⟩ | ⟨uncovered, _⟩
  · exact polled
  · exact absurd covered uncovered

/-- What an order adds to a position when it alone is answered is what it adds in the poll. -/
theorem gain_alone (pollable : Pollable db) (wellFormed : poll.WellFormed db)
    (covered : poll.Covered db) (found : db.orders.get? id = some order)
    (working : order.isWorking .live = true) (instrumentId : ℕ) :
    ((poll.alone order).run cfg costRates db).2.positionQty instrumentId .live -
      db.positionQty instrumentId .live = poll.gainOf db instrumentId id := by
  have listed : id ∈ db.listOpenOrders .live := DB.mem_listOpenOrders.mpr ⟨order, found, working⟩
  have polled : Polled (poll.alone order) cfg costRates (db.listOpenOrders .live) db
      ((poll.alone order).run cfg costRates db).2 :=
    polled_of_covered pollable (wellFormed_alone wellFormed order) (covered_alone covered order)
  have onlyOwn : ∀ other, other ≠ id → other ∈ db.listOpenOrders .live →
      (poll.alone order).gainOf db instrumentId other = 0 := by
    intro other ne mem
    rcases DB.mem_listOpenOrders.mp mem with ⟨row, rowFound, rowWorking⟩
    simp only [gainOf, rowFound]
    rw [answer_alone_of_ne pollable found working rowFound rowWorking ne]
    simp [Order.bookedBy]
  have own : (poll.alone order).gainOf db instrumentId id = poll.gainOf db instrumentId id := by
    simp only [gainOf, found, answer_alone_self]
  have once : (db.listOpenOrders .live).count id = 1 :=
    List.count_eq_one_of_mem (RowTable.nodup_select _ _) listed
  have single := List.sum_map_eq_nsmul_single id _ onlyOwn
  rw [polled.gain, single, once, own]
  ring

end Poll

/-- One poll at a time, each in a unit of work of its own. -/
def pollStep (cfg : UpstoxConfig) (costRates : CostConfig) (db : DB) (poll : Poll) : DB :=
  (poll.run cfg costRates db).2

/-- A poll raises no `InvalidOrderTransition` and does to each order what it would do if that
order alone were answered. The profit that a trade realizes is of the position it closes, so
it is compared when no other order of the instrument gets new fills. -/
structure Isolated (cfg : UpstoxConfig) (costRates : CostConfig) (db : DB) (poll : Poll) :
    Prop where
  total : ∀ clientOrderId fromState toState, (poll.run cfg costRates db).1 ≠
    .error (.invalidOrderTransition clientOrderId fromState toState)
  state : ∀ id order, db.orders.get? id = some order → order.isWorking .live = true →
    (poll.run cfg costRates db).2.orders.get? id =
      ((poll.alone order).run cfg costRates db).2.orders.get? id
  trades : ∀ id order, db.orders.get? id = some order → order.isWorking .live = true →
    ((poll.run cfg costRates db).2.tradesOf id).map Trade.execution =
        (((poll.alone order).run cfg costRates db).2.tradesOf id).map Trade.execution ∧
      (poll.SoleFill db (db.listOpenOrders .live) id order →
        (poll.run cfg costRates db).2.tradesOf id =
          ((poll.alone order).run cfg costRates db).2.tradesOf id)
  position : ∀ instrumentId, (poll.run cfg costRates db).2.positionQty instrumentId .live -
    db.positionQty instrumentId .live = ((db.listOpenOrders .live).map fun id =>
      match db.orders.get? id with
      | none => 0
      | some order => ((poll.alone order).run cfg costRates db).2.positionQty instrumentId .live -
          db.positionQty instrumentId .live).sum

section Runs

variable {poll : Poll} {cfg : UpstoxConfig} {costRates : CostConfig} {db : DB}

theorem isolated_of_covered (pollable : Pollable db) (wellFormed : poll.WellFormed db)
    (covered : poll.Covered db) : Isolated cfg costRates db poll := by
  have polled : poll.Polled cfg costRates (db.listOpenOrders .live) db
      (poll.run cfg costRates db).2 := Poll.polled_of_covered pollable wellFormed covered
  have polledAlone : ∀ order, (poll.alone order).Polled cfg costRates (db.listOpenOrders .live) db
      ((poll.alone order).run cfg costRates db).2 := fun order =>
    Poll.polled_of_covered pollable (Poll.wellFormed_alone wellFormed order)
      (Poll.covered_alone covered order)
  refine ⟨fun clientOrderId fromState toState => ?_, fun id order found working => ?_,
    fun id order found working => ?_, fun instrumentId => ?_⟩
  · rcases poll.run_cases cfg costRates pollable wellFormed with
      ⟨_, ⟨updates, ran⟩, _⟩ | ⟨uncovered, _⟩
    · rw [ran]
      simp
    · exact absurd covered uncovered
  · have listed := DB.mem_listOpenOrders.mpr ⟨order, found, working⟩
    rw [polled.rows id order found, (polledAlone order).rows id order found, if_pos listed,
      if_pos listed, Poll.answer_alone_self]
  · have listed := DB.mem_listOpenOrders.mpr ⟨order, found, working⟩
    rcases polled.trades id order listed found with ⟨position, tradesEq, sole⟩
    rcases (polledAlone order).trades id order listed found with
      ⟨positionAlone, tradesAloneEq, soleAlone⟩
    have noOther : (poll.alone order).SoleFill db (db.listOpenOrders .live) id order := by
      intro other mem ne row rowFound _
      rcases DB.mem_listOpenOrders.mp mem with ⟨same, sameFound, rowWorking⟩
      rw [rowFound, Option.some.injEq] at sameFound
      subst same
      rw [Poll.answer_alone_of_ne pollable found working rowFound rowWorking ne]
      rfl
    rw [Poll.answer_alone_self] at tradesAloneEq
    rw [tradesEq, tradesAloneEq]
    refine ⟨?_, fun soleFill => ?_⟩
    · rw [List.map_append, List.map_append]
      exact congrArg _ (UpstoxBroker.execution_answeredTrade _ _ _)
    · rw [sole soleFill, soleAlone noOther]
      rfl
  · rw [polled.gain, add_sub_cancel_left]
    refine congrArg List.sum (List.map_congr_left fun id listed => ?_)
    rcases DB.mem_listOpenOrders.mp listed with ⟨order, found, working⟩
    simp only [found]
    exact (Poll.gain_alone pollable wellFormed covered found working instrumentId).symm

theorem isolated_iff (pollable : Pollable db) (wellFormed : poll.WellFormed db) :
    Isolated cfg costRates db poll ↔ poll.Covered db := by
  refine ⟨fun isolated => ?_, isolated_of_covered pollable wellFormed⟩
  rcases poll.run_cases cfg costRates pollable wellFormed with ⟨covered, _⟩ | ⟨_, _, _, _, _, refused⟩
  · exact covered
  · exact absurd refused (isolated.total _ _ _)

/-- No report sends an order back to `SUBMITTING`. -/
theorem submitting_of_reported {order : Order} {answer : Option OrderReport}
    (submitting : (order.reported answer).state = .submitting) : order.state = .submitting := by
  cases answer with
  | none => exact submitting
  | some report =>
      simp only [Order.reported] at submitting
      split_ifs at submitting
      · rcases UpstoxBroker.stateFor_cases report order with new | new | new | new | new <;>
          simp [new] at submitting
      · exact submitting

theorem trading_pollStep : Trading .live db (pollStep cfg costRates db poll) := by
  have committed := commit_store ((poll.broker cfg costRates).pollAndApplyFills poll.clock) db ()
  change (pollStep cfg costRates db poll = db ∨ _) at committed
  rcases committed with same | ⟨updates, _, yields⟩
  · rw [same]
    exact .refl _ _
  · exact UpstoxBroker.trading_pollAndApplyFills yields

/-- An order that can trade after a poll could trade before it. -/
theorem before_pollStep (pollable : Pollable db) (wellFormed : poll.WellFormed db) {id : ℕ}
    {order' : Order} (found' : (pollStep cfg costRates db poll).orders.get? id = some order')
    (working' : order'.isWorking .live = true) :
    ∃ order, db.orders.get? id = some order ∧ order.isWorking .live = true ∧
      order'.terms = order.terms ∧ (order'.state = .submitting → order.state = .submitting) := by
  rcases trading_pollStep.exists_before found' with ⟨order, found, sameTerms⟩
  rcases poll.run_cases cfg costRates pollable wellFormed with ⟨_, _, polled⟩ | ⟨_, rolledBack, _⟩
  · have rowEq := polled.rows id order found
    rw [pollStep] at found'
    rw [found', Option.some.injEq] at rowEq
    subst order'
    by_cases listed : id ∈ db.listOpenOrders .live
    · rcases DB.mem_listOpenOrders.mp listed with ⟨same, sameFound, working⟩
      rw [found, Option.some.injEq] at sameFound
      subst same
      refine ⟨order, found, working, sameTerms, ?_⟩
      rw [if_pos listed]
      exact submitting_of_reported
    · rw [if_neg listed] at working'
      refine ⟨order, found, working', sameTerms, fun submitting => ?_⟩
      rwa [if_neg listed] at submitting
  · rw [pollStep, rolledBack, found, Option.some.injEq] at found'
    subst order'
    exact ⟨order, found, working', sameTerms, fun submitting => submitting⟩

theorem pollable_pollStep (pollable : Pollable db) (wellFormed : poll.WellFormed db) :
    Pollable (pollStep cfg costRates db poll) := by
  have instruments : (pollStep cfg costRates db poll).instruments = db.instruments :=
    trading_pollStep.instruments
  refine ⟨fun id order' found' working' => ?_, fun id order' found' working' submitting => ?_,
    fun id id' order order' orderId found found' working working' acknowledged acknowledged' => ?_⟩
  · rcases before_pollStep pollable wellFormed found' working' with
      ⟨order, found, working, sameTerms, _⟩
    rw [DB.instrument, instruments, show order'.instrumentId = order.instrumentId from
      congrArg OrderTerms.instrumentId sameTerms]
    exact pollable.known id order found working
  · rcases before_pollStep pollable wellFormed found' working' with
      ⟨order, found, working, sameTerms, wasSubmitting⟩
    exact (congrArg OrderTerms.brokerOrderId sameTerms).trans
      (pollable.acknowledged id order found working (wasSubmitting submitting))
  · rcases before_pollStep pollable wellFormed found working with
      ⟨before, beforeFound, beforeWorking, sameTerms, _⟩
    rcases before_pollStep pollable wellFormed found' working' with
      ⟨before', beforeFound', beforeWorking', sameTerms', _⟩
    exact pollable.distinct id id' before before' orderId beforeFound beforeFound' beforeWorking
      beforeWorking' ((congrArg OrderTerms.brokerOrderId sameTerms).symm.trans acknowledged)
      ((congrArg OrderTerms.brokerOrderId sameTerms').symm.trans acknowledged')

/-- Every store that a run of well-formed polls passes is pollable. -/
theorem pollable_runTrace {start : DB} (pollable : Pollable start) {polls : List Poll}
    (wellFormed : ∀ made ∈ runTrace (pollStep cfg costRates) start polls,
      made.2.WellFormed made.1) :
    ∀ made ∈ runTrace (pollStep cfg costRates) start polls, Pollable made.1 :=
  runTrace_invariant (fun db poll => poll.WellFormed db) pollable
    (fun _ _ pollable wellFormed => pollable_pollStep pollable wellFormed) wellFormed

end Runs

/-- Two orders as `place_order` leaves them, both acknowledged. -/
def twoSubmitted : DB where
  instruments := [⟨1, "INFY", "NSE_EQ|INFY", 1 / 20⟩, ⟨2, "TCS", "NSE_EQ|TCS", 1 / 20⟩]
  orders := ⟨[UpstoxBroker.submittedRow ⟨"a", 1, .buy, .market, 10, none⟩ "A",
    UpstoxBroker.submittedRow ⟨"b", 2, .buy, .market, 10, none⟩ "B"]⟩

/-- The first order is partly filled, the second one open. -/
def partlyFilledPoll : Poll where
  reports orderId :=
    if orderId = "A" then some ⟨some 10, some 4, some "open", some 100⟩
    else if orderId = "B" then some ⟨some 10, some 0, some "open", none⟩
    else none
  clock _ := 0

/-- The first order is reported without its filled quantity, the second one complete. -/
def missingFillPoll : Poll where
  reports orderId :=
    if orderId = "A" then some ⟨some 10, none, some "open", none⟩
    else if orderId = "B" then some ⟨some 10, some 10, some "complete", some 100⟩
    else none
  clock _ := 1

theorem twoSubmitted_cases {id : ℕ} {order : Order}
    (found : twoSubmitted.orders.get? id = some order) :
    (id = 0 ∧ order = UpstoxBroker.submittedRow ⟨"a", 1, .buy, .market, 10, none⟩ "A") ∨
      (id = 1 ∧ order = UpstoxBroker.submittedRow ⟨"b", 2, .buy, .market, 10, none⟩ "B") := by
  rcases id with _ | _ | id
  · exact .inl ⟨rfl, (Option.some.inj found).symm⟩
  · exact .inr ⟨rfl, (Option.some.inj found).symm⟩
  · cases found

theorem pollable_twoSubmitted : Pollable twoSubmitted := by
  refine ⟨fun id order found _ => ?_, fun id order found _ submitting => ?_,
    fun id id' order order' orderId found found' _ _ own own' => ?_⟩
  · rcases twoSubmitted_cases found with ⟨rfl, rfl⟩ | ⟨rfl, rfl⟩ <;> decide
  · rcases twoSubmitted_cases found with ⟨rfl, rfl⟩ | ⟨rfl, rfl⟩ <;> cases submitting
  · have same : order.brokerOrderId = order'.brokerOrderId := own.trans own'.symm
    rcases twoSubmitted_cases found with ⟨rfl, rfl⟩ | ⟨rfl, rfl⟩ <;>
      rcases twoSubmitted_cases found' with ⟨rfl, rfl⟩ | ⟨rfl, rfl⟩ <;>
      simp [UpstoxBroker.submittedRow, OrderRequest.row] at same ⊢

end PersonalTrade
