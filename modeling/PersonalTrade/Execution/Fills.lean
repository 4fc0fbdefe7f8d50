import PersonalTrade.Execution.Upstox

/-!
# Fills on the books

The rows of the LIVE orders, their trades and the positions are three accounts of the
same fills. A poll books on all three at once, so what a position holds beyond the
filled quantities of its orders never changes. Whether an order that the broker calls
complete is complete on the books depends on the report that says so.
-/

namespace PersonalTrade

open Transaction

/-- What the row of an order counts towards a LIVE position. -/
def Order.signedFilled (order : Order) (instrumentId : ℕ) : ℤ :=
  if order.mode = .live ∧ order.instrumentId = instrumentId then order.side.sign * order.filledQty
  else 0

/-- What the rows of all orders count towards a LIVE position. -/
def DB.signedFilled (db : DB) (instrumentId : ℕ) : ℤ :=
  db.orders.total fun order => order.signedFilled instrumentId

/-- What a LIVE position holds beyond the fills of its orders. -/
def DB.unaccounted (db : DB) (instrumentId : ℕ) : ℤ :=
  db.positionQty instrumentId .live - db.signedFilled instrumentId

/-- The rows of the LIVE orders and the trades count the same fills, and the orders that are
`FILLED` are filled. -/
structure FillsBooked (db : DB) : Prop where
  counted : ∀ id order, db.orders.get? id = some order → order.mode = .live →
    db.tradedQty id = order.filledQty
  unborn : ∀ id, db.orders.nextId ≤ id → db.tradedQty id = 0
  complete : ∀ id order, db.orders.get? id = some order → order.mode = .live →
    order.state = .filled → order.filledQty = order.qty

/-- A report that would make an order `FILLED` comes with a price and the whole quantity, or
all of it is booked already. -/
def OrderReport.Completes (report : OrderReport) (order : Order) : Prop :=
  report.stateFor order = .filled →
    order.filledQty = order.qty ∨ report.fillPrice.isSome ∧ (order.qty : ℤ) ≤ report.filled

namespace UpstoxBroker

variable {ω : Type} {broker : UpstoxBroker ω} {db db' : DB} {id : ℕ} {order : Order}
  {report : OrderReport} {booked : ℕ}

theorem mode_of_isWorking {mode : Mode} (working : order.isWorking mode = true) :
    order.mode = mode := by
  simp only [Order.isWorking, Bool.and_eq_true, decide_eq_true_eq] at working
  exact working.2

/-- A report moves the position and the row of its order together. -/
theorem unaccounted_applies (found : db.orders.get? id = some order) (isLive : order.mode = .live)
    (applies : Applies report id order booked db db') (instrumentId : ℕ) :
    db'.unaccounted instrumentId = db.unaccounted instrumentId := by
  rw [DB.unaccounted, DB.unaccounted, DB.signedFilled, DB.signedFilled,
    RowTable.total_changed found applies.row applies.others, applies.position]
  simp only [Order.signedFilled, isLive, true_and, and_true]
  by_cases same : order.instrumentId = instrumentId
  · rw [if_pos same, if_pos same, if_pos same.symm]
    push_cast
    ring
  · rw [if_neg same, if_neg same, if_neg (Ne.symm same)]
    ring

/-- Applying a report keeps the books, when one that completes the order carries its fills. -/
theorem fillsBooked_applies (found : db.orders.get? id = some order) (isLive : order.mode = .live)
    (nextId : db'.orders.nextId = db.orders.nextId) (completes : report.Completes order)
    (applies : Applies report id order booked db db') (books : FillsBooked db) :
    FillsBooked db' := by
  refine ⟨fun other row rowFound rowLive => ?_, fun other beyond => ?_,
    fun other row rowFound rowLive filled => ?_⟩
  · rw [applies.traded]
    by_cases same : other = id
    · subst other
      rw [applies.row, Option.some.injEq] at rowFound
      subst row
      simp [books.counted id order found isLive]
    · rw [applies.others other same] at rowFound
      simp [same, books.counted other row rowFound rowLive]
  · rw [nextId] at beyond
    have old : other ≠ id := by
      have below := RowTable.lt_nextId_of_get? found
      omega
    simp [applies.traded, old, books.unborn other beyond]
  · by_cases same : other = id
    · subst other
      rw [applies.row, Option.some.injEq] at rowFound
      subst row
      have within := applies.within
      have bookedEq := applies.booked_eq
      rcases completes filled with already | ⟨priced, whole⟩
      · simp only
        omega
      · simp only [priced, if_true, OrderReport.newlyFilled] at bookedEq ⊢
        omega
    · rw [applies.others other same] at rowFound
      exact books.complete other row rowFound rowLive filled

/-- The poll of an order answers with a report. -/
def Answers (broker : UpstoxBroker ω) (world : ω) (order : Order) (report : OrderReport) : Prop :=
  ∃ brokerOrderId payload, order.brokerOrderId = some brokerOrderId ∧
    (broker.request (.getOrderDetails brokerOrderId) world).1 = .ok payload ∧
    payload.report = .ok report

/-- Polling an order leaves the books alone or applies the report that answers it. -/
theorem pollOrder_applies {clock : ℕ → ℤ} {world world' : ω} {update : Option OrderUpdate}
    (found : db.orders.get? id = some order)
    (yields : (broker.pollOrder clock id).Yields db world update db' world') :
    db' = db ∨ ∃ report booked, broker.Answers world order report ∧
      Applies report id order booked db db' := by
  rcases yields_pollOrder yields with ⟨row, rowFound, ⟨_, rfl, _⟩ |
    ⟨brokerOrderId, acknowledged, ⟨_, _, rfl⟩ | ⟨payload, report, sent, reported, applied⟩⟩⟩
  · exact .inl rfl
  · exact .inl rfl
  · rw [found, Option.some.injEq] at rowFound
    subst row
    rcases yields_applyOrderUpdate found applied with ⟨booked, applies⟩
    exact .inr ⟨report, booked, ⟨brokerOrderId, payload, acknowledged, by rw [sent], reported⟩,
      applies⟩

/-- A poll never changes what the positions hold beyond their orders. -/
theorem unaccounted_pollAndApplyFills {clock : ℕ → ℤ} {world world' : ω}
    {updates : List OrderUpdate}
    (yields : (broker.pollAndApplyFills clock).Yields db world updates db' world')
    (instrumentId : ℕ) : db'.unaccounted instrumentId = db.unaccounted instrumentId := by
  refine pollAndApplyFills_invariant (motive := fun _ later _ =>
    later.unaccounted instrumentId = db.unaccounted instrumentId) ?_ rfl yields
  intro id _ order middle middleWorld update next nextWorld held _ _ found working polled
  rcases pollOrder_applies found polled with rfl | ⟨report, booked, _, applies⟩
  · exact held
  · exact (unaccounted_applies found (mode_of_isWorking working) applies instrumentId).trans held

/-- A poll keeps the books when every report that answers it completes what it calls
complete. -/
theorem fillsBooked_pollAndApplyFills {clock : ℕ → ℤ} {world world' : ω}
    {updates : List OrderUpdate} (books : FillsBooked db)
    (completes : ∀ id order middle middleWorld report, broker.Polls clock db world id middle
      middleWorld → middle.orders.get? id = some order → broker.Answers middleWorld order report →
        report.Completes order)
    (yields : (broker.pollAndApplyFills clock).Yields db world updates db' world') :
    FillsBooked db' := by
  refine pollAndApplyFills_invariant (motive := fun _ later _ => FillsBooked later) ?_ books yields
  intro id _ order middle middleWorld update next nextWorld held _ polls found working polled
  rcases pollOrder_applies found polled with rfl | ⟨report, booked, answers, applies⟩
  · exact held
  · exact fillsBooked_applies found (mode_of_isWorking working)
      (trading_pollOrder found working polled).1.nextId
      (completes _ _ _ _ _ polls found answers) applies held

end UpstoxBroker

end PersonalTrade
