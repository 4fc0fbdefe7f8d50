import PersonalTrade.Execution.Polling
import PersonalTrade.Library.Parts

/-!
# Successive reports of one order

Reports carry cumulative figures: how much of the order is filled so far and at which
average. What each report adds becomes one trade, at the average that the report carries.
A report that has been applied adds nothing when it comes again.
-/

namespace PersonalTrade

open Transaction

/-- What a trade is worth. -/
def Trade.turnover (trade : Trade) : ℚ := trade.price * trade.qty

/-- What the trades of an order are worth. -/
def DB.tradedValue (db : DB) (orderId : ℕ) : ℚ := ((db.tradesOf orderId).map Trade.turnover).sum

namespace OrderReport

/-- The cumulative figures of a report. -/
def cumulative (report : OrderReport) : Cumulative ℚ :=
  ⟨report.filled, report.averagePrice.getD 0⟩

/-- Reports after a filled quantity: the quantities do not decrease, and what is filled has a
positive price. -/
def Successive : ℤ → List OrderReport → Prop
  | _, [] => True
  | filledQty, report :: reports =>
      filledQty ≤ report.filled ∧
        (0 < report.filled → ∃ price, 0 < price ∧ report.averagePrice = some price) ∧
        Successive report.filled reports

end OrderReport

namespace UpstoxBroker

variable {ω : Type} {broker : UpstoxBroker ω} {db db' : DB} {id : ℕ} {order : Order}
  {report : OrderReport} {time : ℤ}

/-- The reports of an order are applied one after another; what happens in between does not
touch its row and its trades. -/
inductive Reported (broker : UpstoxBroker ω) (id : ℕ) : DB → List OrderReport → DB → Prop where
  | done (db : DB) : Reported broker id db [] db
  | apply {db middle db' : DB} {report : OrderReport} {reports : List OrderReport} {time : ℤ}
      {update : Option OrderUpdate}
      (applied : (broker.applyOrderUpdate id report time).Yields db () update middle ())
      (later : Reported broker id middle reports db') :
      Reported broker id db (report :: reports) db'
  | elsewhere {db middle db' : DB} {reports : List OrderReport}
      (row : middle.orders.get? id = db.orders.get? id)
      (trades : middle.tradesOf id = db.tradesOf id)
      (later : Reported broker id middle reports db') : Reported broker id db reports db'

/-! ## What the trades are worth -/

/-- What a report adds to the trades: nothing without new priced fills, else one trade. -/
theorem trades_applyOrderUpdate {world world' : Unit} {update : Option OrderUpdate}
    (found : db.orders.get? id = some order)
    (yields : (broker.applyOrderUpdate id report time).Yields db world update db' world') :
    (db'.trades = db.trades ∧ (report.fillPrice = none ∨ report.newlyFilled order ≤ 0)) ∨
      ∃ trade, db'.trades = db.trades ++ [trade] ∧ trade.orderId = id ∧
        report.fillPrice = some trade.price ∧ report.newlyFilled order = trade.qty ∧
        0 < trade.price ∧ 0 < trade.qty ∧ trade.brokerage =
          min (trade.turnover * broker.costRates.brokeragePct) broker.costRates.brokerageMax := by
  rcases applyOrderUpdate_parts found yields with ⟨_, shrunk, rfl⟩ | ⟨middle, booked, advanced⟩
  · exact .inl ⟨rfl, .inr shrunk⟩
  · rcases yields_bookReported found booked with ⟨rfl, unbooked⟩ |
      ⟨fillPrice, costs, qty, within, priced, grown, _, charged, rfl⟩
    · exact .inl ⟨(yields_advance found advanced).2.2.2, unbooked⟩
    · rcases calculateCosts_eq_ok.mp charged with ⟨positive, some, rfl⟩
      refine .inr ⟨_, (yields_advance (get?_booked found within fillPrice _ _) advanced).2.2.2, rfl,
        priced, grown, positive, some, rfl⟩

/-- A report leaves its row at the reported quantity and adds the new shares at the reported
average. -/
theorem tradedValue_applyOrderUpdate {world world' : Unit} {update : Option OrderUpdate}
    (found : db.orders.get? id = some order) (grown : order.filledQty ≤ report.filled)
    (priced : 0 < report.filled → ∃ price, 0 < price ∧ report.averagePrice = some price)
    (yields : (broker.applyOrderUpdate id report time).Yields db world update db' world') :
    (∃ order', db'.orders.get? id = some order' ∧ (order'.filledQty : ℤ) = report.filled) ∧
      db'.tradedValue id = db.tradedValue id +
        (report.filled - order.filledQty : ℤ) * report.averagePrice.getD 0 := by
  rcases yields_applyOrderUpdate found yields with ⟨booked, applies⟩
  have bookedEq := applies.booked_eq
  rcases trades_applyOrderUpdate found yields with ⟨trades, unbooked⟩ |
    ⟨trade, trades, own, fillPrice, qty, _, some, _⟩
  · -- nothing is booked, so there was nothing new
    have same : (order.filledQty : ℤ) = report.filled := by
      rcases grown.eq_or_lt with same | more
      · exact same
      · rcases priced (by omega) with ⟨price, pricePos, average⟩
        rcases unbooked with unpriced | shrunk
        · simp [OrderReport.fillPrice, average, pricePos.ne'] at unpriced
        · rw [OrderReport.newlyFilled] at shrunk
          omega
    have unbooked : booked = 0 := by
      rw [OrderReport.newlyFilled, ← same, sub_self] at bookedEq
      simpa using bookedEq
    subst unbooked
    refine ⟨⟨_, applies.row, by simpa using same⟩, ?_⟩
    simp [DB.tradedValue, DB.tradesOf, trades, same]
  · have average : report.averagePrice = Option.some trade.price :=
      (Option.filter_eq_some_iff.mp fillPrice).1
    rw [fillPrice, Option.isSome_some, if_pos rfl, qty] at bookedEq
    rw [OrderReport.newlyFilled] at qty
    refine ⟨⟨_, applies.row, ?_⟩, ?_⟩
    · simp only
      omega
    · rw [qty, average, Option.getD_some]
      simp [DB.tradedValue, DB.tradesOf, trades, List.filter_append, own, Trade.turnover, mul_comm]

/-- Successive reports add their steps. -/
theorem tradedValue_reported {reports : List OrderReport} (average : ℚ)
    (found : db.orders.get? id = some order)
    (successive : OrderReport.Successive order.filledQty reports)
    (applied : Reported broker id db reports db') :
    db'.tradedValue id = db.tradedValue id + Cumulative.stepwise
      (⟨order.filledQty, average⟩ : Cumulative ℚ) (reports.map OrderReport.cumulative) := by
  induction applied generalizing order average with
  | done db => simp [Cumulative.stepwise]
  | @apply db middle db' report reports time update applied later ih =>
      rcases successive with ⟨grown, priced, rest⟩
      rcases tradedValue_applyOrderUpdate found grown priced applied with
        ⟨⟨order', found', filled⟩, value⟩
      have onwards := ih (report.averagePrice.getD 0) found' (filled ▸ rest)
      rw [onwards, value, List.map_cons, Cumulative.stepwise]
      have sameQty : (order'.filledQty : ℚ) = report.filled := by exact_mod_cast filled
      simp only [OrderReport.cumulative, sameQty]
      push_cast
      ring
  | elsewhere row trades later ih =>
      rw [ih _ (row.trans found) successive, DB.tradedValue, trades, DB.tradedValue]

/-- After successive reports on a new order, its trades are worth what the last report says
exactly when the moves of the average price, each under the quantity filled before it, cancel
out. -/
theorem tradedValue_eq_reported_iff {reports : List OrderReport}
    (found : db.orders.get? id = some order) (unfilled : order.filledQty = 0)
    (untraded : db.tradesOf id = []) (successive : OrderReport.Successive 0 reports)
    (applied : Reported broker id db reports db') :
    db'.tradedValue id = ((reports.map OrderReport.cumulative).getLastD ⟨0, 0⟩).value ↔
      Cumulative.drift ⟨0, 0⟩ (reports.map OrderReport.cumulative) = 0 := by
  have value := tradedValue_reported 0 found (by rw [unfilled]; exact successive) applied
  have nothing : db.tradedValue id = 0 := by
    rw [DB.tradedValue, untraded, List.map_nil, List.sum_nil]
  rw [value, nothing, zero_add, unfilled, Nat.cast_zero]
  exact Cumulative.stepwise_eq_value_iff rfl _

/-- Two reports that are applied in one go have been applied one after the other. -/
theorem reported_of_both (broker : UpstoxBroker ω) (id : ℕ) (db : DB) (first second : OrderReport)
    (returns : ((do
      let _ ← broker.applyOrderUpdate id first 0
      broker.applyOrderUpdate id second 1 : Session (Option OrderUpdate)) db
        ()).1.toOption.isSome = true) :
    ∃ db', Reported broker id db [first, second] db' := by
  rcases exists_yields _ db returns with ⟨update, db', yields⟩
  rcases yields_bind.mp yields with ⟨_, middle, _, once, twice⟩
  exact ⟨db', .apply once (.apply twice (.done db'))⟩

end UpstoxBroker

/-- A broker whose servers do not answer. -/
def silentBroker : UpstoxBroker Unit where
  transport _ world := (.transportError "no answer", world)
  cfg := {}
  costRates := default

/-- One acknowledged order of ten shares. -/
def oneSubmitted : DB where
  instruments := [⟨1, "INFY", "NSE_EQ|INFY", 1 / 20⟩]
  orders := ⟨[UpstoxBroker.submittedRow ⟨"a", 1, .buy, .market, 10, none⟩ "A"]⟩

/-- Half of the order filled at 10. -/
def halfFilled : OrderReport := ⟨some 10, some 5, some "open", some 10⟩

/-- All of it filled, at this average. -/
def wholeFilled (average : ℚ) : OrderReport := ⟨some 10, some 10, some "complete", some average⟩

theorem successive_halves {average : ℚ} (positive : 0 < average) :
    OrderReport.Successive 0 [halfFilled, wholeFilled average] :=
  ⟨by decide, fun _ => ⟨10, by norm_num, rfl⟩, show (5 : ℤ) ≤ 10 by decide,
    fun _ => ⟨average, positive, rfl⟩, trivial⟩

theorem tradedValue_eq_reported_iff_sample :
    ∃ db', UpstoxBroker.Reported silentBroker 0 oneSubmitted [halfFilled, wholeFilled 10] db' ∧
      db'.tradedValue 0 = 100 := by
  rcases UpstoxBroker.reported_of_both silentBroker 0 oneSubmitted halfFilled (wholeFilled 10)
    (by decide +kernel) with ⟨db', applied⟩
  refine ⟨db', applied, ?_⟩
  rw [(UpstoxBroker.tradedValue_eq_reported_iff rfl rfl rfl (successive_halves (by norm_num))
    applied).mpr (by decide +kernel)]
  decide +kernel

/-- Half filled at 10 and the other half at 12, so that the average is 11 in the end: the
trades are worth 105 and not 110. -/
theorem secondHalf_mispriced :
    OrderReport.Successive 0 [halfFilled, wholeFilled 11] ∧
    ∃ db', UpstoxBroker.Reported silentBroker 0 oneSubmitted [halfFilled, wholeFilled 11] db' ∧
      db'.tradedValue 0 = 105 ∧ (wholeFilled 11).cumulative.value = 110 := by
  refine ⟨successive_halves (by norm_num), ?_⟩
  rcases UpstoxBroker.reported_of_both silentBroker 0 oneSubmitted halfFilled (wholeFilled 11)
    (by decide +kernel) with ⟨db', applied⟩
  refine ⟨db', applied, ?_, by decide +kernel⟩
  rw [UpstoxBroker.tradedValue_reported 0 rfl (successive_halves (by norm_num)) applied]
  decide +kernel

/-! ## The same report again -/

namespace UpstoxBroker

variable {ω : Type} {broker : UpstoxBroker ω} {db db' : DB} {id : ℕ} {order : Order}
  {report : OrderReport} {time : ℤ}

theorem exists_of_applyOrderUpdate {world world' : Unit} {update : Option OrderUpdate}
    (yields : (broker.applyOrderUpdate id report time).Yields db world update db' world') :
    ∃ order, db.orders.get? id = some order := by
  simp only [applyOrderUpdate, yields_bind, yields_read] at yields
  rcases yields with ⟨_, _, _, ⟨rfl, rfl, _⟩, yields⟩
  split at yields
  · simp at yields
  · rename_i order found
    exact ⟨order, found⟩

/-- A report changes nothing when its state is that of the row and it has no new priced fills. -/
theorem applyOrderUpdate_of_settled (found : db.orders.get? id = some order)
    (settled : report.stateFor order = order.state)
    (unbooked : report.fillPrice = none ∨ report.newlyFilled order ≤ 0) (time : ℤ) :
    ∃ update, (broker.applyOrderUpdate id report time).Yields db () update db () := by
  by_cases shrunk : report.newlyFilled order ≤ 0
  · refine ⟨none, ?_⟩
    simp only [applyOrderUpdate, yields_bind, yields_read]
    refine ⟨db, db, (), ⟨rfl, rfl, trivial⟩, ?_⟩
    simp [found, settled, shrunk]
  · -- the fill is reported again without a price, and is not booked again
    have unpriced : report.fillPrice = none := unbooked.resolve_right shrunk
    refine ⟨some ⟨order.clientOrderId, order.brokerOrderId, report.stateFor order, report.filled,
      report.fillPrice, time⟩, ?_⟩
    simp only [applyOrderUpdate, yields_bind, yields_read]
    refine ⟨db, db, (), ⟨rfl, rfl, trivial⟩, ?_⟩
    simp [found, shrunk, bookReported, unpriced, advance, settled]

/-- Applying a report that has just been applied succeeds and changes nothing. -/
theorem applyOrderUpdate_idempotent {update : Option OrderUpdate}
    (yields : (broker.applyOrderUpdate id report time).Yields db () update db' ()) (again : ℤ) :
    ∃ update', (broker.applyOrderUpdate id report again).Yields db' () update' db' () := by
  rcases exists_of_applyOrderUpdate yields with ⟨order, found⟩
  rcases yields_applyOrderUpdate found yields with ⟨booked, applies⟩
  refine applyOrderUpdate_of_settled applies.row rfl ?_ again
  have bookedEq := applies.booked_eq
  rcases priced : report.fillPrice with _ | fillPrice
  · exact .inl rfl
  · right
    rw [priced, Option.isSome_some, if_pos rfl] at bookedEq
    simp only [OrderReport.newlyFilled] at bookedEq ⊢
    push_cast
    omega

end UpstoxBroker

theorem applyOrderUpdate_idempotent_sample :
    ∃ update db' update',
      (silentBroker.applyOrderUpdate 0 halfFilled 0).Yields oneSubmitted () update db' () ∧
      (silentBroker.applyOrderUpdate 0 halfFilled 1).Yields db' () update' db' () := by
  rcases exists_yields (silentBroker.applyOrderUpdate 0 halfFilled 0) oneSubmitted
    (by decide +kernel) with ⟨update, db', yields⟩
  rcases UpstoxBroker.applyOrderUpdate_idempotent yields 1 with ⟨update', again⟩
  exact ⟨update, db', update', yields, again⟩

end PersonalTrade
