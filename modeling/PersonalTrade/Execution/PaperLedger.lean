import PersonalTrade.Analytics.Pnl
import PersonalTrade.Execution.PaperAudit

/-!
# The ledger of the paper broker

Cash, positions, trades, realized profit and the equity curve are five accounts of the
same fills. `Ledger` says how they agree: each fill writes to all of them, and the value
identity of `applyFill` makes cash plus the cost of the positions move by the realized
profit alone.
-/

namespace PersonalTrade

namespace Position

theorem applyFill_realizedPnl (position : Position) (side : Side) (qty : ℕ) (netAmount : ℚ) :
    (position.applyFill side qty netAmount).1.realizedPnl =
      position.realizedPnl + (position.applyFill side qty netAmount).2.getD 0 := by
  simp only [applyFill]
  split_ifs <;> simp

/-- The cost average keeps the cost: a fill on the side of the position adds its amount. -/
theorem average_value {position : Position} {side : Side} (sameSide : 0 < position.qty ↔ side = .buy)
    (nonflat : position.qty ≠ 0) {qty : ℕ} (positive : 0 < qty) (netAmount : ℚ) :
    (position.avgPrice * |position.qty| + netAmount / qty * qty) / (|position.qty| + qty) *
        (position.qty + side.sign * qty : ℤ) =
      position.avgPrice * position.qty + if side = .sell then -netAmount else netAmount := by
  have qtyPos : (0 : ℚ) < qty := by exact_mod_cast positive
  cases side with
  | buy =>
      have long : 0 < position.qty := sameSide.mpr rfl
      have longQ : (0 : ℚ) < position.qty := by exact_mod_cast long
      rw [abs_of_pos long]
      simp only [Side.sign_buy, reduceCtorEq, if_false]
      push_cast
      field_simp
  | sell =>
      have short : position.qty < 0 := by
        rcases lt_or_gt_of_ne nonflat with short | long
        · exact short
        · exact absurd (sameSide.mp long) (by simp)
      have shortQ : (0 : ℚ) < -position.qty := by exact_mod_cast neg_pos.mpr short
      rw [abs_of_neg short]
      simp only [Side.sign_sell, if_true]
      push_cast
      have sizeNe : (-position.qty + qty : ℚ) ≠ 0 := by linarith
      field_simp
      ring

/-- What a fill costs the position gains in value, up to the profit that it realizes. -/
theorem applyFill_value (position : Position) (side : Side) {qty : ℕ} (positive : 0 < qty)
    (netAmount : ℚ) :
    (position.applyFill side qty netAmount).1.avgPrice *
        (position.applyFill side qty netAmount).1.qty =
      position.avgPrice * position.qty + (if side = .sell then -netAmount else netAmount) +
        (position.applyFill side qty netAmount).2.getD 0 := by
  have qtyNe : (qty : ℚ) ≠ 0 := by positivity
  unfold applyFill
  by_cases opening : position.qty = 0 ∨ (0 < position.qty ↔ side = .buy)
  · simp only [if_pos opening, Option.getD_none, add_zero]
    by_cases flat : position.qty = 0
    · cases side <;> simp [flat, qtyNe]
    · rw [if_neg flat]
      exact average_value (opening.resolve_left flat) flat positive netAmount
  · simp only [if_neg opening, Option.getD_some]
    have kept : (if position.qty + side.sign * qty = 0 then 0 else position.avgPrice) *
        ((position.qty + side.sign * qty : ℤ) : ℚ) =
          position.avgPrice * (position.qty + side.sign * qty : ℤ) := by
      split_ifs with closed
      · simp [closed]
      · rfl
    rw [kept]
    cases side with
    | buy =>
        simp only [Side.sign_buy, reduceCtorEq, if_false]
        push_cast
        ring
    | sell =>
        simp only [Side.sign_sell, if_true]
        push_cast
        ring

end Position

namespace DB

/-- The cost of the paper positions. -/
def bookValue (db : DB) : ℚ :=
  db.positions.total fun key position =>
    if key.mode = .paper then position.avgPrice * position.qty else 0

/-- The realized profit of the paper positions. -/
def realizedTotal (db : DB) : ℚ :=
  db.positions.total fun key position => if key.mode = .paper then position.realizedPnl else 0

/-- Orders keep their terms; new ones may be born. -/
def KeepsTerms (db db' : DB) : Prop :=
  ∀ id order, db.orders.get? id = some order →
    ∃ order', db'.orders.get? id = some order' ∧ order'.terms = order.terms

variable {db db' : DB} {trade : Trade}

/-- Terms, side and instrument of a trade's order. -/
theorem KeepsTerms.reads (keeps : KeepsTerms db db')
    (linked : (db.orders.get? trade.orderId).isSome) :
    db'.isSale trade = db.isSale trade ∧ ∀ instrumentId,
      ((db'.orders.get? trade.orderId).any fun order => order.instrumentId = instrumentId) =
        (db.orders.get? trade.orderId).any fun order => order.instrumentId = instrumentId := by
  rcases Option.isSome_iff_exists.mp linked with ⟨order, found⟩
  rcases keeps _ order found with ⟨order', found', sameTerms⟩
  have side : order'.side = order.side := congrArg OrderTerms.side sameTerms
  have instrument : order'.instrumentId = order.instrumentId :=
    congrArg OrderTerms.instrumentId sameTerms
  simp [isSale, found, found', side, instrument]

end DB

/-- The accounts of the paper broker agree. -/
structure Ledger (initialCash : ℚ) (db : DB) : Prop where
  linked : ∀ trade ∈ db.trades, (db.orders.get? trade.orderId).isSome
  cash : db.cash = initialCash + (db.trades.map db.cashFlow).sum
  qty : ∀ instrumentId, db.positionQty instrumentId .paper =
    ((db.tradesOn instrumentId).map db.signedQty).sum
  realized : ∀ instrumentId, (db.getOrCreatePosition instrumentId .paper).realizedPnl =
    ((db.tradesOn instrumentId).map fun trade => trade.realizedPnl.getD 0).sum
  value : db.cash + db.bookValue = initialCash + db.realizedTotal

namespace Ledger

variable {initialCash : ℚ} {db db' : DB}

/-- The trades read the same from a store that keeps the terms of its orders. -/
theorem reads (ledger : Ledger initialCash db) (keeps : db.KeepsTerms db') :
    db.trades.map db'.cashFlow = db.trades.map db.cashFlow ∧ ∀ instrumentId,
      (db.trades.filter fun trade => (db'.orders.get? trade.orderId).any
        fun order => order.instrumentId = instrumentId) = db.tradesOn instrumentId ∧
      (db.tradesOn instrumentId).map db'.signedQty =
        (db.tradesOn instrumentId).map db.signedQty := by
  refine ⟨List.map_congr_left fun trade mem => ?_, fun instrumentId =>
    ⟨List.filter_congr fun trade mem => ?_, List.map_congr_left fun trade mem => ?_⟩⟩
  · rw [DB.cashFlow, (keeps.reads (ledger.linked trade mem)).1, DB.cashFlow]
  · exact (keeps.reads (ledger.linked trade mem)).2 instrumentId
  · rw [DB.signedQty, (keeps.reads (ledger.linked trade (List.mem_of_mem_filter mem))).1,
      DB.signedQty]

theorem untraded (ledger : Ledger initialCash db) (keeps : db.KeepsTerms db')
    (trades : db'.trades = db.trades) (positions : db'.positions = db.positions)
    (account : db'.paperAccount = db.paperAccount) : Ledger initialCash db' := by
  rcases ledger.reads keeps with ⟨flows, on⟩
  have cash : db'.cash = db.cash := by rw [DB.cash, account, DB.cash]
  have tradesOn : ∀ instrumentId, db'.tradesOn instrumentId = db.tradesOn instrumentId := by
    intro instrumentId
    rw [DB.tradesOn, trades]
    exact (on instrumentId).1
  refine ⟨fun trade mem => ?_, ?_, fun instrumentId => ?_, fun instrumentId => ?_, ?_⟩
  · rw [trades] at mem
    rcases Option.isSome_iff_exists.mp (ledger.linked trade mem) with ⟨order, found⟩
    rcases keeps _ order found with ⟨order', found', _⟩
    simp [found']
  · rw [cash, trades, flows, ledger.cash]
  · rw [tradesOn, (on instrumentId).2, ← ledger.qty, DB.positionQty, DB.positionFor, positions]
    rfl
  · rw [tradesOn, ← ledger.realized, DB.getOrCreatePosition, DB.positionFor, positions]
    rfl
  · rw [cash, DB.bookValue, DB.realizedTotal, positions]
    exact ledger.value

end Ledger

section Fill

variable {db : DB} {id : ℕ} {order : Order} {qty : ℕ} {price : ℚ} {costs : TradeCosts} {time : ℤ}
  {within : order.filledQty + qty ≤ order.qty}

/-- The position of an order before its fill is booked. -/
def DB.positionOf (db : DB) (order : Order) : Position :=
  db.getOrCreatePosition order.instrumentId .paper

/-- The trade that a fill appends. -/
def DB.filledTrade (db : DB) (id : ℕ) (order : Order) (qty : ℕ) (price : ℚ) (costs : TradeCosts)
    (time : ℤ) : Trade :=
  { orderId := id, price, qty, brokerage := costs.brokerage, stt := costs.stt
    stampDuty := costs.stampDuty, gst := costs.gst, exchangeCharges := costs.exchangeCharges
    sebiCharges := costs.sebiCharges, netAmount := costs.netAmount
    realizedPnl := ((db.positionOf order).applyFill order.side qty costs.netAmount).2
    executedAt := time }

theorem DB.trades_execute : (db.execute id order qty price costs time within).trades =
    db.trades ++ [db.filledTrade id order qty price costs time] := rfl

theorem DB.positions_execute : (db.execute id order qty price costs time within).positions =
    db.positions.insert ⟨order.instrumentId, .paper⟩
      ((db.positionOf order).applyFill order.side qty costs.netAmount).1 := rfl

theorem DB.cash_execute : (db.execute id order qty price costs time within).cash =
    db.cash + if order.side = .sell then costs.netAmount else -costs.netAmount := by
  have paid : (db.execute id order qty price costs time within).cash =
      PaperBroker.cashAfter order.side db.cash costs.netAmount := rfl
  rw [paid, PaperBroker.cashAfter]
  cases order.side with
  | buy => simp [sub_eq_add_neg]
  | sell => simp

theorem DB.positionFor_execute (instrumentId : ℕ) :
    (db.execute id order qty price costs time within).positionFor instrumentId .paper =
      if instrumentId = order.instrumentId then
        some ((db.positionOf order).applyFill order.side qty costs.netAmount).1
      else db.positionFor instrumentId .paper := by
  rw [positionFor, positions_execute]
  split_ifs with same
  · rw [same, AList.lookup_insert]
  · rw [AList.lookup_insert_ne (by simpa using same)]
    rfl

theorem DB.keepsTerms_execute (found : db.orders.get? id = some order) :
    db.KeepsTerms (db.execute id order qty price costs time within) := by
  intro other row rowFound
  rw [get?_execute found]
  by_cases same : other = id
  · subst other
    rw [found, Option.some.injEq] at rowFound
    subst row
    exact ⟨_, if_pos rfl, rfl⟩
  · exact ⟨row, by rw [if_neg same, rowFound], rfl⟩

/-- The appended trade reads its side and instrument from the filled order. -/
theorem DB.tradesOn_execute (found : db.orders.get? id = some order) (instrumentId : ℕ) :
    (db.execute id order qty price costs time within).tradesOn instrumentId =
      (db.trades.filter fun trade =>
        ((db.execute id order qty price costs time within).orders.get? trade.orderId).any
          fun row => row.instrumentId = instrumentId) ++
        if instrumentId = order.instrumentId then [db.filledTrade id order qty price costs time]
        else [] := by
  rw [tradesOn, trades_execute, List.filter_append]
  congr 1
  have own : (db.execute id order qty price costs time within).orders.get?
      (db.filledTrade id order qty price costs time).orderId = some (order.executed qty within) := by
    rw [get?_execute found]
    exact if_pos rfl
  by_cases same : instrumentId = order.instrumentId
  · simp [own, Order.executed, Order.withFilled, same]
  · simp [own, Order.executed, Order.withFilled, same, Ne.symm same]

theorem DB.isSale_filledTrade (found : db.orders.get? id = some order) :
    (db.execute id order qty price costs time within).isSale
      (db.filledTrade id order qty price costs time) = decide (order.side = .sell) := by
  have own : (db.filledTrade id order qty price costs time).orderId = id := rfl
  rw [isSale, own, get?_execute found, if_pos rfl]
  rfl

/-- A weight that the empty position lacks, replaced in a total over the positions. -/
theorem DB.total_positions_execute (weight : Position → ℚ) (empty : weight {} = 0) :
    ((db.execute id order qty price costs time within).positions.total fun key position =>
        if key.mode = .paper then weight position else 0) =
      (db.positions.total fun key position => if key.mode = .paper then weight position else 0) +
        (weight ((db.positionOf order).applyFill order.side qty costs.netAmount).1 -
          weight (db.positionOf order)) := by
  rw [positions_execute, AList.total_insert]
  simp only [if_true, positionOf, getOrCreatePosition, positionFor]
  cases db.positions.lookup ⟨order.instrumentId, .paper⟩ with
  | none => simp [empty]
  | some position => rfl

theorem ledger_execute {initialCash : ℚ} (ledger : Ledger initialCash db)
    (found : db.orders.get? id = some order) (positive : 0 < qty) :
    Ledger initialCash (db.execute id order qty price costs time within) := by
  have keeps : db.KeepsTerms (db.execute id order qty price costs time within) :=
    DB.keepsTerms_execute found
  rcases ledger.reads keeps with ⟨flows, on⟩
  have sale : (db.execute id order qty price costs time within).isSale
      (db.filledTrade id order qty price costs time) = decide (order.side = .sell) :=
    DB.isSale_filledTrade found
  refine ⟨fun trade mem => ?_, ?_, fun instrumentId => ?_, fun instrumentId => ?_, ?_⟩
  · rw [DB.trades_execute, List.mem_append, List.mem_singleton] at mem
    rcases mem with old | rfl
    · rcases Option.isSome_iff_exists.mp (ledger.linked trade old) with ⟨row, rowFound⟩
      rcases keeps _ row rowFound with ⟨row', rowFound', _⟩
      simp [rowFound']
    · rw [DB.get?_execute found]
      simp [DB.filledTrade]
  · rw [DB.cash_execute, DB.trades_execute, List.map_append, List.sum_append, flows, ledger.cash]
    simp only [List.map_singleton, List.sum_singleton, DB.cashFlow, sale, decide_eq_true_eq]
    simp only [DB.filledTrade, add_assoc]
  · rw [DB.tradesOn_execute found, (on instrumentId).1, List.map_append, List.sum_append,
      (on instrumentId).2, ← ledger.qty, DB.positionQty, DB.positionFor_execute]
    split_ifs with same
    · subst instrumentId
      simp only [Option.map_some, Option.getD_some, Position.applyFill_qty, DB.positionOf,
        DB.getOrCreatePosition_qty, List.map_singleton, List.sum_singleton, DB.signedQty, sale,
        decide_eq_true_eq]
      cases side : order.side <;> simp [DB.filledTrade]
    · simp [DB.positionQty]
  · rw [DB.tradesOn_execute found, (on instrumentId).1, List.map_append, List.sum_append,
      ← ledger.realized, DB.getOrCreatePosition, DB.positionFor_execute]
    split_ifs with same
    · subst instrumentId
      simp only [Option.getD_some, Position.applyFill_realizedPnl, List.map_singleton,
        List.sum_singleton]
      rfl
    · simp [DB.getOrCreatePosition]
  · have value := Position.applyFill_value (db.positionOf order) order.side positive costs.netAmount
    have realized :=
      Position.applyFill_realizedPnl (db.positionOf order) order.side qty costs.netAmount
    have before := ledger.value
    rw [DB.bookValue, DB.realizedTotal] at before ⊢
    rw [DB.total_positions_execute (fun position => position.avgPrice * position.qty) (by simp),
      DB.total_positions_execute Position.realizedPnl rfl, DB.cash_execute]
    simp only [value, realized]
    cases side : order.side <;> simp only [side, reduceCtorEq, if_true, if_false] at * <;> linarith

end Fill

theorem keepsTerms_of_moveOrder {db : DB} {id : ℕ} {order : Order}
    (found : db.orders.get? id = some order) (toState : OrderState) (payload : EventPayload) :
    db.KeepsTerms (db.moveOrder id order.state toState payload) := by
  intro other row rowFound
  by_cases same : other = id
  · subst other
    rw [found, Option.some.injEq] at rowFound
    subst row
    exact ⟨{ order with state := toState }, by simp [DB.moveOrder, found], rfl⟩
  · exact ⟨row, by simpa [DB.moveOrder, RowTable.get?_update_of_ne same] using rowFound, rfl⟩

theorem keepsTerms_createOrder (db : DB) (order : Order) : db.KeepsTerms (db.createOrder order) := by
  intro id row found
  have old : id ≠ db.orders.nextId := (RowTable.lt_nextId_of_get? found).ne
  exact ⟨row, by simpa [DB.createOrder, RowTable.get?_insert_of_ne old] using found, rfl⟩

theorem ledger_move {initialCash : ℚ} {db db' : DB} (ledger : Ledger initialCash db)
    (move : PaperMove db db') : Ledger initialCash db' := by
  cases move with
  | create order _ _ _ _ => exact ledger.untraded (keepsTerms_createOrder db order) rfl rfl rfl
  | move found payload _ _ => exact ledger.untraded (keepsTerms_of_moveOrder found _ _) rfl rfl rfl
  | fill found positive within _ price costs time => exact ledger_execute ledger found positive

namespace PaperBroker

/-- A blank store whose account holds the initial cash and no position. -/
structure JustOpened (initialCash : ℚ) (db : DB) : Prop extends Blank db where
  positions : db.positions = ∅
  account : db.paperAccount = some ⟨initialCash⟩

theorem ledger_of_justOpened {initialCash : ℚ} {db : DB} (opened : JustOpened initialCash db) :
    Ledger initialCash db := by
  have unread : ∀ instrumentId, db.tradesOn instrumentId = [] := by
    intro instrumentId
    rw [DB.tradesOn, opened.trades]
    rfl
  have flat : ∀ instrumentId, db.positionFor instrumentId .paper = none := by
    intro instrumentId
    rw [DB.positionFor, opened.positions]
    rfl
  refine ⟨fun trade mem => ?_, ?_, fun instrumentId => ?_, fun instrumentId => ?_, ?_⟩
  · simp [opened.trades] at mem
  · simp [DB.cash, opened.account, opened.trades]
  · simp [unread, DB.positionQty, flat]
  · simp [unread, DB.getOrCreatePosition, flat]
  · simp [DB.cash, opened.account, DB.bookValue, DB.realizedTotal, opened.positions, AList.total]

/-- In every state that calls reach from a just opened account: the cash is the initial cash
plus the cash flows of all trades, each position holds the signed quantities and the realized
profits of the trades of its instrument, cash plus the cost of the positions is the initial
cash plus the realized profits, and the rebuilt equity curve ends at the cash. -/
theorem ledger_identity {initialCash : ℚ} {start : DB} (opened : JustOpened initialCash start)
    (calls : List (PaperBroker × PaperCall)) :
    let db := runSteps step start calls
    db.cash = initialCash + (db.trades.map db.cashFlow).sum ∧
      (∀ instrumentId, db.positionQty instrumentId .paper =
        ((db.tradesOn instrumentId).map db.signedQty).sum) ∧
      (∀ instrumentId, (db.getOrCreatePosition instrumentId .paper).realizedPnl =
        ((db.tradesOn instrumentId).map fun trade => trade.realizedPnl.getD 0).sum) ∧
      db.cash + db.bookValue = initialCash + db.realizedTotal ∧
      (db.trades ≠ [] →
        (db.equityCurveFromTrades initialCash db.trades).getLast?.map Prod.snd = some db.cash) := by
  intro db
  have ledger : Ledger initialCash db :=
    (moves_runSteps start calls).invariant (fun _ _ kept move => ledger_move kept move)
      (ledger_of_justOpened opened)
  refine ⟨ledger.cash, ledger.qty, ledger.realized, ledger.value, fun nonempty => ?_⟩
  rw [DB.getLast?_equityCurve initialCash nonempty, ledger.cash]

theorem ledger_identity_sample :
    ((runSteps step sampleAccount sampleCalls).equityCurveFromTrades 550
      (runSteps step sampleAccount sampleCalls).trades).getLast?.map Prod.snd =
        some (runSteps step sampleAccount sampleCalls).cash := by
  have opened : JustOpened 550 sampleAccount := ⟨⟨rfl, rfl, rfl⟩, rfl, rfl⟩
  have traded : (runSteps step sampleAccount sampleCalls).trades ≠ [] := by decide +kernel
  exact (ledger_identity opened sampleCalls).2.2.2.2 traded

end PaperBroker

end PersonalTrade
