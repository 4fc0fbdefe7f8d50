import PersonalTrade.Core.Config
import PersonalTrade.Execution.Broker

/-!
# Paper broker

`execution/paper`: fills simulated against the last quote. `decideFill` is the
part of `_try_fill` that decides without writing; `tryFill` carries the decision
out. All that a broker call does to the store is a `Trading` step, after the birth
of the order in `placeOrder`.
-/

namespace PersonalTrade

open Transaction

/-- `LiveQuoteSource`: the last closes, keyed by instrument key. -/
abbrev LiveQuoteSource := String → Option ℚ

def LiveQuoteSource.update (quotes : LiveQuoteSource) (instrumentKey : String) (price : ℚ) :
    LiveQuoteSource :=
  Function.update quotes instrumentKey (some price)

/-- `LiveQuoteSource.get_ltp`. -/
def LiveQuoteSource.getLtp (quotes : LiveQuoteSource) (instrument : Instrument) : Option ℚ :=
  quotes instrument.instrumentKey

/-- `PaperAccountRepository.get_or_create`. -/
def DB.openAccount (db : DB) (initialCash : ℚ) : DB :=
  { db with paperAccount := some (db.paperAccount.getD ⟨initialCash⟩) }

/-- The cash of the paper account. -/
def DB.cash (db : DB) : ℚ := (db.paperAccount.map PaperAccount.cash).getD 0

/-- Write the cash of the paper account. -/
def DB.setCash (db : DB) (cash : ℚ) : DB := { db with paperAccount := some ⟨cash⟩ }

/-- `PaperBroker`, built on a session. -/
structure PaperBroker where
  quotes : LiveQuoteSource
  costRates : CostConfig
  segment : Segment
  slippageBps : ℚ
  latencyMs : ℕ

namespace PaperBroker

/-- What `_try_fill` decides before it writes. -/
inductive FillDecision where
  | rest
  | cancel
  | fill (qty : ℕ) (price : ℚ)
deriving DecidableEq, Repr

/-- `_clamp_to_cash`: the largest affordable quantity up to `qty`. -/
def clampToCash (broker : PaperBroker) (cash fillPrice : ℚ) : ℕ → Except PyError ℕ
  | 0 => .ok 0
  | qty + 1 =>
      match calculateCosts .buy fillPrice (qty + 1) broker.segment broker.costRates with
      | .error raised => .error raised
      | .ok costs =>
          if costs.netAmount ≤ cash then .ok (qty + 1) else broker.clampToCash cash fillPrice qty

/-- The price an order trades at before slippage, if it trades at `ltp` at all. -/
def referencePrice (order : Order) (ltp : ℚ) : Except PyError (Option ℚ) :=
  match order.orderType with
  | .limit =>
      match order.limitPrice with
      | none => .error (.assertionError "LIMIT order must carry a limit_price")
      | some limitPrice =>
          match order.side with
          | .buy => .ok (if ltp ≤ limitPrice then some (min ltp limitPrice) else none)
          | .sell => .ok (if limitPrice ≤ ltp then some (max ltp limitPrice) else none)
  | _ => .ok (some ltp)

/-- The quantity that can trade: a sale trades all that remains. -/
def affordable (broker : PaperBroker) (order : Order) (cash fillPrice : ℚ) : Except PyError ℕ :=
  match order.side with
  | .buy => broker.clampToCash cash fillPrice order.remaining
  | .sell => .ok order.remaining

/-- The decision of `_try_fill`. -/
def decideFill (broker : PaperBroker) (order : Order) (instrument : Instrument) (cash : ℚ) :
    Except PyError FillDecision :=
  if order.remaining = 0 then .ok .rest
  else
    match broker.quotes.getLtp instrument with
    | none => .ok .rest
    | some ltp =>
        match referencePrice order ltp with
        | .error raised => .error raised
        | .ok none => .ok .rest
        | .ok (some reference) =>
            let fillPrice := applySlippage reference order.side broker.slippageBps
            match broker.affordable order cash fillPrice with
            | .error raised => .error raised
            | .ok 0 => .ok .cancel
            | .ok qty => .ok (.fill qty fillPrice)

/-- The cash after a fill: a buy pays its net amount, a sale receives it. -/
def cashAfter (side : Side) (cash netAmount : ℚ) : ℚ :=
  if side = .buy then cash - netAmount else cash + netAmount

/-- `_execute_fill`. -/
def executeFill (broker : PaperBroker) (id : ℕ) (order : Order) (qty : ℕ) (fillPrice : ℚ)
    (time : ℤ) : Session OrderUpdate := do
  let costs ← ofExcept
    (calculateCosts order.side fillPrice qty broker.segment broker.costRates)
  modify fun db => (db.bookFill .paper id order qty fillPrice costs time).setCash
    (cashAfter order.side db.cash costs.netAmount)
  let filled := order.filledQty + qty
  setFilledQty id filled
  let newState := if order.qty ≤ filled then OrderState.filled else .partiallyFilled
  transition id newState (.fill qty fillPrice)
  pure ⟨order.clientOrderId, order.brokerOrderId, newState, filled, some fillPrice, time⟩

/-- `_try_fill`. -/
def tryFill (broker : PaperBroker) (id : ℕ) (instrument : Instrument) (time : ℤ) :
    Session (Option OrderUpdate) := do
  let db ← read
  match db.orders.get? id with
  | none => raise (.assertionError "order row exists")
  | some order => do
      let decision ← ofExcept (broker.decideFill order instrument db.cash)
      match decision with
      | .rest => pure none
      | .cancel => do
          transition id .cancelled (.reason "insufficient cash")
          pure (some ⟨order.clientOrderId, order.brokerOrderId, .cancelled, order.filledQty, none,
            time⟩)
      | .fill qty price => do
          let update ← broker.executeFill id order qty price (time + broker.latencyMs)
          pure (some update)

/-- The steps of `place_order` up to the order's first resting in the book. -/
def openOrder (uuid : String) (request : OrderRequest) : Session ℕ := do
  let id ← recordCreated (request.row (some ("PAPER-" ++ uuid)) .paper)
  transition id .submitting
  transition id .submitted
  transition id .opened
  pure id

/-- `place_order`; `uuid` and `placedAt` are the drawn identifier and clock reading. -/
def placeOrder (broker : PaperBroker) (uuid : String) (placedAt : ℤ) (request : OrderRequest) :
    Session OrderAck := do
  let db ← read
  match db.instrument request.instrumentId with
  | none => raise (.unknownInstrument request.instrumentId)
  | some instrument => do
      let id ← openOrder uuid request
      let _ ← broker.tryFill id instrument placedAt
      pure ⟨request.clientOrderId, "PAPER-" ++ uuid⟩

/-- `cancel_order`. -/
def cancelOrder (clientOrderId : String) : Session Unit := do
  let db ← read
  match db.orderByClientId clientOrderId with
  | none => raise (.unknownOrder clientOrderId)
  | some id =>
      match db.orders.get? id with
      | none => raise (.assertionError "order row exists")
      | some order =>
          if order.state = .opened ∨ order.state = .partiallyFilled then
            transition id .cancelled
          else pure ()

/-- The positions of `get_funds` at the last quotes, or at their average price
when the quote is missing or zero. -/
def markToMarket (broker : PaperBroker) (db : DB) : List (ℕ × Position) → ℚ → Except PyError ℚ
  | [], equity => .ok equity
  | (instrumentId, position) :: rest, equity =>
      match db.instrument instrumentId with
      | none => .error (.assertionError "position references a deleted instrument")
      | some instrument =>
          let ltp := match broker.quotes.getLtp instrument with
            | none => position.avgPrice
            | some ltp => if ltp = 0 then position.avgPrice else ltp
          broker.markToMarket db rest (equity + position.qty * ltp)

/-- `get_funds`. -/
def getFunds (broker : PaperBroker) : Session Funds := do
  let db ← read
  let equity ← ofExcept (broker.markToMarket db (db.listOpenPositions .paper) db.cash)
  pure ⟨db.cash, equity⟩

/-- One turn of `check_resting_orders`; `clock` reads the time for each order. -/
def retryResting (broker : PaperBroker) (clock : ℕ → ℤ) (id : ℕ) :
    Session (Option OrderUpdate) := do
  let db ← read
  match (db.orders.get? id).bind fun order => db.instrument order.instrumentId with
  | none => raise (.assertionError "order references a deleted instrument")
  | some instrument => broker.tryFill id instrument (clock id)

/-- `check_resting_orders`. -/
def checkRestingOrders (broker : PaperBroker) (clock : ℕ → ℤ) : Session (List OrderUpdate) := do
  let db ← read
  collect (broker.retryResting clock) (db.listOpenOrders .paper)

/-! ## What the calls do -/

variable {broker : PaperBroker} {db db' : DB} {id : ℕ} {order : Order} {instrument : Instrument}
  {world world' : Unit}

theorem clampToCash_le {cash fillPrice : ℚ} {qty clamped : ℕ}
    (ok : broker.clampToCash cash fillPrice qty = .ok clamped) : clamped ≤ qty := by
  induction qty with
  | zero =>
      simp only [clampToCash, Except.ok.injEq] at ok
      omega
  | succ qty ih =>
      rw [clampToCash] at ok
      split at ok
      · cases ok
      · split_ifs at ok
        · simp only [Except.ok.injEq] at ok
          omega
        · have := ih ok
          omega

theorem affordable_le {cash fillPrice : ℚ} {qty : ℕ}
    (ok : broker.affordable order cash fillPrice = .ok qty) : qty ≤ order.remaining := by
  unfold affordable at ok
  cases side : order.side with
  | buy =>
      simp only [side] at ok
      exact clampToCash_le ok
  | sell =>
      simp only [side, Except.ok.injEq] at ok
      exact ok.ge

/-- A decided fill trades something, and at most what remains. -/
theorem decideFill_fill {cash : ℚ} {qty : ℕ} {price : ℚ}
    (decided : broker.decideFill order instrument cash = .ok (.fill qty price)) :
    0 < qty ∧ qty ≤ order.remaining := by
  unfold decideFill at decided
  split_ifs at decided with full
  · cases decided
  split at decided
  · cases decided
  split at decided
  · cases decided
  · cases decided
  simp only at decided
  split at decided
  · cases decided
  · cases decided
  · rename_i qty' notZero within
    simp only [Except.ok.injEq, FillDecision.fill.injEq] at decided
    rcases decided with ⟨rfl, _⟩
    exact ⟨Nat.pos_of_ne_zero notZero, affordable_le within⟩

/-- Exactly what an executed fill does. -/
theorem yields_executeFill {qty : ℕ} {fillPrice : ℚ} {time : ℤ} {update : OrderUpdate}
    (found : db.orders.get? id = some order)
    (yields : (broker.executeFill id order qty fillPrice time).Yields db world update db' world') :
    ∃ costs, ∃ within : order.filledQty + qty ≤ order.qty,
      0 < qty ∧
      calculateCosts order.side fillPrice qty broker.segment broker.costRates = .ok costs ∧
      (if order.qty ≤ order.filledQty + qty then OrderState.filled else .partiallyFilled) ∈
        allowedOrderTransitions order.state ∧
      db' = ((((db.bookFill .paper id order qty fillPrice costs time).setCash
          (cashAfter order.side db.cash costs.netAmount)).updateOrder id fun _ =>
            order.withFilled (order.filledQty + qty) within).moveOrder id order.state
          (if order.qty ≤ order.filledQty + qty then .filled else .partiallyFilled)
          (.fill qty fillPrice)) := by
  simp only [executeFill, yields_bind, yields_ofExcept, yields_modify, yields_setFilledQty,
    yields_transition, yields_pure] at yields
  rcases yields with ⟨costs, _, _, ⟨costsEq, rfl, _⟩, _, _, _, ⟨rfl, _⟩, _, _, _,
    ⟨row, within, rowFound, rfl⟩, _, _, _, ⟨moved, movedFound, allowed, rfl⟩, _, rfl, _⟩
  have rowEq : row = order := by
    have sameRow : some row = some order := rowFound.symm.trans found
    simpa using sameRow
  subst row
  have movedEq : moved = order.withFilled (order.filledQty + qty) within := by
    simpa [DB.updateOrder, DB.setCash, DB.bookFill, DB.setPosition, found, eq_comm] using movedFound
  subst moved
  exact ⟨costs, within, (calculateCosts_eq_ok.mp costsEq).2.1, costsEq, allowed, rfl⟩

/-- What an attempt to fill can do: nothing, cancel, or execute the decided fill. -/
theorem yields_tryFill {time : ℤ} {update : Option OrderUpdate}
    (yields : (broker.tryFill id instrument time).Yields db world update db' world') :
    ∃ order, db.orders.get? id = some order ∧
      ((broker.decideFill order instrument db.cash = .ok .rest ∧ db' = db) ∨
        (broker.decideFill order instrument db.cash = .ok .cancel ∧
          .cancelled ∈ allowedOrderTransitions order.state ∧
          db' = db.moveOrder id order.state .cancelled (.reason "insufficient cash")) ∨
        ∃ qty price result, broker.decideFill order instrument db.cash = .ok (.fill qty price) ∧
          (broker.executeFill id order qty price (time + broker.latencyMs)).Yields db () result
            db' ()) := by
  simp only [tryFill, yields_bind, yields_read] at yields
  rcases yields with ⟨_, _, _, ⟨rfl, rfl, _⟩, yields⟩
  split at yields
  · simp at yields
  · rename_i order found
    refine ⟨order, found, ?_⟩
    simp only [yields_bind, yields_ofExcept] at yields
    rcases yields with ⟨decision, _, _, ⟨decided, rfl, _⟩, yields⟩
    cases decision with
    | rest =>
        simp only [yields_pure] at yields
        exact .inl ⟨decided, yields.2.1⟩
    | cancel =>
        simp only [yields_bind, yields_transition, yields_pure] at yields
        rcases yields with ⟨_, _, _, ⟨row, rowFound, allowed, rfl⟩, _, rfl, _⟩
        rw [found, Option.some.injEq] at rowFound
        subst row
        exact .inr (.inl ⟨decided, allowed, rfl⟩)
    | fill qty price =>
        simp only [yields_bind, yields_pure] at yields
        rcases yields with ⟨result, _, _, executed, _, rfl, _⟩
        exact .inr (.inr ⟨qty, price, result, decided, executed⟩)

/-- Only an open order has a transition to a trading outcome. -/
theorem isOpen_of_allowed {source target : OrderState}
    (allowed : target ∈ allowedOrderTransitions source)
    (outcome : target = .filled ∨ target = .partiallyFilled ∨ target = .cancelled) :
    source.isOpen = true := by
  rcases outcome with rfl | rfl | rfl <;> cases source <;>
    first | rfl | simp [allowedOrderTransitions] at allowed

theorem trading_executeFill {qty : ℕ} {fillPrice : ℚ} {time : ℤ} {update : OrderUpdate}
    (found : db.orders.get? id = some order) (paper : order.mode = .paper)
    (yields : (broker.executeFill id order qty fillPrice time).Yields db world update db' world') :
    Trading .paper db db' := by
  rcases yields_executeFill found yields with ⟨costs, within, positive, _, allowed, rfl⟩
  have isOpen : order.state.isOpen = true := by
    refine isOpen_of_allowed allowed ?_
    split_ifs <;> simp
  have working : order.isWorking .paper = true := by
    simp [Order.isWorking, isOpen, paper]
  have booked := Trading.fill found working positive within fillPrice costs time
  have paid : Trading .paper _ (((db.bookFill .paper id order qty fillPrice costs time).setCash
      (cashAfter order.side db.cash costs.netAmount)).updateOrder id fun _ =>
        order.withFilled (order.filledQty + qty) within) :=
    booked.trans (.of_same rfl rfl rfl rfl rfl)
  have counted : (((db.bookFill .paper id order qty fillPrice costs time).setCash
      (cashAfter order.side db.cash costs.netAmount)).updateOrder id fun _ =>
        order.withFilled (order.filledQty + qty) within).orders.get? id =
      some (order.withFilled (order.filledQty + qty) within) := by
    simp [DB.updateOrder, DB.setCash, DB.bookFill, DB.setPosition, found]
  exact paid.trans (Trading.move counted working (ne_pendingRisk_of_mem allowed) _)

theorem trading_tryFill {time : ℤ} {update : Option OrderUpdate}
    (paper : ∀ order, db.orders.get? id = some order → order.mode = .paper)
    (yields : (broker.tryFill id instrument time).Yields db world update db' world') :
    Trading .paper db db' := by
  rcases yields_tryFill yields with ⟨order, found, ⟨_, rfl⟩ | ⟨_, allowed, rfl⟩ |
    ⟨qty, price, result, _, executed⟩⟩
  · exact .refl _ _
  · refine .move found ?_ (by decide) _
    simp [Order.isWorking, isOpen_of_allowed allowed, paper order found]
  · exact trading_executeFill found (paper order found) executed

theorem others_tryFill {time : ℤ} {update : Option OrderUpdate} {other : ℕ} (ne : other ≠ id)
    (yields : (broker.tryFill id instrument time).Yields db world update db' world') :
    db'.orders.get? other = db.orders.get? other := by
  rcases yields_tryFill yields with ⟨order, found, ⟨_, rfl⟩ | ⟨_, _, rfl⟩ |
    ⟨qty, price, _, _, executed⟩⟩
  · rfl
  · exact RowTable.get?_update_of_ne ne
  · rcases yields_executeFill found executed with ⟨_, _, _, _, _, rfl⟩
    simp only [DB.moveOrder, DB.updateOrder, RowTable.get?_update_of_ne ne]
    rfl

theorem yields_retryResting {clock : ℕ → ℤ} {update : Option OrderUpdate}
    (yields : (broker.retryResting clock id).Yields db world update db' world') :
    ∃ order instrument, db.orders.get? id = some order ∧
      db.instrument order.instrumentId = some instrument ∧
      (broker.tryFill id instrument (clock id)).Yields db () update db' () := by
  simp only [retryResting, yields_bind, yields_read] at yields
  rcases yields with ⟨_, _, _, ⟨rfl, rfl, _⟩, yields⟩
  split at yields
  · simp at yields
  · rename_i instrument instrumentFound
    rcases Option.bind_eq_some_iff.mp instrumentFound with ⟨order, found, known⟩
    exact ⟨order, instrument, found, known, yields⟩

theorem trading_collect {clock : ℕ → ℤ} {ids : List ℕ} {updates : List OrderUpdate}
    (paper : ∀ id ∈ ids, ∀ order, db.orders.get? id = some order → order.mode = .paper)
    (yields : (collect (broker.retryResting clock) ids).Yields db world updates db' world') :
    Trading .paper db db' := by
  refine (collect_invariant (motive := fun rest later _ => Trading .paper db later ∧
    ∀ id ∈ rest, id ∈ ids) ?_ ⟨.refl _ _, fun _ mem => mem⟩ yields).1
  rintro id rest later _ update later' _ _ ⟨soFar, within⟩ retried
  rcases yields_retryResting retried with ⟨order, instrument, found, _, tried⟩
  refine ⟨soFar.trans (trading_tryFill (fun row rowFound => ?_) tried),
    fun other mem => within other (List.mem_cons_of_mem _ mem)⟩
  rcases soFar.exists_before rowFound with ⟨before, foundBefore, termsEq⟩
  have modeEq : row.mode = before.mode := congrArg OrderTerms.mode termsEq
  rw [modeEq]
  exact paper id (within id List.mem_cons_self) before foundBefore

/-- `check_resting_orders` reaches an order with this store. -/
def Retries (broker : PaperBroker) (clock : ℕ → ℤ) (db : DB) (id : ℕ) (middle : DB) : Prop :=
  Visits (broker.retryResting clock) (db.listOpenOrders .paper) db () id middle ()

theorem paper_of_mem_listOpenOrders (mem : id ∈ db.listOpenOrders .paper)
    (found : db.orders.get? id = some order) : order.mode = .paper := by
  rcases DB.mem_listOpenOrders.mp mem with ⟨row, rowFound, working⟩
  rw [found, Option.some.injEq] at rowFound
  subst row
  simp only [Order.isWorking, Bool.and_eq_true, decide_eq_true_eq] at working
  exact working.2

theorem Retries.mem {clock : ℕ → ℤ} {middle : DB} (retries : broker.Retries clock db id middle) :
    id ∈ db.listOpenOrders .paper := by
  rcases retries with ⟨earlier, later, _, split, _⟩
  exact split ▸ List.mem_append_right _ List.mem_cons_self

/-- A pass reaches an order with the row it started from. -/
theorem Retries.untouched {clock : ℕ → ℤ} {middle : DB}
    (retries : broker.Retries clock db id middle) :
    middle.orders.get? id = db.orders.get? id := by
  rcases retries with ⟨earlier, later, results, split, ran⟩
  have distinct : id ∉ earlier := by
    intro mem
    have nodup : (earlier ++ id :: later).Nodup := by
      rw [← split]
      exact RowTable.nodup_select _ _
    exact List.disjoint_of_nodup_append nodup mem List.mem_cons_self
  refine (collect_invariant (motive := fun rest reached _ => (∀ other ∈ rest, other ∈ earlier) ∧
    reached.orders.get? id = db.orders.get? id) ?_ ⟨fun _ mem => mem, rfl⟩ ran).2
  rintro other rest reached _ update next _ _ ⟨within, same⟩ retried
  rcases yields_retryResting retried with ⟨_, instrument, _, _, tried⟩
  have ne : id ≠ other := fun same => distinct (same ▸ within other List.mem_cons_self)
  exact ⟨fun other mem => within other (List.mem_cons_of_mem _ mem),
    (others_tryFill ne tried).trans same⟩

/-- When a pass reaches an order only trading has happened and the order still waits. -/
theorem Retries.trading {clock : ℕ → ℤ} {middle : DB} (retries : broker.Retries clock db id middle) :
    Trading .paper db middle ∧
      ∃ order, middle.orders.get? id = some order ∧ order.isWorking .paper = true := by
  constructor
  · rcases retries with ⟨earlier, later, results, split, ran⟩
    refine trading_collect (fun other mem order found => paper_of_mem_listOpenOrders ?_ found) ran
    rw [split]
    exact List.mem_append_left _ mem
  · rw [retries.untouched]
    exact DB.mem_listOpenOrders.mp retries.mem

theorem trading_checkRestingOrders {clock : ℕ → ℤ} {updates : List OrderUpdate}
    (yields : (broker.checkRestingOrders clock).Yields db world updates db' world') :
    Trading .paper db db' := by
  simp only [checkRestingOrders, yields_bind, yields_read] at yields
  rcases yields with ⟨_, _, _, ⟨rfl, rfl, _⟩, yields⟩
  exact trading_collect (fun _ mem _ found => paper_of_mem_listOpenOrders mem found) yields

/-- The row that `place_order` leaves to the matching. -/
def openedRow (uuid : String) (request : OrderRequest) : Order :=
  { request.row (some ("PAPER-" ++ uuid)) .paper with state := .opened }

theorem yields_openOrder {uuid : String} {request : OrderRequest}
    (yields : (openOrder uuid request).Yields db world id db' world') :
    request.qty ≠ 0 ∧ db.usesClientId request.clientOrderId = false ∧
      id = db.orders.nextId ∧ Opening db db' (openedRow uuid request) := by
  simp only [openOrder, yields_bind, yields_recordCreated, yields_transition, yields_pure] at yields
  rcases yields with ⟨_, _, _, ⟨positive, unused, rfl, rfl⟩, _, _, _, ⟨_, _, _, rfl⟩, _, _, _,
    ⟨_, _, _, rfl⟩, _, _, _, ⟨_, _, _, rfl⟩, rfl, rfl, _⟩
  exact ⟨positive, unused, rfl, (((Opening.create _ _).move _ .submitting _).move _ .submitted _).move
    _ .opened _⟩

theorem yields_placeOrder_parts {uuid : String} {placedAt : ℤ} {request : OrderRequest}
    {ack : OrderAck}
    (yields : (broker.placeOrder uuid placedAt request).Yields db world ack db' world') :
    ∃ instrument update middle, db.instrument request.instrumentId = some instrument ∧
      ack.clientOrderId = request.clientOrderId ∧
      (openOrder uuid request).Yields db world db.orders.nextId middle () ∧
      (broker.tryFill db.orders.nextId instrument placedAt).Yields middle () update db' () := by
  simp only [placeOrder, yields_bind, yields_read] at yields
  rcases yields with ⟨_, _, _, ⟨rfl, rfl, _⟩, yields⟩
  split at yields
  · simp at yields
  · rename_i instrument known
    simp only [yields_bind, yields_pure] at yields
    rcases yields with ⟨_, middle, _, opened, update, _, _, tried, rfl, rfl, _⟩
    rcases yields_openOrder opened with ⟨_, _, rfl, _⟩
    exact ⟨instrument, update, middle, known, rfl, opened, tried⟩

/-- What `place_order` does: the birth of the order, then one attempt to fill it. -/
theorem yields_placeOrder {uuid : String} {placedAt : ℤ} {request : OrderRequest} {ack : OrderAck}
    (yields : (broker.placeOrder uuid placedAt request).Yields db world ack db' world') :
    ∃ instrument update middle, db.instrument request.instrumentId = some instrument ∧
      request.qty ≠ 0 ∧ db.usesClientId request.clientOrderId = false ∧
      ack.clientOrderId = request.clientOrderId ∧
      Opening db middle (openedRow uuid request) ∧
      (broker.tryFill db.orders.nextId instrument placedAt).Yields middle () update db' () := by
  rcases yields_placeOrder_parts yields with
    ⟨instrument, update, middle, known, acknowledged, opened, tried⟩
  rcases yields_openOrder opened with ⟨positive, unused, _, opening⟩
  exact ⟨instrument, update, middle, known, positive, unused, acknowledged, opening, tried⟩

theorem isWorking_openedRow (uuid : String) (request : OrderRequest) :
    (openedRow uuid request).isWorking .paper = true := rfl

theorem trading_placeOrder {uuid : String} {request : OrderRequest} {time : ℤ}
    {update : Option OrderUpdate} {middle : DB}
    (opening : Opening db middle (openedRow uuid request))
    (tried : (broker.tryFill db.orders.nextId instrument time).Yields middle world update db'
      world') : Trading .paper middle db' := by
  refine trading_tryFill (fun order found => ?_) tried
  rw [opening.get?_new, Option.some.injEq] at found
  exact found ▸ rfl

end PaperBroker

end PersonalTrade
