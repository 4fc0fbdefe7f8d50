import PersonalTrade.Execution.Fills

/-!
# An exchange that keeps its books

The servers at their best: an account whose orders fill and end at any moment, and
which answers every request with what it holds at that moment, or with a failure. The
only nondeterminism is when the fills and the failures fall, and a `Market` fixes it
for each request to come. What a caller then needs is `sendRequest_honest` (an answer
is true of the account it leaves) and the two facts about `Account.move`: fills only
grow, and the fills of a terminal order stay.
-/

namespace PersonalTrade

open Transaction

/-- The status text means the end of an order. -/
def isTerminalStatus (status : String) : Bool :=
  (terminalStatus (String.ofList (status.toList.map lowerChar))).isSome

/-- A report leaves an order open exactly when its status is not terminal. -/
theorem isOpen_mapStatus (status : String) (filledQty qty : ℤ) :
    (mapStatus status filledQty qty).isOpen = !isTerminalStatus status := by
  simp only [mapStatus, isTerminalStatus, terminalStatus]
  split_ifs <;> rfl

/-- An order as the exchange keeps it. -/
structure ExchangeOrder where
  instrumentKey : String
  side : Side
  qty : ℕ
  filled : ℕ
  averagePrice : ℚ
  status : String
  filled_le : filled ≤ qty
  /-- What is filled has a price. -/
  priced : 0 < filled → 0 < averagePrice

namespace ExchangeOrder

/-- The order is over at the exchange. -/
def isTerminal (order : ExchangeOrder) : Bool := isTerminalStatus order.status

/-- An order without fills. -/
def unfilled (instrumentKey : String) (side : Side) (qty : ℕ) (status : String) :
    ExchangeOrder where
  instrumentKey := instrumentKey
  side := side
  qty := qty
  filled := 0
  averagePrice := 0
  status := status
  filled_le := Nat.zero_le _
  priced filled := absurd filled (lt_irrefl 0)

/-- What the exchange answers about an order. -/
def report (order : ExchangeOrder) : OrderReport :=
  ⟨some order.qty, some order.filled, some order.status, some order.averagePrice⟩

/-- The order with more shares filled. -/
def fill (order : ExchangeOrder) (qty : ℕ) (averagePrice : ℚ)
    (fits : order.filled + qty ≤ order.qty) (positive : 0 < averagePrice) : ExchangeOrder :=
  { order with
    filled := order.filled + qty
    averagePrice
    filled_le := fits
    priced := fun _ => positive }

@[simp]
theorem report_filled (order : ExchangeOrder) : order.report.filled = order.filled := rfl

theorem report_fillPrice (order : ExchangeOrder) (filled : 0 < order.filled) :
    order.report.fillPrice.isSome := by
  simp [OrderReport.fillPrice, report, (order.priced filled).ne']

/-- A report closes a row exactly when the order is terminal. -/
theorem isOpen_stateFor (exchangeOrder : ExchangeOrder) (order : Order) :
    (exchangeOrder.report.stateFor order).isOpen = !exchangeOrder.isTerminal :=
  isOpen_mapStatus _ _ _

end ExchangeOrder

/-- An account: its orders by their identifier, its net quantities by instrument key. -/
structure Account where
  orders : AList fun _ : String => ExchangeOrder := ∅
  positions : AList fun _ : String => ℤ := ∅

/-- What happens to an account from outside. -/
inductive BrokerMove where
  | fill (orderId : String) (qty : ℕ) (averagePrice : ℚ)
  | status (orderId : String) (status : String)
deriving DecidableEq, Repr

namespace Account

/-- The net quantity of an instrument. -/
def netQty (account : Account) (instrumentKey : String) : ℤ :=
  (account.positions.lookup instrumentKey).getD 0

/-- What is filled of an order; nothing of an order without an identifier. -/
def filledOf (account : Account) (orderId : Option String) : ℕ :=
  ((orderId.bind account.orders.lookup).map ExchangeOrder.filled).getD 0

/-- No order under this identifier can still fill. -/
def IsOver (account : Account) (orderId : Option String) : Prop :=
  ∀ order, orderId.bind account.orders.lookup = some order → order.isTerminal = true

/-- One move; only an order that is not over can fill, within its quantity, or change its
status. -/
def move (account : Account) : BrokerMove → Account
  | .fill orderId qty averagePrice =>
      match account.orders.lookup orderId with
      | none => account
      | some order =>
          if possible : order.isTerminal = false ∧ order.filled + qty ≤ order.qty ∧
              0 < averagePrice then
            { orders := account.orders.insert orderId
                (order.fill qty averagePrice possible.2.1 possible.2.2)
              positions := account.positions.insert order.instrumentKey
                (account.netQty order.instrumentKey + order.side.sign * qty) }
          else account
  | .status orderId status =>
      match account.orders.lookup orderId with
      | none => account
      | some order =>
          if order.isTerminal then account
          else { account with orders := account.orders.insert orderId { order with status } }

/-- All that a move can do: one order that is not over gets `qty` more shares, with the net
quantity of its instrument. -/
structure Advances (account account' : Account) (orderId : String)
    (order order' : ExchangeOrder) (qty : ℕ) : Prop where
  found : account.orders.lookup orderId = some order
  alive : order.isTerminal = false
  orders : account'.orders = account.orders.insert orderId order'
  instrumentKey : order'.instrumentKey = order.instrumentKey
  side : order'.side = order.side
  filled : order'.filled = order.filled + qty
  net : ∀ instrumentKey, account'.netQty instrumentKey = account.netQty instrumentKey +
    if instrumentKey = order.instrumentKey then order.side.sign * qty else 0

variable {account account' : Account} {orderId : String} {order order' : ExchangeOrder} {qty : ℕ}

theorem move_cases (account : Account) (brokerMove : BrokerMove) :
    account.move brokerMove = account ∨
      ∃ orderId order order' qty,
        Advances account (account.move brokerMove) orderId order order' qty := by
  cases brokerMove with
  | fill orderId qty averagePrice =>
      simp only [move]
      split
      · exact .inl rfl
      · rename_i order found
        split_ifs with possible
        · refine .inr ⟨orderId, order, _, qty, found, possible.1, rfl, rfl, rfl, rfl,
            fun instrumentKey => ?_⟩
          by_cases same : instrumentKey = order.instrumentKey
          · subst same
            simp [netQty]
          · simp [netQty, AList.lookup_insert_ne same, same]
        · exact .inl rfl
  | status orderId status =>
      simp only [move]
      split
      · exact .inl rfl
      · rename_i order found
        split_ifs with ended
        · exact .inl rfl
        · refine .inr ⟨orderId, order, _, 0, found, by simpa using ended, rfl, rfl, rfl, rfl,
            fun instrumentKey => ?_⟩
          simp [netQty]

namespace Advances

theorem lookup_self (advances : Advances account account' orderId order order' qty) :
    account'.orders.lookup orderId = some order' := by
  rw [advances.orders, AList.lookup_insert]

theorem lookup_of_ne (advances : Advances account account' orderId order order' qty)
    {other : String} (ne : other ≠ orderId) :
    account'.orders.lookup other = account.orders.lookup other := by
  rw [advances.orders, AList.lookup_insert_ne ne]

theorem filledOf_self (advances : Advances account account' orderId order order' qty) :
    account'.filledOf (some orderId) = account.filledOf (some orderId) + qty := by
  simp [filledOf, advances.lookup_self, advances.found, advances.filled]

theorem filledOf_of_ne (advances : Advances account account' orderId order order' qty)
    {other : Option String} (ne : other ≠ some orderId) :
    account'.filledOf other = account.filledOf other := by
  cases other with
  | none => rfl
  | some other => simp [filledOf, advances.lookup_of_ne fun same => ne (congrArg some same)]

end Advances

theorem filledOf_le_move (account : Account) (brokerMove : BrokerMove) (orderId : Option String) :
    account.filledOf orderId ≤ (account.move brokerMove).filledOf orderId := by
  rcases account.move_cases brokerMove with same | ⟨moved, order, order', qty, advances⟩
  · rw [same]
  · by_cases self : orderId = some moved
    · rw [self, advances.filledOf_self]
      exact Nat.le_add_right _ _
    · rw [advances.filledOf_of_ne self]

/-- A move leaves an order that is over as it is. -/
theorem lookup_move_of_isOver {orderId : Option String} (isOver : account.IsOver orderId)
    (brokerMove : BrokerMove) :
    orderId.bind (account.move brokerMove).orders.lookup =
      orderId.bind account.orders.lookup := by
  rcases account.move_cases brokerMove with same | ⟨moved, order, order', qty, advances⟩
  · rw [same]
  · cases orderId with
    | none => rfl
    | some orderId =>
        refine advances.lookup_of_ne fun self => ?_
        subst moved
        have ended := isOver order advances.found
        rw [advances.alive] at ended
        cases ended

/-- The account after some moves. -/
def moves (account : Account) (brokerMoves : List BrokerMove) : Account :=
  brokerMoves.foldl move account

/-- What every move preserves is preserved by any number of them. -/
theorem moves_invariant {motive : Account → Prop}
    (preserved : ∀ account brokerMove, motive account → motive (account.move brokerMove))
    (initial : motive account) (brokerMoves : List BrokerMove) :
    motive (account.moves brokerMoves) := by
  induction brokerMoves generalizing account with
  | nil => exact initial
  | cons brokerMove rest ih => exact ih (preserved _ _ initial)

theorem filledOf_le_moves (account : Account) (brokerMoves : List BrokerMove)
    (orderId : Option String) : account.filledOf orderId ≤
      (account.moves brokerMoves).filledOf orderId :=
  moves_invariant (motive := fun later => account.filledOf orderId ≤ later.filledOf orderId)
    (fun later brokerMove soFar => soFar.trans (later.filledOf_le_move brokerMove orderId)) le_rfl
    brokerMoves

theorem lookup_moves_of_isOver {orderId : Option String} (isOver : account.IsOver orderId)
    (brokerMoves : List BrokerMove) :
    orderId.bind (account.moves brokerMoves).orders.lookup =
      orderId.bind account.orders.lookup := by
  refine moves_invariant (motive := fun later =>
    orderId.bind later.orders.lookup = orderId.bind account.orders.lookup) ?_ rfl brokerMoves
  intro later brokerMove same
  have laterOver : later.IsOver orderId := fun order found => isOver order (same ▸ found)
  rw [lookup_move_of_isOver laterOver, same]

end Account

/-! ## Requests to the exchange -/

/-- A failed request. -/
inductive Failure where
  | invalidJson (message : String)
  | status (code : ℕ) (text : String)
  | transportError (message : String)
deriving DecidableEq, Repr

/-- The answer of a failed request. -/
def Failure.answer : Failure → HttpAnswer
  | invalidJson message => .invalidJson message
  | status code text => .status code text
  | transportError message => .transportError message

/-- What happens around one request: moves of the account before its answer, and whether
the answer fails. -/
structure Turn where
  moves : List BrokerMove := []
  failure : Option Failure := none

/-- The turns of the requests to come, and the prices in the position rows. -/
structure Market where
  turn : ℕ → Turn
  rowPrice : ℕ → String → ℚ

/-- The exchange: the account and the number of requests so far. -/
structure Exchange where
  account : Account
  requests : ℕ := 0

/-- The rows of the positions body, one for each instrument. -/
def Account.positionRows (account : Account) (price : String → ℚ) : List PositionRow :=
  account.positions.entries.map fun entry =>
    ⟨some entry.1, some entry.2, some (price entry.1), some (price entry.1)⟩

/-- The answer of an account to a read request. -/
def Account.answer (account : Account) (price : String → ℚ) : HttpRequest → HttpAnswer
  | .getOrderDetails orderId =>
      match account.orders.lookup orderId with
      | some order => .ok (.orderDetails order.report)
      | none => .status 404 "order not found"
  | .getPositions => .ok (.positions (account.positionRows price))
  | .getFunds => .ok (.funds none)
  | .placeOrder _ | .cancelOrder _ => .status 403 "read only"

/-- A report is of the order as the account has it. -/
theorem Account.report_of_answer {account : Account} {price : String → ℚ} {orderId : String}
    {payload : Payload} {report : OrderReport}
    (answered : account.answer price (.getOrderDetails orderId) = .ok payload)
    (reported : payload.report = .ok report) :
    ∃ order, account.orders.lookup orderId = some order ∧ report = order.report := by
  simp only [answer] at answered
  split at answered
  · rename_i order found
    rw [← HttpAnswer.ok.inj answered] at reported
    exact ⟨order, found, (Except.ok.inj reported).symm⟩
  · cases answered

/-- The servers of a market. -/
def Market.transport (market : Market) : Transport Exchange := fun call exchange =>
  let turn := market.turn exchange.requests
  let account := exchange.account.moves turn.moves
  let answer :=
    match turn.failure with
    | some failure => failure.answer
    | none => account.answer (market.rowPrice exchange.requests) call
  (answer, ⟨account, exchange.requests + 1⟩)

/-- The account has only moved. -/
def Exchange.Later (exchange exchange' : Exchange) : Prop :=
  ∃ brokerMoves, exchange'.account = exchange.account.moves brokerMoves

namespace Exchange

theorem Later.refl (exchange : Exchange) : exchange.Later exchange := ⟨[], rfl⟩

theorem Later.trans {exchange exchange' exchange'' : Exchange} (first : exchange.Later exchange')
    (second : exchange'.Later exchange'') : exchange.Later exchange'' := by
  rcases first with ⟨earlier, firstEq⟩
  rcases second with ⟨later, secondEq⟩
  exact ⟨earlier ++ later, by rw [secondEq, firstEq, Account.moves, Account.moves, Account.moves,
    List.foldl_append]⟩

instance : IsPreorder Exchange Later where
  refl := Later.refl
  trans _ _ _ := Later.trans

end Exchange

namespace Market

variable {market : Market} {maxRetries : ℕ} {call : HttpRequest} {exchange exchange' : Exchange}

theorem later_transport (market : Market) (call : HttpRequest) (exchange : Exchange) :
    exchange.Later (market.transport call exchange).2 := ⟨_, rfl⟩

/-- A body comes from the account as the answer leaves it. -/
theorem transport_honest {payload : Payload}
    (answered : market.transport call exchange = (.ok payload, exchange')) :
    ∃ price, exchange'.account.answer price call = .ok payload := by
  simp only [transport, Prod.mk.injEq] at answered
  rcases answered with ⟨answered, rfl⟩
  split at answered
  · rename_i failure _
    cases failure <;> cases answered
  · exact ⟨_, answered⟩

theorem later_sendRequest (market : Market) (maxRetries : ℕ) (call : HttpRequest)
    (exchange : Exchange) :
    exchange.Later (sendRequest market.transport maxRetries call exchange).2 :=
  sendRequest_moves (fun exchange => later_transport market call exchange) _ _

/-- However often a request was repeated, the body it returns comes from the account as the
request leaves it. -/
theorem sendRequest_honest {payload : Payload}
    (sent : sendRequest market.transport maxRetries call exchange = (.ok payload, exchange')) :
    ∃ price, exchange'.account.answer price call = .ok payload := by
  rcases sendRequest_answered sent with ⟨_, last⟩
  exact transport_honest last

theorem report_honest {orderId : String} {payload : Payload} {report : OrderReport}
    (sent : sendRequest market.transport maxRetries (.getOrderDetails orderId) exchange =
      (.ok payload, exchange')) (reported : payload.report = .ok report) :
    ∃ order, exchange'.account.orders.lookup orderId = some order ∧ report = order.report := by
  rcases sendRequest_honest sent with ⟨price, honest⟩
  exact Account.report_of_answer honest reported

theorem rows_honest {payload : Payload} {rows : List PositionRow}
    (sent : sendRequest market.transport maxRetries .getPositions exchange =
      (.ok payload, exchange')) (read : payload.rows = .ok rows) :
    ∃ price, rows = exchange'.account.positionRows price := by
  rcases sendRequest_honest sent with ⟨price, honest⟩
  rw [← HttpAnswer.ok.inj honest] at read
  exact ⟨price, (Except.ok.inj read).symm⟩

end Market

/-- A poll of an order leaves the account to its own moves. -/
theorem Market.later_pollOrder {broker : UpstoxBroker Exchange} {market : Market}
    (served : broker.transport = market.transport) (clock : ℕ → ℤ) (id : ℕ) :
    Moves Exchange.Later (broker.pollOrder clock id) :=
  UpstoxBroker.moves_pollOrder (served ▸ market.later_transport) clock id

end PersonalTrade
