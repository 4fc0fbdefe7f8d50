import PersonalTrade.Execution.Exchange
import PersonalTrade.Library.Run

/-!
# Cancelling at Upstox

Placing, cancelling and polling against a broker that takes orders, and whose account moves at
any moment. What the books say of an order trails the account: a closed row is of an order
that is over (`Trails`), but an order that works at the broker stays `SUBMITTED` on the books
until a poll reaches it. `cancel_order` sends nothing for such an order.
-/

namespace PersonalTrade

open Transaction

/-! ## A broker that takes orders -/

/-- An order taken by the broker: its identifier and its first status. -/
structure Admission where
  orderId : String
  status : String

/-- The requests to come: around each one a turn of the account, and the order that the
broker takes if it is a placement. -/
structure Venue where
  turn : ℕ → Turn
  admits : ℕ → Option Admission
  rowPrice : ℕ → String → ℚ

/-- The broker's side: the account and the requests received. -/
structure BrokerSide where
  account : Account := {}
  received : List HttpRequest := []

namespace Account

/-- The account with an order taken under a new identifier. -/
def accept (account : Account) (admission : Admission) (body : OrderBody) : Account :=
  { account with
    orders := account.orders.insert admission.orderId
      (.unfilled body.instrumentToken (if body.transactionType = "SELL" then .sell else .buy)
        body.quantity admission.status) }

/-- What the broker does on a request. A cancel is taken for a known order; when it ends the
order, if it does, is a later move. -/
def serve (account : Account) (admits : Option Admission) (price : String → ℚ) :
    HttpRequest → HttpAnswer × Account
  | .placeOrder body =>
      match admits with
      | none => (.status 400 "order refused", account)
      | some admission =>
          if (account.orders.lookup admission.orderId).isSome then
            (.status 400 "order refused", account)
          else (.ok (.orderPlaced admission.orderId), account.accept admission body)
  | .cancelOrder orderId =>
      if (account.orders.lookup orderId).isSome then (.ok (.orderPlaced orderId), account)
      else (.status 404 "order not found", account)
  | call => (account.answer price call, account)

/-- The order under this identifier is over at the broker. -/
def Ended (account : Account) (orderId : String) : Prop :=
  ∃ order, account.orders.lookup orderId = some order ∧ order.isTerminal = true

variable {account : Account} {orderId : String}

theorem Ended.moves (ended : account.Ended orderId) (brokerMoves : List BrokerMove) :
    (account.moves brokerMoves).Ended orderId := by
  rcases ended with ⟨order, found, terminal⟩
  have isOver : account.IsOver (some orderId) := by
    intro other otherFound
    rw [Option.bind_some, found, Option.some.injEq] at otherFound
    exact otherFound ▸ terminal
  have same := lookup_moves_of_isOver isOver brokerMoves
  rw [Option.bind_some, Option.bind_some, found] at same
  exact ⟨order, same, terminal⟩

theorem Ended.serve (ended : account.Ended orderId) (admits : Option Admission)
    (price : String → ℚ) (call : HttpRequest) :
    (account.serve admits price call).2.Ended orderId := by
  cases call with
  | placeOrder body =>
      simp only [Account.serve]
      split
      · exact ended
      · rename_i admission
        split_ifs with used
        · exact ended
        · rcases ended with ⟨order, found, terminal⟩
          have other : orderId ≠ admission.orderId := by
            rintro rfl
            simp [found] at used
          exact ⟨order, by simpa [accept, AList.lookup_insert_ne other] using found, terminal⟩
  | cancelOrder other =>
      simp only [Account.serve]
      split_ifs <;> exact ended
  | _ => exact ended

end Account

/-- The servers of a venue. -/
def Venue.transport (venue : Venue) : Transport BrokerSide := fun call side =>
  let n := side.received.length
  let served := (side.account.moves (venue.turn n).moves).serve (venue.admits n)
    (venue.rowPrice n) call
  let answer :=
    match (venue.turn n).failure with
    | some failure => failure.answer
    | none => served.1
  (answer, ⟨served.2, side.received ++ [call]⟩)

/-- What is over at the broker stays over. -/
def BrokerSide.Keeps (side side' : BrokerSide) : Prop :=
  ∀ orderId, side.account.Ended orderId → side'.account.Ended orderId

instance : IsPreorder BrokerSide BrokerSide.Keeps where
  refl _ _ ended := ended
  trans _ _ _ first second orderId ended := second orderId (first orderId ended)

namespace Venue

variable {venue : Venue} {maxRetries : ℕ} {call : HttpRequest} {side side' : BrokerSide}

theorem keeps_transport (venue : Venue) (call : HttpRequest) (side : BrokerSide) :
    side.Keeps (venue.transport call side).2 :=
  fun _ ended => (ended.moves _).serve _ _ _

/-- The report of an answered status request is true of the account that the request leaves. -/
theorem report_honest {orderId : String} {payload : Payload} {report : OrderReport}
    (sent : sendRequest venue.transport maxRetries (.getOrderDetails orderId) side =
      (.ok payload, side')) (reported : payload.report = .ok report) :
    ∃ order, side'.account.orders.lookup orderId = some order ∧ report = order.report := by
  rcases sendRequest_answered sent with ⟨middle, answered⟩
  simp only [transport, Account.serve, Prod.mk.injEq] at answered
  rcases answered with ⟨answered, rfl⟩
  split at answered
  · rename_i failure _
    cases failure <;> cases answered
  · exact Account.report_of_answer answered reported

theorem received_worldAfter (n : ℕ) :
    (Retry.worldAfter (attemptRequest venue.transport call) n side).received =
      side.received ++ List.replicate n call := by
  induction n with
  | zero => simp
  | succ n ih =>
      rw [Retry.worldAfter_succ, List.replicate_succ', ← List.append_assoc, ← ih]
      rfl

theorem count_lt_sendRequest (venue : Venue) (maxRetries : ℕ) (call : HttpRequest)
    (side : BrokerSide) :
    side.received.count call <
      (sendRequest venue.transport maxRetries call side).2.received.count call := by
  rcases Retry.retry_last (attemptRequest venue.transport call) pauseBefore maxRetries side with
    ⟨n, _, worldEq, _⟩
  rw [sendRequest, worldEq, received_worldAfter, List.count_append, List.count_replicate_self]
  omega

end Venue

/-! ## Runs -/

/-- One step: a call of the broker, in a unit of work of its own, or moves of the account. -/
inductive LiveStep where
  | place (request : OrderRequest)
  | cancel (clientOrderId : String)
  | brokerMoves (brokerMoves : List BrokerMove)
  | poll (clock : ℕ → ℤ)

namespace UpstoxBroker

/-- The books and the broker's side after a step. -/
def liveStep (broker : UpstoxBroker BrokerSide) (state : DB × BrokerSide) :
    LiveStep → DB × BrokerSide
  | .place request => ((broker.placeOrder request).commit state.1 state.2).2
  | .cancel clientOrderId => ((broker.cancelOrder clientOrderId).commit state.1 state.2).2
  | .brokerMoves brokerMoves =>
      (state.1, { state.2 with account := state.2.account.moves brokerMoves })
  | .poll clock => ((broker.pollAndApplyFills clock).commit state.1 state.2).2

end UpstoxBroker

/-- The client identifier is of a LIVE order that the broker acknowledged, and that is not over
there. -/
structure WorksAtBroker (db : DB) (account : Account) (clientOrderId : String) (order : Order)
    (brokerOrderId : String) : Prop where
  found : (db.orderByClientId clientOrderId).bind db.orders.get? = some order
  isLive : order.mode = .live
  acknowledged : order.brokerOrderId = some brokerOrderId
  working : ∃ exchangeOrder, account.orders.lookup brokerOrderId = some exchangeOrder ∧
    exchangeOrder.isTerminal = false

/-- A `cancel_order` that returns for an order that works at the broker has sent a request to
cancel it. -/
def CancelSent (broker : UpstoxBroker BrokerSide) (db : DB) (side : BrokerSide)
    (clientOrderId : String) : Prop :=
  ∀ order brokerOrderId db' side',
    WorksAtBroker db side.account clientOrderId order brokerOrderId →
      (broker.cancelOrder clientOrderId).Yields db side () db' side' →
        side.received.count (.cancelOrder brokerOrderId) <
          side'.received.count (.cancelOrder brokerOrderId)

/-- The order works at the broker, but no poll has reached it yet. -/
def Unpolled (db : DB) (account : Account) (clientOrderId : String) : Prop :=
  ∃ order brokerOrderId, WorksAtBroker db account clientOrderId order brokerOrderId ∧
    order.state = .submitted

/-- An acknowledged order is `SUBMITTED`, open on the books, or over at the broker. -/
def Trails (db : DB) (account : Account) : Prop :=
  ∀ id order brokerOrderId, db.orders.get? id = some order → order.mode = .live →
    order.brokerOrderId = some brokerOrderId →
      order.state = .submitted ∨ order.state = .opened ∨ order.state = .partiallyFilled ∨
        account.Ended brokerOrderId

namespace Trails

variable {db db' : DB} {side side' : BrokerSide}

theorem keeps (trails : Trails db side.account) (keeps : side.Keeps side') :
    Trails db side'.account := by
  intro id order brokerOrderId found isLive acknowledged
  rcases trails id order brokerOrderId found isLive acknowledged with
    submitted | opened | partly | ended
  · exact .inl submitted
  · exact .inr (.inl opened)
  · exact .inr (.inr (.inl partly))
  · exact .inr (.inr (.inr (keeps _ ended)))

/-- A new order trails as soon as it is `SUBMITTED`. -/
theorem opening {request : OrderRequest} {brokerOrderId : String}
    (trails : Trails db side.account)
    (opening : Opening db db' (UpstoxBroker.submittedRow request brokerOrderId)) :
    Trails db' side.account := by
  intro id order orderId found isLive acknowledged
  rw [opening.orders] at found
  split_ifs at found with new
  · rw [← Option.some.inj found]
    exact .inl rfl
  · exact trails id order orderId found isLive acknowledged

end Trails

/-- The report of an order leaves its row open, unless the order is over. -/
theorem stateFor_trails {account : Account} {brokerOrderId : String}
    {exchangeOrder : ExchangeOrder}
    (known : account.orders.lookup brokerOrderId = some exchangeOrder) (order : Order) :
    exchangeOrder.report.stateFor order = .opened ∨
      exchangeOrder.report.stateFor order = .partiallyFilled ∨ account.Ended brokerOrderId := by
  cases terminal : exchangeOrder.isTerminal with
  | true => exact .inr (.inr ⟨exchangeOrder, known, terminal⟩)
  | false =>
      simp only [ExchangeOrder.isTerminal, isTerminalStatus, Option.isSome_eq_false_iff,
        Option.isNone_iff_eq_none] at terminal
      have status : exchangeOrder.report.statusText = exchangeOrder.status := rfl
      simp only [OrderReport.stateFor, mapStatus, status, terminal]
      split_ifs
      · exact .inr (.inl rfl)
      · exact .inl rfl

namespace UpstoxBroker

variable {venue : Venue} {broker : UpstoxBroker BrokerSide} {db db' : DB}
  {side side' : BrokerSide}

/-- A poll of one order closes it on the books only when it is over at the broker. -/
theorem trails_pollOrder (served : broker.transport = venue.transport) {clock : ℕ → ℤ} {id : ℕ}
    {update : Option OrderUpdate} (trails : Trails db side.account)
    (yields : (broker.pollOrder clock id).Yields db side update db' side') :
    Trails db' side'.account := by
  have kept : side.Keeps side' :=
    (moves_pollOrder (served ▸ venue.keeps_transport) clock id).of_yields yields
  rcases yields_pollOrder yields with ⟨order, found, ⟨_, rfl, _⟩ |
    ⟨brokerOrderId, acknowledged, ⟨_, _, rfl⟩ | ⟨payload, report, sent, reported, applied⟩⟩⟩
  · exact trails.keeps kept
  · exact trails.keeps kept
  · rw [request, served] at sent
    rcases Venue.report_honest sent reported with ⟨exchangeOrder, known, rfl⟩
    rcases yields_applyOrderUpdate found applied with ⟨booked, applies⟩
    intro other row orderId rowFound isLive rowAcknowledged
    by_cases same : other = id
    · subst other
      rw [applies.row, Option.some.injEq] at rowFound
      subst row
      have sameId : orderId = brokerOrderId := by
        simpa using rowAcknowledged.symm.trans acknowledged
      subst sameId
      exact .inr (stateFor_trails known order)
    · rw [applies.others other same] at rowFound
      exact trails.keeps kept other row orderId rowFound isLive rowAcknowledged

theorem trails_pollAndApplyFills (served : broker.transport = venue.transport) {clock : ℕ → ℤ}
    {updates : List OrderUpdate} (trails : Trails db side.account)
    (yields : (broker.pollAndApplyFills clock).Yields db side updates db' side') :
    Trails db' side'.account :=
  pollAndApplyFills_invariant (motive := fun _ later laterSide => Trails later laterSide.account)
    (fun _ _ _ _ _ _ _ _ trails _ _ _ _ polled => trails_pollOrder served trails polled)
    trails yields

/-- A unit of work keeps what its body keeps: the broker's side keeps what is over, and the
books trail when the body returns. -/
theorem trails_commit {α : Type} {body : Transaction DB BrokerSide PyError α}
    (trails : Trails db side.account) (moves : Moves BrokerSide.Keeps body)
    (returns : ∀ value db' side', body.Yields db side value db' side' → Trails db' side'.account) :
    Trails (body.commit db side).2.1 (body.commit db side).2.2.account := by
  have kept := moves db side
  rcases yields_or_raises body db side with ⟨value, db', side', yields⟩ | ⟨_, side', raises⟩
  · rw [commit_of_yields yields]
    exact returns value db' side' yields
  · rw [raises] at kept
    rw [commit_of_raises raises]
    exact trails.keeps kept

theorem trails_liveStep (served : broker.transport = venue.transport) (state : DB × BrokerSide)
    (step : LiveStep) (trails : Trails state.1 state.2.account) :
    Trails (broker.liveStep state step).1 (broker.liveStep state step).2.account := by
  have moved : ∀ call side, BrokerSide.Keeps side (broker.transport call side).2 :=
    served ▸ venue.keeps_transport
  cases step with
  | place request =>
      refine trails_commit trails (moves_placeOrder moved request) fun ack db' side' yields => ?_
      have kept := (moves_placeOrder moved request).of_yields yields
      rcases yields_placeOrder yields with ⟨_, _, _, _, _, _, _, _, _, opening⟩
      exact (trails.keeps kept).opening opening
  | cancel clientOrderId =>
      refine trails_commit trails (moves_cancelOrder moved clientOrderId)
        fun _ db' side' yields => ?_
      have kept := (moves_cancelOrder moved clientOrderId).of_yields yields
      rw [(yields_cancelOrder.mp yields).1]
      exact trails.keeps kept
  | brokerMoves brokerMoves => exact trails.keeps fun _ ended => ended.moves brokerMoves
  | poll clock =>
      exact trails_commit trails (moves_pollAndApplyFills moved clock)
        fun _ _ _ yields => trails_pollAndApplyFills served trails yields

/-- Where the books trail, a cancel is sent exactly unless the order is still unpolled. -/
theorem cancelSent_iff (served : broker.transport = venue.transport)
    (trails : Trails db side.account) (clientOrderId : String) :
    CancelSent broker db side clientOrderId ↔ ¬ Unpolled db side.account clientOrderId := by
  constructor
  · rintro sent ⟨order, brokerOrderId, works, submitted⟩
    have dropped : (broker.cancelOrder clientOrderId).Yields db side () db side :=
      yields_cancelOrder.mpr ⟨rfl, order, brokerOrderId, works.found, works.acknowledged,
        by simp [submitted]⟩
    exact lt_irrefl _ (sent order brokerOrderId db side works dropped)
  · intro polled order brokerOrderId db' side' works yields
    rcases yields_cancelOrder.mp yields with ⟨_, row, rowId, rowFound, rowAcknowledged, done⟩
    rw [works.found, Option.some.injEq] at rowFound
    subst row
    rw [works.acknowledged, Option.some.injEq] at rowAcknowledged
    subst rowId
    have isOpen : order.state = .opened ∨ order.state = .partiallyFilled := by
      rcases Option.bind_eq_some_iff.mp works.found with ⟨id, _, found⟩
      rcases trails id order brokerOrderId found works.isLive works.acknowledged with
        submitted | opened | partly | ⟨ended, endedFound, terminal⟩
      · exact absurd ⟨order, brokerOrderId, works, submitted⟩ polled
      · exact .inl opened
      · exact .inr partly
      · rcases works.working with ⟨exchangeOrder, known, alive⟩
        rw [known, Option.some.injEq] at endedFound
        rw [endedFound, terminal] at alive
        cases alive
    rw [if_pos isOpen] at done
    rcases done with ⟨payload, sent⟩
    rw [request, served] at sent
    have received := venue.count_lt_sendRequest broker.cfg.maxRetries (.cancelOrder brokerOrderId)
      side
    rwa [sent] at received

/-- In every run from books without LIVE orders: every cancel that returns for an order working
at the broker has been sent, exactly when none is made before a poll has reached the order. -/
theorem cancels_sent_iff (venue : Venue) (cfg : UpstoxConfig) (costRates : CostConfig)
    {start : DB × BrokerSide}
    (unplaced : ∀ id order, start.1.orders.get? id = some order → order.mode ≠ .live)
    (steps : List LiveStep) :
    let broker := UpstoxBroker.mk venue.transport cfg costRates
    (∀ made ∈ runTrace broker.liveStep start steps, ∀ clientOrderId,
        made.2 = .cancel clientOrderId → CancelSent broker made.1.1 made.1.2 clientOrderId) ↔
      ∀ made ∈ runTrace broker.liveStep start steps, ∀ clientOrderId,
        made.2 = .cancel clientOrderId → ¬ Unpolled made.1.1 made.1.2.account clientOrderId := by
  intro broker
  have trailing : ∀ made ∈ runTrace broker.liveStep start steps,
      Trails made.1.1 made.1.2.account := by
    refine runTrace_invariant (fun _ _ => True) (motive := fun state : DB × BrokerSide =>
      Trails state.1 state.2.account) ?_
      (fun state step trails _ => trails_liveStep rfl state step trails) fun _ _ => trivial
    exact fun id order _ found isLive => absurd isLive (unplaced id order found)
  refine forall₂_congr fun made mem => forall₂_congr fun clientOrderId _ => ?_
  exact cancelSent_iff rfl (trailing made mem) clientOrderId

/-! ## A cancel before the first poll -/

/-- A broker that takes every order at once and then does nothing. -/
def idleVenue : Venue := ⟨fun _ => {}, fun _ => some ⟨"X", "open"⟩, fun _ _ => 0⟩

/-- Ten shares of the first instrument. -/
def tenBought : OrderRequest := ⟨"a", 1, .buy, .market, 10, none⟩

/-- Books that know one instrument. -/
def oneInstrument : DB where
  instruments := [⟨1, "INFY", "NSE_EQ|INFY", 1 / 20⟩]

/-- The order is placed, and polled before it is cancelled. -/
theorem cancels_sent_iff_sample :
    let broker := UpstoxBroker.mk idleVenue.transport {} {}
    ∀ made ∈ runTrace broker.liveStep (oneInstrument, {})
        [.place tenBought, .poll fun _ => 0, .cancel "a"], ∀ clientOrderId,
      made.2 = .cancel clientOrderId → CancelSent broker made.1.1 made.1.2 clientOrderId := by
  intro broker
  refine (cancels_sent_iff idleVenue {} {} (fun id order found => ?_) _).mpr ?_
  · cases found
  · intro made mem clientOrderId cancelled
    simp only [runTrace, List.mem_cons, List.not_mem_nil, or_false] at mem
    rcases mem with rfl | rfl | rfl
    · cases cancelled
    · cases cancelled
    · cases cancelled
      rintro ⟨order, brokerOrderId, works, submitted⟩
      have opened := congrArg (Option.map Order.state) works.found
      rw [Option.map_some, submitted] at opened
      revert opened
      decide +kernel

/-- Cancelled before any poll, the order goes on at the broker, which is never told. -/
theorem unpolled_cancel_dropped :
    let broker := UpstoxBroker.mk idleVenue.transport {} {}
    ¬ ∀ made ∈ runTrace broker.liveStep (oneInstrument, {}) [.place tenBought, .cancel "a"],
      ∀ clientOrderId, made.2 = .cancel clientOrderId →
        CancelSent broker made.1.1 made.1.2 clientOrderId := by
  intro broker sent
  have atCancel := sent _ (.tail _ (.head _)) "a" rfl
  have works : WorksAtBroker (broker.liveStep (oneInstrument, {}) (.place tenBought)).1
      (broker.liveStep (oneInstrument, {}) (.place tenBought)).2.account "a"
      (submittedRow tenBought "X") "X" := ⟨rfl, rfl, rfl, _, rfl, by decide +kernel⟩
  refine lt_irrefl _ (atCancel _ _ _ _ works (yields_cancelOrder.mpr
    ⟨rfl, _, _, works.found, works.acknowledged, ?_⟩))
  rw [if_neg (by decide)]

end UpstoxBroker

end PersonalTrade
