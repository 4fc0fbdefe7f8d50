import PersonalTrade.Execution.Upstox

/-!
# Placing one order at Upstox

What a single `place_order` can do at the servers. A history fixes the outcome of
every POST: whether an order is accepted and, independently, what is answered. The
retry loop repeats a POST after a retried status, whether or not the servers have
accepted the order before answering it.
-/

namespace PersonalTrade

open Transaction

/-- What one POST to the place-order URL does: the order that the servers accept, if
any, and the answer. -/
structure PlaceOutcome where
  accepted : Option String
  answer : HttpAnswer

/-- The outcome of every POST and the answers to all other calls. -/
structure ServerHistory where
  place : ℕ → PlaceOutcome
  other : ℕ → HttpRequest → HttpAnswer

/-- The servers so far: how many calls they answered and the orders they accepted. -/
structure Servers where
  posts : ℕ := 0
  calls : ℕ := 0
  accepted : List String := []

namespace ServerHistory

/-- The servers that follow a history. -/
def transport (history : ServerHistory) : Transport Servers
  | .placeOrder _, servers =>
      ((history.place servers.posts).answer,
        { servers with
          posts := servers.posts + 1
          accepted := servers.accepted ++ (history.place servers.posts).accepted.toList })
  | request, servers =>
      (history.other servers.calls request, { servers with calls := servers.calls + 1 })

/-- The servers after `n` further POSTs. -/
def afterPosts (history : ServerHistory) (servers : Servers) (n : ℕ) : Servers :=
  { servers with
    posts := servers.posts + n
    accepted := servers.accepted ++
      (List.range n).filterMap fun k => (history.place (servers.posts + k)).accepted }

/-- The POST after `k` earlier ones of the same call is made: it is within the budget and
all the earlier ones got a retried status. -/
def Reached (history : ServerHistory) (maxRetries first k : ℕ) : Prop :=
  k ≤ min maxRetries 1024 ∧ ∀ j < k, ∃ code text,
    (history.place (first + j)).answer = .status code text ∧ retryable code = true

/-- The answer to POST `n` is a body that names an order. -/
def Names (history : ServerHistory) (n : ℕ) (brokerOrderId : String) : Prop :=
  ∃ payload, (history.place n).answer = .ok payload ∧ payload.orderId = .ok brokerOrderId

theorem Names.unique {history : ServerHistory} {n : ℕ} {first second : String}
    (names : history.Names n first) (names' : history.Names n second) : first = second := by
  rcases names with ⟨payload, answered, named⟩
  rcases names' with ⟨payload', answered', named'⟩
  rw [answered, HttpAnswer.ok.injEq] at answered'
  subst answered'
  rw [named] at named'
  exact Except.ok.inj named'

/-- Only the last POST of a call can be answered with an order. -/
theorem Reached.not_names {history : ServerHistory} {maxRetries first n k : ℕ}
    (reached : history.Reached maxRetries first n) (below : k < n) (brokerOrderId : String) :
    ¬ history.Names (first + k) brokerOrderId := by
  rintro ⟨payload, answered, _⟩
  rcases reached.2 k below with ⟨code, text, retried, _⟩
  rw [answered] at retried
  cases retried

/-- A call whose last POST is the one after `n` others is answered with an order only there. -/
theorem exists_names_iff {history : ServerHistory} {maxRetries first n : ℕ}
    (reached : ∀ k, history.Reached maxRetries first k ↔ k ≤ n) (brokerOrderId : String) :
    (∃ k, history.Reached maxRetries first k ∧ history.Names (first + k) brokerOrderId) ↔
      history.Names (first + n) brokerOrderId := by
  constructor
  · rintro ⟨k, isReached, names⟩
    rcases Nat.lt_or_eq_of_le ((reached k).mp isReached) with below | rfl
    · exact absurd names (((reached n).mpr le_rfl).not_names below _)
    · exact names
  · exact fun names => ⟨n, (reached n).mpr le_rfl, names⟩

/-- The orders accepted at the last POSTs. -/
theorem mem_accepted_afterPosts (history : ServerHistory) (servers : Servers) (n : ℕ)
    (brokerOrderId : String) :
    brokerOrderId ∈ (history.afterPosts servers (n + 1)).accepted.drop servers.accepted.length ↔
      ∃ k ≤ n, (history.place (servers.posts + k)).accepted = some brokerOrderId := by
  simp [afterPosts]

/-- A sequence has at most one entry below `n` exactly when it has no two. -/
theorem length_filterMap_range_le_one {α : Type} (entry : ℕ → Option α) (n : ℕ) :
    ((List.range n).filterMap entry).length ≤ 1 ↔
      ∀ i j, i < j → j < n → ¬ ((entry i).isSome ∧ (entry j).isSome) := by
  induction n with
  | zero => simp
  | succ n ih =>
      rw [List.range_succ, List.filterMap_append, List.length_append]
      cases last : entry n with
      | none =>
          simp only [List.filterMap_cons, last, List.filterMap_nil, List.length_nil, Nat.add_zero, ih]
          refine ⟨fun none i j order below => ?_, fun none i j order below =>
            none i j order (by omega)⟩
          rcases Nat.lt_succ_iff_lt_or_eq.mp below with within | rfl
          · exact none i j order within
          · simp [last]
      | some value =>
          have empty : ((List.range n).filterMap entry).length + 1 ≤ 1 ↔
              ∀ i < n, entry i = none := by
            simp [List.filterMap_eq_nil_iff]
          simp only [List.filterMap_cons, last, List.filterMap_nil, List.length_cons,
            List.length_nil, Nat.zero_add, empty]
          constructor
          · intro none i j order below
            simp [none i (by omega)]
          · intro none i below
            have alone := none i n below (by omega)
            simpa [last] using alone

variable {history : ServerHistory} {servers : Servers} {body : OrderBody} {maxRetries : ℕ}

theorem worldAfter_eq (n : ℕ) :
    Retry.worldAfter (attemptRequest history.transport (.placeOrder body)) n servers =
      history.afterPosts servers n := by
  induction n with
  | zero => simp [afterPosts]
  | succ n ih =>
      rw [Retry.worldAfter_succ, ih]
      simp [attemptRequest, transport, afterPosts, List.range_succ, List.filterMap_append,
        Nat.add_assoc]
      cases accepted : (history.place (servers.posts + n)).accepted <;> simp [accepted]

theorem verdictAt_eq (n : ℕ) :
    Retry.verdictAt (attemptRequest history.transport (.placeOrder body)) n servers =
      (history.place (servers.posts + n)).answer.verdict (.placeOrder body) := by
  rw [Retry.verdictAt, worldAfter_eq]
  rfl

theorem attempted_iff {k : ℕ} :
    Retry.Attempted (attemptRequest history.transport (.placeOrder body)) pauseBefore maxRetries
      servers k ↔ history.Reached maxRetries servers.posts k := by
  simp only [Retry.Attempted, Reached, verdictAt_eq, verdict_isAgain, pauseBefore_eq_ok]
  constructor
  · rintro ⟨within, earlier⟩
    refine ⟨le_min within ?_, fun j below => (earlier j below).1⟩
    by_contra beyond
    exact absurd (earlier 1024 (by omega)).2 (lt_irrefl _)
  · rintro ⟨within, earlier⟩
    exact ⟨by omega, fun j below => ⟨earlier j below, by omega⟩⟩

/-- A place-order call makes the POSTs up to a last one, and returns a body exactly when
the last one is answered with it. -/
theorem sendRequest_place (history : ServerHistory) (maxRetries : ℕ) (body : OrderBody)
    (servers : Servers) :
    ∃ n, (∀ k, history.Reached maxRetries servers.posts k ↔ k ≤ n) ∧
      (sendRequest history.transport maxRetries (.placeOrder body) servers).2 =
        history.afterPosts servers (n + 1) ∧
      ∀ payload, (sendRequest history.transport maxRetries (.placeOrder body) servers).1 =
          .ok payload ↔ (history.place (servers.posts + n)).answer = .ok payload := by
  rcases Retry.retry_last (attemptRequest history.transport (.placeOrder body)) pauseBefore
    maxRetries servers with ⟨n, reached, world, ends⟩
  refine ⟨n, fun k => attempted_iff.symm.trans (reached k), world.trans (worldAfter_eq _),
    fun payload => ?_⟩
  rw [verdictAt_eq] at ends
  exact (ends.eq_ok_iff payload).trans verdict_eq_done

end ServerHistory

namespace UpstoxBroker

variable {ω : Type} {broker : UpstoxBroker ω} {request : OrderRequest} {instrument : Instrument}
  {db : DB} {world : ω}

/-- A request reaches the wire: its instrument is known and its row can be stored. -/
structure Sends (db : DB) (request : OrderRequest) (instrument : Instrument) : Prop where
  known : db.instrument request.instrumentId = some instrument
  positive : request.qty ≠ 0
  unused : db.usesClientId request.clientOrderId = false

/-- What the store holds when the POST goes out. -/
def intentStored (db : DB) (request : OrderRequest) : DB :=
  (db.createOrder (request.row none .live)).moveOrder db.orders.nextId .pendingRisk .submitting
    .empty

theorem get?_intentStored (db : DB) (request : OrderRequest) :
    (intentStored db request).orders.get? db.orders.nextId =
      some { request.row none .live with state := .submitting } := by
  simp [intentStored, DB.createOrder, DB.moveOrder]

theorem yields_persistIntent (sends : Sends db request instrument) :
    (persistIntent request).Yields db () db.orders.nextId (intentStored db request) () := by
  simp only [persistIntent, yields_bind, yields_recordCreated, yields_transition, yields_pure]
  have created : (db.createOrder (request.row none .live)).orders.get? db.orders.nextId =
      some (request.row none .live) := by
    simp [DB.createOrder]
  have allowed : OrderState.submitting ∈ allowedOrderTransitions .pendingRisk := by decide
  exact ⟨_, _, (), ⟨sends.positive, sends.unused, rfl, rfl⟩, (), _, (),
    ⟨_, created, allowed, rfl⟩, rfl, rfl, trivial⟩

theorem yields_acknowledge {id : ℕ} {order : Order}
    (found : db.orders.get? id = some { order with state := .submitting })
    (brokerOrderId : String) :
    ∃ db', (acknowledge id brokerOrderId).Yields db () () db' () := by
  simp only [acknowledge, yields_bind, yields_modify, yields_transition]
  have allowed : OrderState.submitted ∈ allowedOrderTransitions .submitting := by decide
  have renamed : (db.updateOrder id fun order =>
      { order with brokerOrderId := some brokerOrderId }).orders.get? id =
      some { order with brokerOrderId := some brokerOrderId, state := .submitting } := by
    simp [DB.updateOrder, found]
  exact ⟨_, (), _, (), ⟨rfl, trivial⟩, _, renamed, allowed, rfl⟩

/-- A request that cannot be stored leaves the world alone. -/
theorem placeOrder_unsent (broker : UpstoxBroker ω) (world : ω)
    (unsent : ∀ instrument, ¬ Sends db request instrument) :
    (broker.placeOrder request db world).2 = world := by
  rcases yields_or_raises (broker.placeOrder request) db world with
    ⟨ack, db', world', yields⟩ | ⟨exception, world', raises⟩
  · rcases yields_placeOrder yields with ⟨instrument, _, _, known, positive, unused, _⟩
    exact absurd ⟨known, positive, unused⟩ (unsent instrument)
  · suffices kept : world' = world by
      rw [raises, kept]
    simp only [placeOrder, raises_bind, raises_read, yields_read, false_or] at raises
    rcases raises with ⟨_, _, _, ⟨rfl, rfl, rfl⟩, raises⟩
    split at raises
    · simp only [raises_raise] at raises
      exact raises.2
    · rename_i instrument known
      simp only [raises_bind, monadLift_eq, raises_lift, yields_lift] at raises
      rcases raises with ⟨_, rfl⟩ | ⟨id, stored, _, ⟨persisted, rfl⟩, _⟩
      · rfl
      · simp only [persistIntent, yields_bind, yields_recordCreated] at persisted
        rcases persisted with ⟨_, _, _, ⟨positive, unused, _, _⟩, _⟩
        exact absurd ⟨known, positive, unused⟩ (unsent instrument)

/-- A request that is sent leaves the world where its HTTP call does, and is acknowledged
when the call returns an identifier. -/
theorem placeOrder_sent (broker : UpstoxBroker ω) (world : ω)
    (sends : Sends db request instrument) :
    (broker.placeOrder request db world).2 =
        (broker.request (.placeOrder (broker.orderBody request instrument)) world).2 ∧
      ∀ brokerOrderId,
        (broker.request (.placeOrder (broker.orderBody request instrument)) world).1.bind
            Payload.orderId = .ok brokerOrderId →
          ∃ db', (broker.placeOrder request).Yields db world ⟨request.clientOrderId, brokerOrderId⟩
            db' (broker.request (.placeOrder (broker.orderBody request instrument)) world).2 := by
  have stored : persistIntent request db () =
      (.ok (db.orders.nextId, intentStored db request), ()) := yields_persistIntent sends
  unfold Yields
  simp only [placeOrder, bind_run, Transaction.read, sends.known, monadLift_eq, lift, stored,
    external]
  rcases broker.request (.placeOrder (broker.orderBody request instrument)) world with
    ⟨answered, world'⟩
  rcases answered.bind Payload.orderId with raised | brokerOrderId
  · refine ⟨?_, by simp⟩
    cases caught : caughtText raised with
    | none =>
        simp only [caught]
        rfl
    | some text =>
        simp only [caught, bind_run, lift]
        rcases (transition db.orders.nextId .failed (.reason text) (intentStored db request) ()).1
          with _ | _ <;> rfl
  · rcases yields_acknowledge (get?_intentStored db request) brokerOrderId with ⟨db', acknowledged⟩
    unfold Yields at acknowledged
    simp only [bind_run, lift, acknowledged]
    refine ⟨rfl, fun other accepted => ⟨db', ?_⟩⟩
    rw [← Except.ok.inj accepted]
    rfl

/-- What one `place_order` does at the servers, and what it returns: the order that the
answer to its last POST names. -/
theorem placeOrder_settles (history : ServerHistory) (cfg : UpstoxConfig) (costRates : CostConfig)
    (servers : Servers) (sends : Sends db request instrument) :
    ∃ n, (∀ k, history.Reached cfg.maxRetries servers.posts k ↔ k ≤ n) ∧
      ((UpstoxBroker.mk history.transport cfg costRates).placeOrder request db servers).2 =
        history.afterPosts servers (n + 1) ∧
      ∀ brokerOrderId, (∃ db', ((UpstoxBroker.mk history.transport cfg costRates).placeOrder
          request).Yields db servers ⟨request.clientOrderId, brokerOrderId⟩ db'
            (history.afterPosts servers (n + 1))) ↔
        history.Names (servers.posts + n) brokerOrderId := by
  generalize brokerEq : UpstoxBroker.mk history.transport cfg costRates = broker
  have requestEq : ∀ call, broker.request call = sendRequest history.transport cfg.maxRetries call :=
    fun call => brokerEq ▸ rfl
  rcases history.sendRequest_place cfg.maxRetries (broker.orderBody request instrument) servers with
    ⟨n, reached, world, answered⟩
  rcases placeOrder_sent broker servers sends with ⟨sameWorld, returns⟩
  rw [requestEq, world] at sameWorld returns
  refine ⟨n, reached, sameWorld, fun brokerOrderId => ?_⟩
  have named : (sendRequest history.transport cfg.maxRetries
      (.placeOrder (broker.orderBody request instrument)) servers).1.bind Payload.orderId =
        .ok brokerOrderId ↔ history.Names (servers.posts + n) brokerOrderId := by
    simp only [ServerHistory.Names, ← answered]
    generalize (sendRequest history.transport cfg.maxRetries
      (.placeOrder (broker.orderBody request instrument)) servers).1 = result
    cases result with
    | error raised => simp [Except.bind]
    | ok payload => simp [Except.bind]
  rw [← named]
  refine ⟨?_, returns brokerOrderId⟩
  rintro ⟨db', yields⟩
  rcases yields_placeOrder yields with ⟨known, result, returned, found, _, _, sent, bound, ackEq, _⟩
  rw [sends.known, Option.some.injEq] at found
  subst known
  rw [requestEq] at sent
  rw [sent, bound]
  simp only [OrderAck.mk.injEq, true_and] at ackEq
  rw [ackEq]

/-- One `place_order` leaves at most one order accepted exactly when no two of the POSTs that
its retries reach are accepted. -/
theorem placeOrder_atMostOnce_iff (history : ServerHistory) (cfg : UpstoxConfig)
    (costRates : CostConfig) (request : OrderRequest) (db : DB) (servers : Servers) :
    ((UpstoxBroker.mk history.transport cfg costRates).placeOrder request db
        servers).2.accepted.length ≤ servers.accepted.length + 1 ↔
      ∀ instrument, Sends db request instrument → ∀ i j, i < j →
        history.Reached cfg.maxRetries servers.posts j →
          ¬ ((history.place (servers.posts + i)).accepted.isSome ∧
            (history.place (servers.posts + j)).accepted.isSome) := by
  by_cases sent : ∃ instrument, Sends db request instrument
  · rcases sent with ⟨instrument, sends⟩
    rcases placeOrder_settles history cfg costRates servers sends with ⟨n, reached, world, _⟩
    have single := ServerHistory.length_filterMap_range_le_one
      (fun k => (history.place (servers.posts + k)).accepted) (n + 1)
    simp only [world, ServerHistory.afterPosts, List.length_append, Nat.add_le_add_iff_left, single,
      reached, Nat.lt_succ_iff]
    exact ⟨fun none _ _ => none, fun none => none instrument sends⟩
  · rw [not_exists] at sent
    rw [placeOrder_unsent _ _ sent]
    exact ⟨fun _ instrument sends => absurd sends (sent instrument), fun _ => by omega⟩

/-- Servers that accept every order and answer the first POST with a gateway error. -/
def sampleHistory : ServerHistory where
  place k :=
    if k = 0 then ⟨some "first", .status 504 "gateway timeout"⟩
    else ⟨some "second", .ok (.orderPlaced "second")⟩
  other _ _ := .ok (.funds (some 100000))

/-- A store with one instrument. -/
def sampleStore : DB := { instruments := [⟨1, "INFY", "NSE_EQ|INFY", 1 / 20⟩] }

/-- A request for ten shares. -/
def sampleRequest : OrderRequest := ⟨"a", 1, .buy, .market, 10, none⟩

/-- An order that the servers accept before a gateway error is placed twice. -/
theorem placeOrder_places_twice :
    ¬ ∀ (history : ServerHistory) (cfg : UpstoxConfig) (costRates : CostConfig)
        (request : OrderRequest) (db : DB) (servers : Servers),
      ((UpstoxBroker.mk history.transport cfg costRates).placeOrder request db
        servers).2.accepted.length ≤ servers.accepted.length + 1 := by
  intro claim
  have single := claim sampleHistory {} {} sampleRequest sampleStore {}
  revert single
  decide +kernel

end UpstoxBroker

end PersonalTrade
