import PersonalTrade.Execution.Placement
import PersonalTrade.Orchestrator.Gate

/-!
# Orders accepted during a LIVE candle

A candle is one transaction around a placement that the servers may carry out
several times. Whatever they accepted stays accepted when the transaction is rolled
back, so the committed store knows an accepted order only when the placement returned
and its last answer named that very order.
-/

namespace PersonalTrade

open Transaction

/-- The servers took no order between two moments. -/
def Unposted (servers servers' : Servers) : Prop :=
  servers'.posts = servers.posts ∧ servers'.accepted = servers.accepted

instance : IsPreorder Servers Unposted where
  refl _ := ⟨rfl, rfl⟩
  trans _ _ _ first second := ⟨second.1.trans first.1, second.2.trans first.2⟩

/-- Only a POST to the place-order URL can place an order. -/
theorem unposted_sendRequest (history : ServerHistory) (maxRetries : ℕ) {call : HttpRequest}
    (other : ∀ body, call ≠ .placeOrder body) (servers : Servers) :
    Unposted servers (sendRequest history.transport maxRetries call servers).2 := by
  refine Retry.retry_moves (fun servers => ?_) _ _ _
  cases call with
  | placeOrder body => exact absurd rfl (other body)
  | _ => exact ⟨rfl, rfl⟩

namespace Orchestrator

variable {orchestrator : Orchestrator Servers} {history : ServerHistory} {runner : Instrument}
  {decision : Decision} {draw : Draw} {quotes : LiveQuoteSource} {db : DB} {servers : Servers}

theorem upstoxBroker_eq_ok {broker : UpstoxBroker Servers}
    (served : orchestrator.upstoxClient = some history.transport)
    (configured : orchestrator.upstoxBroker = .ok broker) :
    ∃ cfg, orchestrator.upstoxCfg = some cfg ∧
      broker = ⟨history.transport, cfg, orchestrator.costRates⟩ := by
  unfold upstoxBroker at configured
  rw [served] at configured
  split at configured
  · rename_i transport _ cfg client _ found
    rw [Option.some.injEq] at client
    rw [Except.ok.injEq] at configured
    exact ⟨cfg, found, by rw [← configured, client]⟩
  · cases configured

theorem moves_prepare (served : orchestrator.upstoxClient = some history.transport) :
    Moves Unposted (orchestrator.prepare (orchestrator.buildBroker quotes draw) runner decision
      draw) := by
  have building : Moves Unposted (orchestrator.buildBroker quotes draw) := by
    unfold buildBroker
    split
    · exact moves_bind (moves_ofExcept _) fun _ _ _ _ _ _ => moves_pure _
    · exact moves_bind (moves_modify _) fun _ _ _ _ _ _ => moves_pure _
  have funding : ∀ db servers broker db' servers',
      (orchestrator.buildBroker quotes draw).Yields db servers broker db' servers' →
        Moves Unposted broker.getFunds := by
    intro db servers broker db' servers' built
    cases (yields_buildBroker built).1 with
    | live _ upstox configured =>
        rcases upstoxBroker_eq_ok served configured with ⟨cfg, _, rfl⟩
        refine moves_bind (moves_external (unposted_sendRequest _ _ (by simp))) fun _ _ _ _ _ _ =>
          moves_bind (moves_ofExcept _) fun _ _ _ _ _ _ => moves_bind (moves_bind
            (moves_external (unposted_sendRequest _ _ (by simp))) fun _ _ _ _ _ _ =>
              moves_ofExcept _) fun _ _ _ _ _ _ => moves_pure _
    | paper _ => exact moves_lift _
  refine moves_bind moves_read fun _ _ _ _ _ _ => moves_bind (moves_ofExcept _)
    fun _ _ _ _ _ _ => ?_
  split
  · exact moves_pure _
  · split
    · exact moves_raise _
    · exact moves_bind (moves_lift _) fun _ _ _ _ _ _ => moves_bind building
        fun _ _ _ _ _ built => moves_bind (funding _ _ _ _ _ built) fun _ _ _ _ _ _ =>
          moves_bind moves_read fun _ _ _ _ _ _ => moves_pure _

/-- A signal is approved and its order can be stored, so that a POST goes out. -/
def Posts (orchestrator : Orchestrator Servers) (quotes : LiveQuoteSource) (runner : Instrument)
    (decision : Decision) (draw : Draw) (db : DB) (servers : Servers) : Prop :=
  (∃ order, orchestrator.answerOf quotes runner decision draw db servers = some (.ok order)) ∧
    db.usesClientId draw.clientOrderId = false

/-- A candle adds a row to the store for an order of the broker. -/
def Adds (db db' : DB) (brokerOrderId : String) : Prop :=
  ∃ id order, db.orders.nextId ≤ id ∧ db'.orders.get? id = some order ∧
    order.brokerOrderId = some brokerOrderId

/-- Linking an order to its signal and recording the success write no broker identifier. -/
theorem brokerOrderId_linked (db : DB) (clientOrderId : String) (signalId id : ℕ) :
    ((KillSwitch.recordSuccess (db.linkSignal clientOrderId signalId)).orders.get? id).map
        Order.brokerOrderId = (db.orders.get? id).map Order.brokerOrderId := by
  rw [(untraded_recordSuccess _).orders]
  unfold DB.linkSignal
  split
  · rfl
  · simp only [DB.updateOrder, RowTable.get?_update]
    split_ifs with same
    · simp [Option.map_map, Function.comp_def]
    · rfl

/-- A placed order adds its own row and no other. -/
theorem adds_iff {db marked placed : DB} {request : OrderRequest} {placedId brokerOrderId : String}
    {clientOrderId : String} {signalId : ℕ} (orders : marked.orders = db.orders)
    (opening : Opening marked placed (UpstoxBroker.submittedRow request placedId)) :
    Adds db (KillSwitch.recordSuccess (placed.linkSignal clientOrderId signalId)) brokerOrderId ↔
      brokerOrderId = placedId := by
  have rows : Adds db (KillSwitch.recordSuccess (placed.linkSignal clientOrderId signalId))
      brokerOrderId ↔ ∃ id, db.orders.nextId ≤ id ∧
        (placed.orders.get? id).map Order.brokerOrderId = some (some brokerOrderId) := by
    simp only [← brokerOrderId_linked placed clientOrderId signalId, Option.map_eq_some_iff, Adds]
    grind
  have newRow := opening.get?_new
  rw [orders] at newRow
  rw [rows]
  constructor
  · rintro ⟨id, fresh, found⟩
    have isNew : id = db.orders.nextId := by
      rcases Option.map_eq_some_iff.mp found with ⟨row, rowFound, _⟩
      have below := RowTable.lt_nextId_of_get? rowFound
      rw [opening.nextId, orders] at below
      omega
    rw [isNew, newRow] at found
    simp only [Option.map_some, Option.some.injEq] at found
    exact (Option.some.inj found).symm
  · rintro rfl
    exact ⟨db.orders.nextId, le_rfl, by rw [newRow]; rfl⟩

/-- The instrument of a call is stored. -/
theorem prepare_instrument {broker : Broker Servers} {call : EvaluateCall} {before : DB}
    {servers' : Servers}
    (calls : orchestrator.Calls quotes runner decision draw db servers broker call before
      servers') : ∃ instrument, before.instrument runner.id = some instrument := by
  rcases prepared_of_yields calls with ⟨none, _⟩ | ⟨_, _, row, funds, some, prepared⟩
  · cases none
  · cases some
    rcases prepared.built with ⟨opened, openedWorld, built, funded⟩
    rcases yields_buildBroker built with ⟨isBuilt, opens⟩
    rcases isBuilt.getFunds_store funded with rfl
    rcases opens with rfl | rfl
    · exact prepared.known
    · exact prepared.known

/-- How a candle that posts its order ends: the servers have accepted what the POSTs up to
a last one made them accept, and the candle commits a row for the order that the last answer
names, or fails when it names none. -/
def Settles (history : ServerHistory) (maxRetries : ℕ) (servers : Servers) (db : DB)
    (run : Except PyError (Unit × DB) × Servers) : Prop :=
  ∃ n, (∀ k, history.Reached maxRetries servers.posts k ↔ k ≤ n) ∧
    run.2.accepted = (history.afterPosts servers (n + 1)).accepted ∧
    match run.1 with
    | .ok ((), db') => ∀ brokerOrderId,
        Adds db db' brokerOrderId ↔ history.Names (servers.posts + n) brokerOrderId
    | .error _ => ∀ brokerOrderId, ¬ history.Names (servers.posts + n) brokerOrderId

/-- The placement of an approved order posts nothing or settles. -/
theorem submit_cases (live : orchestrator.mode = .live)
    (served : orchestrator.upstoxClient = some history.transport) {broker : Broker Servers}
    {call : EvaluateCall} {before evaluated : DB} {earlier : Servers} {order : ApprovedOrder}
    (calls : orchestrator.Calls quotes runner decision draw db earlier broker call before servers)
    (approved : orchestrator.evaluate call before = (.ok order, evaluated)) :
    (db.usesClientId draw.clientOrderId = true ∧
      (orchestrator.evaluateAndSubmit broker call before servers).2 = servers) ∨
    db.usesClientId draw.clientOrderId = false ∧ ∃ cfg, orchestrator.upstoxCfg = some cfg ∧
      Settles history cfg.maxRetries servers db
        (orchestrator.evaluateAndSubmit broker call before servers) := by
  rcases prepare_instrument calls with ⟨instrument, known⟩
  rcases yields_prepare calls with ⟨none, _⟩ | ⟨_, _, _, same, built, _, instrumentEq, keyEq, _, _,
    _, untraded, _⟩
  · cases none
  simp only [Option.some.injEq, Prod.mk.injEq] at same
  rcases same with ⟨rfl, rfl⟩
  cases built with
  | paper isPaper => exact absurd live isPaper
  | live _ upstox configured =>
  rcases upstoxBroker_eq_ok served configured with ⟨cfg, configuredCfg, rfl⟩
  have approves := RiskEngine.evaluate_ok_iff.mp (congrArg Prod.fst approved)
  have evaluatedEq : evaluated = KillSwitch.touch before := by
    have answer := RiskEngine.evaluate_of_approves approves
    rw [evaluate, answer, Prod.mk.injEq] at approved
    exact approved.2.symm
  simp only [evaluateAndSubmit, bind_run, compute, approved, Transaction.modify]
  generalize markedEq : evaluated.setSignalStatus call.signalId .approved = marked
  have orders : marked.orders = db.orders := by
    rw [← markedEq, evaluatedEq]
    exact untraded.orders
  have usesEq : marked.usesClientId order.request.clientOrderId =
      db.usesClientId draw.clientOrderId := by
    rw [show order.request.clientOrderId = order.clientOrderId from rfl, approves.clientOrderId,
      keyEq, DB.usesClientId, orders]
    rfl
  have knownMarked : marked.instrument order.request.instrumentId = some instrument := by
    rw [show order.request.instrumentId = order.instrumentId from rfl, approves.instrumentId,
      instrumentEq, ← markedEq, evaluatedEq]
    exact known
  cases used : db.usesClientId draw.clientOrderId with
  | true =>
      have unsent := UpstoxBroker.placeOrder_unsent
        (UpstoxBroker.mk history.transport cfg orchestrator.costRates) servers
        fun known (sends : UpstoxBroker.Sends marked order.request known) => by
          rw [← usesEq, sends.unused] at used
          cases used
      refine .inl ⟨rfl, ?_⟩
      rcases ran : (UpstoxBroker.mk history.transport cfg orchestrator.costRates).placeOrder
        order.request marked servers with ⟨_ | ⟨ack, placed⟩, servers'⟩
      · rw [ran] at unsent
        simpa only [UpstoxBroker.toBroker, ran] using unsent
      · rw [ran] at unsent
        simpa only [UpstoxBroker.toBroker, ran] using unsent
  | false =>
      refine .inr ⟨rfl, cfg, configuredCfg, ?_⟩
      rcases UpstoxBroker.placeOrder_settles history cfg orchestrator.costRates servers
        ⟨knownMarked, approves.qty_pos.ne', usesEq.trans used⟩ with ⟨n, reached, world, returns⟩
      rcases ran : (UpstoxBroker.mk history.transport cfg orchestrator.costRates).placeOrder
        order.request marked servers with ⟨raised | ⟨ack, placed⟩, servers'⟩
      · rw [ran] at world
        refine ⟨n, reached, ?_, ?_⟩
        · simpa only [UpstoxBroker.toBroker, ran] using congrArg Servers.accepted world
        · simp only [UpstoxBroker.toBroker, ran]
          intro brokerOrderId names
          rcases (returns brokerOrderId).mpr names with ⟨db', yields⟩
          rw [Yields, ran] at yields
          cases yields
      · rw [ran] at world
        rcases UpstoxBroker.yields_placeOrder ran with ⟨_, _, placedId, _, _, _, _, _, rfl, opening⟩
        have placedNames := (returns placedId).mp ⟨placed, ran.trans (by rw [← world])⟩
        refine ⟨n, reached, ?_, ?_⟩
        · simpa only [UpstoxBroker.toBroker, ran] using congrArg Servers.accepted world
        · simp only [UpstoxBroker.toBroker, ran]
          intro brokerOrderId
          rw [adds_iff orders opening]
          exact ⟨fun same => same ▸ placedNames, fun names => names.unique placedNames⟩

theorem processCandle_cases (live : orchestrator.mode = .live)
    (served : orchestrator.upstoxClient = some history.transport) :
    (¬ orchestrator.Posts quotes runner decision draw db servers ∧
      (orchestrator.processCandle quotes runner decision draw db servers).2.accepted =
        servers.accepted) ∨
    orchestrator.Posts quotes runner decision draw db servers ∧
      ∃ cfg, orchestrator.upstoxCfg = some cfg ∧ Settles history cfg.maxRetries servers db
        (orchestrator.processCandle quotes runner decision draw db servers) := by
  have unposted : Unposted servers (orchestrator.prepare (orchestrator.buildBroker quotes draw)
      runner decision draw db servers).2 := moves_prepare served db servers
  unfold Posts answerOf callOf
  simp only [processCandle, processCandleWith, bind_run]
  rcases prepared : orchestrator.prepare (orchestrator.buildBroker quotes draw) runner decision draw
    db servers with ⟨_ | ⟨_ | ⟨broker, call⟩, before⟩, servers'⟩
  · rw [prepared] at unposted
    exact .inl ⟨by simp, unposted.2⟩
  · rw [prepared] at unposted
    exact .inl ⟨by simp, unposted.2⟩
  · rw [prepared] at unposted
    rcases answered : orchestrator.evaluate call before with ⟨rejection | order, evaluated⟩
    · refine .inl ⟨by simp [answered], ?_⟩
      simp only [evaluateAndSubmit, bind_run, compute, answered]
      exact unposted.2
    · rcases submit_cases live served prepared answered with ⟨used, posted⟩ |
        ⟨unused, cfg, configured, settles⟩
      · exact .inl ⟨by simp [used], (congrArg Servers.accepted posted).trans unposted.2⟩
      · refine .inr ⟨⟨⟨order, by simp [answered]⟩, unused⟩, cfg, configured, ?_⟩
        simp only [Unposted] at unposted
        simp only [Settles, ServerHistory.afterPosts, unposted] at settles ⊢
        exact settles

/-- What `_on_candle` keeps of its transaction. -/
theorem onCandle_eq {candle : Candle} {state : SessionState Servers}
    (runs : orchestrator.runners candle.instrumentKey = some runner) :
    (orchestrator.onCandle candle decision draw state).world =
        (orchestrator.processCandle (state.quotes.update candle.instrumentKey candle.close) runner
          decision draw state.db state.world).2 ∧
      (orchestrator.onCandle candle decision draw state).db =
        match (orchestrator.processCandle (state.quotes.update candle.instrumentKey candle.close)
          runner decision draw state.db state.world).1 with
        | .ok ((), db') => db'
        | .error _ => KillSwitch.recordError orchestrator.riskCfg.killSwitch.maxConsecutiveErrors
            draw.now state.db := by
  simp only [onCandle, runs, commit]
  rcases orchestrator.processCandle (state.quotes.update candle.instrumentKey candle.close) runner
    decision draw state.db state.world with ⟨_ | ⟨⟨⟩, _⟩, _⟩
  · exact ⟨rfl, rfl⟩
  · exact ⟨rfl, rfl⟩

theorem not_adds_of_orders {db' : DB} (orders : db'.orders = db.orders) (brokerOrderId : String) :
    ¬ Adds db db' brokerOrderId := by
  rintro ⟨id, order, fresh, found, _⟩
  rw [orders] at found
  exact absurd (RowTable.lt_nextId_of_get? found) (by omega)

/-- After a LIVE candle the committed store has a new row for every order that the servers
accepted during it exactly when no POST goes out, or the answer to a POST that is reached
names each order accepted at any POST that is reached. -/
theorem accepted_recorded_iff (history : ServerHistory) (orchestrator : Orchestrator Servers)
    (live : orchestrator.mode = .live)
    (served : orchestrator.upstoxClient = some history.transport) (candle : Candle)
    (decision : Decision) (draw : Draw) (state : SessionState Servers) :
    (∀ brokerOrderId ∈ (orchestrator.onCandle candle decision draw state).world.accepted.drop
        state.world.accepted.length,
      Adds state.db (orchestrator.onCandle candle decision draw state).db brokerOrderId) ↔
    ∀ runner, orchestrator.runners candle.instrumentKey = some runner →
      orchestrator.Posts (state.quotes.update candle.instrumentKey candle.close) runner decision
          draw state.db state.world →
        ∀ cfg, orchestrator.upstoxCfg = some cfg → ∀ k brokerOrderId,
          history.Reached cfg.maxRetries state.world.posts k →
          (history.place (state.world.posts + k)).accepted = some brokerOrderId →
            ∃ n, history.Reached cfg.maxRetries state.world.posts n ∧
              history.Names (state.world.posts + n) brokerOrderId := by
  cases runs : orchestrator.runners candle.instrumentKey with
  | none => simp [onCandle, runs]
  | some runner =>
      rcases onCandle_eq runs with ⟨worldEq, dbEq⟩
      rw [worldEq, dbEq]
      rcases processCandle_cases live served with ⟨unposted, accepted⟩ |
        ⟨posts, cfg, configured, n, reached, accepted, outcome⟩
      · rw [accepted]
        simp only [List.drop_length, List.not_mem_nil, false_implies, implies_true, true_iff]
        rintro _ same posts
        rw [Option.some.injEq] at same
        exact absurd (same ▸ posts) unposted
      · rw [accepted]
        generalize (orchestrator.processCandle (state.quotes.update candle.instrumentKey
          candle.close) runner decision draw state.db state.world).1 = result at outcome
        have adds : ∀ brokerOrderId, Adds state.db (match result with
            | .ok ((), db') => db'
            | .error _ => KillSwitch.recordError orchestrator.riskCfg.killSwitch.maxConsecutiveErrors
                draw.now state.db) brokerOrderId ↔
              history.Names (state.world.posts + n) brokerOrderId := by
          intro brokerOrderId
          rcases result with raised | ⟨⟨⟩, db'⟩
          · have unchanged := not_adds_of_orders (KillSwitch.recordError_frame
              orchestrator.riskCfg.killSwitch.maxConsecutiveErrors draw.now state.db).1 brokerOrderId
            exact iff_of_false unchanged (outcome brokerOrderId)
          · exact outcome brokerOrderId
        have named := ServerHistory.exists_names_iff reached
        simp only [ServerHistory.mem_accepted_afterPosts, adds]
        constructor
        · rintro recorded _ same _ cfg' configured' k brokerOrderId isReached accepted
          rw [configured, Option.some.injEq] at configured'
          subst cfg'
          exact (named brokerOrderId).mpr
            (recorded brokerOrderId ⟨k, (reached k).mp isReached, accepted⟩)
        · rintro recorded brokerOrderId ⟨k, upTo, accepted⟩
          exact (named brokerOrderId).mp (recorded runner rfl posts cfg configured k brokerOrderId
            ((reached k).mpr upTo) accepted)

/-- The sample session with servers that follow a history. -/
def postingSession (history : ServerHistory) : Orchestrator Servers :=
  { sampleSession .live with upstoxClient := some history.transport }

/-- The sample session before its first candle. -/
def postingStart : SessionState Servers := ⟨sampleStart.db, sampleStart.quotes, {}⟩

/-- The sample session after one LONG candle. -/
def postingEnd (history : ServerHistory) : SessionState Servers :=
  (postingSession history).onCandle ⟨"NSE_EQ|INFY", 100⟩ (fun _ => .ok (some ⟨.long, 100, []⟩))
    ⟨0, "a", "a", 0⟩ postingStart

/-- Servers with funds whose POSTs all have one outcome. -/
def sameOutcome (outcome : PlaceOutcome) : ServerHistory where
  place _ := outcome
  other _ call := if call = .getFunds then .ok (.funds (some 1000)) else .ok (.positions [])

/-- An order that the servers accept and whose answer is lost is in no row of the committed
store. -/
theorem accepted_order_orphaned :
    ¬ ∀ (history : ServerHistory) (orchestrator : Orchestrator Servers),
      orchestrator.mode = .live → orchestrator.upstoxClient = some history.transport →
        ∀ (candle : Candle) (decision : Decision) (draw : Draw) (state : SessionState Servers),
          ∀ brokerOrderId ∈ (orchestrator.onCandle candle decision draw
              state).world.accepted.drop state.world.accepted.length,
            Adds state.db (orchestrator.onCandle candle decision draw state).db brokerOrderId := by
  intro claim
  have added : Adds postingStart.db
      (postingEnd (sameOutcome ⟨some "lost", .transportError "read timeout"⟩)).db "lost" :=
    claim _ (postingSession (sameOutcome ⟨some "lost", .transportError "read timeout"⟩)) rfl rfl
      ⟨"NSE_EQ|INFY", 100⟩ (fun _ => .ok (some ⟨.long, 100, []⟩)) ⟨0, "a", "a", 0⟩ postingStart "lost"
      (by decide +kernel)
  rcases added with ⟨id, order, _, found, _⟩
  have below := RowTable.lt_nextId_of_get? found
  have noRows : (postingEnd (sameOutcome
      ⟨some "lost", .transportError "read timeout"⟩)).db.orders.nextId = 0 := by decide +kernel
  omega

theorem accepted_recorded_sample :
    (postingEnd (sameOutcome ⟨some "kept", .ok (.orderPlaced "kept")⟩)).world.accepted = ["kept"] ∧
      ∀ brokerOrderId ∈ (postingEnd (sameOutcome
          ⟨some "kept", .ok (.orderPlaced "kept")⟩)).world.accepted.drop 0,
        Adds postingStart.db (postingEnd (sameOutcome
          ⟨some "kept", .ok (.orderPlaced "kept")⟩)).db brokerOrderId := by
  refine ⟨by decide +kernel, (accepted_recorded_iff
    (sameOutcome ⟨some "kept", .ok (.orderPlaced "kept")⟩) (postingSession _) rfl rfl _ _ _
    postingStart).mpr fun _ _ _ _ _ k brokerOrderId _ accepted => ?_⟩
  have isKept : "kept" = brokerOrderId := Option.some.inj accepted
  exact ⟨0, ⟨Nat.zero_le _, by simp⟩, .orderPlaced "kept", rfl, by rw [← isKept]; rfl⟩

end Orchestrator

end PersonalTrade
