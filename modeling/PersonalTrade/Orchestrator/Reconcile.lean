import PersonalTrade.Execution.Fills
import PersonalTrade.Orchestrator.Steps

/-!
# Reconciliation

`orchestrator/reconcile.py`: orders that never got an acknowledgement are failed, the
others are polled, and then the positions of the broker win over the local ones. A
reconciliation is one transaction, but its requests see the broker at different
moments.
-/

namespace PersonalTrade

open Transaction

structure ReconciliationFinding where
  clientOrderId : String
  wasState : OrderState
deriving DecidableEq, Repr

/-- `_STUCK_STATES`. -/
def stuckStates : List OrderState := [.submitting, .submitted]

/-- The stuck orders that are failed: with a broker to ask, only those that it never
acknowledged. -/
def DB.listStuck (db : DB) (mode : Mode) (askBroker : Bool) : List ℕ :=
  db.orders.select fun order => order.mode = mode && stuckStates.contains order.state &&
    (!askBroker || order.brokerOrderId.isNone)

/-- Fail one stuck order. -/
def failStuck (id : ℕ) : Session (Option ReconciliationFinding) := do
  let db ← read
  match db.orders.get? id with
  | none => raise (.assertionError "order row exists")
  | some order => do
      transition id .failed (.reason "found in non-terminal state at startup")
      modify fun db => db.addRiskEvent ⟨.rejection, .stuckOrder order.clientOrderId order.state⟩
      pure (some ⟨order.clientOrderId, order.state⟩)

/-- The quantity that the broker reports for an instrument; the last row of several wins. -/
def brokerPositionFor (positions : List BrokerPosition) (instrumentId : ℕ) :
    Option BrokerPosition :=
  positions.reverse.find? fun position => position.instrumentId = instrumentId

/-- The quantity of a broker position, zero without one. -/
def brokerQty (position : Option BrokerPosition) : ℤ := (position.map BrokerPosition.qty).getD 0

/-- One turn of `_reconcile_positions`. An instrument without an open local position has
the local quantity zero, which is also what its row says. -/
def correctPosition (killThresholdQty : ℕ) (now : ℤ) (brokerPosition : Option BrokerPosition)
    (instrumentId : ℕ) (db : DB) : DB :=
  let localQty := db.positionQty instrumentId .live
  if brokerQty brokerPosition = localQty then db
  else
    let divergence := |brokerQty brokerPosition - localQty|
    let avgPrice := (brokerPosition.map BrokerPosition.avgPrice).getD 0
    let corrected := (db.setPosition instrumentId .live
        { db.getOrCreatePosition instrumentId .live with
          qty := brokerQty brokerPosition, avgPrice }).addRiskEvent
      ⟨if killThresholdQty < divergence then .limitBreach else .rejection,
        .positionMismatch instrumentId localQty (brokerQty brokerPosition)⟩
    if killThresholdQty < divergence then
      KillSwitch.trip ("position reconciliation divergence " ++ toString divergence ++
        " > threshold " ++ toString killThresholdQty ++ " for instrument_id=" ++
        toString instrumentId) .none now corrected
    else corrected

/-- The instruments with a position at the broker or an open one in the store. -/
def mismatchable (positions : List BrokerPosition) (db : DB) : List ℕ :=
  (positions.map BrokerPosition.instrumentId ++ (db.listOpenPositions .live).map Prod.fst).dedup

/-- The loop of `_reconcile_positions`; it runs over a set, so in no particular order. -/
def correctPositions (killThresholdQty : ℕ) (now : ℤ) (positions : List BrokerPosition)
    (db : DB) : DB :=
  (mismatchable positions db).foldl (fun db instrumentId =>
    correctPosition killThresholdQty now (brokerPositionFor positions instrumentId) instrumentId db)
    db

namespace UpstoxBroker

variable {ω : Type}

/-- `_reconcile_positions`. -/
def reconcilePositions (broker : UpstoxBroker ω) (killThresholdQty : ℕ) (now : ℤ) :
    Transaction DB ω PyError Unit := do
  let positions ← broker.getPositions
  modify (correctPositions killThresholdQty now positions)

end UpstoxBroker

/-- `reconcile_on_startup`. -/
def reconcileOnStartup {ω : Type} (mode : Mode) (upstoxBroker : Option (UpstoxBroker ω))
    (positionMismatchKillThresholdQty : ℕ) (clock : ℕ → ℤ) (now : ℤ) :
    Transaction DB ω PyError (List ReconciliationFinding) := do
  let db ← read
  let findings ← collect (fun id => lift (failStuck id)) (db.listStuck mode upstoxBroker.isSome)
  match upstoxBroker with
  | none => pure findings
  | some broker => do
      let _ ← broker.pollAndApplyFills clock
      broker.reconcilePositions positionMismatchKillThresholdQty now
      pure findings

namespace Orchestrator

variable {ω : Type}

/-- The body of `reconcile`. -/
def reconcile (orchestrator : Orchestrator ω) (clock : ℕ → ℤ) (now : ℤ) :
    Transaction DB ω PyError (List ReconciliationFinding) := do
  let killThreshold := (orchestrator.upstoxCfg.map
    UpstoxConfig.positionMismatchKillThresholdQty).getD 0
  match orchestrator.mode with
  | .live => do
      let broker ← ofExcept orchestrator.upstoxBroker
      reconcileOnStartup .live (some broker) killThreshold clock now
  | mode => reconcileOnStartup mode none killThreshold clock now

/-- `reconcile`. -/
def runReconcile (orchestrator : Orchestrator ω) (clock : ℕ → ℤ) (now : ℤ)
    (state : SessionState ω) : SessionState ω :=
  match (orchestrator.reconcile clock now).commit state.db state.world with
  | (_, db, world) => { state with db, world }

end Orchestrator

/-! ## What a reconciliation does -/

theorem positionQty_correctPosition (killThresholdQty : ℕ) (now : ℤ)
    (brokerPosition : Option BrokerPosition) (instrumentId other : ℕ) (mode : Mode) (db : DB) :
    (correctPosition killThresholdQty now brokerPosition instrumentId db).positionQty other mode =
      if other = instrumentId ∧ mode = .live then brokerQty brokerPosition
      else db.positionQty other mode := by
  have tripped : ∀ reason detail (db : DB),
      (KillSwitch.trip reason detail now db).positionQty other mode = db.positionQty other mode := by
    intro reason detail db
    simp only [DB.positionQty, DB.positionFor, (KillSwitch.trip_frame reason detail now db).2.1]
  have corrected : ∀ (position : Position) (event : RiskEvent),
      ((db.setPosition instrumentId .live position).addRiskEvent event).positionQty other mode =
        if other = instrumentId ∧ mode = .live then position.qty else db.positionQty other mode :=
    fun position _ => DB.positionQty_setPosition db instrumentId other .live mode position
  simp only [correctPosition]
  by_cases equal : brokerQty brokerPosition = db.positionQty instrumentId .live
  · rw [if_pos equal]
    split_ifs with same
    · rw [same.1, same.2, equal]
    · rfl
  · rw [if_neg equal]
    by_cases breach : (killThresholdQty : ℤ) < |brokerQty brokerPosition -
        db.positionQty instrumentId .live|
    · simp only [if_pos breach, tripped, corrected]
    · simp only [if_neg breach, corrected]

theorem orders_correctPosition (killThresholdQty : ℕ) (now : ℤ)
    (brokerPosition : Option BrokerPosition) (instrumentId : ℕ) (db : DB) :
    (correctPosition killThresholdQty now brokerPosition instrumentId db).orders = db.orders := by
  simp only [correctPosition]
  split_ifs
  · rfl
  · exact (KillSwitch.trip_frame _ _ _ _).1
  · rfl

/-- The positions of the broker win: afterwards every LIVE position has its quantity. -/
theorem positionQty_correctPositions (killThresholdQty : ℕ) (now : ℤ)
    (positions : List BrokerPosition) (db : DB) (instrumentId : ℕ) :
    (correctPositions killThresholdQty now positions db).positionQty instrumentId .live =
      brokerQty (brokerPositionFor positions instrumentId) := by
  have loop : ∀ (instrumentIds : List ℕ) (db : DB),
      (instrumentIds.foldl (fun db instrumentId => correctPosition killThresholdQty now
        (brokerPositionFor positions instrumentId) instrumentId db) db).positionQty instrumentId
          .live =
        if instrumentId ∈ instrumentIds then brokerQty (brokerPositionFor positions instrumentId)
        else db.positionQty instrumentId .live := by
    intro instrumentIds
    induction instrumentIds with
    | nil => simp
    | cons first rest ih =>
        intro db
        rw [List.foldl_cons, ih, positionQty_correctPosition]
        simp only [List.mem_cons, and_true]
        by_cases later : instrumentId ∈ rest
        · simp [later]
        · by_cases same : instrumentId = first
          · simp [same]
          · simp [later, same]
  rw [correctPositions, loop]
  split_ifs with mem
  · rfl
  · simp only [mismatchable, List.mem_dedup, List.mem_append, not_or] at mem
    have absent : brokerPositionFor positions instrumentId = none := by
      simp only [brokerPositionFor, List.find?_eq_none, List.mem_reverse, decide_eq_true_eq]
      exact fun position present same => mem.1 (List.mem_map.mpr ⟨position, present, same⟩)
    have flat : db.positionQty instrumentId .live = 0 :=
      not_not.mp fun isOpen => mem.2 (DB.mem_listOpenPositions.mpr isOpen)
    rw [absent, flat]
    rfl

theorem orders_correctPositions (killThresholdQty : ℕ) (now : ℤ)
    (positions : List BrokerPosition) (db : DB) :
    (correctPositions killThresholdQty now positions db).orders = db.orders := by
  rw [correctPositions]
  generalize mismatchable positions db = instrumentIds
  induction instrumentIds generalizing db with
  | nil => rfl
  | cons first rest ih => rw [List.foldl_cons, ih, orders_correctPosition]

theorem instruments_correctPosition (killThresholdQty : ℕ) (now : ℤ)
    (brokerPosition : Option BrokerPosition) (instrumentId : ℕ) (db : DB) :
    (correctPosition killThresholdQty now brokerPosition instrumentId db).instruments =
      db.instruments := by
  simp only [correctPosition]
  split_ifs
  · rfl
  · exact KillSwitch.instruments_trip _ _ _ _
  · rfl

theorem instruments_correctPositions (killThresholdQty : ℕ) (now : ℤ)
    (positions : List BrokerPosition) (db : DB) :
    (correctPositions killThresholdQty now positions db).instruments = db.instruments := by
  rw [correctPositions]
  generalize mismatchable positions db = instrumentIds
  induction instrumentIds generalizing db with
  | nil => rfl
  | cons first rest ih => rw [List.foldl_cons, ih, instruments_correctPosition]

theorem yields_failStuck {id : ℕ} {db db' : DB} {finding : Option ReconciliationFinding}
    {world world' : Unit} (yields : (failStuck id).Yields db world finding db' world') :
    ∃ order, db.orders.get? id = some order ∧
      db'.orders = db.orders.update id (fun order => { order with state := .failed }) ∧
      db'.positions = db.positions ∧ db'.trades = db.trades ∧
      db'.instruments = db.instruments := by
  simp only [failStuck, yields_bind, yields_read] at yields
  rcases yields with ⟨_, _, _, ⟨rfl, rfl, _⟩, yields⟩
  split at yields
  · simp at yields
  · rename_i order found
    simp only [yields_bind, yields_transition, yields_modify, yields_pure] at yields
    rcases yields with ⟨_, _, _, ⟨_, _, _, rfl⟩, _, _, _, ⟨rfl, _⟩, _, rfl, _⟩
    exact ⟨order, found, rfl, rfl, rfl, rfl⟩

end PersonalTrade
