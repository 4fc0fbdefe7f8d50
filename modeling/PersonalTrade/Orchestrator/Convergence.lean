import PersonalTrade.Orchestrator.Reconcile

/-!
# Convergence of the local positions

What a position reconciliation leaves behind for the rows that the broker answers: the
quantities, the mismatch events and the kill switch. A dictionary keeps the last row of
an instrument, so it converges to the broker's total if and only if the rows before the
last one cancel out (`reconcilePositions_converges_iff`).
-/

namespace PersonalTrade

open Transaction

/-- The mismatch events logged for an instrument. -/
def mismatchEvents (instrumentId : ℕ) (db : DB) : List RiskEvent :=
  db.riskEvents.filter fun event =>
    match event.detail with
    | .positionMismatch id _ _ => id = instrumentId
    | _ => false

/-- The event that a correction logs. -/
def mismatchEvent (killThresholdQty instrumentId : ℕ) (localQty brokerQty : ℤ) : RiskEvent where
  kind := if killThresholdQty < |brokerQty - localQty| then .limitBreach else .rejection
  detail := .positionMismatch instrumentId localQty brokerQty

/-- The nonzero rows of the broker for an instrument. -/
def positionsOf (db : DB) (rows : List PositionRow) (instrumentId : ℕ) : List BrokerPosition :=
  (rows.filterMap (UpstoxBroker.toBrokerPosition db)).filter fun position =>
    position.instrumentId = instrumentId

/-- A row is about an instrument. -/
def PositionRow.isAbout (db : DB) (instrumentId : ℕ) (row : PositionRow) : Bool :=
  (db.instrumentByKey (row.instrumentToken.getD "")).map Instrument.id = some instrumentId

/-- The broker's quantity of an instrument, over all of its rows. -/
def totalQty (db : DB) (rows : List PositionRow) (instrumentId : ℕ) : ℤ :=
  ((rows.filter (PositionRow.isAbout db instrumentId)).map fun row => row.quantity.getD 0).sum

/-- The local positions have become those of the broker. -/
structure ConvergesTo (killThresholdQty : ℕ) (rows : List PositionRow) (db db' : DB) : Prop where
  quantities : ∀ id, db'.positionQty id .live = totalQty db rows id
  events : ∀ id, mismatchEvents id db' = mismatchEvents id db ++
    if totalQty db rows id = db.positionQty id .live then []
    else [mismatchEvent killThresholdQty id (db.positionQty id .live) (totalQty db rows id)]
  killSwitch : KillSwitch.isTripped db' = true ↔ KillSwitch.isTripped db = true ∨
    ∃ id, (killThresholdQty : ℤ) < |totalQty db rows id - db.positionQty id .live|

/-- The nonzero rows before the last one of each instrument cancel out. -/
def EarlierRowsCancel (db : DB) (rows : List PositionRow) : Prop :=
  ∀ id, ((positionsOf db rows id).dropLast.map BrokerPosition.qty).sum = 0

/-! ## One correction -/

section Correction

variable (killThresholdQty : ℕ) (now : ℤ) (brokerPosition : Option BrokerPosition)
  (instrumentId : ℕ) (db : DB)

theorem mismatchEvents_trip (other : ℕ) (reason : String) (detail : TripDetail) (db : DB) :
    mismatchEvents other (KillSwitch.trip reason detail now db) = mismatchEvents other db := by
  rw [KillSwitch.trip]
  split_ifs with tripped
  · rfl
  · simp [mismatchEvents, DB.addRiskEvent, KillSwitch.store]

/-- A correction logs one event, for its own instrument. -/
theorem mismatchEvents_correctPosition (other : ℕ) :
    mismatchEvents other (correctPosition killThresholdQty now brokerPosition instrumentId db) =
      mismatchEvents other db ++
        if other = instrumentId ∧ brokerQty brokerPosition ≠ db.positionQty instrumentId .live then
          [mismatchEvent killThresholdQty instrumentId (db.positionQty instrumentId .live)
            (brokerQty brokerPosition)]
        else [] := by
  simp only [correctPosition]
  by_cases equal : brokerQty brokerPosition = db.positionQty instrumentId .live
  · rw [if_pos equal, if_neg (fun differ => differ.2 equal), List.append_nil]
  · have logged : ∀ position : Position, mismatchEvents other
        ((db.setPosition instrumentId .live position).addRiskEvent
          (mismatchEvent killThresholdQty instrumentId (db.positionQty instrumentId .live)
            (brokerQty brokerPosition))) = mismatchEvents other db ++
          if other = instrumentId ∧
              brokerQty brokerPosition ≠ db.positionQty instrumentId .live then
            [mismatchEvent killThresholdQty instrumentId (db.positionQty instrumentId .live)
              (brokerQty brokerPosition)]
          else [] := by
      intro position
      by_cases same : other = instrumentId
      · rw [if_pos ⟨same, equal⟩]
        simp [mismatchEvents, DB.addRiskEvent, DB.setPosition, mismatchEvent, same]
      · rw [if_neg (fun both => same both.1)]
        simp [mismatchEvents, DB.addRiskEvent, DB.setPosition, mismatchEvent, Ne.symm same]
    rw [if_neg equal]
    by_cases breach : (killThresholdQty : ℤ) < |brokerQty brokerPosition -
        db.positionQty instrumentId .live|
    · rw [if_pos breach, mismatchEvents_trip]
      exact logged _
    · rw [if_neg breach]
      exact logged _

/-- A correction trips the kill switch if and only if the divergence is beyond the threshold. -/
theorem isTripped_correctPosition :
    KillSwitch.isTripped
        (correctPosition killThresholdQty now brokerPosition instrumentId db) = true ↔
      KillSwitch.isTripped db = true ∨ (killThresholdQty : ℤ) <
        |brokerQty brokerPosition - db.positionQty instrumentId .live| := by
  simp only [correctPosition]
  by_cases equal : brokerQty brokerPosition = db.positionQty instrumentId .live
  · rw [if_pos equal, equal, sub_self, abs_zero]
    have within : ¬ (killThresholdQty : ℤ) < 0 := not_lt.mpr (Int.natCast_nonneg _)
    exact (or_iff_left within).symm
  · rw [if_neg equal]
    by_cases breach : (killThresholdQty : ℤ) < |brokerQty brokerPosition -
        db.positionQty instrumentId .live|
    · rw [if_pos breach]
      exact iff_of_true (KillSwitch.isTripped_trip ..) (.inr breach)
    · rw [if_neg breach]
      exact (or_iff_left breach).symm

end Correction

/-! ## The loop -/

section Loop

variable (killThresholdQty : ℕ) (now : ℤ) (positions : List BrokerPosition)

/-- The loop over some instruments. -/
def correctAll (instrumentIds : List ℕ) (db : DB) : DB :=
  instrumentIds.foldl (fun db instrumentId => correctPosition killThresholdQty now
    (brokerPositionFor positions instrumentId) instrumentId db) db

theorem mismatchEvents_correctAll {instrumentIds : List ℕ} (distinct : instrumentIds.Nodup)
    (db : DB) (id : ℕ) :
    mismatchEvents id (correctAll killThresholdQty now positions instrumentIds db) =
      mismatchEvents id db ++
        if id ∈ instrumentIds ∧
            brokerQty (brokerPositionFor positions id) ≠ db.positionQty id .live then
          [mismatchEvent killThresholdQty id (db.positionQty id .live)
            (brokerQty (brokerPositionFor positions id))]
        else [] := by
  induction instrumentIds generalizing db with
  | nil => simp [correctAll]
  | cons first rest ih =>
      rw [List.nodup_cons] at distinct
      have later := ih distinct.2 (correctPosition killThresholdQty now
        (brokerPositionFor positions first) first db)
      rw [correctAll] at later
      rw [correctAll, List.foldl_cons, later, mismatchEvents_correctPosition,
        positionQty_correctPosition, List.append_assoc]
      congr 1
      by_cases same : id = first
      · subst same
        simp [distinct.1]
      · simp [same]

theorem isTripped_correctAll {instrumentIds : List ℕ} (distinct : instrumentIds.Nodup) (db : DB) :
    KillSwitch.isTripped (correctAll killThresholdQty now positions instrumentIds db) = true ↔
      KillSwitch.isTripped db = true ∨ ∃ id ∈ instrumentIds, (killThresholdQty : ℤ) <
        |brokerQty (brokerPositionFor positions id) - db.positionQty id .live| := by
  induction instrumentIds generalizing db with
  | nil => simp [correctAll]
  | cons first rest ih =>
      rw [List.nodup_cons] at distinct
      have later := ih distinct.2 (correctPosition killThresholdQty now
        (brokerPositionFor positions first) first db)
      -- the other positions are as before the first correction
      have untouched : ∀ id ∈ rest, (correctPosition killThresholdQty now
          (brokerPositionFor positions first) first db).positionQty id .live =
            db.positionQty id .live := by
        intro id mem
        rw [positionQty_correctPosition, if_neg]
        rintro ⟨rfl, _⟩
        exact distinct.1 mem
      rw [correctAll] at later
      rw [correctAll, List.foldl_cons, later, isTripped_correctPosition, or_assoc,
        List.exists_mem_cons_iff]
      apply or_congr_right
      apply or_congr_right
      constructor
      · rintro ⟨id, mem, breach⟩
        rw [untouched id mem] at breach
        exact ⟨id, mem, breach⟩
      · rintro ⟨id, mem, breach⟩
        rw [← untouched id mem] at breach
        exact ⟨id, mem, breach⟩

/-- Instruments outside the loop have no position on either side. -/
theorem brokerQty_of_not_mismatchable {db : DB} {id : ℕ} (outside : id ∉ mismatchable positions db) :
    brokerQty (brokerPositionFor positions id) = 0 ∧ db.positionQty id .live = 0 := by
  simp only [mismatchable, List.mem_dedup, List.mem_append, not_or] at outside
  constructor
  · have absent : brokerPositionFor positions id = none := by
      simp only [brokerPositionFor, List.find?_eq_none, List.mem_reverse, decide_eq_true_eq]
      exact fun position present same => outside.1 (List.mem_map.mpr ⟨position, present, same⟩)
    rw [absent]
    rfl
  · exact not_not.mp fun isOpen => outside.2 (DB.mem_listOpenPositions.mpr isOpen)

end Loop

/-! ## The rows of the broker -/

section Rows

variable (db : DB) (rows : List PositionRow) (instrumentId : ℕ)

theorem totalQty_eq_sum :
    totalQty db rows instrumentId =
      ((positionsOf db rows instrumentId).map BrokerPosition.qty).sum := by
  induction rows with
  | nil => rfl
  | cons row rows ih =>
      rw [totalQty, positionsOf] at ih
      rw [totalQty, positionsOf, List.filter_cons, List.filterMap_cons]
      cases known : db.instrumentByKey (row.instrumentToken.getD "") with
      | none => simpa [PositionRow.isAbout, UpstoxBroker.toBrokerPosition, known] using ih
      | some instrument =>
          by_cases about : instrument.id = instrumentId
          · by_cases flat : row.quantity.getD 0 = 0
            · simpa [PositionRow.isAbout, UpstoxBroker.toBrokerPosition, known, about, flat] using ih
            · simpa [PositionRow.isAbout, UpstoxBroker.toBrokerPosition, known, about, flat] using ih
          · by_cases flat : row.quantity.getD 0 = 0
            · simpa [PositionRow.isAbout, UpstoxBroker.toBrokerPosition, known, about, flat] using ih
            · simpa [PositionRow.isAbout, UpstoxBroker.toBrokerPosition, known, about, flat] using ih

theorem brokerQty_eq_getLast :
    brokerQty (brokerPositionFor (rows.filterMap (UpstoxBroker.toBrokerPosition db))
        instrumentId) =
      (((positionsOf db rows instrumentId).getLast?).map BrokerPosition.qty).getD 0 := by
  rw [brokerQty, brokerPositionFor, ← List.head?_filter, List.filter_reverse,
    List.head?_reverse]
  rfl

/-- The total is the last row's quantity and that of the rows before it. -/
theorem totalQty_eq_add :
    totalQty db rows instrumentId =
      ((positionsOf db rows instrumentId).dropLast.map BrokerPosition.qty).sum +
        brokerQty (brokerPositionFor (rows.filterMap (UpstoxBroker.toBrokerPosition db))
          instrumentId) := by
  rw [totalQty_eq_sum, brokerQty_eq_getLast]
  rcases List.eq_nil_or_concat (positionsOf db rows instrumentId) with none | ⟨earlier, last, split⟩
  · simp [none]
  · simp [split]

end Rows

/-- The loop converges to the broker's totals if and only if the rows before the last one
cancel out. -/
theorem correctPositions_convergesTo_iff (killThresholdQty : ℕ) (now : ℤ)
    (rows : List PositionRow) (db : DB) :
    ConvergesTo killThresholdQty rows db (correctPositions killThresholdQty now
        (rows.filterMap (UpstoxBroker.toBrokerPosition db)) db) ↔ EarlierRowsCancel db rows := by
  set positions := rows.filterMap (UpstoxBroker.toBrokerPosition db)
  have distinct : (mismatchable positions db).Nodup := List.nodup_dedup _
  have total : ∀ id, totalQty db rows id =
      ((positionsOf db rows id).dropLast.map BrokerPosition.qty).sum +
        brokerQty (brokerPositionFor positions id) := totalQty_eq_add db rows
  constructor
  · intro converges id
    have reached := converges.quantities id
    rw [positionQty_correctPositions, total id] at reached
    omega
  · intro cancel
    have last : ∀ id, totalQty db rows id = brokerQty (brokerPositionFor positions id) := by
      intro id
      rw [total id, cancel id, zero_add]
    constructor
    · intro id
      rw [positionQty_correctPositions, last id]
    · intro id
      have logged := mismatchEvents_correctAll killThresholdQty now positions distinct db id
      rw [correctAll] at logged
      rw [correctPositions, logged, last id]
      by_cases equal : brokerQty (brokerPositionFor positions id) = db.positionQty id .live
      · rw [if_pos equal, if_neg (fun differ => differ.2 equal)]
      · have inside : id ∈ mismatchable positions db := by
          by_contra outside
          rcases brokerQty_of_not_mismatchable positions outside with ⟨atBroker, locally⟩
          exact equal (atBroker.trans locally.symm)
        rw [if_neg equal, if_pos ⟨inside, equal⟩]
    · have tripped := isTripped_correctAll killThresholdQty now positions distinct db
      rw [correctAll] at tripped
      rw [correctPositions, tripped]
      apply or_congr_right
      constructor
      · rintro ⟨id, _, breach⟩
        rw [← last id] at breach
        exact ⟨id, breach⟩
      · rintro ⟨id, breach⟩
        rw [last id] at breach
        refine ⟨id, ?_, breach⟩
        by_contra outside
        rcases brokerQty_of_not_mismatchable positions outside with ⟨atBroker, locally⟩
        rw [atBroker, locally] at breach
        simp at breach
        omega

section Broker

variable {ω : Type} {broker : UpstoxBroker ω} {world world' : ω} {payload : Payload}
  {rows : List PositionRow}

theorem reconcilePositions_yields
    (answered : broker.request .getPositions world = (.ok payload, world'))
    (read : payload.rows = .ok rows) (killThresholdQty : ℕ) (now : ℤ) (db : DB) :
    (broker.reconcilePositions killThresholdQty now).Yields db world ()
      (correctPositions killThresholdQty now
        (rows.filterMap (UpstoxBroker.toBrokerPosition db)) db) world' := by
  simp only [UpstoxBroker.reconcilePositions, UpstoxBroker.getPositions,
    UpstoxBroker.rawPositions, yields_bind, yields_read, yields_pure, yields_external,
    yields_ofExcept, yields_modify]
  exact ⟨_, _, _, ⟨rows, _, _, ⟨.ok payload, _, _, ⟨answered, rfl⟩, read, rfl, rfl⟩, _, _, _,
    ⟨rfl, rfl, rfl⟩, rfl, rfl, rfl⟩, rfl, rfl⟩

/-- The local positions become the broker's if and only if the rows before the last one of
each instrument cancel out. -/
theorem reconcilePositions_converges_iff
    (answered : broker.request .getPositions world = (.ok payload, world'))
    (read : payload.rows = .ok rows) (killThresholdQty : ℕ) (now : ℤ) (db : DB) :
    ∃ db', (broker.reconcilePositions killThresholdQty now).Yields db world () db' world' ∧
      (ConvergesTo killThresholdQty rows db db' ↔ EarlierRowsCancel db rows) := by
  refine ⟨_, reconcilePositions_yields answered read killThresholdQty now db, ?_⟩
  exact correctPositions_convergesTo_iff killThresholdQty now rows db

end Broker

/-- A server that knows some positions. -/
def positionsServer (rows : List PositionRow) : Transport Unit
  | .getPositions, world => (.ok (.positions rows), world)
  | _, world => (.status 404 "not found", world)

/-- A broker of that server. -/
def positionsBroker (rows : List PositionRow) : UpstoxBroker Unit where
  transport := positionsServer rows
  cfg := {}
  costRates := default

/-- Five shares held as one product and three as another. -/
def twoProducts : List PositionRow :=
  [{ instrumentToken := some "NSE_EQ|INFY", quantity := some 5, averagePrice := some 100 },
    { instrumentToken := some "NSE_EQ|INFY", quantity := some 3, averagePrice := some 102 }]

/-- A store with one instrument. -/
def oneInstrument : DB := { instruments := [⟨1, "INFY", "NSE_EQ|INFY", 1 / 20⟩] }

theorem reconcilePositions_converges_iff_sample :
    ∃ db', ((positionsBroker twoProducts).reconcilePositions 5 0).Yields oneInstrument () () db'
        () ∧
      (ConvergesTo 5 twoProducts oneInstrument db' ↔
        EarlierRowsCancel oneInstrument twoProducts) := by
  apply reconcilePositions_converges_iff (rfl : (positionsBroker twoProducts).request .getPositions
    () = (.ok (.positions twoProducts), ())) rfl

/-- Two rows of one instrument: the local position becomes the second one. -/
theorem twoProducts_diverges :
    ∃ db', ((positionsBroker twoProducts).reconcilePositions 5 0).Yields oneInstrument () () db'
        () ∧ db'.positionQty 1 .live = 3 ∧ totalQty oneInstrument twoProducts 1 = 8 ∧
      ¬ ConvergesTo 5 twoProducts oneInstrument db' := by
  have server : (positionsBroker twoProducts).request .getPositions () =
      (.ok (.positions twoProducts), ()) := rfl
  rcases reconcilePositions_yields server rfl 5 0 oneInstrument with yields
  have total : totalQty oneInstrument twoProducts 1 = 8 := by decide +kernel
  have quantity : (correctPositions 5 0 (twoProducts.filterMap
      (UpstoxBroker.toBrokerPosition oneInstrument)) oneInstrument).positionQty 1 .live = 3 := by
    rw [positionQty_correctPositions]
    decide +kernel
  refine ⟨_, yields, quantity, total, ?_⟩
  intro converges
  have reached := converges.quantities 1
  rw [quantity, total] at reached
  exact absurd reached (by decide)

end PersonalTrade
