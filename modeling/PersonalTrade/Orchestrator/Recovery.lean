import PersonalTrade.Execution.Exchange
import PersonalTrade.Orchestrator.Exposure
import PersonalTrade.Orchestrator.Reconcile

/-!
# Recovery against an exchange

A fill can reach a LIVE position by two routes: by a poll, which books what an order has
filled beyond its row, and by a reconciliation, which takes over the net quantity of the
account. `DB.deviation` is what the position will be off by once every fill is polled.
Moves of the account and polls never change it; a reconciliation sets it to the fills
that the positions it read include and the rows do not count yet. So everything depends
on where a fill falls between the status request of its order and the positions request.
-/

namespace PersonalTrade

open Transaction

/-- What the account has filled of an order, as it counts towards a LIVE position. -/
def OrderTerms.reported (terms : OrderTerms) (account : Account) (instrumentId : ℕ) : ℤ :=
  if terms.mode = .live ∧ terms.instrumentId = instrumentId then
    terms.side.sign * account.filledOf terms.brokerOrderId
  else 0

namespace DB

/-- What the account has filled of all orders, as it counts towards a LIVE position. -/
def reported (db : DB) (account : Account) (instrumentId : ℕ) : ℤ :=
  db.orders.total fun order => order.terms.reported account instrumentId

/-- How far a LIVE position will be from the account once all fills are polled. -/
def deviation (db : DB) (account : Account) (instrument : Instrument) : ℤ :=
  db.unaccounted instrument.id + db.reported account instrument.id -
    account.netQty instrument.instrumentKey

/-- The terms of an order row. -/
def termsAt (db : DB) (id : ℕ) : Option OrderTerms := (db.orders.get? id).map Order.terms

end DB

/-- The account trades through this store only: each of its orders has one LIVE row with the
same side and instrument. -/
structure Owns (db : DB) (account : Account) : Prop where
  ids : (db.instruments.map Instrument.id).Nodup
  keys : (db.instruments.map Instrument.instrumentKey).Nodup
  distinct : ∀ id id' terms terms' brokerOrderId, db.termsAt id = some terms →
    db.termsAt id' = some terms' → terms.mode = .live → terms'.mode = .live →
    terms.brokerOrderId = some brokerOrderId → terms'.brokerOrderId = some brokerOrderId → id = id'
  owned : ∀ brokerOrderId exchangeOrder,
    account.orders.lookup brokerOrderId = some exchangeOrder → ∃ id terms,
      db.termsAt id = some terms ∧ terms.mode = .live ∧ terms.brokerOrderId = some brokerOrderId ∧
        terms.side = exchangeOrder.side ∧ ∃ instrument ∈ db.instruments,
          instrument.id = terms.instrumentId ∧
            instrument.instrumentKey = exchangeOrder.instrumentKey

/-- No row counts more than its order has filled, and a closed row counts all that its order
will ever have filled. -/
structure Counts (db : DB) (account : Account) : Prop where
  within : ∀ id order, db.orders.get? id = some order → order.mode = .live →
    order.filledQty ≤ account.filledOf order.brokerOrderId
  closed : ∀ id order, db.orders.get? id = some order → order.mode = .live →
    order.state.isOpen = false →
      order.filledQty = account.filledOf order.brokerOrderId ∧ account.IsOver order.brokerOrderId

namespace Owns

variable {db db' : DB} {account : Account} {instrument instrument' : Instrument}

theorem eq_of_id (owns : Owns db account) (mem : instrument ∈ db.instruments)
    (mem' : instrument' ∈ db.instruments) (same : instrument.id = instrument'.id) :
    instrument = instrument' :=
  List.inj_on_of_nodup_map owns.ids mem mem' same

theorem eq_of_key (owns : Owns db account) (mem : instrument ∈ db.instruments)
    (mem' : instrument' ∈ db.instruments)
    (same : instrument.instrumentKey = instrument'.instrumentKey) : instrument = instrument' :=
  List.inj_on_of_nodup_map owns.keys mem mem' same

/-- Ownership reads the instruments and the terms of the orders. -/
theorem congr (owns : Owns db account) (instruments : db'.instruments = db.instruments)
    (terms : ∀ id, db'.termsAt id = db.termsAt id) : Owns db' account := by
  have termsEq : db'.termsAt = db.termsAt := funext terms
  refine ⟨by rw [instruments]; exact owns.ids, by rw [instruments]; exact owns.keys, ?_, ?_⟩
  · rw [termsEq]
    exact owns.distinct
  · rw [termsEq, instruments]
    exact owns.owned

theorem move (owns : Owns db account) (brokerMove : BrokerMove) :
    Owns db (account.move brokerMove) := by
  refine ⟨owns.ids, owns.keys, owns.distinct, fun brokerOrderId exchangeOrder found => ?_⟩
  rcases account.move_cases brokerMove with same | ⟨moved, order, order', qty, advances⟩
  · rw [same] at found
    exact owns.owned brokerOrderId exchangeOrder found
  · by_cases self : brokerOrderId = moved
    · rw [self, advances.lookup_self, Option.some.injEq] at found
      rw [← found, self, advances.side, advances.instrumentKey]
      exact owns.owned moved order advances.found
    · rw [advances.lookup_of_ne self] at found
      exact owns.owned brokerOrderId exchangeOrder found

theorem moves (owns : Owns db account) (brokerMoves : List BrokerMove) :
    Owns db (account.moves brokerMoves) :=
  Account.moves_invariant (fun _ brokerMove owns => owns.move brokerMove) owns brokerMoves

/-- A fill at the broker moves the net quantity and what the order has filled together. -/
theorem deviation_move (owns : Owns db account) (mem : instrument ∈ db.instruments)
    (brokerMove : BrokerMove) :
    db.deviation (account.move brokerMove) instrument = db.deviation account instrument := by
  rcases account.move_cases brokerMove with same | ⟨moved, order, order', qty, advances⟩
  · rw [same]
  · rcases owns.owned moved order advances.found with
      ⟨id, terms, termsFound, isLive, acknowledged, side, owner, ownerMem, ownerId, ownerKey⟩
    rcases Option.map_eq_some_iff.mp termsFound with ⟨row, rowFound, rfl⟩
    have reweighed : db.reported (account.move brokerMove) instrument.id =
        db.reported account instrument.id +
          (row.terms.reported (account.move brokerMove) instrument.id -
            row.terms.reported account instrument.id) := by
      refine RowTable.total_reweighed rowFound fun other otherRow ne otherFound => ?_
      have foreign : otherRow.terms.mode = .live →
          otherRow.terms.brokerOrderId ≠ some moved := by
        intro otherLive otherAcknowledged
        exact ne (owns.distinct other id _ _ moved (Option.map_eq_some_iff.mpr ⟨_, otherFound, rfl⟩)
          termsFound otherLive isLive otherAcknowledged acknowledged)
      simp only [OrderTerms.reported]
      split_ifs with counts
      · rw [advances.filledOf_of_ne (foreign counts.1)]
      · rfl
    have sameInstrument : instrument.instrumentKey = order.instrumentKey ↔
        row.terms.instrumentId = instrument.id := by
      rw [← ownerKey, ← ownerId]
      constructor
      · intro sameKey
        rw [owns.eq_of_key mem ownerMem sameKey]
      · intro sameId
        rw [owns.eq_of_id ownerMem mem sameId]
    simp only [DB.deviation, reweighed, advances.net, sameInstrument, OrderTerms.reported, isLive,
      true_and, acknowledged, advances.filledOf_self, side]
    split_ifs
    · push_cast
      ring
    · ring

theorem deviation_moves (owns : Owns db account) (mem : instrument ∈ db.instruments)
    (brokerMoves : List BrokerMove) :
    db.deviation (account.moves brokerMoves) instrument = db.deviation account instrument :=
  (Account.moves_invariant (motive := fun later => Owns db later ∧
      db.deviation later instrument = db.deviation account instrument)
    (fun _ brokerMove held => ⟨held.1.move brokerMove,
      (held.1.deviation_move mem brokerMove).trans held.2⟩) ⟨owns, rfl⟩ brokerMoves).2

end Owns

namespace Counts

variable {db : DB} {account : Account}

theorem filledOf_moves_of_isOver {brokerOrderId : Option String}
    (isOver : account.IsOver brokerOrderId) (brokerMoves : List BrokerMove) :
    (account.moves brokerMoves).filledOf brokerOrderId = account.filledOf brokerOrderId := by
  rw [Account.filledOf, Account.lookup_moves_of_isOver isOver, Account.filledOf]

theorem congr {db' : DB} (counts : Counts db account) (orders : db'.orders = db.orders) :
    Counts db' account :=
  ⟨fun id order found => counts.within id order (orders ▸ found),
    fun id order found => counts.closed id order (orders ▸ found)⟩

theorem moves (counts : Counts db account) (brokerMoves : List BrokerMove) :
    Counts db (account.moves brokerMoves) := by
  refine ⟨fun id order found isLive => (counts.within id order found isLive).trans
    (account.filledOf_le_moves brokerMoves _), fun id order found isLive isClosed => ?_⟩
  rcases counts.closed id order found isLive isClosed with ⟨whole, isOver⟩
  refine ⟨whole.trans (filledOf_moves_of_isOver isOver brokerMoves).symm,
    fun exchangeOrder present => ?_⟩
  rw [Account.lookup_moves_of_isOver isOver] at present
  exact isOver exchangeOrder present

end Counts

/-! ## Polls -/

theorem Owns.trading {db db' : DB} {account : Account} (owns : Owns db account)
    (trading : Trading .live db db') : Owns db' account :=
  owns.congr trading.instruments trading.terms

theorem DB.reported_congr {db db' : DB} (terms : ∀ id, db'.termsAt id = db.termsAt id)
    (account : Account) (instrumentId : ℕ) :
    db'.reported account instrumentId = db.reported account instrumentId :=
  RowTable.total_of_map terms fun terms => terms.reported account instrumentId

/-- The status request of an order is answered with a body. -/
def UpstoxBroker.StatusAnswered (broker : UpstoxBroker Exchange) (brokerOrderId : String)
    (asked answered : Exchange) : Prop :=
  ∃ payload, broker.request (.getOrderDetails brokerOrderId) asked = (.ok payload, answered)

/-- What polling one order at the exchange does to its row. -/
inductive PolledRow (broker : UpstoxBroker Exchange) (id : ℕ) (order : Order) (db db' : DB)
    (exchange exchange' : Exchange) : Prop where
  | unasked (unacknowledged : order.brokerOrderId = none) (same : db' = db) :
      PolledRow broker id order db db' exchange exchange'
  | unanswered {brokerOrderId : String} (acknowledged : order.brokerOrderId = some brokerOrderId)
      (failed : ∀ answered, ¬ broker.StatusAnswered brokerOrderId exchange answered)
      (same : db' = db) : PolledRow broker id order db db' exchange exchange'
  | answered {brokerOrderId : String} {row : Order}
      (acknowledged : order.brokerOrderId = some brokerOrderId)
      (answered : broker.StatusAnswered brokerOrderId exchange exchange')
      (found : db'.orders.get? id = some row) (terms : row.terms = order.terms)
      (whole : row.filledQty = exchange'.account.filledOf (some brokerOrderId))
      (closes : row.state.isOpen = false → exchange'.account.IsOver (some brokerOrderId))
      (others : ∀ other, other ≠ id → db'.orders.get? other = db.orders.get? other) :
      PolledRow broker id order db db' exchange exchange'

section Polls

variable {broker : UpstoxBroker Exchange} {market : Market} {db db' : DB} {id : ℕ} {order : Order}
  {clock : ℕ → ℤ} {exchange exchange' : Exchange} {update : Option OrderUpdate}

/-- An answered poll leaves the row counting what its order had filled when it was asked. -/
theorem polledRow_pollOrder (served : broker.transport = market.transport)
    (counts : Counts db exchange.account) (found : db.orders.get? id = some order)
    (working : order.isWorking .live = true)
    (yields : (broker.pollOrder clock id).Yields db exchange update db' exchange') :
    PolledRow broker id order db db' exchange exchange' := by
  have isLive : order.mode = .live := UpstoxBroker.mode_of_isWorking working
  rcases UpstoxBroker.yields_pollOrder yields with ⟨row, rowFound, ⟨unacknowledged, rfl, _⟩ |
    ⟨brokerOrderId, acknowledged, ⟨message, failed, rfl⟩ |
      ⟨payload, report, sent, reported, applied⟩⟩⟩
  · rw [found, Option.some.injEq] at rowFound
    subst row
    exact .unasked unacknowledged rfl
  · rw [found, Option.some.injEq] at rowFound
    subst row
    refine .unanswered acknowledged ?_ rfl
    rintro answered ⟨payload, sent⟩
    rw [failed] at sent
    cases sent
  · rw [found, Option.some.injEq] at rowFound
    subst row
    have honest : ∃ exchangeOrder, exchange'.account.orders.lookup brokerOrderId =
        some exchangeOrder ∧ report = exchangeOrder.report := by
      rw [UpstoxBroker.request, served] at sent
      exact Market.report_honest sent reported
    rcases honest with ⟨exchangeOrder, present, rfl⟩
    have later : exchange.Later exchange' := by
      have moved := market.later_sendRequest broker.cfg.maxRetries (.getOrderDetails brokerOrderId)
        exchange
      rw [UpstoxBroker.request, served] at sent
      rwa [sent] at moved
    have filledEq : exchange'.account.filledOf (some brokerOrderId) = exchangeOrder.filled := by
      simp [Account.filledOf, present]
    have within : order.filledQty ≤ exchangeOrder.filled := by
      rcases later with ⟨brokerMoves, movedEq⟩
      rw [← filledEq, movedEq, ← acknowledged]
      exact (counts.within id order found isLive).trans
        (exchange.account.filledOf_le_moves brokerMoves _)
    rcases UpstoxBroker.yields_applyOrderUpdate found applied with ⟨booked, applies⟩
    have wholeEq : order.filledQty + booked = exchangeOrder.filled := by
      have bookedEq := applies.booked_eq
      rcases Nat.eq_zero_or_pos exchangeOrder.filled with zero | positive
      · have none : booked = 0 := by
          rw [bookedEq]
          simp only [OrderReport.newlyFilled, ExchangeOrder.report_filled, zero]
          split_ifs <;> omega
        omega
      · rw [if_pos (exchangeOrder.report_fillPrice positive)] at bookedEq
        simp only [OrderReport.newlyFilled, ExchangeOrder.report_filled] at bookedEq
        omega
    refine .answered acknowledged ⟨payload, sent⟩ applies.row rfl (wholeEq.trans filledEq.symm)
      (fun isClosed other otherPresent => ?_) applies.others
    have sameOrder : other = exchangeOrder := by
      simpa [present, eq_comm] using otherPresent
    rw [sameOrder]
    rw [exchangeOrder.isOpen_stateFor] at isClosed
    simpa using isClosed

theorem counts_pollOrder (served : broker.transport = market.transport)
    (counts : Counts db exchange.account) (found : db.orders.get? id = some order)
    (working : order.isWorking .live = true)
    (yields : (broker.pollOrder clock id).Yields db exchange update db' exchange') :
    Counts db' exchange'.account := by
  rcases (Market.later_pollOrder served clock id).of_yields yields with ⟨brokerMoves, moved⟩
  have still : Counts db exchange'.account := by
    rw [moved]
    exact counts.moves brokerMoves
  cases polledRow_pollOrder served counts found working yields with
  | unasked unacknowledged same => rwa [same]
  | unanswered acknowledged failed same => rwa [same]
  | answered acknowledged answered rowFound terms whole closes others =>
      rename_i brokerOrderId row
      have rowAcknowledged : row.brokerOrderId = some brokerOrderId :=
        (congrArg OrderTerms.brokerOrderId terms).trans acknowledged
      refine ⟨fun other otherRow otherFound otherLive => ?_,
        fun other otherRow otherFound otherLive isClosed => ?_⟩
      · by_cases same : other = id
        · rw [same, rowFound, Option.some.injEq] at otherFound
          rw [← otherFound, whole, rowAcknowledged]
        · rw [others other same] at otherFound
          exact still.within other otherRow otherFound otherLive
      · by_cases same : other = id
        · rw [same, rowFound, Option.some.injEq] at otherFound
          rw [← otherFound, rowAcknowledged]
          exact ⟨whole, closes (otherFound ▸ isClosed)⟩
        · rw [others other same] at otherFound
          exact still.closed other otherRow otherFound otherLive isClosed

theorem counts_pollAndApplyFills (served : broker.transport = market.transport)
    (counts : Counts db exchange.account) {updates : List OrderUpdate}
    (yields : (broker.pollAndApplyFills clock).Yields db exchange updates db' exchange') :
    Counts db' exchange'.account :=
  UpstoxBroker.pollAndApplyFills_invariant
    (motive := fun _ later laterExchange => Counts later laterExchange.account)
    (fun _ _ _ _ _ _ _ _ counts _ _ found working polled =>
      counts_pollOrder served counts found working polled) counts yields

theorem later_pollAndApplyFills (served : broker.transport = market.transport) :
    Moves Exchange.Later (broker.pollAndApplyFills clock) :=
  UpstoxBroker.moves_pollAndApplyFills (served ▸ market.later_transport) clock

end Polls

/-! ## Reconciliations -/

/-- The rows that are failed for want of an acknowledgement count nothing. -/
theorem counts_failAllStuck {db db' : DB} {exchange exchange' : Exchange} {account : Account}
    {findings : List ReconciliationFinding} (counts : Counts db account)
    (yields : (collect (fun id => lift (failStuck id)) (db.listStuck .live true)).Yields db exchange
      findings db' exchange') :
    Counts db' account ∧ (∀ id, db'.termsAt id = db.termsAt id) ∧
      db'.instruments = db.instruments := by
  have stuck : ∀ id ∈ db.listStuck .live true, ∃ terms, db.termsAt id = some terms ∧
      terms.brokerOrderId = none := by
    intro id mem
    rcases RowTable.mem_select.mp mem with ⟨order, found, kept⟩
    simp only [Bool.not_true, Bool.false_or, Bool.and_eq_true, Option.isNone_iff_eq_none] at kept
    exact ⟨order.terms, by simp [DB.termsAt, found], kept.2⟩
  refine (collect_invariant (motive := fun rest later _ =>
    (∀ id ∈ rest, id ∈ db.listStuck .live true) ∧ Counts later account ∧
      (∀ id, later.termsAt id = db.termsAt id) ∧ later.instruments = db.instruments)
    ?_ ⟨fun _ mem => mem, counts, fun _ => rfl, rfl⟩ yields).2
  rintro id rest middle middleWorld finding next nextWorld _ ⟨within, counts, terms, instruments⟩
    failed
  rcases yields_failStuck (yields_lift.mp failed).1 with ⟨order, found, orders, _, _, instrumentsEq⟩
  have unacknowledged : order.brokerOrderId = none := by
    rcases stuck id (within id List.mem_cons_self) with ⟨old, oldFound, none⟩
    have same := terms id
    rw [oldFound, DB.termsAt, found, Option.map_some, Option.some.injEq] at same
    rw [← none, ← same]
    rfl
  have rows : ∀ other row, next.orders.get? other = some row →
      row.brokerOrderId = none ∧ row.filledQty = order.filledQty ∧ row.mode = order.mode ∧
        other = id ∨ middle.orders.get? other = some row := by
    intro other row rowFound
    rw [orders] at rowFound
    by_cases same : other = id
    · subst other
      rw [RowTable.get?_update_self, found, Option.map_some, Option.some.injEq] at rowFound
      subst row
      exact .inl ⟨unacknowledged, rfl, rfl, rfl⟩
    · rw [RowTable.get?_update_of_ne same] at rowFound
      exact .inr rowFound
  refine ⟨fun other mem => within other (List.mem_cons_of_mem _ mem),
    ⟨fun other row rowFound isLive => ?_, fun other row rowFound isLive isClosed => ?_⟩,
    fun other => ?_, instrumentsEq.trans instruments⟩
  · rcases rows other row rowFound with ⟨none, filled, mode, _⟩ | old
    · rw [none, filled, ← unacknowledged]
      exact counts.within id order found (mode ▸ isLive)
    · exact counts.within other row old isLive
  · rcases rows other row rowFound with ⟨none, filled, mode, _⟩ | old
    · have bounded := counts.within id order found (mode ▸ isLive)
      rw [unacknowledged] at bounded
      rw [none, filled]
      refine ⟨Nat.le_antisymm bounded (Nat.zero_le _), fun _ present => ?_⟩
      cases present
    · exact counts.closed other row old isLive isClosed
  · rw [← terms other, DB.termsAt, DB.termsAt, orders]
    exact Trading.terms_update found rfl other

/-- A reconciliation asks for the status of an order, at this state of the exchange. -/
def UpstoxBroker.StatusAsked (broker : UpstoxBroker Exchange) (clock : ℕ → ℤ) (db : DB)
    (exchange : Exchange) (order : Order) (brokerOrderId : String) (asked : Exchange) : Prop :=
  ∃ findings checked id middle,
    (collect (fun id => lift (failStuck id)) (db.listStuck .live true)).Yields db exchange findings
        checked exchange ∧
      broker.Polls clock checked exchange id middle asked ∧
      checked.orders.get? id = some order ∧ order.brokerOrderId = some brokerOrderId

/-- What is filled of an order at `read` is what its status request at `asked` answered, or
what its row counts where that request failed. -/
def UpstoxBroker.OnTime (broker : UpstoxBroker Exchange) (read asked : Exchange) (order : Order)
    (brokerOrderId : String) : Prop :=
  (∀ answered, broker.StatusAnswered brokerOrderId asked answered →
    read.account.filledOf (some brokerOrderId) = answered.account.filledOf (some brokerOrderId)) ∧
  ((∀ answered, ¬ broker.StatusAnswered brokerOrderId asked answered) →
    read.account.filledOf (some brokerOrderId) = order.filledQty)

/-- A reconciliation that returns leaves the exchange as its positions answer did. Until then
no order has filled more than its status request answered, or than its row counted where that
request failed. -/
def UpstoxBroker.NoLateFill (broker : UpstoxBroker Exchange) (killThresholdQty : ℕ)
    (clock : ℕ → ℤ) (now : ℤ) (db : DB) (exchange : Exchange) : Prop :=
  ∀ findings db' read, (reconcileOnStartup .live (some broker) killThresholdQty clock now).Yields db
      exchange findings db' read →
    ∀ order brokerOrderId asked, broker.StatusAsked clock db exchange order brokerOrderId asked →
      broker.OnTime read asked order brokerOrderId

/-- Every LIVE row counts all that its order has filled. -/
def Whole (db : DB) (account : Account) : Prop :=
  ∀ id order, db.orders.get? id = some order → order.mode = .live →
    order.filledQty = account.filledOf order.brokerOrderId

theorem Whole.reported {db : DB} {account : Account} (whole : Whole db account)
    (instrumentId : ℕ) : db.reported account instrumentId = db.signedFilled instrumentId := by
  refine RowTable.total_congr fun id order found => ?_
  change (if order.mode = .live ∧ order.instrumentId = instrumentId then
    order.side.sign * (account.filledOf order.brokerOrderId : ℤ) else 0) = _
  unfold Order.signedFilled
  split_ifs with counts
  · rw [whole id order found counts.1]
  · rfl

/-- The quantity that the broker rows give an instrument is the net quantity of the account. -/
theorem brokerQty_positionRows {db : DB} {account : Account} (owns : Owns db account)
    {instrument : Instrument} (mem : instrument ∈ db.instruments) (price : String → ℚ) :
    brokerQty (brokerPositionFor ((account.positionRows price).filterMap
        (UpstoxBroker.toBrokerPosition db)) instrument.id) =
      account.netQty instrument.instrumentKey := by
  have byKey : db.instrumentByKey instrument.instrumentKey = some instrument := by
    rcases found : db.instrumentByKey instrument.instrumentKey with _ | other
    · simp only [DB.instrumentByKey, List.find?_eq_none] at found
      exact absurd (by simp) (found instrument mem)
    · have otherMem := List.mem_of_find?_eq_some found
      have sameKey : other.instrumentKey = instrument.instrumentKey := by
        simpa using List.find?_some found
      rw [owns.eq_of_key otherMem mem sameKey]
  have rows : ∀ position, position ∈ (account.positionRows price).filterMap
      (UpstoxBroker.toBrokerPosition db) ∧ position.instrumentId = instrument.id →
        position.qty = account.netQty instrument.instrumentKey := by
    rintro position ⟨present, sameId⟩
    simp only [Account.positionRows, List.mem_filterMap, List.mem_map] at present
    rcases present with ⟨_, ⟨entry, entryMem, rfl⟩, read⟩
    simp only [UpstoxBroker.toBrokerPosition, Option.getD_some] at read
    split at read
    · cases read
    · rename_i other found
      split_ifs at read with flat
      rw [Option.some.injEq] at read
      subst position
      have otherMem := List.mem_of_find?_eq_some found
      have otherKey : other.instrumentKey = entry.1 := by simpa using List.find?_some found
      have sameInstrument := owns.eq_of_id otherMem mem sameId
      have lookup : account.positions.lookup instrument.instrumentKey = some entry.2 := by
        rw [← sameInstrument, otherKey]
        exact AList.mem_lookup_iff.mpr entryMem
      simp [Account.netQty, lookup]
  rcases found : brokerPositionFor ((account.positionRows price).filterMap
      (UpstoxBroker.toBrokerPosition db)) instrument.id with _ | position
  · simp only [brokerPositionFor, List.find?_eq_none, List.mem_reverse, decide_eq_true_eq] at found
    by_contra unequal
    rcases lookup : account.positions.lookup instrument.instrumentKey with _ | qty
    · simp [Account.netQty, lookup, brokerQty] at unequal
    · have nonzero : qty ≠ 0 := by
        rintro rfl
        simp [Account.netQty, lookup, brokerQty] at unequal
      have entryMem := AList.mem_lookup_iff.mp (Option.mem_def.mpr lookup)
      refine found ⟨instrument.id, qty, price instrument.instrumentKey⟩ ?_ rfl
      simp only [Account.positionRows, List.mem_filterMap, List.mem_map]
      exact ⟨_, ⟨⟨instrument.instrumentKey, qty⟩, entryMem, rfl⟩,
        by simp [UpstoxBroker.toBrokerPosition, byKey, nonzero]⟩
  · have present := List.mem_of_find?_eq_some found
    have sameId := List.find?_some found
    exact rows position ⟨List.mem_reverse.mp present, by simpa using sameId⟩

section Reconciliation

variable {broker : UpstoxBroker Exchange} {market : Market} {db db' : DB} {clock : ℕ → ℤ}
  {exchange exchange' : Exchange}

/-- Without late fills a poll leaves every row whole, as of the positions that are read. -/
theorem whole_pollAndApplyFills (served : broker.transport = market.transport)
    (counts : Counts db exchange.account) {read : Exchange} (later : exchange.Later read)
    (onTime : ∀ id order brokerOrderId middle asked,
      broker.Polls clock db exchange id middle asked → db.orders.get? id = some order →
        order.brokerOrderId = some brokerOrderId → broker.OnTime read asked order brokerOrderId)
    {updates : List OrderUpdate}
    (yields : (broker.pollAndApplyFills clock).Yields db exchange updates db' exchange') :
    Whole db' read.account := by
  have closedRows : ∀ id order, id ∉ db.listOpenOrders .live → db.orders.get? id = some order →
      order.mode = .live → order.filledQty = read.account.filledOf order.brokerOrderId := by
    intro id order notOpen found isLive
    have isClosed : order.state.isOpen = false := by
      by_contra isOpen
      exact notOpen (DB.mem_listOpenOrders.mpr
        ⟨order, found, by simpa [Order.isWorking, isLive] using isOpen⟩)
    rcases counts.closed id order found isLive isClosed with ⟨filled, isOver⟩
    rcases later with ⟨brokerMoves, moved⟩
    rw [moved, Counts.filledOf_moves_of_isOver isOver, filled]
  have finished := UpstoxBroker.pollAndApplyFills_invariant
    (motive := fun rest middle middleExchange => Counts middle middleExchange.account ∧
      (∀ id ∈ rest, middle.orders.get? id = db.orders.get? id) ∧
      ∀ id order, id ∉ rest → middle.orders.get? id = some order → order.mode = .live →
        order.filledQty = read.account.filledOf order.brokerOrderId)
    ?_ ⟨counts, fun _ _ => rfl, closedRows⟩ yields
  · exact fun id order found isLive => finished.2.2 id order (List.not_mem_nil) found isLive
  · rintro id rest order middle asked update next nextExchange ⟨counts, waiting, done⟩ last polls
      found working polled
    have isLive : order.mode = .live := UpstoxBroker.mode_of_isWorking working
    have foundBefore : db.orders.get? id = some order :=
      (waiting id List.mem_cons_self).symm.trans found
    have untouched := (UpstoxBroker.trading_pollOrder found working polled).2
    refine ⟨counts_pollOrder served counts found working polled, fun other mem => ?_,
      fun other row notWaiting rowFound rowLive => ?_⟩
    · rw [untouched other fun same => last (same ▸ mem)]
      exact waiting other (List.mem_cons_of_mem _ mem)
    · by_cases same : other = id
      · subst other
        cases polledRow_pollOrder served counts found working polled with
        | unasked unacknowledged unchanged =>
            rw [unchanged, found, Option.some.injEq] at rowFound
            subst row
            have bounded := counts.within id order found isLive
            rw [unacknowledged] at bounded ⊢
            exact Nat.le_antisymm bounded (Nat.zero_le _)
        | unanswered acknowledged failed unchanged =>
            rw [unchanged, found, Option.some.injEq] at rowFound
            subst row
            rw [acknowledged]
            exact ((onTime id order _ middle asked polls foundBefore acknowledged).2 failed).symm
        | answered acknowledged answered polledFound terms whole closes others =>
            rw [polledFound, Option.some.injEq] at rowFound
            subst rowFound
            rename_i brokerOrderId polledRow
            have rowAcknowledged : polledRow.brokerOrderId = some brokerOrderId :=
              (congrArg OrderTerms.brokerOrderId terms).trans acknowledged
            rw [whole, rowAcknowledged]
            exact ((onTime id order _ middle asked polls foundBefore acknowledged).1 _
              answered).symm
      · rw [untouched other same] at rowFound
        exact done other row (by simp [same, notWaiting]) rowFound rowLive

/-- The steps of a reconciliation that returns. -/
theorem yields_reconcileOnStartup {killThresholdQty : ℕ} {now : ℤ}
    {findings : List ReconciliationFinding} {ω : Type} {broker : UpstoxBroker ω} {world world' : ω}
    (yields : (reconcileOnStartup .live (some broker) killThresholdQty clock now).Yields db world
      findings db' world') :
    ∃ checked failedWorld updates polled polledWorld payload rows,
      (collect (fun id => lift (failStuck id)) (db.listStuck .live true)).Yields db world findings
          checked failedWorld ∧
        (broker.pollAndApplyFills clock).Yields checked failedWorld updates polled polledWorld ∧
        broker.request .getPositions polledWorld = (.ok payload, world') ∧
        payload.rows = .ok rows ∧
        db' = correctPositions killThresholdQty now
          (rows.filterMap (UpstoxBroker.toBrokerPosition polled)) polled := by
  simp only [reconcileOnStartup, yields_bind, yields_read, yields_pure,
    UpstoxBroker.reconcilePositions, UpstoxBroker.getPositions, UpstoxBroker.rawPositions,
    yields_external, yields_ofExcept, yields_modify] at yields
  rcases yields with ⟨_, _, _, ⟨rfl, rfl, rfl⟩, _, checked, failedWorld, failed, updates, polled,
    polledWorld, poll, _, _, _, ⟨positions, _, _, ⟨rows, _, _, ⟨answered, _, _, ⟨sent, rfl⟩,
      read, rfl, rfl⟩, _, _, _, ⟨rfl, rfl, rfl⟩, rfl, rfl, rfl⟩, rfl, rfl⟩, rfl, rfl, rfl⟩
  cases answered with
  | error raised => cases read
  | ok payload => exact ⟨checked, failedWorld, updates, _, polledWorld, payload, rows, failed, poll,
      sent, read, rfl⟩

variable {killThresholdQty : ℕ} {now : ℤ}

theorem later_reconcileOnStartup (served : broker.transport = market.transport) :
    Moves Exchange.Later (reconcileOnStartup .live (some broker) killThresholdQty clock now) := by
  refine moves_bind moves_read fun _ _ _ _ _ _ => ?_
  refine moves_bind (moves_collect (fun _ => moves_lift _) _) fun _ _ _ _ _ _ => ?_
  refine moves_bind (later_pollAndApplyFills served) fun _ _ _ _ _ _ => ?_
  refine moves_bind ?_ fun _ _ _ _ _ _ => moves_pure _
  refine moves_bind (moves_bind ?_ fun _ _ _ _ _ _ => ?_) fun _ _ _ _ _ _ => moves_modify _
  · refine moves_bind (moves_external fun exchange => ?_) fun _ _ _ _ _ _ => moves_ofExcept _
    rw [UpstoxBroker.request, served]
    exact market.later_sendRequest _ _ exchange
  · exact moves_bind moves_read fun _ _ _ _ _ _ => moves_pure _

/-- A reconciliation leaves a position off by the fills that the positions it read include and
the rows do not count; the positions before it do not matter. -/
theorem deviation_reconcileOnStartup (served : broker.transport = market.transport)
    (owns : Owns db exchange.account) (counts : Counts db exchange.account)
    {findings : List ReconciliationFinding}
    (yields : (reconcileOnStartup .live (some broker) killThresholdQty clock now).Yields db exchange
      findings db' exchange') :
    Owns db' exchange'.account ∧ Counts db' exchange'.account ∧
      ∀ instrument ∈ db'.instruments, db'.deviation exchange'.account instrument =
        db'.reported exchange'.account instrument.id - db'.signedFilled instrument.id := by
  rcases yields_reconcileOnStartup yields with ⟨checked, failedWorld, updates, polled, polledWorld,
    payload, rows, failed, poll, sent, read, rfl⟩
  have sameWorld : exchange = failedWorld :=
    (moves_collect (fun id => moves_lift (failStuck id)) _).of_yields failed
  subst failedWorld
  rcases counts_failAllStuck counts failed with ⟨countsChecked, terms, instruments⟩
  have countsPolled := counts_pollAndApplyFills served countsChecked poll
  have ownsPolled := (owns.congr instruments terms).trading
    (UpstoxBroker.trading_pollAndApplyFills poll)
  rw [UpstoxBroker.request, served] at sent
  have answered := market.later_sendRequest broker.cfg.maxRetries .getPositions polledWorld
  rw [sent] at answered
  rcases (later_pollAndApplyFills served).of_yields poll with ⟨earlier, polledEq⟩
  rcases answered with ⟨later, readEq⟩
  have ownsRead : Owns polled exchange'.account := by
    rw [readEq, polledEq]
    exact (ownsPolled.moves earlier).moves later
  have countsRead : Counts polled exchange'.account := by
    rw [readEq]
    exact countsPolled.moves later
  have orders := orders_correctPositions killThresholdQty now
    (rows.filterMap (UpstoxBroker.toBrokerPosition polled)) polled
  have sameInstruments := instruments_correctPositions killThresholdQty now
    (rows.filterMap (UpstoxBroker.toBrokerPosition polled)) polled
  refine ⟨ownsRead.congr sameInstruments fun id => by rw [DB.termsAt, orders, DB.termsAt],
    countsRead.congr orders, fun instrument mem => ?_⟩
  rcases Market.rows_honest sent read with ⟨price, rfl⟩
  rw [sameInstruments] at mem
  rw [DB.deviation, DB.unaccounted, positionQty_correctPositions,
    brokerQty_positionRows ownsRead mem]
  ring

theorem whole_reconcileOnStartup (served : broker.transport = market.transport)
    (counts : Counts db exchange.account) {findings : List ReconciliationFinding}
    (yields : (reconcileOnStartup .live (some broker) killThresholdQty clock now).Yields db exchange
      findings db' exchange')
    (onTime : ∀ order brokerOrderId asked,
      broker.StatusAsked clock db exchange order brokerOrderId asked →
        broker.OnTime exchange' asked order brokerOrderId) : Whole db' exchange'.account := by
  have later := (later_reconcileOnStartup served).of_yields yields
  rcases yields_reconcileOnStartup yields with ⟨checked, failedWorld, updates, polled, polledWorld,
    payload, rows, failed, poll, _, _, rfl⟩
  have sameWorld : exchange = failedWorld :=
    (moves_collect (fun id => moves_lift (failStuck id)) _).of_yields failed
  subst failedWorld
  have whole := whole_pollAndApplyFills served (counts_failAllStuck counts failed).1 later
    (fun id order brokerOrderId middle asked polls found acknowledged =>
      onTime order brokerOrderId asked
        ⟨findings, checked, id, middle, failed, polls, found, acknowledged⟩) poll
  intro id order found
  rw [orders_correctPositions] at found
  exact whole id order found

end Reconciliation

/-! ## Runs of reconciliations and polls -/

/-- What can happen while a session recovers: its own two steps, and moves of the account. -/
inductive RecoveryEvent where
  | reconcile (clock : ℕ → ℤ) (now : ℤ)
  | housekeeping (clock : ℕ → ℤ)
  | broker (brokerMoves : List BrokerMove)

/-- The store and the account belong to each other, and no position is off. -/
structure Tracks (db : DB) (account : Account) : Prop where
  owns : Owns db account
  counts : Counts db account
  onCourse : ∀ instrument ∈ db.instruments, db.deviation account instrument = 0

/-- All orders are over at the broker, and the last fill of each has been polled. -/
structure Settled (db : DB) (account : Account) : Prop where
  ended : ∀ brokerOrderId order, account.orders.lookup brokerOrderId = some order →
    order.isTerminal = true
  polled : Whole db account

/-- Being settled is read off the orders on both sides. -/
theorem Settled.of_entries {db : DB} {account : Account}
    (ended : ∀ entry ∈ account.orders.entries, entry.2.isTerminal = true)
    (polled : ∀ order ∈ db.orders.rows, order.mode = .live →
      order.filledQty = account.filledOf order.brokerOrderId) : Settled db account :=
  ⟨fun brokerOrderId order found =>
      ended ⟨brokerOrderId, order⟩ (AList.mem_lookup_iff.mp (Option.mem_def.mpr found)),
    fun _ order found => polled order (List.mem_of_getElem? found)⟩

theorem Tracks.moves {db : DB} {account : Account} (tracks : Tracks db account)
    (brokerMoves : List BrokerMove) : Tracks db (account.moves brokerMoves) :=
  ⟨tracks.owns.moves brokerMoves, tracks.counts.moves brokerMoves, fun instrument mem =>
    (tracks.owns.deviation_moves mem brokerMoves).trans (tracks.onCourse instrument mem)⟩

theorem Tracks.later {db : DB} {exchange exchange' : Exchange}
    (tracks : Tracks db exchange.account) (later : exchange.Later exchange') :
    Tracks db exchange'.account := by
  rcases later with ⟨brokerMoves, moved⟩
  rw [moved]
  exact tracks.moves brokerMoves

/-- A poll books on the positions and on the rows alike. -/
theorem tracks_pollAndApplyFills {broker : UpstoxBroker Exchange} {market : Market}
    {db db' : DB} {clock : ℕ → ℤ} {exchange exchange' : Exchange} {updates : List OrderUpdate}
    (served : broker.transport = market.transport) (tracks : Tracks db exchange.account)
    (yields : (broker.pollAndApplyFills clock).Yields db exchange updates db' exchange') :
    Tracks db' exchange'.account := by
  have trading := UpstoxBroker.trading_pollAndApplyFills yields
  have moved := tracks.later ((later_pollAndApplyFills served).of_yields yields)
  refine ⟨moved.owns.trading trading, counts_pollAndApplyFills served tracks.counts yields,
    fun instrument mem => ?_⟩
  rw [trading.instruments] at mem
  rw [← moved.onCourse instrument mem, DB.deviation, DB.deviation,
    UpstoxBroker.unaccounted_pollAndApplyFills yields, DB.reported_congr trading.terms]

namespace Orchestrator

variable {orchestrator : Orchestrator Exchange} {market : Market}

/-- One step of a recovery. -/
def recover (orchestrator : Orchestrator Exchange) (state : SessionState Exchange) :
    RecoveryEvent → SessionState Exchange
  | .reconcile clock now => orchestrator.runReconcile clock now state
  | .housekeeping clock => orchestrator.runHousekeeping clock state
  | .broker brokerMoves =>
      { state with world := { state.world with account := state.world.account.moves brokerMoves } }

/-- No reconciliation reads positions with a fill that a status request before missed. -/
def ReadsOnTime (orchestrator : Orchestrator Exchange) (state : SessionState Exchange) :
    RecoveryEvent → Prop
  | .reconcile clock now => ∀ broker, orchestrator.upstoxBroker = .ok broker →
      broker.NoLateFill ((orchestrator.upstoxCfg.map
        UpstoxConfig.positionMismatchKillThresholdQty).getD 0) clock now state.db state.world
  | _ => True

theorem transport_of_upstoxBroker {ω : Type} {orchestrator : Orchestrator ω}
    {broker : UpstoxBroker ω} {transport : Transport ω}
    (served : orchestrator.upstoxClient = some transport)
    (configured : orchestrator.upstoxBroker = .ok broker) : broker.transport = transport := by
  unfold upstoxBroker at configured
  split at configured
  · rename_i client _ _ clientEq _ _
    rw [served, Option.some.injEq] at clientEq
    rw [← Except.ok.inj configured, clientEq]
  · cases configured

/-- A unit of work tracks when its body does where it returns; a rollback loses no move. -/
theorem tracks_commit {α : Type} {body : Transaction DB Exchange PyError α} {db : DB}
    {exchange : Exchange} (tracks : Tracks db exchange.account) (moves : Moves Exchange.Later body)
    (returns : ∀ value db' exchange', body.Yields db exchange value db' exchange' →
      Tracks db' exchange'.account) :
    Tracks (body.commit db exchange).2.1 (body.commit db exchange).2.2.account := by
  rcases yields_or_raises body db exchange with ⟨value, db', exchange', yields⟩ |
    ⟨raised, exchange', raises⟩
  · rw [commit_of_yields yields]
    exact returns value db' exchange' yields
  · have moved := moves db exchange
    rw [raises] at moved
    rw [commit_of_raises raises]
    exact tracks.later moved

theorem tracks_recover (live : orchestrator.mode = .live)
    (served : orchestrator.upstoxClient = some market.transport) {state : SessionState Exchange}
    {event : RecoveryEvent} (tracks : Tracks state.db state.world.account)
    (onTime : orchestrator.ReadsOnTime state event) :
    Tracks (orchestrator.recover state event).db
      (orchestrator.recover state event).world.account := by
  cases event with
  | broker brokerMoves => exact tracks.moves brokerMoves
  | housekeeping clock =>
      refine @tracks_commit _ (orchestrator.housekeep state.quotes clock) _ _ tracks ?_ ?_
      · simp only [housekeep, live]
        refine moves_bind (moves_ofExcept _) fun _ _ broker _ _ yields => ?_
        have transportEq := transport_of_upstoxBroker served (yields_ofExcept.mp yields).1
        exact moves_bind (later_pollAndApplyFills transportEq) fun _ _ _ _ _ _ => moves_pure ()
      · intro _ db' exchange' yields
        simp only [housekeep, live, yields_bind, yields_ofExcept, yields_pure] at yields
        rcases yields with ⟨broker, _, _, ⟨configured, rfl, rfl⟩, _, _, _, polled, _, rfl, rfl⟩
        exact tracks_pollAndApplyFills (transport_of_upstoxBroker served configured) tracks polled
  | reconcile clock now =>
      refine @tracks_commit _ (orchestrator.reconcile clock now) _ _ tracks ?_ ?_
      · simp only [reconcile, live]
        refine moves_bind (moves_ofExcept _) fun _ _ broker _ _ yields => ?_
        exact later_reconcileOnStartup
          (transport_of_upstoxBroker served (yields_ofExcept.mp yields).1)
      · intro findings db' exchange' yields
        simp only [reconcile, live, yields_bind, yields_ofExcept] at yields
        rcases yields with ⟨broker, _, _, ⟨configured, rfl, rfl⟩, reconciled⟩
        have transportEq := transport_of_upstoxBroker served configured
        rcases deviation_reconcileOnStartup transportEq tracks.owns tracks.counts reconciled with
          ⟨owns, counts, deviation⟩
        refine ⟨owns, counts, fun instrument mem => ?_⟩
        rw [deviation instrument mem, (whole_reconcileOnStartup transportEq tracks.counts reconciled
          (onTime broker configured _ _ _ reconciled)).reported, sub_self]

/-- In every recovery that reads positions on time, a position agrees with the account as soon
as every order is over and its last fill is polled. -/
theorem positionQty_eq_netQty (orchestrator : Orchestrator Exchange) (market : Market)
    (live : orchestrator.mode = .live)
    (served : orchestrator.upstoxClient = some market.transport)
    {start state : SessionState Exchange} (tracks : Tracks start.db start.world.account)
    (reached : Reaches orchestrator.recover orchestrator.ReadsOnTime start state)
    (settled : Settled state.db state.world.account) :
    ∀ instrument ∈ state.db.instruments, state.db.positionQty instrument.id .live =
      state.world.account.netQty instrument.instrumentKey := by
  have tracked := reached.invariant (motive := fun later => Tracks later.db later.world.account)
    tracks fun _ _ tracks onTime => tracks_recover live served tracks onTime
  intro instrument mem
  have onCourse := tracked.onCourse instrument mem
  rw [DB.deviation, DB.unaccounted, settled.polled.reported] at onCourse
  omega

/-! ## A sample recovery -/

/-- An exchange that fills the order `a` of ten shares around one of the requests. -/
def fillingMarket (request : ℕ) : Market where
  turn k := if k = request then { moves := [.fill "a" 10 100, .status "a" "complete"] } else {}
  rowPrice _ _ := 100

/-- The sample session at that exchange. -/
def recoveringSession (request : ℕ) : Orchestrator Exchange :=
  { sampleSession .live with upstoxClient := some (fillingMarket request).transport }

/-- The row of the order `a`, submitted and acknowledged. -/
def submittedSample : Order where
  clientOrderId := "a"
  brokerOrderId := some "a"
  instrumentId := 1
  signalId := none
  side := .buy
  orderType := .market
  qty := 10
  filledQty := 0
  limitPrice := none
  state := .submitted
  mode := .live
  filledQty_le := Nat.zero_le _

/-- The order `a` at the exchange. -/
def exchangeSample : ExchangeOrder := .unfilled "NSE_EQ|INFY" .buy 10 "open"

/-- A restart with one submitted order. -/
def restart : SessionState Exchange where
  db := { instruments := sampleInstruments, orders := ⟨[submittedSample]⟩ }
  quotes := sampleStart.quotes
  world := ⟨{ orders := AList.singleton "a" exchangeSample }, 0⟩

theorem get?_restart {id : ℕ} {order : Order} (found : restart.db.orders.get? id = some order) :
    id = 0 ∧ order = submittedSample := by
  have first : id = 0 := by
    have below := RowTable.lt_nextId_of_get? found
    simp only [restart, RowTable.nextId, List.length_singleton] at below
    omega
  subst first
  exact ⟨rfl, (Option.some.inj found).symm⟩

theorem tracks_restart : Tracks restart.db restart.world.account := by
  refine ⟨⟨by decide, by decide, ?_, ?_⟩, ⟨?_, ?_⟩, by decide +kernel⟩
  · intro id id' terms terms' _ found found' _ _ _ _
    rcases Option.map_eq_some_iff.mp found with ⟨row, rowFound, _⟩
    rcases Option.map_eq_some_iff.mp found' with ⟨row', rowFound', _⟩
    rw [(get?_restart rowFound).1, (get?_restart rowFound').1]
  · intro brokerOrderId exchangeOrder found
    have present := AList.mem_lookup_iff.mp (Option.mem_def.mpr found)
    simp only [restart, AList.singleton_entries, List.mem_singleton, Sigma.mk.injEq] at present
    rcases present with ⟨rfl, same⟩
    rw [eq_of_heq same]
    exact ⟨0, submittedSample.terms, rfl, rfl, rfl, rfl, ⟨1, "INFY", "NSE_EQ|INFY", 1 / 20⟩,
      List.mem_cons_self, rfl, rfl⟩
  · intro id order found _
    rw [(get?_restart found).2]
    exact Nat.zero_le _
  · intro id order found _ isClosed
    rw [(get?_restart found).2] at isClosed
    cases isClosed

/-- A fill between the status request and the positions request is counted by both: twenty
shares in the store, ten at the broker. -/
theorem late_fill_counted_twice :
    Tracks restart.db restart.world.account ∧
      ¬ ∀ state, Reaches (recoveringSession 1).recover (fun _ _ => True) restart state →
        Settled state.db state.world.account → ∀ instrument ∈ state.db.instruments,
          state.db.positionQty instrument.id .live =
            state.world.account.netQty instrument.instrumentKey := by
  refine ⟨tracks_restart, fun claim => ?_⟩
  let events : List RecoveryEvent := [.reconcile (fun _ => 0) 0, .housekeeping fun _ => 0]
  have settled : Settled (runSteps (recoveringSession 1).recover restart events).db
      (runSteps (recoveringSession 1).recover restart events).world.account :=
    .of_entries (by decide +kernel) (by decide +kernel)
  have equal := claim _ (Reaches.of_labels _ restart events) settled
  revert equal
  decide +kernel

theorem positionQty_eq_netQty_sample :
    (runSteps (recoveringSession 0).recover restart
        [.reconcile (fun _ => 0) 0, .housekeeping fun _ => 0]).db.positionQty 1 .live =
      (runSteps (recoveringSession 0).recover restart
        [.reconcile (fun _ => 0) 0, .housekeeping fun _ => 0]).world.account.netQty
          "NSE_EQ|INFY" := by
  have waiting : restart.db.listOpenOrders .live = [0] := by decide +kernel
  have onTime : (recoveringSession 0).ReadsOnTime restart (.reconcile (fun _ => 0) 0) := by
    rintro broker configured findings db' read yields order brokerOrderId asked
      ⟨_, checked, id, middle, failed, ⟨earlier, later, _, split, soFar⟩, found, acknowledged⟩
    have unstuck : restart.db.listStuck .live true = [] := by decide +kernel
    rw [unstuck] at failed
    simp only [collect, yields_pure] at failed
    rw [failed.2.1] at split soFar found
    rw [waiting] at split
    cases earlier with
    | cons first rest => simp at split
    | nil =>
        simp only [collect, yields_pure] at soFar
        rcases soFar with ⟨_, _, rfl⟩
        rcases get?_restart found with ⟨_, rfl⟩
        have brokerEq : broker = ⟨(fillingMarket 0).transport, {}, {}⟩ :=
          (Except.ok.inj configured).symm
        subst brokerEq
        have sameId : "a" = brokerOrderId := Option.some.inj acknowledged
        subst sameId
        have readFilled : read.account.filledOf (some "a") = 10 := by
          have ran : _ = read := congrArg Prod.snd yields
          rw [← ran]
          decide +kernel
        refine ⟨fun answered isAnswered => ?_, fun failed => ?_⟩
        · rcases isAnswered with ⟨payload, sent⟩
          have ran : _ = answered := congrArg Prod.snd sent
          rw [readFilled, ← ran]
          decide +kernel
        · exact absurd ⟨.orderDetails ⟨some 10, some 10, some "complete", some 100⟩,
            Prod.ext (by decide +kernel) rfl⟩ (failed _)
  have meets : Meets (recoveringSession 0).recover (recoveringSession 0).ReadsOnTime restart
      [.reconcile (fun _ => 0) 0, .housekeeping fun _ => 0] := ⟨onTime, trivial, trivial⟩
  exact positionQty_eq_netQty (recoveringSession 0) (fillingMarket 0) rfl rfl tracks_restart
    (Reaches.of_meets _ meets) (.of_entries (by decide +kernel) (by decide +kernel))
    ⟨1, "INFY", "NSE_EQ|INFY", 1 / 20⟩
    (by decide +kernel)

end Orchestrator

end PersonalTrade
