import PersonalTrade.Execution.PaperRun

/-!
# The audit chain of paper orders

Three tables tell the history of an order: its row, its events and its trades.
`AuditKept` links them and is kept by every move of the paper broker. That the broker
never attempts a refused transition needs more: between two calls an order is either
open for fills or over (`Quiescent`).
-/

namespace PersonalTrade

open Transaction

/-- The events of one order, in insertion order. -/
def DB.eventsOf (db : DB) (orderId : ℕ) : List OrderEvent :=
  db.orderEvents.filter fun event => event.orderId = orderId

/-- The events form a chain of allowed transitions from birth to the current state. -/
structure EventChain (events : List OrderEvent) (state : OrderState) : Prop where
  born : events.head?.map OrderEvent.fromState = some none
  linked : events.IsChain fun earlier later => later.fromState = some earlier.toState ∧
    later.toState ∈ allowedOrderTransitions earlier.toState
  current : events.getLast?.map OrderEvent.toState = some state

/-- A chain goes on with an allowed transition from its current state. -/
theorem EventChain.append {events : List OrderEvent} {state : OrderState}
    (chain : EventChain events state) {event : OrderEvent} (fromState : event.fromState = some state)
    (allowed : event.toState ∈ allowedOrderTransitions state) :
    EventChain (events ++ [event]) event.toState := by
  rcases chain with ⟨born, linked, current⟩
  refine ⟨?_, ?_, by simp⟩
  · cases events with
    | nil => simp at born
    | cons first rest => simpa using born
  · refine linked.append (by simp) fun last lastMem next nextMem => ?_
    simp only [List.head?_cons, Option.mem_some_iff] at nextMem
    subst next
    have lastState : last.toState = state := by
      simpa [Option.mem_def.mp lastMem] using current
    rw [lastState]
    exact ⟨fromState, allowed⟩

/-- The three tables tell one history of an order. -/
structure OrderAudited (db : DB) (id : ℕ) (order : Order) : Prop where
  chained : EventChain (db.eventsOf id) order.state
  traded : db.tradedQty id = order.filledQty
  complete : order.state = .filled ↔ order.filledQty = order.qty

/-- The tables tell one history of every order, and nothing of orders to come. -/
structure AuditKept (db : DB) : Prop where
  audited : ∀ id order, db.orders.get? id = some order → OrderAudited db id order
  unborn : ∀ id, db.orders.nextId ≤ id → db.eventsOf id = [] ∧ db.tradesOf id = []

/-- The history of an order depends on its events and trades only. -/
theorem OrderAudited.congr {db db' : DB} {id : ℕ} {order : Order}
    (audited : OrderAudited db id order) (events : db'.eventsOf id = db.eventsOf id)
    (trades : db'.tradesOf id = db.tradesOf id) : OrderAudited db' id order := by
  refine ⟨?_, ?_, audited.complete⟩
  · rw [events]
    exact audited.chained
  · rw [DB.tradedQty, trades]
    exact audited.traded

namespace DB

variable (db : DB)

theorem eventsOf_createOrder (order : Order) (id : ℕ) : (db.createOrder order).eventsOf id =
    db.eventsOf id ++ if id = db.orders.nextId then
      [⟨db.orders.nextId, none, order.state, .empty⟩] else [] := by
  simp only [eventsOf, createOrder, List.filter_append]
  by_cases new : id = db.orders.nextId
  · simp [new]
  · simp [new, Ne.symm new]

theorem eventsOf_moveOrder (id other : ℕ) (fromState toState : OrderState)
    (payload : EventPayload) : (db.moveOrder id fromState toState payload).eventsOf other =
      db.eventsOf other ++ if other = id then [⟨id, some fromState, toState, payload⟩] else [] := by
  simp only [eventsOf, moveOrder, List.filter_append]
  by_cases same : other = id
  · simp [same]
  · simp [same, Ne.symm same]

end DB

/-- The row that a fill leaves. -/
def Order.executed (order : Order) (qty : ℕ) (within : order.filledQty + qty ≤ order.qty) : Order :=
  { order.withFilled (order.filledQty + qty) within with
    state := if order.qty ≤ order.filledQty + qty then .filled else .partiallyFilled }

namespace DB

variable {db : DB} {id : ℕ} {order : Order} {qty : ℕ} {price : ℚ} {costs : TradeCosts} {time : ℤ}
  {within : order.filledQty + qty ≤ order.qty}

theorem get?_execute (found : db.orders.get? id = some order) (other : ℕ) :
    (db.execute id order qty price costs time within).orders.get? other =
      if other = id then some (order.executed qty within) else db.orders.get? other := by
  have kept : (db.bookFill .paper id order qty price costs time).orders = db.orders := rfl
  simp only [execute, moveOrder, updateOrder, setCash, kept]
  by_cases same : other = id
  · subst other
    simp [found, Order.executed]
  · simp [RowTable.get?_update_of_ne same, same]

theorem nextId_execute : (db.execute id order qty price costs time within).orders.nextId =
    db.orders.nextId := by
  have kept : (db.bookFill .paper id order qty price costs time).orders = db.orders := rfl
  simp only [execute, moveOrder, updateOrder, setCash, kept, RowTable.nextId_update]

theorem eventsOf_execute (other : ℕ) :
    (db.execute id order qty price costs time within).eventsOf other =
      db.eventsOf other ++ if other = id then [⟨id, some order.state,
        if order.qty ≤ order.filledQty + qty then .filled else .partiallyFilled,
        .fill qty price⟩] else [] := by
  rw [execute, eventsOf_moveOrder]
  rfl

theorem tradesOf_execute_of_ne {other : ℕ} (ne : other ≠ id) :
    (db.execute id order qty price costs time within).tradesOf other = db.tradesOf other := by
  change (db.bookFill .paper id order qty price costs time).tradesOf other = _
  simp [tradesOf, bookFill, List.filter_append, Ne.symm ne]

theorem tradedQty_execute (other : ℕ) :
    (db.execute id order qty price costs time within).tradedQty other =
      db.tradedQty other + if other = id then qty else 0 :=
  tradedQty_bookFill db .paper id other order qty price costs time

end DB

section Moves

variable {db : DB}

theorem auditKept_createOrder (audit : AuditKept db) {order : Order} (positive : order.qty ≠ 0)
    (unfilled : order.filledQty = 0) (born : order.state = .pendingRisk) :
    AuditKept (db.createOrder order) := by
  have events := db.eventsOf_createOrder order
  have rows := RowTable.get?_insert db.orders order
  have fresh := audit.unborn db.orders.nextId le_rfl
  refine ⟨fun id row found => ?_, fun id beyond => ?_⟩
  · by_cases new : id = db.orders.nextId
    · subst id
      have rowEq : order = row := by simpa [DB.createOrder] using found
      subst row
      refine ⟨?_, ?_, ?_⟩
      · rw [events, fresh.1, if_pos rfl]
        exact ⟨rfl, .singleton _, rfl⟩
      · have untraded : (db.createOrder order).tradesOf db.orders.nextId = [] := fresh.2
        rw [DB.tradedQty, untraded, unfilled]
        rfl
      · rw [born, unfilled]
        exact iff_of_false (by simp) positive.symm
    · have old : db.orders.get? id = some row := by simpa [DB.createOrder, rows, new] using found
      refine (audit.audited id row old).congr ?_ rfl
      rw [events, if_neg new, List.append_nil]
  · have later : db.orders.nextId < id := by
      simp only [DB.createOrder, RowTable.nextId_insert] at beyond
      omega
    rw [events, if_neg later.ne', List.append_nil]
    exact audit.unborn id later.le

variable {id : ℕ} {order : Order}

theorem auditKept_moveOrder (audit : AuditKept db) (found : db.orders.get? id = some order)
    {toState : OrderState} (payload : EventPayload)
    (allowed : toState ∈ allowedOrderTransitions order.state) (unfilling : toState ≠ .filled) :
    AuditKept (db.moveOrder id order.state toState payload) := by
  have events := db.eventsOf_moveOrder id
  have before := audit.audited id order found
  refine ⟨fun other row rowFound => ?_, fun other beyond => ?_⟩
  · by_cases same : other = id
    · subst other
      have rowEq : { order with state := toState } = row := by
        simpa [DB.moveOrder, found] using rowFound
      subst row
      refine ⟨?_, before.traded, ?_⟩
      · rw [events, if_pos rfl]
        exact before.chained.append rfl allowed
      · -- a filled order has no transition left
        have unfilled : order.state ≠ .filled := by
          intro filled
          simp [filled, allowedOrderTransitions] at allowed
        exact iff_of_false unfilling (mt before.complete.mpr unfilled)
    · have old : db.orders.get? other = some row := by
        simpa [DB.moveOrder, RowTable.get?_update_of_ne same] using rowFound
      refine (audit.audited other row old).congr ?_ rfl
      rw [events, if_neg same, List.append_nil]
  · have later : db.orders.nextId ≤ other := by simpa [DB.moveOrder] using beyond
    have ne : other ≠ id := by
      have below := RowTable.lt_nextId_of_get? found
      omega
    rw [events, if_neg ne, List.append_nil]
    exact audit.unborn other later

theorem auditKept_execute (audit : AuditKept db) (found : db.orders.get? id = some order) {qty : ℕ}
    (within : order.filledQty + qty ≤ order.qty)
    (allowed : (if order.qty ≤ order.filledQty + qty then .filled else .partiallyFilled) ∈
      allowedOrderTransitions order.state) (price : ℚ) (costs : TradeCosts) (time : ℤ) :
    AuditKept (db.execute id order qty price costs time within) := by
  have before := audit.audited id order found
  refine ⟨fun other row rowFound => ?_, fun other beyond => ?_⟩
  · rw [DB.get?_execute found] at rowFound
    by_cases same : other = id
    · subst other
      rw [if_pos rfl, Option.some.injEq] at rowFound
      subst row
      refine ⟨?_, ?_, ?_⟩
      · rw [DB.eventsOf_execute, if_pos rfl]
        exact before.chained.append rfl allowed
      · rw [DB.tradedQty_execute, if_pos rfl, before.traded]
        rfl
      · simp only [Order.executed, Order.withFilled]
        split_ifs with whole
        · exact iff_of_true rfl (le_antisymm within whole)
        · exact iff_of_false (by simp) fun full => whole full.ge
    · rw [if_neg same] at rowFound
      refine (audit.audited other row rowFound).congr ?_ (DB.tradesOf_execute_of_ne same)
      rw [DB.eventsOf_execute, if_neg same, List.append_nil]
  · rw [DB.nextId_execute] at beyond
    have ne : other ≠ id := by
      have below := RowTable.lt_nextId_of_get? found
      omega
    rw [DB.eventsOf_execute, if_neg ne, List.append_nil, DB.tradesOf_execute_of_ne ne]
    exact audit.unborn other beyond

theorem auditKept_move {db' : DB} (audit : AuditKept db) (move : PaperMove db db') :
    AuditKept db' := by
  cases move with
  | create order positive unfilled born _ => exact auditKept_createOrder audit positive unfilled born
  | move found payload allowed unfilling =>
      exact auditKept_moveOrder audit found payload allowed unfilling.1
  | fill found _ within allowed price costs time =>
      exact auditKept_execute audit found within allowed price costs time

end Moves

/-- Orders only grow: they keep their quantity, what is filled stays filled, and an order that
is over is left alone. -/
def Grows (db db' : DB) : Prop :=
  ∀ id order, db.orders.get? id = some order → ∃ order', db'.orders.get? id = some order' ∧
    order'.qty = order.qty ∧ order.filledQty ≤ order'.filledQty ∧
    (order.state.isTerminal = true →
      order' = order ∧ db'.eventsOf id = db.eventsOf id ∧ db'.tradesOf id = db.tradesOf id)

theorem Grows.refl (db : DB) : Grows db db := fun _ order found =>
  ⟨order, found, rfl, le_rfl, fun _ => ⟨rfl, rfl, rfl⟩⟩

theorem Grows.trans {db db' db'' : DB} (first : Grows db db') (second : Grows db' db'') :
    Grows db db'' := by
  intro id order found
  rcases first id order found with ⟨order', found', qty, filled, over'⟩
  rcases second id order' found' with ⟨order'', found'', qty', filled', over''⟩
  refine ⟨order'', found'', qty'.trans qty, filled.trans filled', fun terminal => ?_⟩
  rcases over' terminal with ⟨rfl, events, trades⟩
  rcases over'' terminal with ⟨rfl, events', trades'⟩
  exact ⟨rfl, events'.trans events, trades'.trans trades⟩

theorem grows_move {db db' : DB} (move : PaperMove db db') : Grows db db' := by
  cases move with
  | create order _ _ _ _ =>
      intro id row found
      have old : id ≠ db.orders.nextId := (RowTable.lt_nextId_of_get? found).ne
      have events : (db.createOrder order).eventsOf id = db.eventsOf id := by
        rw [DB.eventsOf_createOrder, if_neg old, List.append_nil]
      refine ⟨row, ?_, rfl, le_rfl, fun _ => ⟨rfl, events, rfl⟩⟩
      simpa [DB.createOrder, RowTable.get?_insert_of_ne old] using found
  | @move id order found toState payload allowed _ =>
      intro other row rowFound
      by_cases same : other = id
      · subst other
        rw [found, Option.some.injEq] at rowFound
        subst row
        refine ⟨{ order with state := toState }, by simp [DB.moveOrder, found], rfl, le_rfl,
          fun terminal => ?_⟩
        simp only [OrderState.isTerminal, List.isEmpty_iff] at terminal
        simp [terminal] at allowed
      · have events : (db.moveOrder id order.state toState payload).eventsOf other =
            db.eventsOf other := by
          rw [DB.eventsOf_moveOrder, if_neg same, List.append_nil]
        refine ⟨row, ?_, rfl, le_rfl, fun _ => ⟨rfl, events, rfl⟩⟩
        simpa [DB.moveOrder, RowTable.get?_update_of_ne same] using rowFound
  | @fill id order found qty _ within allowed price costs time =>
      intro other row rowFound
      by_cases same : other = id
      · subst other
        rw [found, Option.some.injEq] at rowFound
        subst row
        refine ⟨order.executed qty within, by rw [DB.get?_execute found, if_pos rfl], rfl,
          Nat.le_add_right _ _, fun terminal => ?_⟩
        simp only [OrderState.isTerminal, List.isEmpty_iff] at terminal
        simp [terminal] at allowed
      · have events : (db.execute id order qty price costs time within).eventsOf other =
            db.eventsOf other := by
          rw [DB.eventsOf_execute, if_neg same, List.append_nil]
        refine ⟨row, ?_, rfl, le_rfl, fun _ => ⟨rfl, events, DB.tradesOf_execute_of_ne same⟩⟩
        rwa [DB.get?_execute found, if_neg same]

/-- Between two calls an order is open for fills or over. -/
def Quiescent (db : DB) : Prop :=
  ∀ id order, db.orders.get? id = some order →
    order.state ∈ [OrderState.opened, .partiallyFilled, .filled, .cancelled]

namespace PaperBroker

variable {broker : PaperBroker} {db db' : DB} {id : ℕ} {order : Order} {instrument : Instrument}
  {world world' : Unit}

theorem quiescent_moveOrder (quiescent : Quiescent db) (found : db.orders.get? id = some order)
    (payload : EventPayload) : Quiescent (db.moveOrder id order.state .cancelled payload) := by
  intro other row rowFound
  by_cases same : other = id
  · subst other
    have rowEq : { order with state := .cancelled } = row := by
      simpa [DB.moveOrder, found] using rowFound
    subst row
    simp
  · exact quiescent other row (by
      simpa [DB.moveOrder, RowTable.get?_update_of_ne same] using rowFound)

theorem quiescent_execute (quiescent : Quiescent db) (found : db.orders.get? id = some order)
    {qty : ℕ} (within : order.filledQty + qty ≤ order.qty) (price : ℚ) (costs : TradeCosts)
    (time : ℤ) : Quiescent (db.execute id order qty price costs time within) := by
  intro other row rowFound
  rw [DB.get?_execute found] at rowFound
  split_ifs at rowFound with same
  · rw [← Option.some.inj rowFound, Order.executed]
    dsimp only
    split_ifs <;> simp
  · exact quiescent other row rowFound

theorem quiescent_tryFill {time : ℤ} {update : Option OrderUpdate} (quiescent : Quiescent db)
    (yields : (broker.tryFill id instrument time).Yields db world update db' world') :
    Quiescent db' := by
  rcases yields_tryFill yields with ⟨order, found, ⟨_, rfl⟩ | ⟨_, _, rfl⟩ |
    ⟨qty, _, _, _, executed⟩⟩
  · exact quiescent
  · exact quiescent_moveOrder quiescent found _
  · rcases yields_executeFill found executed with ⟨costs, within, _, _, _, rfl⟩
    exact quiescent_execute quiescent found within _ _ _

theorem quiescent_call {made : PaperCall} (quiescent : Quiescent db)
    (yields : (broker.call made).Yields db world () db' world') : Quiescent db' := by
  refine call_invariant (motive := Quiescent)
    (fun uuid placedAt request instrument after _ _ opened other row rowFound => ?_)
    (fun _ _ _ payload held found _ => quiescent_moveOrder held found payload)
    (fun _ _ _ _ _ price costs time held _ fills =>
      quiescent_execute held fills.found fills.within price costs time) quiescent yields
  rcases yields_openOrder opened with ⟨_, _, _, opening⟩
  rw [opening.orders] at rowFound
  split_ifs at rowFound
  · rw [← Option.some.inj rowFound]
    simp [openedRow]
  · exact quiescent other row rowFound

/-- The order can fill. -/
def Fillable (order : Order) : Prop := order.state = .opened ∨ order.state = .partiallyFilled

theorem fillable_of_quiescent (quiescent : Quiescent db) (found : db.orders.get? id = some order)
    (working : order.isWorking .paper = true) : Fillable order := by
  have state := quiescent id order found
  simp only [Order.isWorking, Bool.and_eq_true] at working
  simp only [List.mem_cons, List.not_mem_nil, or_false] at state
  rcases state with opened | partly | filled | cancelled
  · exact .inl opened
  · exact .inr partly
  · simp [filled, OrderState.isOpen, openStates] at working
  · simp [cancelled, OrderState.isOpen, openStates] at working

/-- The orders that a pass over quiescent orders reaches can fill. -/
theorem quiescent_retries {clock : ℕ → ℤ} {middle : DB} (quiescent : Quiescent db)
    (retries : broker.Retries clock db id middle) :
    ∃ order, middle.orders.get? id = some order ∧ Fillable order := by
  rcases retries.trading.2 with ⟨order, found, working⟩
  rcases retries with ⟨_, _, _, _, ran⟩
  have quietMiddle : Quiescent middle := by
    refine collect_invariant (motive := fun _ later _ => Quiescent later) ?_ quiescent ran
    intro _ _ _ _ _ _ _ _ held retried
    rcases yields_retryResting retried with ⟨_, _, _, _, tried⟩
    exact quiescent_tryFill held tried
  exact ⟨order, found, fillable_of_quiescent quietMiddle found working⟩

/-! ## Refused transitions -/

/-- The exception is `InvalidOrderTransition`. -/
def IsInvalidTransition : PyError → Prop
  | .invalidOrderTransition _ _ _ => True
  | _ => False

theorem calculateCosts_error {side : Side} {price : ℚ} {qty : ℕ} {segment : Segment}
    {rates : CostConfig} {exception : PyError}
    (raised : calculateCosts side price qty segment rates = .error exception) :
    ¬ IsInvalidTransition exception := by
  unfold calculateCosts at raised
  split_ifs at raised <;>
    · cases raised
      simp [IsInvalidTransition]

theorem clampToCash_error {cash fillPrice : ℚ} {qty : ℕ} {exception : PyError}
    (raised : broker.clampToCash cash fillPrice qty = .error exception) :
    ¬ IsInvalidTransition exception := by
  induction qty with
  | zero => cases raised
  | succ qty ih =>
      rw [clampToCash] at raised
      split at raised
      · rename_i costed
        cases raised
        exact calculateCosts_error costed
      · split_ifs at raised
        exact ih raised

theorem referencePrice_error {ltp : ℚ} {exception : PyError}
    (raised : referencePrice order ltp = .error exception) : ¬ IsInvalidTransition exception := by
  unfold referencePrice at raised
  split at raised
  · split at raised
    · cases raised
      simp [IsInvalidTransition]
    · split at raised <;> cases raised
  · cases raised

theorem decideFill_error {cash : ℚ} {exception : PyError}
    (raised : broker.decideFill order instrument cash = .error exception) :
    ¬ IsInvalidTransition exception := by
  unfold decideFill at raised
  split_ifs at raised
  split at raised
  · cases raised
  · split at raised
    · rename_i unreferenced
      cases raised
      exact referencePrice_error unreferenced
    · cases raised
    · simp only at raised
      split at raised
      · rename_i unaffordable
        cases raised
        unfold affordable at unaffordable
        split at unaffordable
        · exact clampToCash_error unaffordable
        · cases unaffordable
      · cases raised
      · cases raised

theorem not_raises_transition {toState : OrderState} {payload : EventPayload} {exception : PyError}
    (found : db.orders.get? id = some order)
    (allowed : toState ∈ allowedOrderTransitions order.state) :
    ¬ (transition id toState payload).Raises db world exception world' := by
  rw [raises_transition found]
  exact fun refused => refused.1 allowed

theorem Fillable.allowed (fillable : Fillable order) {toState : OrderState}
    (outcome : toState ∈ [OrderState.filled, .partiallyFilled, .cancelled]) :
    toState ∈ allowedOrderTransitions order.state := by
  simp only [List.mem_cons, List.not_mem_nil, or_false] at outcome
  rcases fillable with opened | partly
  · rw [opened]
    rcases outcome with rfl | rfl | rfl <;> simp [allowedOrderTransitions]
  · rw [partly]
    rcases outcome with rfl | rfl | rfl <;> simp [allowedOrderTransitions]

/-- All that a fill within the order can raise: the costs of its leg. -/
theorem raises_executeFill {qty : ℕ} {price : ℚ} {time : ℤ} {exception : PyError}
    (found : db.orders.get? id = some order) (fillable : Fillable order)
    (within : order.filledQty + qty ≤ order.qty)
    (raises : (broker.executeFill id order qty price time).Raises db world exception world') :
    calculateCosts order.side price qty broker.segment broker.costRates = .error exception := by
  unfold executeFill at raises
  rcases raises_bind.mp raises with raised | ⟨costs, costed, _, ofCosts, onBooking⟩
  · exact (raises_ofExcept.mp raised).1
  rcases yields_ofExcept.mp ofCosts with ⟨_, rfl, _⟩
  rcases raises_bind.mp onBooking with raised | ⟨_, booked, _, booking, onCounting⟩
  · simp at raised
  have kept : booked.orders.get? id = some order := by
    rw [(yields_modify.mp booking).1]
    exact found
  rcases raises_bind.mp onCounting with raised | ⟨_, counted, _, counting, onMoving⟩
  · rw [raises_setFilledQty kept] at raised
    exact absurd within (not_le.mpr raised.1)
  rcases yields_setFilledQty.mp counting with ⟨row, _, rowFound, rfl⟩
  rw [kept, Option.some.injEq] at rowFound
  subst row
  have countedRow : (booked.updateOrder id fun _ =>
      order.withFilled (order.filledQty + qty) within).orders.get? id =
        some (order.withFilled (order.filledQty + qty) within) := by
    simp [DB.updateOrder, kept]
  rcases raises_bind.mp onMoving with raised | ⟨_, _, _, _, finishing⟩
  · refine absurd raised (not_raises_transition countedRow ?_)
    have sameState : (order.withFilled (order.filledQty + qty) within).state = order.state := rfl
    rw [sameState]
    apply fillable.allowed
    split_ifs <;> simp
  · simp at finishing

/-- All that an attempt to fill an order that can fill raises: what its decision raises, or
the costs of the decided leg. -/
theorem raises_tryFill {time : ℤ} {exception : PyError}
    (found : db.orders.get? id = some order) (fillable : Fillable order)
    (raises : (broker.tryFill id instrument time).Raises db world exception world') :
    broker.decideFill order instrument db.cash = .error exception ∨
      ∃ qty price, broker.decideFill order instrument db.cash = .ok (.fill qty price) ∧
        calculateCosts order.side price qty broker.segment broker.costRates = .error exception := by
  simp only [tryFill, raises_bind, raises_read, yields_read, false_or] at raises
  rcases raises with ⟨_, _, _, ⟨rfl, rfl, _⟩, raises⟩
  simp only [found] at raises
  rcases raises_bind.mp raises with raised | ⟨decision, _, _, decided, raises⟩
  · exact .inl (raises_ofExcept.mp raised).1
  rcases yields_ofExcept.mp decided with ⟨decides, rfl, _⟩
  cases decision with
  | rest => simp at raises
  | cancel =>
      rcases raises_bind.mp raises with raised | ⟨_, _, _, _, raises⟩
      · exact absurd raised (not_raises_transition found (fillable.allowed (by simp)))
      · simp at raises
  | fill qty price =>
      rcases raises_bind.mp raises with raised | ⟨_, _, _, _, raises⟩
      · have within : order.filledQty + qty ≤ order.qty := by
          have remaining := (decideFill_fill decides).2
          have filled := order.filledQty_le
          rw [Order.remaining] at remaining
          omega
        exact .inr ⟨qty, price, decides, raises_executeFill found fillable within raised⟩
      · simp at raises

/-- All that the birth of an order raises: a constraint of the table. -/
theorem raises_openOrder {uuid : String} {request : OrderRequest} {exception : PyError}
    (raises : (openOrder uuid request).Raises db world exception world') :
    (request.qty = 0 ∨ db.usesClientId request.clientOrderId = true) ∧
      ∃ constraint, exception = .integrityError constraint := by
  unfold openOrder at raises
  rcases raises_bind.mp raises with raised | ⟨created, _, _, born, onSubmitting⟩
  · simp only [recordCreated, raises_bind, raises_read, yields_read, false_or] at raised
    rcases raised with ⟨_, _, _, ⟨rfl, rfl, _⟩, raised⟩
    split_ifs at raised with zero used
    · exact ⟨.inl zero, _, (raises_raise.mp raised).1⟩
    · exact ⟨.inr used, _, (raises_raise.mp raised).1⟩
    · simp at raised
  rcases yields_recordCreated.mp born with ⟨_, _, rfl, rfl⟩
  have birth := Opening.create db (request.row (some ("PAPER-" ++ uuid)) .paper)
  rcases raises_bind.mp onSubmitting with raised | ⟨_, _, _, submitting, onSubmitted⟩
  · exact absurd raised (not_raises_transition birth.get?_new (by
      simp [OrderRequest.row, allowedOrderTransitions]))
  rcases yields_transition.mp submitting with ⟨first, _, _, rfl⟩
  have second := birth.move first.state .submitting .empty
  rcases raises_bind.mp onSubmitted with raised | ⟨_, _, _, submitted, onOpened⟩
  · exact absurd raised (not_raises_transition second.get?_new (by
      simp [allowedOrderTransitions]))
  rcases yields_transition.mp submitted with ⟨middle, _, _, rfl⟩
  have third := second.move middle.state .submitted .empty
  rcases raises_bind.mp onOpened with raised | ⟨_, _, _, _, finishing⟩
  · exact absurd raised (not_raises_transition third.get?_new (by
      simp [allowedOrderTransitions]))
  · simp at finishing

/-- All that `place_order` raises. -/
theorem raises_placeOrder {uuid : String} {placedAt : ℤ} {request : OrderRequest}
    {exception : PyError}
    (raises : (broker.placeOrder uuid placedAt request).Raises db world exception world') :
    (db.instrument request.instrumentId = none ∧
      exception = .unknownInstrument request.instrumentId) ∨
    ∃ instrument, db.instrument request.instrumentId = some instrument ∧
      ((openOrder uuid request).Raises db () exception () ∨
        ∃ middle, (openOrder uuid request).Yields db () db.orders.nextId middle () ∧
          (broker.tryFill db.orders.nextId instrument placedAt).Raises middle () exception ()) := by
  simp only [placeOrder, raises_bind, raises_read, yields_read, false_or] at raises
  rcases raises with ⟨_, _, _, ⟨rfl, rfl, _⟩, raises⟩
  split at raises
  · rename_i unknown
    exact .inl ⟨unknown, (raises_raise.mp raises).1⟩
  · rename_i instrument known
    refine .inr ⟨instrument, known, ?_⟩
    rcases raises_bind.mp raises with raised | ⟨id, middle, _, opened, onFilling⟩
    · exact .inl raised
    rcases yields_openOrder opened with ⟨_, _, rfl, _⟩
    rcases raises_bind.mp onFilling with raised | ⟨_, _, _, _, finishing⟩
    · exact .inr ⟨middle, opened, raised⟩
    · simp at finishing

/-- An attempt to fill an order that can fill attempts no refused transition. -/
theorem unrefused_tryFill {time : ℤ} {exception : PyError}
    (found : db.orders.get? id = some order) (fillable : Fillable order)
    (raises : (broker.tryFill id instrument time).Raises db world exception world') :
    ¬ IsInvalidTransition exception := by
  rcases raises_tryFill found fillable raises with undecided | ⟨_, _, _, uncosted⟩
  · exact decideFill_error undecided
  · exact calculateCosts_error uncosted

/-- No call attempts a refused transition on quiescent orders. -/
theorem unrefused_call {made : PaperCall} {exception : PyError} (quiescent : Quiescent db)
    (raises : (broker.call made).Raises db world exception world') :
    ¬ IsInvalidTransition exception := by
  cases made with
  | placeOrder uuid placedAt request =>
      simp only [call, raises_bind, raises_pure, and_false, exists_false, or_false] at raises
      rcases raises_placeOrder raises with ⟨_, rfl⟩ | ⟨_, _, raised | ⟨_, opened, raised⟩⟩
      · simp [IsInvalidTransition]
      · rcases raises_openOrder raised with ⟨_, _, rfl⟩
        simp [IsInvalidTransition]
      · rcases yields_openOrder opened with ⟨_, _, _, opening⟩
        exact unrefused_tryFill opening.get?_new (.inl rfl) raised
  | cancelOrder clientOrderId =>
      simp only [call, cancelOrder, raises_bind, raises_read, yields_read, false_or] at raises
      rcases raises with ⟨_, _, _, ⟨rfl, rfl, _⟩, raises⟩
      split at raises
      · rw [(raises_raise.mp raises).1]
        simp [IsInvalidTransition]
      · split at raises
        · rw [(raises_raise.mp raises).1]
          simp [IsInvalidTransition]
        · rename_i order found
          split_ifs at raises with fillable
          · have allowed : Fillable order := fillable
            exact absurd raises (not_raises_transition found (allowed.allowed (by simp)))
          · simp at raises
  | checkRestingOrders clock =>
      simp only [call, checkRestingOrders, raises_bind, raises_read, yields_read, raises_pure,
        and_false, exists_false, or_false, false_or] at raises
      rcases raises with ⟨_, _, _, ⟨rfl, rfl, _⟩, raises⟩
      rcases visits_of_raises raises with ⟨id, middle, _, retries, raised⟩
      rcases quiescent_retries quiescent retries with ⟨order, found, fillable⟩
      simp only [retryResting, raises_bind, raises_read, yields_read, false_or] at raised
      rcases raised with ⟨_, _, _, ⟨rfl, rfl, _⟩, raised⟩
      split at raised
      · rw [(raises_raise.mp raised).1]
        simp [IsInvalidTransition]
      · exact unrefused_tryFill found fillable raised

theorem quiescent_step (quiescent : Quiescent db) (made : PaperBroker × PaperCall) :
    Quiescent (step db made) := by
  rcases commit_store (made.1.call made.2) db () with same | ⟨_, _, yields⟩
  · have rolledBack : step db made = db := same
    rw [rolledBack]
    exact quiescent
  · exact quiescent_call quiescent yields

theorem quiescent_runSteps (quiescent : Quiescent db) (calls : List (PaperBroker × PaperCall)) :
    Quiescent (runSteps step db calls) := by
  induction calls using List.reverseRecOn with
  | nil => exact quiescent
  | append_singleton calls made ih =>
      rw [runSteps_concat]
      exact quiescent_step ih made

/-- A store without orders, events and trades. -/
structure Blank (db : DB) : Prop where
  orders : db.orders = .empty
  orderEvents : db.orderEvents = []
  trades : db.trades = []

theorem Blank.get? (blank : Blank db) (id : ℕ) : db.orders.get? id = none := by
  simp [blank.orders, RowTable.empty, RowTable.get?]

theorem auditKept_of_blank (blank : Blank db) : AuditKept db := by
  refine ⟨fun id order found => ?_, fun id _ => ⟨?_, ?_⟩⟩
  · rw [blank.get?] at found
    cases found
  · rw [DB.eventsOf, blank.orderEvents]
    rfl
  · rw [DB.tradesOf, blank.trades]
    rfl

theorem quiescent_of_blank (blank : Blank db) : Quiescent db := by
  intro id order found
  rw [blank.get?] at found
  cases found

/-- In every state that calls reach from a blank store: the events of an order are a chain of
allowed transitions from its birth to its state, its trades sum up to its filled quantity, and
it is `FILLED` exactly when that is all of it; whatever calls follow, the filled quantity never
falls and an order that is over gets no event and no trade; and no call raises
`InvalidOrderTransition`. -/
theorem audit_chain {start : DB} (blank : Blank start) (calls : List (PaperBroker × PaperCall)) :
    let db := runSteps step start calls
    (∀ id order, db.orders.get? id = some order →
        EventChain (db.eventsOf id) order.state ∧ order.filledQty ≤ order.qty ∧
          order.filledQty = ((db.tradesOf id).map Trade.qty).sum ∧
          (order.state = .filled ↔ order.filledQty = order.qty)) ∧
      (∀ continuation id order, db.orders.get? id = some order →
        ∃ order', (runSteps step db continuation).orders.get? id = some order' ∧
          order.filledQty ≤ order'.filledQty ∧
          (order.state.isTerminal = true →
            (runSteps step db continuation).eventsOf id = db.eventsOf id ∧
              (runSteps step db continuation).tradesOf id = db.tradesOf id)) ∧
      ∀ made clientOrderId fromState toState, (serve db made).1 ≠
        .error (.invalidOrderTransition clientOrderId fromState toState) := by
  intro db
  have moves : PaperMoves start db := moves_runSteps start calls
  have audit : AuditKept db :=
    moves.invariant (fun _ _ kept move => auditKept_move kept move) (auditKept_of_blank blank)
  have quiescent : Quiescent db := quiescent_runSteps (quiescent_of_blank blank) calls
  refine ⟨fun id order found => ?_, fun continuation id order found => ?_,
    fun made clientOrderId fromState toState => ?_⟩
  · have audited := audit.audited id order found
    exact ⟨audited.chained, order.filledQty_le, audited.traded.symm, audited.complete⟩
  · have grows : Grows db (runSteps step db continuation) :=
      (moves_runSteps db continuation).invariant
        (fun _ _ soFar move => soFar.trans (grows_move move)) (Grows.refl db)
    rcases grows id order found with ⟨order', found', _, filled, terminal⟩
    exact ⟨order', found', filled, fun terminated => (terminal terminated).2⟩
  · rcases yields_or_raises (made.1.call made.2) db () with ⟨_, _, _, yields⟩ |
      ⟨exception, _, raises⟩
    · rw [serve, commit_of_yields yields]
      simp
    · have unrefused := unrefused_call quiescent raises
      rw [serve, commit_of_raises raises]
      rintro refused
      rw [Except.error.injEq] at refused
      exact unrefused (refused ▸ trivial)

/-- A quote of 100 for everything, without slippage. -/
def sampleBroker : PaperBroker := ⟨fun _ => some 100, default, .delivery, 0, 250⟩

/-- A store with one instrument and cash for five shares. -/
def sampleAccount : DB where
  instruments := [⟨1, "INFY", "NSE_EQ|INFY", 1 / 20⟩]
  paperAccount := some ⟨550⟩

/-- A buy that is filled in two parts around a sale. -/
def sampleCalls : List (PaperBroker × PaperCall) :=
  [(sampleBroker, .placeOrder "u" 0 ⟨"a", 1, .buy, .market, 10, none⟩),
    (sampleBroker, .placeOrder "v" 1000 ⟨"b", 1, .sell, .market, 5, none⟩),
    (sampleBroker, .checkRestingOrders fun _ => 2000)]

theorem audit_chain_sample :
    EventChain ((runSteps step sampleAccount sampleCalls).eventsOf 1) .filled := by
  have blank : Blank sampleAccount := ⟨rfl, rfl, rfl⟩
  have state : ((runSteps step sampleAccount sampleCalls).orders.get? 1).map Order.state =
      some .filled := by
    decide +kernel
  rcases Option.map_eq_some_iff.mp state with ⟨order, found, filled⟩
  rw [← filled]
  exact ((audit_chain blank sampleCalls).1 1 order found).1

end PaperBroker

end PersonalTrade
