import PersonalTrade.Execution.Paper
import PersonalTrade.Library.Run

/-!
# Runs of the paper broker

The calls of a paper broker in any order, each a unit of work of its own, under any
quotes. All that a call commits is a sequence of moves: the birth of an order, a
transition without a fill, and a fill, which writes the order, the trades, the position
and the cash at once. Invariants of the books are kept by each move.
-/

namespace PersonalTrade

open Transaction Relation

/-- A call of the paper broker. -/
inductive PaperCall where
  | placeOrder (uuid : String) (placedAt : ℤ) (request : OrderRequest)
  | cancelOrder (clientOrderId : String)
  | checkRestingOrders (clock : ℕ → ℤ)

/-- The store with a fill of an order carried out. -/
def DB.execute (db : DB) (id : ℕ) (order : Order) (qty : ℕ) (price : ℚ) (costs : TradeCosts)
    (time : ℤ) (within : order.filledQty + qty ≤ order.qty) : DB :=
  (((db.bookFill .paper id order qty price costs time).setCash
    (PaperBroker.cashAfter order.side db.cash costs.netAmount)).updateOrder id fun _ =>
      order.withFilled (order.filledQty + qty) within).moveOrder id order.state
    (if order.qty ≤ order.filledQty + qty then .filled else .partiallyFilled) (.fill qty price)

/-- All that the paper broker does to the store. -/
inductive PaperMove : DB → DB → Prop where
  | create (db : DB) (order : Order) (positive : order.qty ≠ 0) (unfilled : order.filledQty = 0)
      (born : order.state = .pendingRisk) (paper : order.mode = .paper) :
      PaperMove db (db.createOrder order)
  | move {db : DB} {id : ℕ} {order : Order} (found : db.orders.get? id = some order)
      {toState : OrderState} (payload : EventPayload)
      (allowed : toState ∈ allowedOrderTransitions order.state)
      (unfilling : toState ≠ .filled ∧ toState ≠ .partiallyFilled) :
      PaperMove db (db.moveOrder id order.state toState payload)
  | fill {db : DB} {id : ℕ} {order : Order} (found : db.orders.get? id = some order) {qty : ℕ}
      (positive : 0 < qty) (within : order.filledQty + qty ≤ order.qty)
      (allowed : (if order.qty ≤ order.filledQty + qty then .filled else .partiallyFilled) ∈
        allowedOrderTransitions order.state) (price : ℚ) (costs : TradeCosts) (time : ℤ) :
      PaperMove db (db.execute id order qty price costs time within)

/-- Moves in sequence. -/
abbrev PaperMoves : DB → DB → Prop := ReflTransGen PaperMove

namespace PaperBroker

variable {broker : PaperBroker} {db db' : DB} {id : ℕ} {order : Order} {instrument : Instrument}
  {world world' : Unit}

/-- A call as a session body. -/
def call (broker : PaperBroker) : PaperCall → Session Unit
  | .placeOrder uuid placedAt request => do
      let _ ← broker.placeOrder uuid placedAt request
      pure ()
  | .cancelOrder clientOrderId => cancelOrder clientOrderId
  | .checkRestingOrders clock => do
      let _ ← broker.checkRestingOrders clock
      pure ()

/-- A call as a unit of work. -/
def serve (db : DB) (made : PaperBroker × PaperCall) : Except PyError Unit × DB :=
  match (made.1.call made.2).commit db () with
  | (result, db', _) => (result, db')

/-- The store after a call. -/
def step (db : DB) (made : PaperBroker × PaperCall) : DB := (serve db made).2

/-- The transitions that are never fills. -/
theorem unfilling_of_mem {toState : OrderState}
    (mem : toState ∈ [OrderState.submitting, .submitted, .opened, .cancelled]) :
    toState ≠ .filled ∧ toState ≠ .partiallyFilled := by
  simp only [List.mem_cons, List.not_mem_nil, or_false] at mem
  rcases mem with rfl | rfl | rfl | rfl <;> simp

theorem move_of_transition {toState : OrderState} {payload : EventPayload} {result : Unit}
    (mem : toState ∈ [OrderState.submitting, .submitted, .opened, .cancelled])
    (yields : (transition id toState payload).Yields db world result db' world') :
    PaperMove db db' := by
  rcases yields_transition.mp yields with ⟨order, found, allowed, rfl⟩
  exact .move found payload allowed (unfilling_of_mem mem)

theorem moves_openOrder {uuid : String} {request : OrderRequest}
    (yields : (openOrder uuid request).Yields db world id db' world') : PaperMoves db db' := by
  unfold openOrder at yields
  rcases yields_bind.mp yields with ⟨created, _, _, born, yields⟩
  rcases yields_recordCreated.mp born with ⟨positive, _, rfl, rfl⟩
  rcases yields_bind.mp yields with ⟨_, _, _, submitting, yields⟩
  rcases yields_bind.mp yields with ⟨_, _, _, submitted, yields⟩
  rcases yields_bind.mp yields with ⟨_, _, _, opened, yields⟩
  rcases yields_pure.mp yields with ⟨_, rfl, _⟩
  have birth : PaperMove db
      (db.createOrder (request.row (some ("PAPER-" ++ uuid)) .paper)) :=
    .create _ _ positive rfl rfl rfl
  exact (((ReflTransGen.single birth).tail (move_of_transition (by simp) submitting)).tail
    (move_of_transition (by simp) submitted)).tail (move_of_transition (by simp) opened)

theorem instruments_openOrder {uuid : String} {request : OrderRequest}
    (yields : (openOrder uuid request).Yields db world id db' world') :
    db'.instruments = db.instruments := by
  have moves := moves_openOrder yields
  clear yields
  induction moves with
  | refl => rfl
  | tail _ move ih => cases move <;> exact ih

/-- A call on `db` attempts to fill an order on the store `before`. -/
def Attempts (broker : PaperBroker) (db : DB) (id : ℕ) (before : DB) : PaperCall → Prop
  | .placeOrder uuid _ request =>
      id = db.orders.nextId ∧ (openOrder uuid request).Yields db () id before ()
  | .cancelOrder _ => False
  | .checkRestingOrders clock => broker.Retries clock db id before

/-- A fill that is decided on a store, with what it costs. -/
structure Fills (broker : PaperBroker) (before : DB) (id : ℕ) (order : Order)
    (instrument : Instrument) (qty : ℕ) (price : ℚ) (costs : TradeCosts) : Prop where
  found : before.orders.get? id = some order
  known : before.instrument order.instrumentId = some instrument
  decided : broker.decideFill order instrument before.cash = .ok (.fill qty price)
  charged : calculateCosts order.side price qty broker.segment broker.costRates = .ok costs
  within : order.filledQty + qty ≤ order.qty
  allowed : (if order.qty ≤ order.filledQty + qty then OrderState.filled else .partiallyFilled) ∈
    allowedOrderTransitions order.state

/-- All that a call does: the birth of an order, then attempts that cancel or fill. What each of
them preserves, a call preserves. -/
theorem call_invariant {made : PaperCall} {motive : DB → Prop}
    (born : ∀ uuid placedAt request instrument after, made = .placeOrder uuid placedAt request →
      db.instrument request.instrumentId = some instrument →
      (openOrder uuid request).Yields db () db.orders.nextId after () → motive after)
    (cancelled : ∀ before id order payload, motive before → before.orders.get? id = some order →
      .cancelled ∈ allowedOrderTransitions order.state →
      motive (before.moveOrder id order.state .cancelled payload))
    (filled : ∀ before id order instrument qty price costs time, motive before →
      broker.Attempts db id before made →
      ∀ fills : broker.Fills before id order instrument qty price costs,
        motive (before.execute id order qty price costs time fills.within))
    (initial : motive db) (yields : (broker.call made).Yields db world () db' world') :
    motive db' := by
  have attempt : ∀ before after id instrument time update, motive before →
      broker.Attempts db id before made →
      (∀ order, before.orders.get? id = some order →
        before.instrument order.instrumentId = some instrument) →
      (broker.tryFill id instrument time).Yields before () update after () → motive after := by
    intro before after id instrument time update held attempts known tried
    rcases yields_tryFill tried with ⟨order, found, ⟨_, rfl⟩ | ⟨_, allowed, rfl⟩ |
      ⟨qty, price, _, decided, executed⟩⟩
    · exact held
    · exact cancelled _ _ _ _ held found allowed
    · rcases yields_executeFill found executed with ⟨costs, within, _, charged, allowed, rfl⟩
      exact filled _ _ _ _ _ _ _ _ held attempts
        ⟨found, known order found, decided, charged, within, allowed⟩
  cases made with
  | placeOrder uuid placedAt request =>
      simp only [call, yields_bind, yields_pure] at yields
      rcases yields with ⟨ack, _, _, placed, _, rfl, _⟩
      rcases yields_placeOrder_parts placed with
        ⟨instrument, update, middle, known, _, opened, tried⟩
      rcases yields_openOrder opened with ⟨_, _, _, opening⟩
      refine attempt middle _ _ instrument placedAt update
        (born _ _ _ _ _ rfl known opened) ⟨rfl, opened⟩ (fun order found => ?_) tried
      rw [opening.get?_new, Option.some.injEq] at found
      rw [← found, DB.instrument, instruments_openOrder opened]
      exact known
  | cancelOrder clientOrderId =>
      simp only [call, cancelOrder, yields_bind, yields_read] at yields
      rcases yields with ⟨_, _, _, ⟨rfl, rfl, _⟩, yields⟩
      split at yields
      · simp at yields
      · split at yields
        · simp at yields
        · split_ifs at yields
          · rcases yields_transition.mp yields with ⟨order, found, allowed, rfl⟩
            exact cancelled _ _ _ _ initial found allowed
          · rcases yields_pure.mp yields with ⟨_, rfl, _⟩
            exact initial
  | checkRestingOrders clock =>
      simp only [call, checkRestingOrders, yields_bind, yields_read, yields_pure] at yields
      rcases yields with ⟨_, _, _, ⟨_, _, _, ⟨rfl, rfl, _⟩, collected⟩, _, rfl, _⟩
      refine collect_invariant (motive := fun _ later _ => motive later) ?_ initial collected
      intro id _ before _ update after _ visited held retried
      rcases yields_retryResting retried with ⟨order, instrument, found, known, tried⟩
      refine attempt before after id instrument _ update held visited (fun row rowFound => ?_) tried
      rw [found, Option.some.injEq] at rowFound
      exact rowFound ▸ known

/-- All that a call does is a sequence of moves. -/
theorem moves_call {made : PaperCall}
    (yields : (broker.call made).Yields db world () db' world') : PaperMoves db db' := by
  refine call_invariant (motive := PaperMoves db) (fun _ _ _ _ _ _ _ opened =>
    moves_openOrder opened) (fun before id order payload soFar found allowed => ?_)
    (fun before id order instrument qty price costs time soFar _ fills => ?_) .refl yields
  · exact soFar.tail (.move found payload allowed (unfilling_of_mem (by simp)))
  · exact soFar.tail (.fill fills.found (decideFill_fill fills.decided).1 fills.within
      fills.allowed price costs time)

theorem moves_step (db : DB) (made : PaperBroker × PaperCall) : PaperMoves db (step db made) := by
  rcases commit_store (made.1.call made.2) db () with same | ⟨_, _, yields⟩
  · have rolledBack : step db made = db := same
    rw [rolledBack]
  · exact moves_call yields

theorem moves_runSteps (db : DB) (calls : List (PaperBroker × PaperCall)) :
    PaperMoves db (runSteps step db calls) := by
  induction calls using List.reverseRecOn with
  | nil => exact .refl
  | append_singleton calls made ih =>
      rw [runSteps_concat]
      exact ih.trans (moves_step _ _)

end PaperBroker

/-- What every move preserves, sequences of moves preserve. -/
theorem PaperMoves.invariant {db db' : DB} (moves : PaperMoves db db') {motive : DB → Prop}
    (preserved : ∀ before after, motive before → PaperMove before after → motive after)
    (initial : motive db) : motive db' := by
  induction moves with
  | refl => exact initial
  | tail _ move ih => exact preserved _ _ ih move

end PersonalTrade
