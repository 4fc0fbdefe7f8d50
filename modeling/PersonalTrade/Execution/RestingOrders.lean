import PersonalTrade.Execution.PaperValue

/-!
# Resting orders and their quotes

`check_resting_orders` takes all resting orders in one loop, and the cost model raises on a
price that is not positive. One order that would trade at such a price ends the whole pass;
otherwise the orders without a positive quote are as good as absent.
-/

namespace PersonalTrade

open Transaction

/-- What placing and filling guarantee of the resting orders: they wait for fills, and their
instruments exist. -/
structure RestingBook (db : DB) : Prop where
  fillable : ∀ id ∈ db.listOpenOrders .paper, ∀ order, db.orders.get? id = some order →
    PaperBroker.Fillable order
  known : ∀ id ∈ db.listOpenOrders .paper, ∀ order, db.orders.get? id = some order →
    (db.instrument order.instrumentId).isSome

/-- The instrument of every order exists. -/
def InstrumentsKnown (db : DB) : Prop :=
  ∀ id order, db.orders.get? id = some order → (db.instrument order.instrumentId).isSome

namespace PaperBroker

variable {broker : PaperBroker} {db db' : DB} {id : ℕ} {order : Order} {instrument : Instrument}
  {world world' : Unit} {clock : ℕ → ℤ}

/-! ## The resting orders of a run -/

/-- Orders that keep their terms stay on known instruments. -/
theorem instrumentsKnown_of_terms (known : InstrumentsKnown db)
    (terms : ∀ id, (db'.orders.get? id).map Order.terms = (db.orders.get? id).map Order.terms)
    (instruments : db'.instruments = db.instruments) : InstrumentsKnown db' := by
  intro id order' found'
  have sameTerms := terms id
  rw [found', Option.map_some, eq_comm, Option.map_eq_some_iff] at sameTerms
  rcases sameTerms with ⟨order, found, termsEq⟩
  have sameInstrument : order.instrumentId = order'.instrumentId :=
    congrArg OrderTerms.instrumentId termsEq
  rw [DB.instrument, instruments, ← sameInstrument]
  exact known id order found

theorem instrumentsKnown_call {made : PaperCall} (known : InstrumentsKnown db)
    (yields : (broker.call made).Yields db world () db' world') : InstrumentsKnown db' := by
  refine call_invariant (motive := InstrumentsKnown)
    (fun uuid placedAt request instrument after _ instrumentEq opened id order found => ?_)
    (fun before id order payload held found _ =>
      instrumentsKnown_of_terms held (Trading.terms_update found rfl) rfl)
    (fun before id order instrument qty price costs time held _ fills =>
      instrumentsKnown_of_terms held (fun other => ?_) rfl) known yields
  · rcases yields_openOrder opened with ⟨_, _, _, opening⟩
    rw [DB.instrument, instruments_openOrder opened]
    rw [opening.orders] at found
    split_ifs at found
    · cases found
      exact Option.isSome_iff_exists.mpr ⟨instrument, instrumentEq⟩
    · exact known id order found
  · rw [DB.get?_execute fills.found]
    split_ifs with same
    · rw [same, fills.found]
      rfl
    · rfl

theorem instrumentsKnown_runSteps (known : InstrumentsKnown db)
    (calls : List (PaperBroker × PaperCall)) : InstrumentsKnown (runSteps step db calls) := by
  induction calls using List.reverseRecOn with
  | nil => exact known
  | append_singleton calls made ih =>
      rw [runSteps_concat]
      rcases commit_store (made.1.call made.2) (runSteps step db calls) () with
        same | ⟨_, _, yields⟩
      · have rolledBack : step (runSteps step db calls) made = runSteps step db calls := same
        rw [rolledBack]
        exact ih
      · exact instrumentsKnown_call ih yields

/-- Every state that calls reach from a blank store is a book of resting orders. -/
theorem restingBook_runSteps {start : DB} (blank : Blank start)
    (calls : List (PaperBroker × PaperCall)) : RestingBook (runSteps step start calls) := by
  have quiescent := quiescent_runSteps (quiescent_of_blank blank) calls
  have knownAtStart : InstrumentsKnown start := fun id order found => by
    rw [blank.get?] at found
    cases found
  have known := instrumentsKnown_runSteps knownAtStart calls
  refine ⟨fun id mem order found => ?_, fun id _ order found => known id order found⟩
  rcases DB.mem_listOpenOrders.mp mem with ⟨row, rowFound, working⟩
  rw [found, Option.some.injEq] at rowFound
  subst row
  exact fillable_of_quiescent quiescent found working

/-- The last quote of the instrument of an order. -/
def quoteOf (broker : PaperBroker) (db : DB) (id : ℕ) : Option ℚ :=
  (db.orders.get? id).bind fun order =>
    (db.instrument order.instrumentId).bind broker.quotes.getLtp

/-- The instrument of the order has a positive quote. -/
def quotedPositive (broker : PaperBroker) (db : DB) (id : ℕ) : Bool :=
  (broker.quoteOf db id).any fun ltp => 0 < ltp

/-- At its quote the order does not trade, or trades at a positive price. -/
def TradesPositive (broker : PaperBroker) (order : Order) (ltp : ℚ) : Prop :=
  order.remaining ≠ 0 → ∃ reference, referencePrice order ltp = .ok reference ∧
    ∀ price, reference = some price →
      0 < ltp ∧ 0 < applySlippage price order.side broker.slippageBps

/-- No resting order would trade at a quote or a price that is not positive. -/
def AllTradePositive (broker : PaperBroker) (db : DB) : Prop :=
  ∀ id ∈ db.listOpenOrders .paper, ∀ order ltp, db.orders.get? id = some order →
    broker.quoteOf db id = some ltp → broker.TradesPositive order ltp

/-- A pass over the resting orders returns, and leaves those with a positive quote in the state
and with the trades of a pass over them alone. -/
def ChecksIndependently (broker : PaperBroker) (clock : ℕ → ℤ) (db : DB) : Prop :=
  ∃ updates db' others alone, (broker.checkRestingOrders clock).Yields db () updates db' () ∧
    (collect (broker.retryResting clock)
      ((db.listOpenOrders .paper).filter (broker.quotedPositive db))).Yields db () others alone () ∧
    ∀ id ∈ db.listOpenOrders .paper, broker.quotedPositive db id = true →
      db'.orders.get? id = alone.orders.get? id ∧ db'.tradesOf id = alone.tradesOf id

/-! ## Decisions at a positive price -/

theorem exists_affordable (broker : PaperBroker) (order : Order) (cash : ℚ) {fillPrice : ℚ}
    (positive : 0 < fillPrice) :
    ∃ qty, broker.affordable order cash fillPrice = .ok qty := by
  unfold affordable
  cases order.side with
  | buy =>
      simp only [clampToCash_eq]
      exact exists_clampToCash positive broker.segment broker.costRates cash order.remaining
  | sell => exact ⟨order.remaining, rfl⟩

/-- An order that trades at positive prices gets a decision; at a positive quote it may be a
fill, at such a price. -/
theorem decideFill_of_tradesPositive (positive : ∀ ltp, broker.quotes.getLtp instrument = some ltp →
      broker.TradesPositive order ltp) (cash : ℚ) :
    broker.decideFill order instrument cash = .ok .rest ∨
      (∃ ltp, broker.quotes.getLtp instrument = some ltp ∧ 0 < ltp) ∧
        (broker.decideFill order instrument cash = .ok .cancel ∨
          ∃ qty price, 0 < price ∧
            broker.decideFill order instrument cash = .ok (.fill qty price)) := by
  unfold decideFill
  split_ifs with full
  · exact .inl rfl
  rcases quoted : broker.quotes.getLtp instrument with _ | ltp
  · exact .inl rfl
  rcases positive ltp quoted full with ⟨reference, referenced, above⟩
  simp only [referenced]
  rcases reference with _ | price
  · exact .inl rfl
  · rcases above price rfl with ⟨quotePos, pricePos⟩
    rcases exists_affordable broker order cash pricePos with ⟨qty, enough⟩
    refine .inr ⟨⟨ltp, rfl, quotePos⟩, ?_⟩
    simp only [enough]
    rcases qty with _ | qty
    · exact .inl rfl
    · exact .inr ⟨qty + 1, _, pricePos, rfl⟩

/-- An attempt to fill that returns has a decision: to rest, which changes nothing, to cancel,
or a fill at a positive price. -/
theorem decided_of_tryFill {time : ℤ} {update : Option OrderUpdate}
    (found : db.orders.get? id = some order)
    (yields : (broker.tryFill id instrument time).Yields db world update db' world') :
    ∃ decision, broker.decideFill order instrument db.cash = .ok decision ∧
      (decision = .rest → db' = db) ∧ ∀ qty price, decision = .fill qty price → 0 < price := by
  rcases yields_tryFill yields with ⟨row, rowFound, outcome⟩
  rw [found, Option.some.injEq] at rowFound
  subst row
  rcases outcome with ⟨decided, same⟩ | ⟨decided, _⟩ | ⟨qty, price, _, decided, executed⟩
  · exact ⟨_, decided, fun _ => same, nofun⟩
  · exact ⟨_, decided, nofun, nofun⟩
  · refine ⟨_, decided, nofun, ?_⟩
    rintro _ _ ⟨⟩
    rcases yields_executeFill found executed with ⟨_, _, _, costed, _⟩
    exact (calculateCosts_eq_ok.mp costed).1

/-! ## A pass over the orders -/

/-- A pass reaches a resting order with its row and its instrument. -/
theorem Retries.reached {middle : DB} (book : RestingBook db)
    (retries : broker.Retries clock db id middle) :
    ∃ order instrument, db.orders.get? id = some order ∧ Fillable order ∧
      broker.quoteOf db id = broker.quotes.getLtp instrument ∧
      middle.orders.get? id = some order ∧
      (broker.retryResting clock id) middle () =
        (broker.tryFill id instrument (clock id)) middle () := by
  rcases DB.mem_listOpenOrders.mp retries.mem with ⟨order, found, _⟩
  rcases Option.isSome_iff_exists.mp (book.known id retries.mem order found) with
    ⟨instrument, known⟩
  have foundMiddle : middle.orders.get? id = some order := retries.untouched.trans found
  have knownMiddle : middle.instrument order.instrumentId = some instrument := by
    rw [DB.instrument, retries.trading.1.instruments]
    exact known
  refine ⟨order, instrument, found, book.fillable id retries.mem order found, ?_, foundMiddle, ?_⟩
  · simp [quoteOf, found, known]
  · simp only [retryResting, bind_run, Transaction.read, foundMiddle, Option.bind_some, knownMiddle]

theorem not_raises_retryResting {middle : DB} {exception : PyError} (book : RestingBook db)
    (positive : broker.AllTradePositive db) (retries : broker.Retries clock db id middle) :
    ¬ (broker.retryResting clock id).Raises middle () exception world' := by
  rcases retries.reached book with ⟨order, instrument, found, fillable, quoteEq, foundMiddle, turn⟩
  rw [Raises, turn]
  intro raises
  have trades : ∀ ltp, broker.quotes.getLtp instrument = some ltp →
      broker.TradesPositive order ltp := fun ltp quoted =>
    positive id retries.mem order ltp found (quoteEq.trans quoted)
  rcases raises_tryFill foundMiddle fillable raises with undecided | ⟨qty, price, fills, uncosted⟩
  · rcases decideFill_of_tradesPositive trades middle.cash with
      decided | ⟨_, decided | ⟨_, _, _, decided⟩⟩ <;>
      · rw [decided] at undecided
        cases undecided
  · rcases decideFill_of_tradesPositive trades middle.cash with
      decided | ⟨_, decided | ⟨_, _, above, decided⟩⟩
    · rw [decided] at fills
      cases fills
    · rw [decided] at fills
      cases fills
    · have shares := (decideFill_fill fills).1
      rw [decided] at fills
      cases fills
      have costed : calculateCosts order.side _ _ broker.segment broker.costRates = .ok _ :=
        calculateCosts_eq_ok.mpr ⟨above, shares, rfl⟩
      rw [costed] at uncosted
      cases uncosted

theorem idle_retryResting {middle next : DB} {update : Option OrderUpdate} (book : RestingBook db)
    (positive : broker.AllTradePositive db) (retries : broker.Retries clock db id middle)
    (unquoted : broker.quotedPositive db id = false)
    (yields : (broker.retryResting clock id).Yields middle world update next world') :
    next = middle := by
  rcases retries.reached book with ⟨order, instrument, found, _, quoteEq, foundMiddle, turn⟩
  rw [Yields, turn] at yields
  rcases decided_of_tryFill foundMiddle yields with ⟨decision, decided, unchanged, _⟩
  rcases decideFill_of_tradesPositive (fun ltp quoted =>
    positive id retries.mem order ltp found (quoteEq.trans quoted)) middle.cash with
    rests | ⟨⟨ltp, quoted, above⟩, _⟩
  · rw [rests] at decided
    cases decided
    exact unchanged rfl
  · rw [quotedPositive, quoteEq, quoted] at unquoted
    simp [above] at unquoted

/-- When all resting orders trade at positive prices, they are checked independently. -/
theorem checksIndependently_of_positive (book : RestingBook db)
    (positive : broker.AllTradePositive db) : broker.ChecksIndependently clock db := by
  rcases yields_or_raises (collect (broker.retryResting clock) (db.listOpenOrders .paper)) db ()
    with ⟨updates, db', _, yields⟩ | ⟨exception, _, raises⟩
  · rcases collect_filter (broker.quotedPositive db)
      (fun id middle _ _ next _ visited unquoted returned =>
        ⟨idle_retryResting book positive visited unquoted returned, rfl⟩) yields with
      ⟨others, alone⟩
    refine ⟨updates, db', others, db', ?_, alone, fun _ _ _ => ⟨rfl, rfl⟩⟩
    simp only [checkRestingOrders, yields_bind, yields_read]
    exact ⟨db, db, (), ⟨rfl, rfl, trivial⟩, yields⟩
  · rcases visits_of_raises raises with ⟨id, middle, _, visited, raised⟩
    exact absurd raised (not_raises_retryResting book positive visited)

/-! ## Passes that return -/

/-- An affordable quantity of something has a positive price. -/
theorem price_pos_of_clampToCash {cash fillPrice : ℚ} {qty clamped : ℕ} (some : qty ≠ 0)
    (ok : broker.clampToCash cash fillPrice qty = .ok clamped) : 0 < fillPrice := by
  rcases qty with _ | qty
  · exact absurd rfl some
  · rw [clampToCash] at ok
    split at ok
    · cases ok
    · rename_i costs costed
      exact (calculateCosts_eq_ok.mp costed).1

/-- An attempt to fill that returns has traded at a positive price, or not at all. -/
theorem price_pos_of_tryFill {time : ℤ} {update : Option OrderUpdate} {ltp reference : ℚ}
    (found : db.orders.get? id = some order) (quoted : broker.quotes.getLtp instrument = some ltp)
    (waits : order.remaining ≠ 0) (referenced : referencePrice order ltp = .ok (some reference))
    (yields : (broker.tryFill id instrument time).Yields db world update db' world') :
    0 < applySlippage reference order.side broker.slippageBps := by
  rcases decided_of_tryFill found yields with ⟨decision, decided, _, above⟩
  cases side : order.side with
  | buy =>
      -- the clamp computes the costs of all that remains
      rcases enough : broker.affordable order db.cash
        (applySlippage reference order.side broker.slippageBps) with raised | qty
      · simp only [decideFill, if_neg waits, quoted, referenced, enough] at decided
        cases decided
      · rw [affordable, side] at enough
        exact price_pos_of_clampToCash waits enough
  | sell =>
      rcases Nat.exists_eq_succ_of_ne_zero waits with ⟨rest, remaining⟩
      simp only [decideFill, quoted, referenced, affordable, side, remaining] at decided
      cases decided
      exact above _ _ rfl

/-- A price is positive only at a positive quote, when slippage takes at most the whole price. -/
theorem quote_pos_of_price {ltp : ℚ} {side : Side} {slippageBps : ℚ} (slips : 0 ≤ slippageBps)
    (whole : slippageBps ≤ 10000) (positive : 0 < applySlippage ltp side slippageBps) :
    0 < ltp := by
  have part : slippageBps / 10000 ≤ 1 := by linarith
  cases side with
  | buy =>
      simp only [applySlippage, if_true] at positive
      exact pos_of_mul_pos_left positive (by positivity)
  | sell =>
      simp only [applySlippage, reduceCtorEq, if_false] at positive
      exact pos_of_mul_pos_left positive (by linarith)

/-- Up to a slippage of the whole price, orders that are checked independently all trade at
positive prices. -/
theorem allTradePositive_of_checks (book : RestingBook db) (slips : 0 ≤ broker.slippageBps)
    (whole : broker.slippageBps ≤ 10000) (checks : broker.ChecksIndependently clock db) :
    broker.AllTradePositive db := by
  intro id mem order ltp found quoted waits
  rcases checks with ⟨updates, db', _, _, yields, _⟩
  simp only [checkRestingOrders, yields_bind, yields_read] at yields
  rcases yields with ⟨_, _, _, ⟨rfl, rfl, _⟩, yields⟩
  rcases visits_of_yields mem yields with ⟨middle, _, update, next, _, visited, returned⟩
  have retries : broker.Retries clock db id middle := visited
  rcases retries.reached book with ⟨row, instrument, rowFound, _, quoteEq, foundMiddle, turn⟩
  rw [found, Option.some.injEq] at rowFound
  subst row
  rw [quoted, eq_comm] at quoteEq
  rw [Yields, turn] at returned
  rcases referenced : referencePrice order ltp with raised | reference
  · -- a LIMIT order without a limit price raises at any quote
    rcases decided_of_tryFill foundMiddle returned with ⟨decision, decided, _⟩
    simp only [decideFill, if_neg waits, quoteEq, referenced] at decided
    cases decided
  · refine ⟨reference, rfl, ?_⟩
    rintro price rfl
    have above := price_pos_of_tryFill foundMiddle quoteEq waits referenced returned
    have atQuote := (referencePrice_eq_some referenced).1
    exact ⟨quote_pos_of_price slips whole (atQuote ▸ above), above⟩

/-- Resting orders are checked independently when none of them would trade at a quote or a price
that is not positive, and only then unless slippage takes more than the whole price. -/
theorem checksIndependently_iff (book : RestingBook db) (clock : ℕ → ℤ) :
    (broker.AllTradePositive db → broker.ChecksIndependently clock db) ∧
      (0 ≤ broker.slippageBps → broker.slippageBps ≤ 10000 →
        broker.ChecksIndependently clock db → broker.AllTradePositive db) :=
  ⟨checksIndependently_of_positive book, allTradePositive_of_checks book⟩

/-- Two resting market orders. -/
def twoResting : DB where
  instruments := [⟨1, "INFY", "NSE_EQ|INFY", 1 / 20⟩, ⟨2, "TCS", "NSE_EQ|TCS", 1 / 20⟩]
  orders := ⟨[openedRow "u" ⟨"a", 1, .buy, .market, 5, none⟩,
    openedRow "v" ⟨"b", 2, .buy, .market, 5, none⟩]⟩
  paperAccount := some ⟨1000⟩

theorem twoResting_cases {id : ℕ} {order : Order} (found : twoResting.orders.get? id = some order) :
    (id = 0 ∧ order = openedRow "u" ⟨"a", 1, .buy, .market, 5, none⟩) ∨
      (id = 1 ∧ order = openedRow "v" ⟨"b", 2, .buy, .market, 5, none⟩) := by
  rcases id with _ | _ | id
  · exact .inl ⟨rfl, (Option.some.inj found).symm⟩
  · exact .inr ⟨rfl, (Option.some.inj found).symm⟩
  · cases found

theorem restingBook_twoResting : RestingBook twoResting := by
  refine ⟨fun id _ order found => ?_, fun id _ order found => ?_⟩ <;>
    rcases twoResting_cases found with ⟨rfl, rfl⟩ | ⟨rfl, rfl⟩
  · exact .inl rfl
  · exact .inl rfl
  · rfl
  · rfl

/-- A broker that quotes the second instrument at 100, and the first one as given. -/
def quotingBroker (first : Option ℚ) : PaperBroker where
  quotes key := if key = "NSE_EQ|TCS" then some 100 else first
  costRates := default
  segment := .delivery
  slippageBps := 5
  latencyMs := 250

theorem checksIndependently_iff_sample :
    (quotingBroker none).ChecksIndependently (fun _ => 0) twoResting ∧
      (quotingBroker none).AllTradePositive twoResting := by
  have checks : (quotingBroker none).ChecksIndependently (fun _ => 0) twoResting := by
    refine (checksIndependently_iff restingBook_twoResting _).1 ?_
    intro id _ order ltp found quoted _
    rcases twoResting_cases found with ⟨rfl, rfl⟩ | ⟨rfl, rfl⟩
    · cases quoted
    · cases quoted
      refine ⟨some 100, rfl, ?_⟩
      rintro _ ⟨⟩
      decide +kernel
  exact ⟨checks, (checksIndependently_iff restingBook_twoResting _).2 (by decide +kernel)
    (by decide +kernel) checks⟩

/-- A quote of zero for the first order ends the pass, and the second order is not filled
either. -/
theorem zeroQuote_blocks :
    (PaperBroker.serve twoResting (quotingBroker (some 0), .checkRestingOrders fun _ => 0)).1 =
        .error (.valueError "price must be > 0" 0) ∧
      ((PaperBroker.step twoResting (quotingBroker none, .checkRestingOrders fun _ => 0)).orders.get?
        1).map Order.state = some .filled ∧
      ¬ (quotingBroker (some 0)).ChecksIndependently (fun _ => 0) twoResting := by
  refine ⟨by decide +kernel, by decide +kernel, ?_⟩
  rintro ⟨updates, db', _, _, yields, _⟩
  have raised : ((quotingBroker (some 0)).checkRestingOrders (fun _ => 0) twoResting
    ()).1.toOption.isSome = false := by decide +kernel
  rw [yields] at raised
  cases raised

end PaperBroker

end PersonalTrade
