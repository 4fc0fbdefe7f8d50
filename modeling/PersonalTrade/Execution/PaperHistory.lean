import PersonalTrade.Execution.PaperLedger

/-!
# The fill history of the paper broker

What the trades of an instrument say about its position: each was booked on the position that
the trades before it left. The store may hold orders and trades of other modes from the start.
-/

namespace PersonalTrade

open Transaction

/-- A trade with the side of its order. -/
structure TradeLeg where
  side : Side
  trade : Trade
deriving DecidableEq

/-- `_trade_costs`. -/
def tradeCosts (trade : Trade) : ℚ :=
  trade.brokerage + trade.stt + trade.stampDuty + trade.gst + trade.exchangeCharges +
    trade.sebiCharges

/-- The traded value. -/
def Trade.value (trade : Trade) : ℚ := trade.price * trade.qty

/-- The signed quantity of a leg. -/
def TradeLeg.signedQty (leg : TradeLeg) : ℤ := leg.side.sign * leg.trade.qty

/-- The legs of one position, in the order of their fills, and the position after them. -/
inductive Booked : List TradeLeg → Position → Prop where
  | nil : Booked [] {}
  | fill {legs : List TradeLeg} {position : Position} (earlier : Booked legs position) (leg : TradeLeg)
      (positive : 0 < leg.trade.qty)
      (net : leg.trade.netAmount = leg.trade.value + leg.side.sign * tradeCosts leg.trade)
      (realized : leg.trade.realizedPnl =
        (position.applyFill leg.side leg.trade.qty leg.trade.netAmount).2) :
      Booked (legs ++ [leg]) (position.applyFill leg.side leg.trade.qty leg.trade.netAmount).1

/-- A position holds the signed quantities of its legs. -/
theorem Booked.qty {legs : List TradeLeg} {position : Position} (booked : Booked legs position) :
    position.qty = (legs.map TradeLeg.signedQty).sum := by
  induction booked with
  | nil => rfl
  | fill _ leg _ _ _ ih => simp [ih, TradeLeg.signedQty]

/-- Every leg trades something. -/
theorem Booked.positive {legs : List TradeLeg} {position : Position}
    (booked : Booked legs position) : ∀ leg ∈ legs, 0 < leg.trade.qty := by
  induction booked with
  | nil => simp
  | fill _ leg positive _ _ ih =>
      intro other mem
      rcases List.mem_append.mp mem with old | new
      · exact ih other old
      · exact List.mem_singleton.mp new ▸ positive

namespace DB

variable (db : DB)

/-- The trades whose order has a property. -/
def tradesWhere (property : Order → Bool) : List Trade :=
  db.trades.filter fun trade => (db.orders.get? trade.orderId).any property

/-- A trade with the side of its order. -/
def legOf (trade : Trade) : TradeLeg := ⟨if db.isSale trade then .sell else .buy, trade⟩

/-- An order of a mode for an instrument. -/
def isOn (mode : Mode) (instrumentId : ℕ) (order : Order) : Bool :=
  order.mode = mode && order.instrumentId = instrumentId

/-- The legs of a mode and an instrument, in the order of their fills. -/
def legsOn (mode : Mode) (instrumentId : ℕ) : List TradeLeg :=
  (db.tradesWhere (isOn mode instrumentId)).map db.legOf

variable {db} {db' : DB}

/-- What is read of the terms of an order does not change. -/
theorem KeepsTerms.any_eq {trade : Trade} (keeps : KeepsTerms db db')
    (linked : (db.orders.get? trade.orderId).isSome) (property : OrderTerms → Bool) :
    (db'.orders.get? trade.orderId).any (fun order => property order.terms) =
      (db.orders.get? trade.orderId).any fun order => property order.terms := by
  rcases Option.isSome_iff_exists.mp linked with ⟨order, found⟩
  rcases keeps _ order found with ⟨order', found', sameTerms⟩
  simp only [found, found', Option.any_some, sameTerms]

end DB

/-- The books of the paper broker: its cash, and for each instrument its position. -/
structure PaperBooks (initialCash : ℚ) (db : DB) : Prop where
  linked : ∀ trade ∈ db.trades, (db.orders.get? trade.orderId).isSome
  cash : db.cash = initialCash +
    ((db.tradesWhere fun order => order.mode = .paper).map db.cashFlow).sum
  booked : ∀ instrumentId,
    Booked (db.legsOn .paper instrumentId) (db.getOrCreatePosition instrumentId .paper)
  known : ∀ instrumentId, db.legsOn .paper instrumentId ≠ [] →
    ∃ instrument, db.instrument instrumentId = some instrument

namespace PaperBooks

variable {initialCash : ℚ} {db db' : DB}

/-- The trades read the same from a store that keeps the terms of its orders. -/
theorem reads (books : PaperBooks initialCash db) (keeps : db.KeepsTerms db') :
    (∀ trade ∈ db.trades, db'.isSale trade = db.isSale trade) ∧
      (db.trades.filter fun trade => (db'.orders.get? trade.orderId).any
        fun order => order.mode = .paper) = db.tradesWhere (fun order => order.mode = .paper) ∧
      ∀ instrumentId, (db.trades.filter fun trade => (db'.orders.get? trade.orderId).any
        (DB.isOn .paper instrumentId)) = db.tradesWhere (DB.isOn .paper instrumentId) := by
  refine ⟨fun trade mem => ?_, List.filter_congr fun trade mem => ?_,
    fun instrumentId => List.filter_congr fun trade mem => ?_⟩
  · exact (keeps.reads (books.linked trade mem)).1
  · exact keeps.any_eq (books.linked trade mem) fun terms => terms.mode = .paper
  · exact keeps.any_eq (books.linked trade mem) fun terms =>
      terms.mode = .paper && terms.instrumentId = instrumentId

theorem flows_eq (books : PaperBooks initialCash db) (keeps : db.KeepsTerms db') :
    (db.tradesWhere fun order => order.mode = .paper).map db'.cashFlow =
      (db.tradesWhere fun order => order.mode = .paper).map db.cashFlow := by
  apply List.map_congr_left
  intro trade mem
  rw [DB.cashFlow, (books.reads keeps).1 trade (List.mem_of_mem_filter mem), DB.cashFlow]

theorem legs_eq (books : PaperBooks initialCash db) (keeps : db.KeepsTerms db')
    (instrumentId : ℕ) : (db.tradesWhere (DB.isOn .paper instrumentId)).map db'.legOf =
      db.legsOn .paper instrumentId := by
  apply List.map_congr_left
  intro trade mem
  rw [DB.legOf, (books.reads keeps).1 trade (List.mem_of_mem_filter mem), DB.legOf]

/-- What leaves trades, positions and account alone keeps the books. -/
theorem untraded (books : PaperBooks initialCash db) (keeps : db.KeepsTerms db')
    (trades : db'.trades = db.trades) (positions : db'.positions = db.positions)
    (account : db'.paperAccount = db.paperAccount) (instruments : db'.instruments = db.instruments) :
    PaperBooks initialCash db' := by
  have legs : ∀ instrumentId, db'.legsOn .paper instrumentId = db.legsOn .paper instrumentId := by
    intro instrumentId
    rw [DB.legsOn, DB.tradesWhere, trades, (books.reads keeps).2.2, books.legs_eq keeps]
  refine ⟨fun trade mem => ?_, ?_, fun instrumentId => ?_, fun instrumentId => ?_⟩
  · rw [trades] at mem
    rcases Option.isSome_iff_exists.mp (books.linked trade mem) with ⟨order, found⟩
    rcases keeps _ order found with ⟨order', found', _⟩
    simp [found']
  · rw [DB.cash, account, DB.tradesWhere, trades, (books.reads keeps).2.1, books.flows_eq keeps]
    exact books.cash
  · rw [legs, DB.getOrCreatePosition, DB.positionFor, positions]
    exact books.booked instrumentId
  · rw [legs, DB.instrument, instruments]
    exact books.known instrumentId

section Fill

variable {id : ℕ} {order : Order} {instrument : Instrument} {broker : PaperBroker} {qty : ℕ}
  {price : ℚ} {costs : TradeCosts} {time : ℤ}

/-- The trades of a fill are those before it, and the new one where its order has the property. -/
theorem tradesWhere_execute (books : PaperBooks initialCash db)
    (found : db.orders.get? id = some order) {within : order.filledQty + qty ≤ order.qty}
    (property : OrderTerms → Bool) :
    (db.execute id order qty price costs time within).tradesWhere (fun row => property row.terms) =
      db.tradesWhere (fun row => property row.terms) ++
        if property order.terms then [db.filledTrade id order qty price costs time] else [] := by
  have own : (db.execute id order qty price costs time within).orders.get?
      (db.filledTrade id order qty price costs time).orderId = some (order.executed qty within) := by
    rw [DB.get?_execute found]
    exact if_pos rfl
  have terms : (order.executed qty within).terms = order.terms := rfl
  have keeps : db.KeepsTerms (db.execute id order qty price costs time within) :=
    DB.keepsTerms_execute found
  have kept := List.filter_congr fun trade (mem : trade ∈ db.trades) =>
    keeps.any_eq (books.linked trade mem) property
  rw [DB.tradesWhere, DB.trades_execute, List.filter_append, kept, List.filter_cons]
  simp only [own, Option.any_some, terms, List.filter_nil, DB.tradesWhere]

/-- The leg that a fill appends. -/
theorem legOf_filledTrade (found : db.orders.get? id = some order)
    {within : order.filledQty + qty ≤ order.qty} :
    (db.execute id order qty price costs time within).legOf
      (db.filledTrade id order qty price costs time) =
        ⟨order.side, db.filledTrade id order qty price costs time⟩ := by
  rw [DB.legOf, DB.isSale_filledTrade found]
  cases order.side <;> rfl

/-- The legs of an instrument after a fill. -/
theorem legsOn_execute (books : PaperBooks initialCash db)
    (found : db.orders.get? id = some order) (paper : order.mode = .paper)
    {within : order.filledQty + qty ≤ order.qty} (instrumentId : ℕ) :
    (db.execute id order qty price costs time within).legsOn .paper instrumentId =
      db.legsOn .paper instrumentId ++
        if instrumentId = order.instrumentId then
          [⟨order.side, db.filledTrade id order qty price costs time⟩]
        else [] := by
  have keeps : db.KeepsTerms (db.execute id order qty price costs time within) :=
    DB.keepsTerms_execute found
  have trades : (db.execute id order qty price costs time within).tradesWhere
      (DB.isOn .paper instrumentId) = db.tradesWhere (DB.isOn .paper instrumentId) ++
        if order.mode = .paper && order.instrumentId = instrumentId then
          [db.filledTrade id order qty price costs time] else [] :=
    books.tradesWhere_execute found fun terms =>
      terms.mode = .paper && terms.instrumentId = instrumentId
  rw [DB.legsOn, trades, List.map_append, books.legs_eq keeps]
  congr 1
  by_cases same : instrumentId = order.instrumentId
  · simp [paper, same, legOf_filledTrade found]
  · simp [same, Ne.symm same]

/-- A fill at the charged costs keeps the books. -/
theorem execute (books : PaperBooks initialCash db)
    (fills : broker.Fills db id order instrument qty price costs) (positive : 0 < qty)
    (paper : order.mode = .paper) :
    PaperBooks initialCash (db.execute id order qty price costs time fills.within) := by
  have found := fills.found
  have keeps : db.KeepsTerms (db.execute id order qty price costs time fills.within) :=
    DB.keepsTerms_execute found
  have sale : (db.execute id order qty price costs time fills.within).isSale
      (db.filledTrade id order qty price costs time) = decide (order.side = .sell) :=
    DB.isSale_filledTrade found
  refine ⟨fun trade mem => ?_, ?_, fun instrumentId => ?_, fun instrumentId some => ?_⟩
  · rw [DB.trades_execute, List.mem_append, List.mem_singleton] at mem
    rcases mem with old | rfl
    · rcases Option.isSome_iff_exists.mp (books.linked trade old) with ⟨row, rowFound⟩
      rcases keeps _ row rowFound with ⟨row', rowFound', _⟩
      simp [rowFound']
    · rw [DB.get?_execute found]
      simp [DB.filledTrade]
  · have trades : (db.execute id order qty price costs time fills.within).tradesWhere
        (fun row => row.mode = .paper) = db.tradesWhere (fun row => row.mode = .paper) ++
          if decide (order.mode = .paper) then [db.filledTrade id order qty price costs time]
          else [] :=
      books.tradesWhere_execute found fun terms => terms.mode = .paper
    rw [trades, DB.cash_execute, List.map_append, List.sum_append, books.flows_eq keeps, books.cash]
    simp only [paper, decide_true, if_true, List.map_singleton, List.sum_singleton, DB.cashFlow,
      sale, decide_eq_true_eq]
    simp only [DB.filledTrade, add_assoc]
  · rw [books.legsOn_execute found paper, DB.getOrCreatePosition, DB.positionFor_execute]
    split_ifs with same
    · subst same
      have leg := Booked.fill (books.booked order.instrumentId)
        ⟨order.side, db.filledTrade id order qty price costs time⟩ positive ?_ rfl
      · exact leg
      · rw [(calculateCosts_eq_ok.mp fills.charged).2.2]
        cases side : order.side <;>
          simp only [DB.filledTrade, tradeCosts, Trade.value, costStack, Side.sign_buy,
            Side.sign_sell, reduceCtorEq, if_true, if_false] <;> push_cast <;> ring
    · rw [List.append_nil]
      exact books.booked instrumentId
  · rw [books.legsOn_execute found paper] at some
    split_ifs at some with same
    · exact ⟨instrument, same ▸ fills.known⟩
    · rw [List.append_nil] at some
      exact books.known instrumentId some

end Fill

end PaperBooks

namespace PaperBroker

/-- A store whose paper account was just opened: it holds the initial cash, and there are no paper
orders and positions. -/
structure AccountOpened (initialCash : ℚ) (db : DB) : Prop where
  account : db.paperAccount = some ⟨initialCash⟩
  orders : ∀ id order, db.orders.get? id = some order → order.mode ≠ .paper
  positions : ∀ instrumentId, db.positionFor instrumentId .paper = none
  linked : ∀ trade ∈ db.trades, (db.orders.get? trade.orderId).isSome

theorem books_of_accountOpened {initialCash : ℚ} {db : DB}
    (opened : AccountOpened initialCash db) : PaperBooks initialCash db := by
  have none : ∀ property : Order → Bool, (∀ order, property order = true → order.mode = .paper) →
      db.tradesWhere property = [] := by
    intro property paper
    rw [DB.tradesWhere, List.filter_eq_nil_iff]
    intro trade mem has
    rcases Option.isSome_iff_exists.mp (opened.linked trade mem) with ⟨order, found⟩
    rw [found] at has
    exact opened.orders _ order found (paper order has)
  have legs : ∀ instrumentId, db.legsOn .paper instrumentId = [] := by
    intro instrumentId
    rw [DB.legsOn, none _ fun order on => ?_]
    · rfl
    · simp only [DB.isOn, Bool.and_eq_true, decide_eq_true_eq] at on
      exact on.1
  refine ⟨opened.linked, ?_, fun instrumentId => ?_, fun instrumentId some => ?_⟩
  · rw [none _ fun order paper => of_decide_eq_true paper, DB.cash, opened.account]
    simp
  · rw [legs, DB.getOrCreatePosition, opened.positions]
    exact .nil
  · exact absurd (legs instrumentId) some

/-- The first broker seeds the account with its initial cash; a later one leaves it alone. -/
theorem accountOpened_openAccount {db : DB} (initialCash : ℚ) (absent : db.paperAccount = none)
    (orders : ∀ id order, db.orders.get? id = some order → order.mode ≠ .paper)
    (positions : ∀ instrumentId, db.positionFor instrumentId .paper = none)
    (linked : ∀ trade ∈ db.trades, (db.orders.get? trade.orderId).isSome) :
    AccountOpened initialCash (db.openAccount initialCash) ∧
      ∀ later, (db.openAccount initialCash).openAccount later = db.openAccount initialCash := by
  have account : (db.openAccount initialCash).paperAccount = some ⟨initialCash⟩ := by
    rw [DB.openAccount, absent]
    rfl
  exact ⟨⟨account, orders, positions, linked⟩, fun _ => rfl⟩

theorem sampleAccount_opened : AccountOpened 550 sampleAccount := by
  refine ⟨rfl, fun id order found => ?_, fun _ => rfl, fun trade mem => ?_⟩
  · cases found
  · simp [sampleAccount] at mem

variable {initialCash : ℚ} {broker : PaperBroker} {db db' before : DB} {id : ℕ} {order : Order}
  {made : PaperCall} {world world' : Unit}

/-- The birth of an order keeps the books. -/
theorem books_openOrder (books : PaperBooks initialCash db) {uuid : String} {request : OrderRequest}
    (yields : (openOrder uuid request).Yields db world id db' world') :
    PaperBooks initialCash db' := by
  rcases yields_openOrder yields with ⟨_, _, _, opening⟩
  have account : db'.paperAccount = db.paperAccount := by
    clear opening
    simp only [openOrder, yields_bind, yields_recordCreated, yields_transition,
      yields_pure] at yields
    rcases yields with ⟨_, _, _, ⟨_, _, rfl, rfl⟩, _, _, _, ⟨_, _, _, rfl⟩, _, _, _,
      ⟨_, _, _, rfl⟩, _, _, _, ⟨_, _, _, rfl⟩, rfl, rfl, _⟩
    rfl
  refine books.untraded (fun other row found => ⟨row, ?_, rfl⟩) opening.trades opening.positions
    account (instruments_openOrder yields)
  rw [opening.orders, if_neg (RowTable.lt_nextId_of_get? found).ne, found]

/-- A call attempts to fill paper orders only. -/
theorem Attempts.paper (attempts : broker.Attempts db id before made)
    (found : before.orders.get? id = some order) : order.mode = .paper := by
  cases made with
  | placeOrder uuid placedAt request =>
      rcases attempts with ⟨rfl, opened⟩
      rcases yields_openOrder opened with ⟨_, _, _, opening⟩
      rw [opening.get?_new, Option.some.injEq] at found
      exact found ▸ rfl
  | cancelOrder clientOrderId => exact attempts.elim
  | checkRestingOrders clock =>
      have retries : broker.Retries clock db id before := attempts
      rw [retries.untouched] at found
      exact paper_of_mem_listOpenOrders retries.mem found

/-- A call keeps the books, whether it is committed or rolled back. -/
theorem books_step (books : PaperBooks initialCash db) (made : PaperBroker × PaperCall) :
    PaperBooks initialCash (step db made) := by
  rcases commit_store (made.1.call made.2) db () with same | ⟨_, _, yields⟩
  · have rolledBack : step db made = db := same
    rw [rolledBack]
    exact books
  · refine call_invariant (motive := PaperBooks initialCash)
      (fun _ _ _ _ _ _ _ opened => books_openOrder books opened)
      (fun _ _ _ _ kept found _ => ?_)
      (fun _ _ _ _ _ _ _ _ kept attempts fills => ?_) books yields
    · exact kept.untraded (keepsTerms_of_moveOrder found _ _) rfl rfl rfl rfl
    · exact kept.execute fills (decideFill_fill fills.decided).1 (attempts.paper fills.found)

/-- In every state that calls reach from a just opened account the books are kept. -/
theorem books_runSteps {start : DB} (opened : AccountOpened initialCash start)
    (calls : List (PaperBroker × PaperCall)) :
    PaperBooks initialCash (runSteps step start calls) := by
  induction calls using List.reverseRecOn with
  | nil => exact books_of_accountOpened opened
  | append_singleton calls made ih =>
      rw [runSteps_concat]
      exact books_step ih made

end PaperBroker

end PersonalTrade
