import PersonalTrade.Core.Enums
import PersonalTrade.Library.Except
import PersonalTrade.Library.Table

/-!
# Instrument sync

`sync_instruments` of `data/historical/sync.py`: each entry of the master list updates the row
with its key, else the row with its symbol, else it is inserted. The assignments of an entry
reach the database before the next entry is looked up, so the unique constraints must hold
after every single entry. `table.Blocks earlier info` says when they do not.
-/

namespace PersonalTrade

/-- `InstrumentInfo`, an entry of the master list. -/
structure InstrumentInfo where
  symbol : String
  exchange : String
  isin : String
  instrumentKey : String
  name : String
  tickSize : ℚ
  lotSize : ℤ
deriving DecidableEq, Repr

/-- A row of `instruments` with all its columns. -/
structure InstrumentRow where
  symbol : String
  exchange : String
  isin : Option String
  instrumentKey : String
  name : Option String
  tickSize : ℚ
  lotSize : ℤ
  active : Bool := true
deriving DecidableEq, Repr

/-- The columns of `uq_instrument_symbol_exchange`. -/
def InstrumentRow.listing (row : InstrumentRow) : String × String := (row.symbol, row.exchange)

namespace InstrumentInfo

/-- What an entry has in the columns of `uq_instrument_symbol_exchange`. -/
def listing (info : InstrumentInfo) : String × String := (info.symbol, info.exchange)

/-- `info.name or None`. -/
def nameOrNone (info : InstrumentInfo) : Option String :=
  if info.name = "" then none else some info.name

/-- The row that an entry is inserted as. -/
def newRow (info : InstrumentInfo) : InstrumentRow where
  symbol := info.symbol
  exchange := info.exchange
  isin := some info.isin
  instrumentKey := info.instrumentKey
  name := info.nameOrNone
  tickSize := info.tickSize
  lotSize := info.lotSize

/-- The assignments to an existing row; its exchange is not assigned. -/
def assign (info : InstrumentInfo) (row : InstrumentRow) : InstrumentRow :=
  { row with
    symbol := info.symbol
    isin := some info.isin
    instrumentKey := info.instrumentKey
    name := info.nameOrNone
    tickSize := info.tickSize
    lotSize := info.lotSize
    active := true }

end InstrumentInfo

/-- The table `instruments`, with its unique constraints. -/
structure InstrumentTable where
  rows : RowTable InstrumentRow
  uniqueKey : rows.Unique InstrumentRow.instrumentKey
  uniqueListing : rows.Unique InstrumentRow.listing

namespace InstrumentTable

/-- A flush of the session: the database checks its unique constraints. -/
def flush (rows : RowTable InstrumentRow) : Except PyError InstrumentTable :=
  if uniqueKey : rows.Unique InstrumentRow.instrumentKey then
    if uniqueListing : rows.Unique InstrumentRow.listing then .ok ⟨rows, uniqueKey, uniqueListing⟩
    else .error (.integrityError "uq_instrument_symbol_exchange")
  else .error (.integrityError "instruments.instrument_key")

/-- `get_by_instrument_key`, as the primary key of the row. -/
def getByInstrumentKey (table : InstrumentTable) (instrumentKey : String) : Option ℕ :=
  (table.rows.select fun row => row.instrumentKey = instrumentKey).head?

/-- `get_by_symbol`, as the primary key of the row. -/
def getBySymbol (table : InstrumentTable) (symbol exchange : String) : Option ℕ :=
  (table.rows.select fun row => row.listing = (symbol, exchange)).head?

/-- The row that an entry updates, if any. -/
def existing (table : InstrumentTable) (info : InstrumentInfo) : Option ℕ :=
  (table.getByInstrumentKey info.instrumentKey).or (table.getBySymbol info.symbol info.exchange)

/-- One turn of `sync_instruments`, with the flush of its assignments. -/
def syncEntry (table : InstrumentTable) (info : InstrumentInfo) : Except PyError InstrumentTable :=
  match table.existing info with
  | none => flush (table.rows.insert info.newRow)
  | some id => flush (table.rows.update id info.assign)

/-- `sync_instruments`, with the number of rows it returns. -/
def syncInstruments (table : InstrumentTable) (master : List InstrumentInfo) :
    Except PyError (ℕ × InstrumentTable) := do
  let synced ← master.foldlM syncEntry table
  pure (master.length, synced)

end InstrumentTable

namespace InstrumentTable

variable {table table' start : InstrumentTable} {info : InstrumentInfo} {id : ℕ}
  {row : InstrumentRow}

/-- Exactly one row has the key or the symbol of an entry, and it carries all its fields. -/
def Represents (table : InstrumentTable) (info : InstrumentInfo) : Prop :=
  ∃ id, table.rows.get? id = some info.newRow ∧ ∀ other row, table.rows.get? other = some row →
    row.instrumentKey = info.instrumentKey ∨ row.listing = info.listing → other = id

/-- The entry gives the row of its key the symbol of another row, and no earlier entry has moved
one of the two away. -/
def Blocks (table : InstrumentTable) (earlier : List InstrumentInfo) (info : InstrumentInfo) :
    Prop :=
  ∃ id id' row row', table.rows.get? id = some row ∧ table.rows.get? id' = some row' ∧ id ≠ id' ∧
    row.instrumentKey = info.instrumentKey ∧ row'.listing = info.listing ∧
    (∀ before ∈ earlier, before.listing ≠ row.listing) ∧
    ∀ before ∈ earlier, before.instrumentKey ≠ row'.instrumentKey

theorem key_unique (table : InstrumentTable) {id id' : ℕ} {row row' : InstrumentRow}
    (found : table.rows.get? id = some row) (found' : table.rows.get? id' = some row')
    (same : row.instrumentKey = row'.instrumentKey) : id = id' :=
  RowTable.unique_iff.mp table.uniqueKey id id' row row' found found' same

theorem listing_unique (table : InstrumentTable) {id id' : ℕ} {row row' : InstrumentRow}
    (found : table.rows.get? id = some row) (found' : table.rows.get? id' = some row')
    (same : row.listing = row'.listing) : id = id' :=
  RowTable.unique_iff.mp table.uniqueListing id id' row row' found found' same

theorem flush_eq_ok {rows : RowTable InstrumentRow} : flush rows = .ok table ↔
    table.rows = rows ∧ rows.Unique InstrumentRow.instrumentKey ∧
      rows.Unique InstrumentRow.listing := by
  unfold flush
  split_ifs with uniqueKey uniqueListing
  · rw [Except.ok.injEq]
    constructor
    · rintro rfl
      exact ⟨rfl, uniqueKey, uniqueListing⟩
    · rintro ⟨rfl, _⟩
      rfl
  · simp [uniqueListing]
  · simp [uniqueKey]

/-- How an entry finds its row: by its key, else by its symbol, else not at all. -/
theorem existing_cases (table : InstrumentTable) (info : InstrumentInfo) :
    (∃ id row, table.rows.get? id = some row ∧ row.instrumentKey = info.instrumentKey ∧
      table.existing info = some id) ∨
    (∀ id row, table.rows.get? id = some row → row.instrumentKey ≠ info.instrumentKey) ∧
      ((∃ id row, table.rows.get? id = some row ∧ row.listing = info.listing ∧
          table.existing info = some id) ∨
        (∀ id row, table.rows.get? id = some row → row.listing ≠ info.listing) ∧
          table.existing info = none) := by
  rcases table.rows.head?_select_cases InstrumentRow.instrumentKey info.instrumentKey with
    ⟨id, row, found, same, byKey⟩ | ⟨noKey, byKey⟩
  · refine .inl ⟨id, row, found, same, ?_⟩
    rw [existing, getByInstrumentKey, byKey, Option.some_or]
  · refine .inr ⟨noKey, ?_⟩
    rcases table.rows.head?_select_cases InstrumentRow.listing info.listing with
      ⟨id, row, found, same, bySymbol⟩ | ⟨noListing, bySymbol⟩
    · refine .inl ⟨id, row, found, same, ?_⟩
      rw [existing, getByInstrumentKey, byKey, Option.none_or]
      exact bySymbol
    · refine .inr ⟨noListing, ?_⟩
      rw [existing, getByInstrumentKey, byKey, Option.none_or]
      exact bySymbol

theorem assign_eq_newRow (same : row.exchange = info.exchange) : info.assign row = info.newRow := by
  simp [InstrumentInfo.assign, InstrumentInfo.newRow, same]

/-! ## The loop -/

/-- The table after some entries: it holds their rows, and the rows of the start that they did
not find. -/
structure Progress (start : InstrumentTable) (earlier : List InstrumentInfo)
    (table : InstrumentTable) : Prop where
  carried : ∀ info ∈ earlier, ∃ id, table.rows.get? id = some info.newRow
  origin : ∀ id row, table.rows.get? id = some row →
    (∃ info ∈ earlier, row = info.newRow) ∨ start.rows.get? id = some row
  untouched : ∀ id row, start.rows.get? id = some row →
    (∀ info ∈ earlier, info.instrumentKey ≠ row.instrumentKey ∧ info.listing ≠ row.listing) →
    table.rows.get? id = some row

/-- The entry has a key and a symbol that no earlier entry has. -/
structure Fresh (earlier : List InstrumentInfo) (info : InstrumentInfo) : Prop where
  key : ∀ before ∈ earlier, before.instrumentKey ≠ info.instrumentKey
  listing : ∀ before ∈ earlier, before.listing ≠ info.listing

namespace Progress

variable {earlier : List InstrumentInfo}

/-- The row of an entry takes the place of one with its key or its symbol, or of none. -/
theorem place (progress : Progress start earlier table) (id : ℕ) (fresh : Fresh earlier info)
    (rows : ∀ other, table'.rows.get? other =
      if other = id then some info.newRow else table.rows.get? other)
    (matched : ∀ row, table.rows.get? id = some row →
      row.instrumentKey = info.instrumentKey ∨ row.listing = info.listing) :
    Progress start (earlier ++ [info]) table' := by
  refine ⟨fun entry mem => ?_, fun other row found => ?_, fun other row found spared => ?_⟩
  · rcases List.mem_append.mp mem with before | last
    · rcases progress.carried entry before with ⟨own, found⟩
      have ne : own ≠ id := by
        rintro rfl
        rcases matched entry.newRow found with key | listing
        · exact fresh.key entry before key
        · exact fresh.listing entry before listing
      exact ⟨own, by rw [rows, if_neg ne, found]⟩
    · rw [List.mem_singleton] at last
      subst last
      exact ⟨id, by rw [rows, if_pos rfl]⟩
  · rw [rows] at found
    split_ifs at found with same
    · exact .inl ⟨info, by simp, (Option.some.inj found).symm⟩
    · rcases progress.origin other row found with ⟨before, mem, own⟩ | old
      · exact .inl ⟨before, List.mem_append_left _ mem, own⟩
      · exact .inr old
  · have kept := progress.untouched other row found fun before mem =>
      spared before (List.mem_append_left _ mem)
    have last := spared info (by simp)
    have ne : other ≠ id := by
      rintro rfl
      rcases matched row kept with key | listing
      · exact last.1 key.symm
      · exact last.2 listing.symm
    rw [rows, if_neg ne, kept]

/-- A row with the key of a fresh entry is a row of the start. -/
theorem start_of_key (progress : Progress start earlier table) (fresh : Fresh earlier info)
    (found : table.rows.get? id = some row) (same : row.instrumentKey = info.instrumentKey) :
    start.rows.get? id = some row := by
  rcases progress.origin id row found with ⟨before, mem, rfl⟩ | old
  · exact absurd same (fresh.key before mem)
  · exact old

theorem start_of_listing (progress : Progress start earlier table) (fresh : Fresh earlier info)
    (found : table.rows.get? id = some row) (same : row.listing = info.listing) :
    start.rows.get? id = some row := by
  rcases progress.origin id row found with ⟨before, mem, rfl⟩ | old
  · exact absurd same (fresh.listing before mem)
  · exact old

/-- The two rows of a blocked entry are still in the table. -/
theorem of_blocks (progress : Progress start earlier table) (fresh : Fresh earlier info)
    (blocks : start.Blocks earlier info) :
    ∃ id id' row row', table.rows.get? id = some row ∧ table.rows.get? id' = some row' ∧ id ≠ id' ∧
      row.instrumentKey = info.instrumentKey ∧ row'.listing = info.listing := by
  rcases blocks with ⟨id, id', row, row', found, found', ne, key, listing, listingFree, keyFree⟩
  refine ⟨id, id', row, row', progress.untouched id row found fun before mem => ⟨?_, ?_⟩,
    progress.untouched id' row' found' fun before mem => ⟨keyFree before mem, ?_⟩, ne, key, listing⟩
  · rw [key]
    exact fresh.key before mem
  · exact listingFree before mem
  · rw [listing]
    exact fresh.listing before mem

/-- Two rows with the key and the symbol of an entry block it. -/
theorem blocks (progress : Progress start earlier table) (fresh : Fresh earlier info)
    {id' : ℕ} {row' : InstrumentRow} (found : table.rows.get? id = some row)
    (found' : table.rows.get? id' = some row') (ne : id ≠ id')
    (key : row.instrumentKey = info.instrumentKey) (listing : row'.listing = info.listing) :
    start.Blocks earlier info := by
  refine ⟨id, id', row, row', progress.start_of_key fresh found key,
    progress.start_of_listing fresh found' listing, ne, key, listing, fun before mem same => ?_,
    fun before mem same => ?_⟩
  · rcases progress.carried before mem with ⟨own, ownFound⟩
    have sameId : own = id := table.listing_unique ownFound found same
    rw [← sameId, ownFound, Option.some.injEq] at found
    exact fresh.key before mem (by rw [← key, ← found]; rfl)
  · rcases progress.carried before mem with ⟨own, ownFound⟩
    have sameId : own = id' := table.key_unique ownFound found' same
    rw [← sameId, ownFound, Option.some.injEq] at found'
    exact fresh.listing before mem (by rw [← listing, ← found']; rfl)

/-- Updating the row found by its key passes the constraints unless another row has the symbol. -/
theorem update_by_key (progress : Progress start earlier table) (fresh : Fresh earlier info)
    (found : table.rows.get? id = some row) (key : row.instrumentKey = info.instrumentKey)
    (sameExchange : row.exchange = info.exchange) :
    (∃ table', flush (table.rows.update id info.assign) = .ok table' ∧
        Progress start (earlier ++ [info]) table') ∧ ¬ start.Blocks earlier info ∨
      (∃ raised, flush (table.rows.update id info.assign) = .error raised) ∧
        start.Blocks earlier info := by
  have assigned : info.assign row = info.newRow := assign_eq_newRow sameExchange
  by_cases taken : ∃ id' other, id ≠ id' ∧ table.rows.get? id' = some other ∧
      other.listing = info.listing
  · rcases taken with ⟨id', other, ne, found', listing⟩
    refine .inr ⟨?_, progress.blocks fresh found found' ne key listing⟩
    rcases flushed : flush (table.rows.update id info.assign) with raised | table'
    · exact ⟨raised, rfl⟩
    · have apart := (RowTable.unique_update table.uniqueListing found _).mp
        (flush_eq_ok.mp flushed).2.2
      exact absurd (by rw [assigned, listing]; rfl) (apart id' other ne.symm found')
  · left
    have uniqueKey := (RowTable.unique_update table.uniqueKey found info.assign).mpr
      fun id' other ne found' same => ne (table.key_unique found' found (same.trans key.symm))
    have uniqueListing := (RowTable.unique_update table.uniqueListing found info.assign).mpr
      fun id' other ne found' same => taken ⟨id', other, ne.symm, found', by
        rw [same, assigned]
        rfl⟩
    refine ⟨⟨⟨_, uniqueKey, uniqueListing⟩, flush_eq_ok.mpr ⟨rfl, uniqueKey, uniqueListing⟩,
      progress.place id fresh (fun other => ?_) fun other found' => ?_⟩, fun blocks => ?_⟩
    · rw [RowTable.get?_update]
      split_ifs with same
      · rw [same, found, Option.map_some, assigned]
      · rfl
    · rw [found, Option.some.injEq] at found'
      exact .inl (found' ▸ key)
    · rcases progress.of_blocks fresh blocks with
        ⟨id₁, id₂, row₁, row₂, found₁, found₂, ne, key₁, listing₂⟩
      have sameId : id₁ = id := table.key_unique found₁ found (key₁.trans key.symm)
      exact taken ⟨id₂, row₂, sameId ▸ ne, found₂, listing₂⟩

theorem update_by_listing (progress : Progress start earlier table) (fresh : Fresh earlier info)
    (noKey : ∀ id row, table.rows.get? id = some row → row.instrumentKey ≠ info.instrumentKey)
    (found : table.rows.get? id = some row) (listing : row.listing = info.listing) :
    ∃ table', flush (table.rows.update id info.assign) = .ok table' ∧
      Progress start (earlier ++ [info]) table' := by
  have assigned : info.assign row = info.newRow := assign_eq_newRow (congrArg Prod.snd listing)
  have uniqueKey := (RowTable.unique_update table.uniqueKey found info.assign).mpr
    fun id' other _ found' => noKey id' other found'
  have uniqueListing := (RowTable.unique_update table.uniqueListing found info.assign).mpr
    fun id' other ne found' same => ne (table.listing_unique found' found (by
      rw [same, assigned, listing]
      rfl))
  refine ⟨⟨_, uniqueKey, uniqueListing⟩, flush_eq_ok.mpr ⟨rfl, uniqueKey, uniqueListing⟩,
    progress.place id fresh (fun other => ?_) fun other found' => ?_⟩
  · rw [RowTable.get?_update]
    split_ifs with same
    · rw [same, found, Option.map_some, assigned]
    · rfl
  · rw [found, Option.some.injEq] at found'
    exact .inr (found' ▸ listing)

theorem insert_new (progress : Progress start earlier table) (fresh : Fresh earlier info)
    (noKey : ∀ id row, table.rows.get? id = some row → row.instrumentKey ≠ info.instrumentKey)
    (noListing : ∀ id row, table.rows.get? id = some row → row.listing ≠ info.listing) :
    ∃ table', flush (table.rows.insert info.newRow) = .ok table' ∧
      Progress start (earlier ++ [info]) table' := by
  have uniqueKey := (RowTable.unique_insert info.newRow table.uniqueKey).mpr noKey
  have uniqueListing := (RowTable.unique_insert info.newRow table.uniqueListing).mpr noListing
  refine ⟨⟨_, uniqueKey, uniqueListing⟩, flush_eq_ok.mpr ⟨rfl, uniqueKey, uniqueListing⟩,
    progress.place _ fresh (RowTable.get?_insert _ _) fun other found => ?_⟩
  rw [RowTable.get?_nextId] at found
  cases found

/-- An entry goes through exactly when it is not blocked. -/
theorem syncEntry (progress : Progress start earlier table) (fresh : Fresh earlier info)
    (domestic : ∀ id row, start.rows.get? id = some row →
      row.instrumentKey = info.instrumentKey → row.exchange = info.exchange) :
    (∃ table', table.syncEntry info = .ok table' ∧ Progress start (earlier ++ [info]) table') ∧
        ¬ start.Blocks earlier info ∨
      (∃ raised, table.syncEntry info = .error raised) ∧ start.Blocks earlier info := by
  have free (noKey : ∀ id row, table.rows.get? id = some row →
      row.instrumentKey ≠ info.instrumentKey) : ¬ start.Blocks earlier info := by
    intro blocks
    rcases progress.of_blocks fresh blocks with ⟨id, _, row, _, found, _, _, key, _⟩
    exact noKey id row found key
  unfold InstrumentTable.syncEntry
  rcases existing_cases table info with ⟨id, row, found, key, finds⟩ |
    ⟨noKey, ⟨id, row, found, listing, finds⟩ | ⟨noListing, finds⟩⟩
  · rw [finds]
    exact progress.update_by_key fresh found key
      (domestic id row (progress.start_of_key fresh found key) key)
  · rw [finds]
    exact .inl ⟨progress.update_by_listing fresh noKey found listing, free noKey⟩
  · rw [finds]
    exact .inl ⟨progress.insert_new fresh noKey noListing, free noKey⟩

/-- The loop goes through exactly when no entry is blocked. -/
theorem foldlM_syncEntry (later : List InstrumentInfo)
    (progress : Progress start earlier table)
    (keys : (earlier ++ later).Pairwise (·.instrumentKey ≠ ·.instrumentKey))
    (listings : (earlier ++ later).Pairwise (·.listing ≠ ·.listing))
    (domestic : ∀ info ∈ later, ∀ id row, start.rows.get? id = some row →
      row.instrumentKey = info.instrumentKey → row.exchange = info.exchange) :
    (∃ synced, later.foldlM InstrumentTable.syncEntry table = .ok synced ∧
        Progress start (earlier ++ later) synced) ∧
        (∀ before info after, later = before ++ info :: after →
          ¬ start.Blocks (earlier ++ before) info) ∨
      (∃ raised, later.foldlM InstrumentTable.syncEntry table = .error raised) ∧
        ∃ before info after, later = before ++ info :: after ∧
          start.Blocks (earlier ++ before) info := by
  induction later generalizing earlier table with
  | nil =>
      refine .inl ⟨⟨table, rfl, by rwa [List.append_nil]⟩, fun before info after split => ?_⟩
      simp at split
  | cons info later ih =>
      have fresh : Fresh earlier info := by
        rw [List.pairwise_append] at keys listings
        exact ⟨fun before mem => keys.2.2 before mem info List.mem_cons_self,
          fun before mem => listings.2.2 before mem info List.mem_cons_self⟩
      rw [List.foldlM_cons]
      rcases progress.syncEntry fresh (domestic info List.mem_cons_self) with
        ⟨⟨table', synced, onward⟩, unblocked⟩ | ⟨⟨raised, failed⟩, blocked⟩
      · rw [synced]
        have rest := ih onward (by simpa using keys) (by simpa using listings)
          fun entry mem => domestic entry (List.mem_cons_of_mem _ mem)
        rcases rest with ⟨⟨last, finished, progressed⟩, free⟩ | ⟨failed, before, entry, after, split,
          blocked⟩
        · refine .inl ⟨⟨last, finished, by simpa using progressed⟩,
            fun before entry after split => ?_⟩
          cases before with
          | nil =>
              rw [List.nil_append, List.cons.injEq] at split
              rw [List.append_nil, ← split.1]
              exact unblocked
          | cons first before =>
              rw [List.cons_append, List.cons.injEq] at split
              have later := free before entry after split.2
              rwa [List.append_assoc, List.singleton_append, split.1] at later
        · refine .inr ⟨failed, info :: before, entry, after, by rw [split]; rfl, ?_⟩
          simpa using blocked
      · rw [failed]
        exact .inr ⟨⟨raised, rfl⟩, [], info, later, rfl, by rwa [List.append_nil]⟩

end Progress

theorem Progress.init (start : InstrumentTable) : Progress start [] start :=
  ⟨by simp, fun _ _ found => .inr found, fun _ _ found _ => found⟩

theorem Progress.represents {master : List InstrumentInfo} (progress : Progress start master table)
    (mem : info ∈ master) : table.Represents info := by
  rcases progress.carried info mem with ⟨id, found⟩
  refine ⟨id, found, fun other row found' matched => ?_⟩
  rcases matched with key | listing
  · exact table.key_unique found' found key
  · exact table.listing_unique found' found listing

/-! ## Keys of another exchange -/

/-- No entry moves a row to its exchange. -/
theorem foreign_syncEntry (foreign : row.exchange ≠ info.exchange)
    (found : table.rows.get? id = some row) (synced : table.syncEntry info = .ok table') :
    ∃ row', table'.rows.get? id = some row' ∧ row'.exchange = row.exchange ∧
      row'.instrumentKey = row.instrumentKey := by
  unfold syncEntry at synced
  rcases existing_cases table info with ⟨own, matched, matchFound, key, finds⟩ |
    ⟨noKey, ⟨own, matched, matchFound, listing, finds⟩ | ⟨noListing, finds⟩⟩
  · rw [finds] at synced
    rw [(flush_eq_ok.mp synced).1, RowTable.get?_update]
    split_ifs with same
    · subst own
      rw [found, Option.some.injEq] at matchFound
      subst matched
      exact ⟨info.assign row, by rw [found, Option.map_some], rfl, key.symm⟩
    · exact ⟨row, found, rfl, rfl⟩
  · rw [finds] at synced
    have ne : id ≠ own := by
      rintro rfl
      rw [found, Option.some.injEq] at matchFound
      subst matched
      exact foreign (congrArg Prod.snd listing)
    exact ⟨row, by rw [(flush_eq_ok.mp synced).1, RowTable.get?_update_of_ne ne, found], rfl, rfl⟩
  · rw [finds] at synced
    have ne : id ≠ table.rows.nextId := (RowTable.lt_nextId_of_get? found).ne
    exact ⟨row, by rw [(flush_eq_ok.mp synced).1, RowTable.get?_insert_of_ne ne, found], rfl, rfl⟩

theorem foreign_foldlM (master : List InstrumentInfo)
    (foreign : ∀ info ∈ master, row.exchange ≠ info.exchange)
    (found : table.rows.get? id = some row)
    (synced : master.foldlM syncEntry table = .ok table') :
    ∃ row', table'.rows.get? id = some row' ∧ row'.exchange = row.exchange ∧
      row'.instrumentKey = row.instrumentKey := by
  induction master generalizing table row with
  | nil =>
      cases synced
      exact ⟨row, found, rfl, rfl⟩
  | cons info master ih =>
      rw [List.foldlM_cons] at synced
      rcases except_bind_eq_ok.mp synced with ⟨middle, first, rest⟩
      rcases foreign_syncEntry (foreign info List.mem_cons_self) found first with
        ⟨row', found', exchange, key⟩
      rcases ih (fun entry mem => exchange ▸ foreign entry (List.mem_cons_of_mem _ mem)) found' rest
        with ⟨last, lastFound, lastExchange, lastKey⟩
      exact ⟨last, lastFound, lastExchange.trans exchange, lastKey.trans key⟩

/-! ## The sync -/

/-- For a master list of one exchange with different keys and symbols: the sync succeeds and
represents every entry if and only if no stored row of another exchange has the key of an entry
and no entry is blocked. -/
theorem syncInstruments_iff (table : InstrumentTable) (master : List InstrumentInfo)
    (exchange : String) (oneExchange : ∀ info ∈ master, info.exchange = exchange)
    (keys : master.Pairwise (·.instrumentKey ≠ ·.instrumentKey))
    (symbols : master.Pairwise (·.symbol ≠ ·.symbol)) :
    (∃ synced, table.syncInstruments master = .ok (master.length, synced) ∧
        ∀ info ∈ master, synced.Represents info) ↔
      (∀ id row, table.rows.get? id = some row → ∀ info ∈ master,
          row.instrumentKey = info.instrumentKey → row.exchange = exchange) ∧
        ∀ earlier info later, master = earlier ++ info :: later → ¬ table.Blocks earlier info := by
  have listings : master.Pairwise (·.listing ≠ ·.listing) :=
    symbols.imp fun apart same => apart (congrArg Prod.fst same)
  have domestic_iff : (∀ id row, table.rows.get? id = some row → ∀ info ∈ master,
        row.instrumentKey = info.instrumentKey → row.exchange = exchange) ↔
      ∀ info ∈ master, ∀ id row, table.rows.get? id = some row →
        row.instrumentKey = info.instrumentKey → row.exchange = info.exchange := by
    constructor
    · intro domestic info mem id row found key
      rw [oneExchange info mem]
      exact domestic id row found info mem key
    · intro domestic id row found info mem key
      rw [← oneExchange info mem]
      exact domestic info mem id row found key
  have loop (domestic : ∀ info ∈ master, ∀ id row, table.rows.get? id = some row →
      row.instrumentKey = info.instrumentKey → row.exchange = info.exchange) :=
    (Progress.init table).foldlM_syncEntry master keys listings domestic
  rw [domestic_iff]
  constructor
  · rintro ⟨synced, ran, represented⟩
    rcases except_bind_eq_ok.mp ran with ⟨last, folded, made⟩
    cases made
    have domestic : ∀ info ∈ master, ∀ id row, table.rows.get? id = some row →
        row.instrumentKey = info.instrumentKey → row.exchange = info.exchange := by
      intro info mem id row found key
      by_contra foreign
      rcases foreign_foldlM master (fun entry entryMem => by
          rwa [oneExchange entry entryMem, ← oneExchange info mem]) found folded with
        ⟨row', found', sameExchange, sameKey⟩
      rcases represented info mem with ⟨own, ownFound, only⟩
      have sameId := only id row' found' (.inl (sameKey.trans key))
      rw [sameId, ownFound, Option.some.injEq] at found'
      exact foreign (by rw [← sameExchange, ← found']; rfl)
    refine ⟨domestic, fun earlier info later split blocks => ?_⟩
    rcases loop domestic with ⟨_, free⟩ | ⟨⟨raised, failed⟩, _⟩
    · exact free earlier info later split blocks
    · rw [folded] at failed
      cases failed
  · rintro ⟨domestic, free⟩
    rcases loop domestic with
      ⟨⟨synced, folded, progress⟩, _⟩ | ⟨_, earlier, info, later, split, blocks⟩
    · exact ⟨synced, except_bind_eq_ok.mpr ⟨synced, folded, rfl⟩,
        fun info mem => progress.represents mem⟩
    · exact absurd blocks (free earlier info later split)

/-- An entry of the sample lists. -/
def sampleInfo (symbol instrumentKey : String) : InstrumentInfo :=
  ⟨symbol, "NSE", "INE002A01018", instrumentKey, "", 1 / 10, 1⟩

/-- A table with one instrument. -/
def sampleTable : InstrumentTable where
  rows := ⟨[(sampleInfo "RELIANCE" "NSE_EQ|OLD").newRow]⟩
  uniqueKey := by decide
  uniqueListing := by decide

/-- A table with three instruments. -/
def chainTable : InstrumentTable where
  rows := ⟨[(sampleInfo "ALPHA" "NSE_EQ|1").newRow, (sampleInfo "BETA" "NSE_EQ|2").newRow,
    (sampleInfo "GAMMA" "NSE_EQ|3").newRow]⟩
  uniqueKey := by decide
  uniqueListing := by decide

/-- Each row takes the symbol that the row after it has just given up, and the symbol of the first
row goes to a new instrument. -/
def chainMaster : List InstrumentInfo :=
  [sampleInfo "DELTA" "NSE_EQ|3", sampleInfo "GAMMA" "NSE_EQ|2", sampleInfo "BETA" "NSE_EQ|1",
    sampleInfo "ALPHA" "NSE_EQ|4"]

theorem syncInstruments_iff_sample :
    ∃ synced, chainTable.syncInstruments chainMaster = .ok (4, synced) ∧
      ∀ info ∈ chainMaster, synced.Represents info := by
  have vacated : ∀ k (bound : k < chainMaster.length),
      ∀ row ∈ chainTable.rows.rows, ∀ row' ∈ chainTable.rows.rows,
        row.instrumentKey = chainMaster[k].instrumentKey →
          row'.listing = chainMaster[k].listing →
            ∃ before ∈ chainMaster.take k, before.instrumentKey = row'.instrumentKey := by
    decide
  refine (syncInstruments_iff chainTable chainMaster "NSE" (by decide) (by decide)
    (by decide)).mpr ⟨?_, ?_⟩
  · intro id row found info _ _
    have stored : ∀ row ∈ chainTable.rows.rows, row.exchange = "NSE" := by decide
    exact stored row (List.mem_of_getElem? found)
  · rintro earlier info later split ⟨_, _, row, row', found, found', _, key, listing, _, moved⟩
    have bound : earlier.length < chainMaster.length := by
      rw [split, List.length_append, List.length_cons]
      omega
    have own : chainMaster[earlier.length] = info := by simp [split]
    have first : chainMaster.take earlier.length = earlier := by
      rw [split, List.take_left]
    rw [← own] at key listing
    rcases vacated _ bound row (List.mem_of_getElem? found) row' (List.mem_of_getElem? found') key
      listing with ⟨before, mem, same⟩
    rw [first] at mem
    exact moved before mem same

/-- A table with two instruments. -/
def swapTable : InstrumentTable where
  rows := ⟨[(sampleInfo "TATA" "NSE_EQ|1").newRow, (sampleInfo "TITAN" "NSE_EQ|2").newRow]⟩
  uniqueKey := by decide
  uniqueListing := by decide

/-- The symbols of two instruments are exchanged: the first assignment is refused. -/
theorem swap_refused :
    [sampleInfo "TITAN" "NSE_EQ|1", sampleInfo "TATA" "NSE_EQ|2"].Pairwise
        (·.instrumentKey ≠ ·.instrumentKey) ∧
      [sampleInfo "TITAN" "NSE_EQ|1", sampleInfo "TATA" "NSE_EQ|2"].Pairwise
        (·.symbol ≠ ·.symbol) ∧
      ¬ ∃ synced, swapTable.syncInstruments
        [sampleInfo "TITAN" "NSE_EQ|1", sampleInfo "TATA" "NSE_EQ|2"] = .ok synced := by
  refine ⟨by decide, by decide, ?_⟩
  rintro ⟨synced, ran⟩
  have refused : (swapTable.syncInstruments
      [sampleInfo "TITAN" "NSE_EQ|1", sampleInfo "TATA" "NSE_EQ|2"]).toOption.isNone = true := by
    decide +kernel
  rw [ran] at refused
  cases refused

end InstrumentTable

end PersonalTrade
