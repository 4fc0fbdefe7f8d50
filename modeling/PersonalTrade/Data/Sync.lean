import PersonalTrade.Data.CandleMap
import PersonalTrade.Data.Historical
import PersonalTrade.Data.InstrumentSync
import PersonalTrade.Data.Quality

/-!
# Candle sync

`sync_candles` of `data/historical/sync.py`: what a provider serves for a range of dates is checked,
merged into the dataset and described by the manifest. Whatever is wrong with the candles, they are
stored; what the provider or the lookup of the symbol raises leaves the store as it was. Over any
run of syncs, `sync_converges` says which rows a read finds and `manifest_describes` what a manifest
is worth.
-/

namespace PersonalTrade

open LastWrite

/-- `manifest.json`. -/
structure Manifest where
  symbol : String
  exchange : String
  interval : Interval
  source : String
  rows : ℕ
  firstTs : Option ℤ
  lastTs : Option ℤ
  syncedAt : ℤ
  validation : Option String
deriving DecidableEq

/-- The root of a `CandleStore`, with the manifests beside its files. -/
structure CandleArchive where
  files : CandleStore
  manifests : DatasetKey → Option Manifest

/-- `_bounds`. -/
def Dataset.bounds (dataset : Dataset) : Option ℤ × Option ℤ :=
  ((dataset.rows.map CandleRow.ts).min?, (dataset.rows.map CandleRow.ts).max?)

namespace CandleArchive

def empty : CandleArchive where
  files := .empty
  manifests _ := none

/-- `_write_manifest`. -/
def writeManifest (archive : CandleArchive) (key : DatasetKey) (rows : ℕ) (source : String)
    (validation : Option String) (now : ℤ) : CandleArchive :=
  let bounds := (archive.files key).bounds
  { archive with
    manifests := Function.update archive.manifests key (some {
      symbol := key.symbol
      exchange := key.exchange
      interval := key.interval
      source := source
      rows := rows
      firstTs := bounds.1
      lastTs := bounds.2
      syncedAt := now
      validation := validation }) }

/-- `CandleStore.write`, with the manifest. -/
def write (archive : CandleArchive) (key : DatasetKey) (frame : List CandleRow) (source : String)
    (validation : Option String) (now : ℤ) : ℕ × CandleArchive :=
  let written := archive.files.write key frame
  let stored : CandleArchive := { archive with files := written.2 }
  (written.1, stored.writeManifest key written.1 source validation now)

end CandleArchive

/-- The arguments of a call of `sync_candles`, with the instruments table, the provider and the
clock that it meets. -/
structure SyncCall where
  symbol : String
  exchange : String
  interval : Interval
  fromDate : Date
  toDate : Date
  calendar : Option NSECalendar
  table : InstrumentTable
  provider : String → Interval → FetchChunk
  now : ℤ

inductive SyncError where
  | unknownSymbol (symbol exchange : String)
  | raised (error : PyError)

structure SyncResult where
  symbol : String
  interval : Interval
  fetchedRows : ℕ
  totalRows : ℕ
  report : QualityReport

namespace SyncCall

def key (call : SyncCall) : DatasetKey := ⟨call.symbol, call.exchange, call.interval⟩

def instrument (call : SyncCall) : Option InstrumentRow :=
  (call.table.getBySymbol call.symbol call.exchange).bind call.table.rows.get?

/-- The frame that the provider returns for the symbol. -/
def fetched (call : SyncCall) : Except SyncError (List CandleRow) :=
  match call.instrument with
  | none => .error (.unknownSymbol call.symbol call.exchange)
  | some instrument =>
      (getHistoricalCandles (call.provider instrument.instrumentKey call.interval) call.interval
        call.fromDate call.toDate).2.mapError SyncError.raised

end SyncCall

/-- `sync_candles`. -/
def syncCandles (archive : CandleArchive) (call : SyncCall) :
    Except SyncError SyncResult × CandleArchive :=
  match call.fetched with
  | .error raised => (.error raised, archive)
  | .ok frame =>
      let report := checkCandles frame call.interval call.calendar
      let written := archive.write call.key frame "upstox" (some report.status) call.now
      (.ok {
        symbol := call.symbol
        interval := call.interval
        fetchedRows := frame.length
        totalRows := written.1
        report := report }, written.2)

/-- The archive after some calls of `sync_candles`, failed ones included. -/
def CandleArchive.afterSyncs (archive : CandleArchive) (calls : List SyncCall) : CandleArchive :=
  calls.foldl (fun archive call => (syncCandles archive call).2) archive

/-! ## What a provider serves -/

/-- An answered request has exactly the rows that are known for its days. -/
def Serves (fetch : FetchChunk) (known : List CandleRow) : Prop :=
  ∀ first last frame, fetch first last = .ok frame → ∀ row, row ∈ frame ↔
    row ∈ known ∧ first.day ≤ istTradingDate row.ts ∧ istTradingDate row.ts ≤ last.day

section Provider

variable {fetch : FetchChunk} {known : List CandleRow} {interval : Interval}
  {fromDate chunkEnd toDate : Date}

/-- The windows of the loop leave out no day of the range. -/
theorem mem_requestChunks (serves : Serves fetch known) {frames fetched : List (List CandleRow)}
    (ok : (requestChunks fetch interval fromDate chunkEnd frames).outcome = .ok fetched)
    (row : CandleRow) : row ∈ fetched.flatten ↔ row ∈ frames.flatten ∨ row ∈ known ∧
      fromDate.day ≤ istTradingDate row.ts ∧ istTradingDate row.ts ≤ chunkEnd.day := by
  fun_induction requestChunks fetch interval fromDate chunkEnd frames with
  | case1 => cases ok
  | case2 => cases ok
  | case3 => cases ok
  | case4 chunkEnd frames inRange earliest reached frame answer chunkEnd' stepped ih =>
      rw [ih ok, List.flatten_append, List.mem_append, or_assoc, List.flatten_singleton,
        serves _ _ _ answer row, ← and_or_left]
      have start := Date.day_max fromDate earliest
      rw [Date.subDays_eq_ok] at reached stepped
      rw [Date.le_def] at inRange
      have positive := interval.chunkDays_pos
      apply or_congr_right
      apply and_congr_right
      intro _
      omega
  | case5 chunkEnd frames passed =>
      rw [Date.le_def] at passed
      cases ok
      rw [iff_self_or]
      omega

/-- Within the calendar, requests that are answered make a frame. -/
theorem getHistoricalCandles_returns
    (answered : ∀ first last, ∃ frame, fetch first last = .ok frame) (ordered : fromDate ≤ toDate)
    (stays : StaysInCalendar interval fromDate toDate) :
    ∃ frame, (getHistoricalCandles fetch interval fromDate toDate).2 = .ok frame := by
  rcases requestChunks_tiles [] answered fun _ => stays with ⟨⟨fetched, ok⟩, _⟩
  rw [getHistoricalCandles, if_neg (not_lt.mpr ordered)]
  simp only
  rw [ok]
  exact ⟨_, rfl⟩

theorem eq_normalize_of_getHistoricalCandles {frame : List CandleRow}
    (ok : (getHistoricalCandles fetch interval fromDate toDate).2 = .ok frame) :
    ∃ fetched, (requestChunks fetch interval fromDate toDate []).outcome = .ok fetched ∧
      frame = normalizeCandleFrame fetched.flatten := by
  rw [getHistoricalCandles] at ok
  split_ifs at ok
  simp only at ok
  rcases outcome : (requestChunks fetch interval fromDate toDate []).outcome with _ | fetched
  · rw [outcome] at ok
    cases ok
  · rw [outcome] at ok
    cases ok
    exact ⟨fetched, rfl, rfl⟩

/-- What a range of dates yields. -/
theorem mem_getHistoricalCandles (serves : Serves fetch known)
    (distinct : known.Pairwise (·.ts ≠ ·.ts)) {frame : List CandleRow}
    (ok : (getHistoricalCandles fetch interval fromDate toDate).2 = .ok frame) (row : CandleRow) :
    row ∈ frame ↔
      row ∈ known ∧ fromDate.day ≤ istTradingDate row.ts ∧ istTradingDate row.ts ≤ toDate.day := by
  rcases eq_normalize_of_getHistoricalCandles ok with ⟨fetched, outcome, rfl⟩
  have served (row : CandleRow) : row ∈ fetched.flatten ↔ row ∈ known ∧
      fromDate.day ≤ istTradingDate row.ts ∧ istTradingDate row.ts ≤ toDate.day := by
    simpa using mem_requestChunks serves outcome row
  rw [mem_normalize, lastWith_eq_some_of_agree, and_iff_left rfl]
  · exact served row
  · intro one oneMem other otherMem same
    have keys : (known.map CandleRow.ts).Nodup := List.pairwise_map.mpr distinct
    exact List.inj_on_of_nodup_map keys ((served one).mp oneMem).1 ((served other).mp otherMem).1
      same

end Provider

namespace SyncCall

variable {call : SyncCall} {frame known : List CandleRow}

theorem fetched_eq_ok : call.fetched = .ok frame ↔ ∃ listed, call.instrument = some listed ∧
    (getHistoricalCandles (call.provider listed.instrumentKey call.interval) call.interval
      call.fromDate call.toDate).2 = .ok frame := by
  rw [fetched]
  rcases call.instrument with _ | listed
  · simp
  · simp only [Option.some.injEq, exists_eq_left']
    rcases (getHistoricalCandles (call.provider listed.instrumentKey call.interval) call.interval
      call.fromDate call.toDate).2 with raised | served
    · simp [Except.mapError]
    · simp [Except.mapError]

theorem frameContract_fetched (ok : call.fetched = .ok frame) : FrameContract frame := by
  rcases fetched_eq_ok.mp ok with ⟨listed, _, returned⟩
  rcases eq_normalize_of_getHistoricalCandles returned with ⟨fetched, _, rfl⟩
  exact frameContract_normalize _

/-- The call returns. -/
def Succeeds (call : SyncCall) : Prop := ∃ frame, call.fetched = .ok frame

/-- The provider serves what it knows about the instrument, one row for each time. -/
structure Served (call : SyncCall) (known : List CandleRow) : Prop where
  distinct : known.Pairwise (·.ts ≠ ·.ts)
  serves : ∀ listed, call.instrument = some listed →
    Serves (call.provider listed.instrumentKey call.interval) known

/-- The call asks for the day of a time. -/
def Covers (call : SyncCall) (ts : ℤ) : Prop :=
  call.fromDate.day ≤ istTradingDate ts ∧ istTradingDate ts ≤ call.toDate.day

theorem mem_fetched (served : call.Served known) (ok : call.fetched = .ok frame) (row : CandleRow) :
    row ∈ frame ↔ row ∈ known ∧ call.Covers row.ts := by
  rcases fetched_eq_ok.mp ok with ⟨listed, found, returned⟩
  exact mem_getHistoricalCandles (served.serves listed found) served.distinct returned row

end SyncCall

/-! ## Runs -/

/-- The rows that a call adds to a dataset. -/
def SyncCall.rowsFor (call : SyncCall) (key : DatasetKey) : List CandleRow :=
  match call.fetched with
  | .error _ => []
  | .ok frame => if call.key = key then frame else []

/-- What a run of syncs writes. -/
def writesOf (calls : List SyncCall) : List (DatasetKey × List CandleRow) :=
  calls.filterMap fun call =>
    match call.fetched with
    | .error _ => none
    | .ok frame => some (call.key, frame)

theorem rowsWritten_writesOf (calls : List SyncCall) (key : DatasetKey) :
    rowsWritten (writesOf calls) key = calls.flatMap fun call => call.rowsFor key := by
  induction calls with
  | nil => rfl
  | cons call calls ih =>
      rw [List.flatMap_cons, ← ih, writesOf, List.filterMap_cons, SyncCall.rowsFor]
      rcases call.fetched with raised | frame
      · rfl
      · by_cases same : call.key = key
        · simp [rowsWritten, same, writesOf]
        · simp [rowsWritten, same, writesOf]

namespace CandleArchive

variable (archive : CandleArchive) (calls : List SyncCall)

theorem afterSyncs_concat (call : SyncCall) :
    archive.afterSyncs (calls ++ [call]) = (syncCandles (archive.afterSyncs calls) call).2 := by
  simp [afterSyncs]

theorem files_afterSyncs :
    (archive.afterSyncs calls).files = archive.files.afterWrites (writesOf calls) := by
  induction calls using List.reverseRecOn with
  | nil => rfl
  | append_singleton calls call ih =>
      rw [afterSyncs_concat, syncCandles, writesOf, List.filterMap_append]
      rcases fetched : call.fetched with raised | frame
      · simpa [fetched, writesOf] using ih
      · simp only [List.filterMap_cons, List.filterMap_nil, fetched, CandleStore.afterWrites,
          List.foldl_append, List.foldl_cons, List.foldl_nil]
        rw [← writesOf, ← CandleStore.afterWrites, ← ih]
        rfl

end CandleArchive

namespace SyncCall

/-- The row is one that the call finds for a dataset. -/
structure Finds (call : SyncCall) (known : List CandleRow) (key : DatasetKey) (row : CandleRow) :
    Prop where
  key_eq : call.key = key
  succeeds : call.Succeeds
  mem : row ∈ known
  covers : call.Covers row.ts

theorem mem_rowsFor {call : SyncCall} {known : List CandleRow} (served : call.Served known)
    {key : DatasetKey} {row : CandleRow} : row ∈ call.rowsFor key ↔ call.Finds known key row := by
  rw [rowsFor]
  rcases ok : call.fetched with raised | frame
  · simp only [List.not_mem_nil, false_iff]
    rintro ⟨_, ⟨frame, returned⟩, _⟩
    rw [ok] at returned
    cases returned
  · split_ifs with same
    · rw [mem_fetched served ok]
      constructor
      · exact fun ⟨mem, covers⟩ => ⟨same, ⟨frame, ok⟩, mem, covers⟩
      · exact fun found => ⟨found.mem, found.covers⟩
    · simp only [List.not_mem_nil, false_iff]
      exact fun found => same found.key_eq

theorem lastWith_rowsFor {call : SyncCall} {key : DatasetKey} {ts : ℤ} {row : CandleRow} :
    lastWith CandleRow.ts (call.rowsFor key) ts = some row ↔
      row ∈ call.rowsFor key ∧ row.ts = ts := by
  apply lastWith_eq_some
  rw [rowsFor]
  split
  · exact List.Pairwise.nil
  · rename_i frame ok
    split_ifs
    · exact (frameContract_fetched ok).distinct
    · exact List.Pairwise.nil

end SyncCall

/-- After any run of syncs, failed ones included, a read yields in strictly ascending order, for each
time, what the provider knew of it at the last sync that succeeded, covered its day and found
anything at that time. -/
theorem sync_converges (calls : List SyncCall) (known : SyncCall → List CandleRow)
    (served : ∀ call ∈ calls, call.Served (known call)) (key : DatasetKey)
    (fromTs toTs : Option ℤ) :
    FrameContract ((CandleArchive.empty.afterSyncs calls).files.read key fromTs toTs) ∧
      ∀ row, row ∈ (CandleArchive.empty.afterSyncs calls).files.read key fromTs toTs ↔
        (∃ earlier call later, calls = earlier ++ call :: later ∧
          call.Finds (known call) key row ∧
          ∀ next ∈ later, ∀ other, other.ts = row.ts → ¬ next.Finds (known next) key other) ∧
        (∀ bound ∈ fromTs, bound ≤ row.ts) ∧ ∀ bound ∈ toTs, row.ts ≤ bound := by
  refine ⟨Dataset.frameContract_read _ _ _, fun row => ?_⟩
  rw [CandleStore.read, Dataset.mem_read, CandleArchive.files_afterSyncs]
  have represents := CandleStore.represents_afterWrites (writesOf calls) key row
  rw [rowsWritten_writesOf] at represents
  rw [CandleArchive.empty, represents, lastWith_flatMap]
  apply and_congr_left
  intro _
  constructor
  · rintro ⟨earlier, call, later, rfl, last, after⟩
    have callMem : call ∈ earlier ++ call :: later := by simp
    refine ⟨earlier, call, later, rfl, ?_, fun next mem other same found => ?_⟩
    · exact (SyncCall.mem_rowsFor (served call callMem)).mp (SyncCall.lastWith_rowsFor.mp last).1
    · have nextMem : next ∈ earlier ++ call :: later := by simp [mem]
      have found := (SyncCall.mem_rowsFor (served next nextMem)).mpr found
      exact lastWith_eq_none.mp (after next mem) other found same
  · rintro ⟨earlier, call, later, rfl, found, after⟩
    have callMem : call ∈ earlier ++ call :: later := by simp
    refine ⟨earlier, call, later, rfl, ?_, fun next mem => ?_⟩
    · exact SyncCall.lastWith_rowsFor.mpr
        ⟨(SyncCall.mem_rowsFor (served call callMem)).mpr found, rfl⟩
    · have nextMem : next ∈ earlier ++ call :: later := by simp [mem]
      rw [lastWith_eq_none]
      intro other found same
      exact after next mem other same ((SyncCall.mem_rowsFor (served next nextMem)).mp found)

/-- A provider that answers every request from what it knows. -/
def answerFrom (known : List CandleRow) : FetchChunk := fun first last =>
  .ok (known.filter fun row =>
    first.day ≤ istTradingDate row.ts ∧ istTradingDate row.ts ≤ last.day)

theorem serves_answerFrom (known : List CandleRow) : Serves (answerFrom known) known := by
  intro first last frame ok row
  cases ok
  simp

/-- The candle of New Year's Day, with its close revised after the first sync. -/
def newYearCandle (now : ℤ) : CandleRow :=
  ⟨1704067200000, 100, 110, 90, if now = 0 then 105 else 106, 1000, 0⟩

/-- A sync of the first days of the year. -/
def firstDays (symbol : String) (now : ℤ) : SyncCall where
  symbol := symbol
  exchange := "NSE"
  interval := .d1
  fromDate := newYear
  toDate := tenthOfJanuary
  calendar := none
  table := InstrumentTable.sampleTable
  provider _ _ := answerFrom [newYearCandle now]
  now := now

theorem SyncCall.succeeds_firstDays (now : ℤ) : (firstDays "RELIANCE" now).Succeeds := by
  rcases @getHistoricalCandles_returns (answerFrom [newYearCandle now]) .d1
    newYear tenthOfJanuary (fun _ _ => ⟨_, rfl⟩)
    (Date.le_def.mpr (by decide)) ⟨by decide, by decide⟩ with ⟨frame, returned⟩
  exact ⟨frame, SyncCall.fetched_eq_ok.mpr ⟨_, rfl, returned⟩⟩

theorem sync_converges_sample : newYearCandle 1 ∈ (CandleArchive.empty.afterSyncs
    [firstDays "RELIANCE" 0, firstDays "RELIANCE" 1, firstDays "TCS" 2]).files.read
      ⟨"RELIANCE", "NSE", .d1⟩ none none := by
  have served : ∀ call ∈ [firstDays "RELIANCE" 0, firstDays "RELIANCE" 1, firstDays "TCS" 2],
      call.Served [newYearCandle call.now] := by
    intro call mem
    refine ⟨List.pairwise_singleton _ _, fun listed _ => ?_⟩
    rcases List.mem_cons.mp mem with rfl | mem
    · exact serves_answerFrom _
    rcases List.mem_cons.mp mem with rfl | mem
    · exact serves_answerFrom _
    rw [List.mem_singleton.mp mem]
    exact serves_answerFrom _
  refine ((sync_converges _ (fun call => [newYearCandle call.now]) served _ none none).2 _).mpr
    ⟨⟨[firstDays "RELIANCE" 0], firstDays "RELIANCE" 1, [firstDays "TCS" 2], rfl, ?_, ?_⟩, ?_, ?_⟩
  · exact ⟨rfl, SyncCall.succeeds_firstDays 1, List.mem_singleton_self _, by decide, by decide⟩
  · intro next mem other _ found
    rw [List.mem_singleton.mp mem] at found
    have key := found.key_eq
    revert key
    decide
  · simp
  · simp

/-! ## Manifests -/

/-- The manifest is that of the key, with the size and the bounds of the rows that are stored. -/
structure Manifest.Describes (manifest : Manifest) (key : DatasetKey) (stored : List CandleRow) :
    Prop where
  key_eq : (⟨manifest.symbol, manifest.exchange, manifest.interval⟩ : DatasetKey) = key
  rows_eq : manifest.rows = stored.length
  firstTs_eq : manifest.firstTs = stored.head?.map CandleRow.ts
  lastTs_eq : manifest.lastTs = stored.getLast?.map CandleRow.ts

theorem FrameContract.min?_ts {frame : List CandleRow} (contract : FrameContract frame) :
    (frame.map CandleRow.ts).min? = frame.head?.map CandleRow.ts := by
  cases frame with
  | nil => rfl
  | cons first frame =>
      rw [List.head?_cons, Option.map_some, List.min?_eq_some_iff]
      refine ⟨by simp, fun ts mem => ?_⟩
      rcases List.mem_map.mp mem with ⟨row, rowMem, rfl⟩
      rcases List.mem_cons.mp rowMem with rfl | later
      · exact le_rfl
      · exact ((List.pairwise_cons.mp contract).1 row later).le

theorem FrameContract.max?_ts {frame : List CandleRow} (contract : FrameContract frame) :
    (frame.map CandleRow.ts).max? = frame.getLast?.map CandleRow.ts := by
  induction frame using List.reverseRecOn with
  | nil => rfl
  | append_singleton frame last _ =>
      rw [List.getLast?_concat, Option.map_some, List.max?_eq_some_iff]
      refine ⟨by simp, fun ts mem => ?_⟩
      rcases List.mem_map.mp mem with ⟨row, rowMem, rfl⟩
      rcases List.mem_append.mp rowMem with earlier | own
      · exact ((List.pairwise_append.mp contract).2.2 row earlier last List.mem_cons_self).le
      · rw [List.mem_singleton.mp own]

namespace Dataset

variable (dataset : Dataset)

theorem perm_read : (dataset.read none none).Perm dataset.rows := by
  rw [read_eq, sortByTs]
  simpa using List.perm_insertionSort _ dataset.rows

theorem bounds_eq : dataset.bounds = ((dataset.read none none).head?.map CandleRow.ts,
    (dataset.read none none).getLast?.map CandleRow.ts) := by
  have contract := dataset.frameContract_read none none
  have perm := dataset.perm_read.map CandleRow.ts
  rw [bounds, ← contract.min?_ts, ← contract.max?_ts, Prod.mk.injEq]
  constructor
  · ext ts
    simp only [List.min?_eq_some_iff, perm.mem_iff]
  · ext ts
    simp only [List.max?_eq_some_iff, perm.mem_iff]

end Dataset

namespace CandleArchive

variable {archive : CandleArchive} {key : DatasetKey}

/-- A successful sync of a dataset, and that it was the last one. -/
structure LastSynced (calls : List SyncCall) (key : DatasetKey) (call : SyncCall)
    (frame : List CandleRow) : Prop where
  key_eq : call.key = key
  fetched : call.fetched = .ok frame
  last : ∃ earlier later, calls = earlier ++ call :: later ∧
    ∀ next ∈ later, next.key = key → ¬ next.Succeeds

/-- What the manifest of a dataset is worth after a run: without one no sync of the dataset has
succeeded, and with one it describes what is stored and carries the verdict on what the last
successful sync fetched. -/
def Described (archive : CandleArchive) (calls : List SyncCall) (key : DatasetKey) : Prop :=
  match archive.manifests key with
  | none => ∀ call ∈ calls, call.key = key → ¬ call.Succeeds
  | some manifest => manifest.Describes key (archive.files.read key none none) ∧
      ∃ call frame, LastSynced calls key call frame ∧ manifest.syncedAt = call.now ∧
        manifest.validation = some (checkCandles frame call.interval call.calendar).status

theorem LastSynced.append {calls : List SyncCall} {call next : SyncCall} {frame : List CandleRow}
    (synced : LastSynced calls key call frame) (other : next.key = key → ¬ next.Succeeds) :
    LastSynced (calls ++ [next]) key call frame := by
  rcases synced.last with ⟨earlier, later, rfl, after⟩
  refine ⟨synced.key_eq, synced.fetched, earlier, later ++ [next], by simp, ?_⟩
  intro made mem
  rcases List.mem_append.mp mem with before | own
  · exact after made before
  · rw [List.mem_singleton.mp own]
    exact other

/-- A call that writes nothing to the dataset leaves what its manifest is worth. -/
theorem Described.skip {calls : List SyncCall} (described : archive.Described calls key)
    {archive' : CandleArchive} (files : archive'.files key = archive.files key)
    (manifests : archive'.manifests key = archive.manifests key) {call : SyncCall}
    (other : call.key = key → ¬ call.Succeeds) : archive'.Described (calls ++ [call]) key := by
  rw [Described] at described ⊢
  rw [manifests]
  rcases found : archive.manifests key with _ | manifest
  · rw [found] at described
    intro made mem
    rcases List.mem_append.mp mem with before | own
    · exact described made before
    · rw [List.mem_singleton.mp own]
      exact other
  · rw [found] at described
    rcases described with ⟨describes, made, frame, synced, verdict⟩
    refine ⟨?_, made, frame, synced.append other, verdict⟩
    rw [CandleStore.read, files]
    exact describes

theorem Described.sync {calls : List SyncCall} (described : archive.Described calls key)
    (call : SyncCall) : (syncCandles archive call).2.Described (calls ++ [call]) key := by
  rw [syncCandles]
  rcases ok : call.fetched with raised | frame
  · apply described.skip rfl rfl
    rintro _ ⟨frame, returned⟩
    rw [ok] at returned
    cases returned
  · by_cases same : call.key = key
    · subst key
      simp only [Described, write, writeManifest, Function.update_self]
      refine ⟨⟨rfl, ?_, ?_, ?_⟩, call, frame, ⟨rfl, ok, calls, [], rfl, by simp⟩, rfl, rfl⟩
      · simp only [CandleStore.write, CandleStore.read, Function.update_self]
        exact (Dataset.perm_read _).length_eq.symm
      · rw [Dataset.bounds_eq]
        rfl
      · rw [Dataset.bounds_eq]
        rfl
    · apply described.skip
      · exact CandleStore.write_of_ne _ _ (Ne.symm same)
      · simp [write, writeManifest, Ne.symm same]
      · exact fun own => absurd own same

end CandleArchive

/-- After any run of syncs a dataset has a manifest exactly when one of its syncs has succeeded,
and the manifest describes what a read of the whole dataset yields. Its verdict is about the last
sync that succeeded, and is `errors` only for a frame without rows or with a row that cannot have
been traded. -/
theorem manifest_describes (calls : List SyncCall) (key : DatasetKey) :
    ((CandleArchive.empty.afterSyncs calls).manifests key = none ↔
      ∀ call ∈ calls, call.key = key → ¬ call.Succeeds) ∧
    ∀ manifest, (CandleArchive.empty.afterSyncs calls).manifests key = some manifest →
      manifest.Describes key ((CandleArchive.empty.afterSyncs calls).files.read key none none) ∧
      ∃ call frame, CandleArchive.LastSynced calls key call frame ∧ manifest.syncedAt = call.now ∧
        manifest.validation = some (checkCandles frame call.interval call.calendar).status ∧
        (manifest.validation = some "errors" ↔ frame = [] ∨ ∃ row ∈ frame, ¬ row.Possible) := by
  have described : (CandleArchive.empty.afterSyncs calls).Described calls key := by
    induction calls using List.reverseRecOn with
    | nil => exact fun call mem => by cases mem
    | append_singleton calls call ih =>
        rw [CandleArchive.afterSyncs_concat]
        exact ih.sync call
  rw [CandleArchive.Described] at described
  rcases found : (CandleArchive.empty.afterSyncs calls).manifests key with _ | manifest
  · rw [found] at described
    exact ⟨iff_of_true rfl described, fun _ some => by cases some⟩
  · rw [found] at described
    rcases described with ⟨describes, call, frame, synced, now, verdict⟩
    refine ⟨iff_of_false (by simp) fun fails => ?_, ?_⟩
    · rcases synced.last with ⟨earlier, later, rfl, _⟩
      exact fails call (by simp) synced.key_eq ⟨frame, synced.fetched⟩
    · intro stored same
      cases same
      refine ⟨describes, call, frame, synced, now, verdict, ?_⟩
      have contract := SyncCall.frameContract_fetched synced.fetched
      rw [verdict, Option.some.injEq, QualityReport.status_eq_errors, hasErrors_iff]
      simp only [contract, not_true_eq_false, false_or]

end PersonalTrade
