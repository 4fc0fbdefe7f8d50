import Mathlib.Data.List.Enum
import PersonalTrade.Indicators.Causality
import PersonalTrade.Intelligence.News
import PersonalTrade.Intelligence.Prompt
import PersonalTrade.Library.FirstWins
import PersonalTrade.Store.Repos

/-!
# From the feeds to the prompt

What `pt news sync` has stored after any number of runs, and what of it the AI is shown. The tables
hold the first version of every article that a committed run has fetched, tagged with the
instruments that it mentioned then (`Keeps`). A prompt shows the newest of those of its instrument,
each between fences of its own (`prompt_shows_newest`).
-/

namespace PersonalTrade

open FirstWins

/-! ## Feeds -/

/-- An entry that `feedparser` finds in a feed. -/
structure FeedEntry where
  link : Option String := none
  title : Option Text := none
  summary : Option Text := none
  published : Option ℤ := none

/-- The item that `RssNewsProvider.fetch` makes of an entry, if it has a link and is not too old. -/
def FeedEntry.item (name : String) (since : ℤ) (entry : FeedEntry) : Option RawNewsItem :=
  match entry.link with
  | none => none
  | some link =>
      if link = "" ∨ entry.published.any (· < since) then none
      else some
        { source := name
          url := link
          title := entry.title.getD []
          body := entry.summary.getD []
          publishedAt := entry.published }

/-- `RssNewsProvider`, by what the request for its feed answers. -/
def rssNewsProvider (name : String) (answer : Except String (List FeedEntry)) : NewsProvider where
  name := name
  fetch since :=
    match answer with
    | .error failure => .error ⟨name ++ ": fetch failed: " ++ failure⟩
    | .ok entries => .ok (entries.filterMap (FeedEntry.item name since))

/-- The items that a provider returns. -/
def NewsProvider.items (since : ℤ) (provider : NewsProvider) : List RawNewsItem :=
  match provider.fetch since with
  | .error _ => []
  | .ok rawItems => rawItems

/-- What a feed yields is named after it, can be found again and is not too old. -/
theorem mem_items_rssNewsProvider {name : String} {answer : Except String (List FeedEntry)}
    {since : ℤ} {raw : RawNewsItem} (mem : raw ∈ (rssNewsProvider name answer).items since) :
    raw.source = name ∧ raw.url ≠ "" ∧ ∀ published ∈ raw.publishedAt, since ≤ published := by
  rcases answer with failure | entries
  · cases mem
  · rcases List.mem_filterMap.mp mem with ⟨⟨link, title, summary, published⟩, _, made⟩
    cases link with
    | none => cases made
    | some link =>
        simp only [FeedEntry.item] at made
        split_ifs at made with useless
        rw [not_or] at useless
        cases made
        refine ⟨rfl, useless.1, ?_⟩
        intro time same
        cases published with
        | none => cases same
        | some published =>
            cases same
            simpa using useless.2

/-! ## Runs -/

/-- The news tables beside the instruments that articles are tagged with. -/
structure NewsDesk where
  instruments : InstrumentTable
  store : NewsStore instruments

/-- Rows of instruments are never deleted, so that the tags stay valid when the table grows. -/
def NewsStore.over {instruments later : InstrumentTable} (store : NewsStore instruments)
    (grown : instruments.rows.nextId ≤ later.rows.nextId) : NewsStore later where
  items := store.items
  tags := store.tags
  uniqueUrl := store.uniqueUrl
  uniqueTag := store.uniqueTag
  references tag mem := ⟨(store.references tag mem).1, (store.references tag mem).2.trans_le grown⟩

/-- A transaction on the news tables or on the instruments. -/
inductive NewsEvent where
  /-- `pt data sync-instruments`. -/
  | listed (master : List InstrumentInfo)
  /-- `pt news sync`, with the feeds and the date from which on they are read. -/
  | synced (since : ℤ) (feeds : List NewsProvider)
  /-- A run that raises something else than a `NewsFetchError`. -/
  | abandoned

theorem InstrumentTable.nextId_syncEntry {table table' : InstrumentTable} {info : InstrumentInfo}
    (synced : table.syncEntry info = .ok table') : table.rows.nextId ≤ table'.rows.nextId := by
  rw [syncEntry] at synced
  cases found : table.existing info with
  | none =>
      rw [found] at synced
      rw [(flush_eq_ok.mp synced).1, RowTable.nextId_insert]
      exact Nat.le_succ _
  | some id =>
      rw [found] at synced
      rw [(flush_eq_ok.mp synced).1, RowTable.nextId_update]

theorem InstrumentTable.nextId_syncInstruments {table table' : InstrumentTable}
    {master : List InstrumentInfo} {count : ℕ}
    (synced : table.syncInstruments master = .ok (count, table')) :
    table.rows.nextId ≤ table'.rows.nextId := by
  rcases except_bind_eq_ok.mp synced with ⟨result, looped, made⟩
  cases made
  clear synced
  induction master generalizing table with
  | nil =>
      cases looped
      exact le_rfl
  | cons info master ih =>
      rw [List.foldlM_cons] at looped
      rcases except_bind_eq_ok.mp looped with ⟨next, first, rest⟩
      exact (nextId_syncEntry first).trans (ih rest)

section Run

variable (tables : CharTables) (parsed : Text → List Text) (cfg : NewsConfig)

/-- The instruments after a transaction. -/
def NewsEvent.relist (instruments : InstrumentTable) : NewsEvent → InstrumentTable
  | .listed master =>
      match instruments.syncInstruments master with
      | .error _ => instruments
      | .ok (_, later) => later
  | _ => instruments

theorem NewsEvent.nextId_relist (instruments : InstrumentTable) (event : NewsEvent) :
    instruments.rows.nextId ≤ (event.relist instruments).rows.nextId := by
  cases event with
  | listed master =>
      rw [relist]
      cases synced : instruments.syncInstruments master with
      | error raised => exact le_rfl
      | ok later => exact InstrumentTable.nextId_syncInstruments synced
  | synced since feeds => exact le_rfl
  | abandoned => exact le_rfl

/-- The news tables after a transaction; one that raises is rolled back. -/
def NewsEvent.ingested {instruments : InstrumentTable} (store : NewsStore instruments) :
    NewsEvent → NewsStore instruments
  | .synced since feeds =>
      match ingest tables parsed cfg since store feeds with
      | .error _ => store
      | .ok (store, _) => store
  | _ => store

def NewsDesk.step (desk : NewsDesk) (event : NewsEvent) : NewsDesk where
  instruments := event.relist desk.instruments
  store := (event.ingested tables parsed cfg desk.store).over (event.nextId_relist desk.instruments)

/-- The tables after some transactions on empty ones. -/
def NewsDesk.run (instruments : InstrumentTable) (events : List NewsEvent) : NewsDesk :=
  events.foldl (step tables parsed cfg) ⟨instruments, .empty instruments⟩

/-! ## What has arrived -/

/-- An item as it was fetched, with the instruments of that time. -/
structure FetchedItem where
  instruments : InstrumentTable
  raw : RawNewsItem

namespace FetchedItem

def url (item : FetchedItem) : String := item.raw.url

/-- The row that the item is stored as. -/
def article (item : FetchedItem) : NewsItem := item.raw.sanitized tables parsed cfg

/-- The instruments that the article is tagged with. -/
def concerns (item : FetchedItem) : List ℕ :=
  (item.article tables parsed cfg).concerns tables item.instruments

end FetchedItem

/-- What a transaction fetches. -/
def NewsEvent.fetched (instruments : InstrumentTable) : NewsEvent → List FetchedItem
  | .synced since feeds =>
      (feeds.flatMap (NewsProvider.items since)).map (FetchedItem.mk instruments)
  | _ => []

/-- What some transactions fetch, in order. -/
def fetchedItems (instruments : InstrumentTable) : List NewsEvent → List FetchedItem
  | [] => []
  | event :: events => event.fetched instruments ++ fetchedItems (event.relist instruments) events

/-! ## What is stored -/

/-- The tables hold some articles with their tags, under their positions. -/
structure NewsStore.Keeps {instruments : InstrumentTable} (store : NewsStore instruments)
    (kept : List FetchedItem) : Prop where
  items : store.items.rows = kept.map (FetchedItem.article tables parsed cfg)
  tags : store.tags.rows = kept.zipIdx.flatMap fun entry =>
    (entry.1.concerns tables parsed cfg).map (NewsInstrumentTag.mk entry.2)

variable {tables parsed cfg} {instruments : InstrumentTable} {store : NewsStore instruments}
  {kept : List FetchedItem}

theorem NewsStore.Keeps.get?_of_getElem? (keeps : store.Keeps tables parsed cfg kept) {id : ℕ}
    {item : FetchedItem} (here : kept[id]? = some item) :
    store.items.get? id = some (item.article tables parsed cfg) := by
  rw [RowTable.get?, keeps.items, List.getElem?_map, here]
  rfl

theorem NewsStore.Keeps.hasUrl_iff (keeps : store.Keeps tables parsed cfg kept) (url : String) :
    store.HasUrl url ↔ url ∈ kept.map FetchedItem.url := by
  rw [HasUrl, List.mem_map]
  constructor
  · rintro ⟨id, row, found, rfl⟩
    have mem : row ∈ store.items.rows := List.mem_of_getElem? found
    rw [keeps.items] at mem
    rcases List.mem_map.mp mem with ⟨item, arrived, rfl⟩
    exact ⟨item, arrived, rfl⟩
  · rintro ⟨item, arrived, rfl⟩
    rcases List.mem_iff_getElem?.mp arrived with ⟨id, here⟩
    exact ⟨id, _, keeps.get?_of_getElem? here, rfl⟩

/-- An item is stored and tagged unless its URL is known. -/
theorem NewsStore.Keeps.ingestItem (keeps : store.Keeps tables parsed cfg kept) (count : ℕ)
    (raw : RawNewsItem) : ∃ store' count',
      PersonalTrade.ingestItem tables parsed cfg (store, count) raw = .ok (store', count') ∧
      store'.Keeps tables parsed cfg (keep FetchedItem.url kept ⟨instruments, raw⟩) := by
  have known_iff := keeps.hasUrl_iff (FetchedItem.mk instruments raw).url
  by_cases known : store.HasUrl (FetchedItem.mk instruments raw).url
  · refine ⟨store, count, ingestItem_of_hasUrl tables parsed cfg known count, ?_⟩
    rw [keep_of_mem (known_iff.mp known)]
    exact keeps
  · rcases ingestItem_of_new tables parsed cfg known count with ⟨tagged, ran, items, tags⟩
    have kept' := keep_of_notMem (mt known_iff.mpr known)
    have position : store.items.nextId = kept.length := by
      rw [RowTable.nextId, keeps.items, List.length_map]
    refine ⟨tagged, count + 1, ran, ?_, ?_⟩
    · rw [items, kept', List.map_append]
      exact congrArg (· ++ _) keeps.items
    · rw [tags, kept', List.zipIdx_append, List.flatMap_append, keeps.tags, position]
      simp [FetchedItem.concerns, FetchedItem.article]

theorem NewsStore.Keeps.foldlM_ingestItem (keeps : store.Keeps tables parsed cfg kept) (count : ℕ)
    (rawItems : List RawNewsItem) : ∃ store' count',
      rawItems.foldlM (PersonalTrade.ingestItem tables parsed cfg) (store, count) =
        .ok (store', count') ∧
      store'.Keeps tables parsed cfg
        ((rawItems.map (FetchedItem.mk instruments)).foldl (keep FetchedItem.url) kept) := by
  induction rawItems generalizing store count kept with
  | nil => exact ⟨store, count, rfl, keeps⟩
  | cons raw rawItems ih =>
      rcases keeps.ingestItem count raw with ⟨middle, counted, ran, keeps⟩
      rcases ih keeps counted with ⟨store', count', rest, keeps⟩
      refine ⟨store', count', ?_, keeps⟩
      rw [List.foldlM_cons]
      exact except_bind_eq_ok.mpr ⟨_, ran, rest⟩

theorem NewsStore.Keeps.ingestProvider (keeps : store.Keeps tables parsed cfg kept) (since : ℤ)
    (provider : NewsProvider) : ∃ store' result,
      PersonalTrade.ingestProvider tables parsed cfg since store provider =
        .ok (store', result) ∧
      store'.Keeps tables parsed cfg
        (((provider.items since).map (FetchedItem.mk instruments)).foldl
          (keep FetchedItem.url) kept) := by
  rw [NewsProvider.items, PersonalTrade.ingestProvider]
  rcases provider.fetch since with raised | rawItems
  · exact ⟨store, _, rfl, keeps⟩
  · rcases keeps.foldlM_ingestItem 0 rawItems with ⟨store', stored, ran, keeps⟩
    exact ⟨store', _, except_bind_eq_ok.mpr ⟨_, ran, rfl⟩, keeps⟩

theorem NewsStore.Keeps.ingest (keeps : store.Keeps tables parsed cfg kept) (since : ℤ)
    (feeds : List NewsProvider) : ∃ store' results,
      PersonalTrade.ingest tables parsed cfg since store feeds = .ok (store', results) ∧
      store'.Keeps tables parsed cfg
        (((feeds.flatMap (NewsProvider.items since)).map (FetchedItem.mk instruments)).foldl
          (keep FetchedItem.url) kept) := by
  induction feeds generalizing store kept with
  | nil => exact ⟨store, [], rfl, keeps⟩
  | cons provider feeds ih =>
      rcases keeps.ingestProvider since provider with ⟨middle, result, ran, keeps⟩
      rcases ih keeps with ⟨store', results, rest, keeps⟩
      refine ⟨store', result :: results, ?_, ?_⟩
      · rw [PersonalTrade.ingest]
        exact except_bind_eq_ok.mpr ⟨_, ran, except_bind_eq_ok.mpr ⟨_, rest, rfl⟩⟩
      · rwa [List.flatMap_cons, List.map_append, List.foldl_append]

/-- One transaction. -/
theorem NewsDesk.keeps_step {desk : NewsDesk} (keeps : desk.store.Keeps tables parsed cfg kept)
    (event : NewsEvent) : (desk.step tables parsed cfg event).store.Keeps tables parsed cfg
      ((event.fetched desk.instruments).foldl (keep FetchedItem.url) kept) := by
  cases event with
  | listed master => exact ⟨keeps.items, keeps.tags⟩
  | abandoned => exact ⟨keeps.items, keeps.tags⟩
  | synced since feeds =>
      rcases keeps.ingest since feeds with ⟨store', results, ran, keeps⟩
      have same :
          (NewsEvent.synced since feeds).ingested tables parsed cfg desk.store = store' := by
        rw [NewsEvent.ingested, ran]
      rw [← same] at keeps
      exact ⟨keeps.items, keeps.tags⟩

/-- The tables hold the first version of everything that has arrived. -/
theorem NewsDesk.keeps_run (instruments : InstrumentTable) (events : List NewsEvent) :
    (run tables parsed cfg instruments events).store.Keeps tables parsed cfg
      (firsts FetchedItem.url (fetchedItems instruments events)) := by
  have later (desk : NewsDesk) (kept : List FetchedItem)
      (keeps : desk.store.Keeps tables parsed cfg kept) :
      (events.foldl (step tables parsed cfg) desk).store.Keeps tables parsed cfg
        ((fetchedItems desk.instruments events).foldl (keep FetchedItem.url) kept) := by
    induction events generalizing desk kept with
    | nil => exact keeps
    | cons event events ih =>
        rw [List.foldl_cons, fetchedItems, List.foldl_append]
        exact ih _ _ (keeps_step keeps event)
  exact later ⟨instruments, .empty instruments⟩ [] ⟨rfl, rfl⟩

end Run

/-! ## The news of an instrument -/

/-- `COALESCE(published_at, ingested_at)`, where the rows are ingested at some times. -/
def NewsItem.effective (ingestedAt : ℕ → ℤ) (id : ℕ) (item : NewsItem) : ℤ :=
  item.publishedAt.getD (ingestedAt id)

/-- `list_for_instrument`: the rows with their keys, newest first. The query leaves rows of one time
in no order; here they stay in that of their tags. -/
def NewsStore.listForInstrument {instruments : InstrumentTable} (store : NewsStore instruments)
    (ingestedAt : ℕ → ℤ) (instrumentId : ℕ) (since : ℤ) : List (ℕ × NewsItem) :=
  let tagged := (store.tags.rows.filter fun tag => tag.instrumentId = instrumentId).filterMap
    fun tag => (store.items.get? tag.newsItemId).map (tag.newsItemId, ·)
  (tagged.filter fun row => since ≤ row.2.effective ingestedAt row.1).mergeSort
    fun first second => second.2.effective ingestedAt second.1 ≤
      first.2.effective ingestedAt first.1

section Listing

variable (tables : CharTables) (parsed : Text → List Text) (cfg : NewsConfig)
  (ingestedAt : ℕ → ℤ)

/-- The row of a kept article. -/
def articleRow (entry : FetchedItem × ℕ) : ℕ × NewsItem :=
  (entry.2, entry.1.article tables parsed cfg)

/-- The time by which a kept article is ordered. -/
def shownTime (entry : FetchedItem × ℕ) : ℤ := entry.1.raw.publishedAt.getD (ingestedAt entry.2)

/-- A kept article is about an instrument and not too old. -/
def Matters (instrumentId : ℕ) (since : ℤ) (entry : FetchedItem × ℕ) : Prop :=
  instrumentId ∈ entry.1.concerns tables parsed cfg ∧ since ≤ shownTime ingestedAt entry

instance (instrumentId : ℕ) (since : ℤ) (entry : FetchedItem × ℕ) :
    Decidable (Matters tables parsed cfg ingestedAt instrumentId since entry) :=
  inferInstanceAs (Decidable (_ ∧ _))

/-- The kept articles about an instrument, newest first. -/
def newsOf (kept : List FetchedItem) (instrumentId : ℕ) (since : ℤ) : List (FetchedItem × ℕ) :=
  (kept.zipIdx.filter (Matters tables parsed cfg ingestedAt instrumentId since)).mergeSort
    fun first second => shownTime ingestedAt second ≤ shownTime ingestedAt first

theorem pairwise_newsOf (kept : List FetchedItem) (instrumentId : ℕ) (since : ℤ) :
    (newsOf tables parsed cfg ingestedAt kept instrumentId since).Pairwise
      fun first second => shownTime ingestedAt second ≤ shownTime ingestedAt first := by
  have sorted := @List.pairwise_mergeSort _
    (fun first second => decide (shownTime ingestedAt second ≤ shownTime ingestedAt first))
    (fun first second third before after => by
      rw [decide_eq_true_eq] at before after ⊢
      exact after.trans before)
    (fun first second => by
      rw [Bool.or_eq_true, decide_eq_true_eq, decide_eq_true_eq]
      exact le_total _ _)
    (kept.zipIdx.filter (Matters tables parsed cfg ingestedAt instrumentId since))
  exact sorted.imp of_decide_eq_true

variable {tables parsed cfg} {instruments : InstrumentTable} {store : NewsStore instruments}
  {kept : List FetchedItem}

/-- The tags of one article with an instrument. -/
theorem NewsStore.Keeps.tagged_one (keeps : store.Keeps tables parsed cfg kept) (instrumentId : ℕ)
    {entry : FetchedItem × ℕ} (mem : entry ∈ kept.zipIdx) :
    (((entry.1.concerns tables parsed cfg).map (NewsInstrumentTag.mk entry.2)).filter
        fun tag => tag.instrumentId = instrumentId).filterMap
          (fun tag => (store.items.get? tag.newsItemId).map (tag.newsItemId, ·)) =
      if instrumentId ∈ entry.1.concerns tables parsed cfg then [articleRow tables parsed cfg entry]
      else [] := by
  have found : store.items.get? entry.2 = some (entry.1.article tables parsed cfg) :=
    keeps.get?_of_getElem? (List.mem_zipIdx_iff_getElem?.mp mem)
  have distinct : (entry.1.concerns tables parsed cfg).Nodup := NewsItem.nodup_concerns tables _
  have only : (entry.1.concerns tables parsed cfg).filter (· = instrumentId) =
      if instrumentId ∈ entry.1.concerns tables parsed cfg then [instrumentId] else [] := by
    rw [List.filter_eq]
    split_ifs with concerned
    · rw [List.count_eq_one_of_mem distinct concerned]
      rfl
    · rw [List.count_eq_zero_of_not_mem concerned]
      rfl
  rw [List.filter_map, Function.comp_def, only]
  split_ifs with concerned
  · simp [found, articleRow]
  · rfl

/-- The news of an instrument are the kept articles about it. -/
theorem NewsStore.Keeps.listForInstrument_eq (keeps : store.Keeps tables parsed cfg kept)
    (instrumentId : ℕ) (since : ℤ) :
    store.listForInstrument ingestedAt instrumentId since =
      (newsOf tables parsed cfg ingestedAt kept instrumentId since).map
        (articleRow tables parsed cfg) := by
  have joined : (store.tags.rows.filter fun tag => tag.instrumentId = instrumentId).filterMap
      (fun tag => (store.items.get? tag.newsItemId).map (tag.newsItemId, ·)) =
        (kept.zipIdx.filter fun entry => instrumentId ∈ entry.1.concerns tables parsed cfg).map
          (articleRow tables parsed cfg) := by
    rw [keeps.tags, List.filter_flatMap, List.filterMap_flatMap,
      List.flatMap_congr fun entry mem => keeps.tagged_one instrumentId mem]
    induction kept.zipIdx with
    | nil => rfl
    | cons entry entries ih =>
        rw [List.flatMap_cons, ih, List.filter_cons]
        by_cases concerned : instrumentId ∈ entry.1.concerns tables parsed cfg <;> simp [concerned]
  have recent : (fun row : ℕ × NewsItem => decide (since ≤ row.2.effective ingestedAt row.1)) ∘
      articleRow tables parsed cfg = fun entry => decide (since ≤ shownTime ingestedAt entry) := rfl
  rw [NewsStore.listForInstrument, joined, List.filter_map, recent, List.filter_filter, newsOf]
  have both : (fun entry : FetchedItem × ℕ => decide (since ≤ shownTime ingestedAt entry) &&
      decide (instrumentId ∈ entry.1.concerns tables parsed cfg)) =
        fun entry => decide (Matters tables parsed cfg ingestedAt instrumentId since entry) := by
    funext entry
    rw [Bool.and_comm, ← Bool.decide_and]
    rfl
  rw [both]
  symm
  apply List.map_mergeSort
  intro first _ second _
  rfl

theorem mem_newsOf {instrumentId : ℕ} {since : ℤ} {entry : FetchedItem × ℕ} :
    entry ∈ newsOf tables parsed cfg ingestedAt kept instrumentId since ↔
      kept[entry.2]? = some entry.1 ∧
        Matters tables parsed cfg ingestedAt instrumentId since entry := by
  rw [newsOf, List.mem_mergeSort, List.mem_filter, decide_eq_true_eq,
    List.mem_zipIdx_iff_getElem?]

/-- Something is the first to be fetched from its URL. -/
def FirstFetched (items : List FetchedItem) (item : FetchedItem) : Prop :=
  ∃ before after, items = before ++ item :: after ∧ item.url ∉ before.map FetchedItem.url

variable (tables parsed cfg) in
/-- The rows of some tables that are the news of an instrument, when some items have been fetched:
each holds the first version of its article. -/
structure IsNewsOf (store : NewsStore instruments) (items : List FetchedItem) (instrumentId : ℕ)
    (since : ℤ) (news : List (FetchedItem × ℕ)) : Prop where
  newestFirst : news.Pairwise fun first second =>
    shownTime ingestedAt second ≤ shownTime ingestedAt first
  distinct : news.Pairwise fun first second => first.1.url ≠ second.1.url
  mem_iff : ∀ item id, (item, id) ∈ news ↔ FirstFetched items item ∧
    store.items.get? id = some (item.article tables parsed cfg) ∧
    Matters tables parsed cfg ingestedAt instrumentId since (item, id)
  stored : ∀ item, FirstFetched items item →
    ∃ id, store.items.get? id = some (item.article tables parsed cfg)

/-- The kept articles about an instrument are its news. -/
theorem NewsStore.Keeps.isNewsOf {items : List FetchedItem}
    (keeps : store.Keeps tables parsed cfg (firsts FetchedItem.url items)) (instrumentId : ℕ)
    (since : ℤ) : IsNewsOf tables parsed cfg ingestedAt store items instrumentId since
      (newsOf tables parsed cfg ingestedAt (firsts FetchedItem.url items) instrumentId since) where
  newestFirst := pairwise_newsOf ..
  distinct := by
    have rows : ((firsts FetchedItem.url items).zipIdx.map Prod.fst).Pairwise
        (FetchedItem.url · ≠ FetchedItem.url ·) := by
      rw [List.zipIdx_map_fst]
      exact pairwise_firsts items
    have kept := (List.pairwise_map.mp rows).filter
      (fun entry => Matters tables parsed cfg ingestedAt instrumentId since entry)
    exact ((List.mergeSort_perm _ _).pairwise_iff fun apart => apart.symm).mpr kept
  mem_iff item id := by
    rw [mem_newsOf]
    constructor
    · rintro ⟨here, matters⟩
      exact ⟨mem_firsts_iff.mp (List.mem_of_getElem? here), keeps.get?_of_getElem? here, matters⟩
    · rintro ⟨first, row, matters⟩
      refine ⟨?_, matters⟩
      rcases List.mem_iff_getElem?.mp (mem_firsts_iff.mpr first) with ⟨position, here⟩
      -- the URL of a row is its own
      have same : position = id :=
        RowTable.unique_iff.mp store.uniqueUrl _ _ _ _ (keeps.get?_of_getElem? here) row rfl
      exact same ▸ here
  stored item first := by
    rcases List.mem_iff_getElem?.mp (mem_firsts_iff.mpr first) with ⟨position, here⟩
    exact ⟨position, keeps.get?_of_getElem? here⟩

end Listing

/-! ## The snapshot and its prompt -/

theorem exists_ok_bind {ε α β : Type} {first : Except ε α} {rest : α → Except ε β}
    {good : β → Prop} {value : α} (ran : first = .ok value)
    (later : ∃ result, rest value = .ok result ∧ good result) :
    ∃ result, (first >>= rest) = .ok result ∧ good result := by
  rw [ran]
  exact later

/-- `.iloc[-1]`. -/
def iloc {α : Type} (column : List α) : Except PyError α :=
  match column.getLast? with
  | none => .error (.indexError "single positional indexer is out-of-bounds")
  | some last => .ok last

theorem exists_iloc {α : Type} {column : List α} (nonempty : column ≠ []) :
    ∃ last, iloc column = .ok last := by
  refine ⟨column.getLast nonempty, ?_⟩
  rw [iloc, List.getLast?_eq_some_getLast nonempty]

theorem exists_iloc_of_causal {α β : Type} {transform : List α → List β}
    (causal : Causal transform) {series : List α} (nonempty : series ≠ []) :
    ∃ last, iloc (transform series) = .ok last := by
  apply exists_iloc
  apply List.ne_nil_of_length_pos
  rw [causal.length]
  exact List.length_pos_of_ne_nil nonempty

/-- The values that are warm. -/
def warmIndicators (values : List (String × Option ℚ)) : List (Text × ℚ) :=
  values.filterMap fun (name, value) => value.map (name.toList, ·)

theorem plain_warmIndicators {values : List (String × Option ℚ)}
    (names : ∀ name ∈ values.map Prod.fst, Plain name.toList) :
    ∀ indicator ∈ warmIndicators values, Plain indicator.1 := by
  intro indicator mem
  rcases List.mem_filterMap.mp mem with ⟨⟨name, value⟩, listed, shown⟩
  rcases Option.map_eq_some_iff.mp shown with ⟨_, _, rfl⟩
  exact names name (List.mem_map_of_mem listed)

/-- `compute_indicators`, which leaves out what is not warm yet. -/
def computeIndicators (candles : List CandleRow) : Except PyError (List (Text × ℚ)) := do
  let close := candles.map CandleRow.close
  let sma20 ← iloc (← sma close 20)
  let ema20 ← iloc (← ema close 20)
  let rsi14 ← iloc (← rsi close 14)
  let atr14 ← iloc (← atr candles 14)
  let frame ← macd close
  let line ← iloc frame.macd
  let signal ← iloc frame.signal
  let hist ← iloc frame.hist
  pure (warmIndicators [("sma_20", sma20), ("ema_20", ema20), ("rsi_14", rsi14),
    ("atr_14", atr14), ("macd", line), ("macd_signal", signal), ("macd_hist", hist)])

/-- `build_market_snapshot`. -/
def buildMarketSnapshot (symbol : Text) (candles : List CandleRow)
    (position : Option PositionSnapshot) (news : List NewsSnapshotItem) :
    Except PyError MarketSnapshot := do
  let last ← iloc candles
  let indicators ← computeIndicators candles
  pure
    { symbol := symbol
      asOf := last.ts
      lastClose := last.close
      lastVolume := last.volume
      indicators := indicators
      position := position
      news := news }

/-- A row of the news as it stands in a snapshot. -/
def NewsItem.inSnapshot (item : NewsItem) : NewsSnapshotItem where
  source := item.source.toList
  publishedAt := item.publishedAt
  title := item.title
  body := item.body

/-- The content that `_try_ai_analysis` sends for an instrument, with the symbol and the key. -/
def NewsStore.analysisContent {instruments : InstrumentTable} (store : NewsStore instruments)
    (formatting : Formatting) (ingestedAt : ℕ → ℤ) (instrument : Text × ℕ)
    (candles : List CandleRow) (position : Option PositionSnapshot) (since : ℤ)
    (maxNewsItems : ℕ) : Except PyError Text := do
  let newsRows := store.listForInstrument ingestedAt instrument.2 since
  let news := (newsRows.take maxNewsItems).map fun row => row.2.inSnapshot
  let snapshot ← buildMarketSnapshot instrument.1 candles position news
  pure (buildUserContent formatting snapshot)

theorem computeIndicators_ok {candles : List CandleRow} (nonempty : candles ≠ []) :
    ∃ indicators, computeIndicators candles = .ok indicators ∧
      ∀ indicator ∈ indicators, Plain indicator.1 := by
  have closes : candles.map CandleRow.close ≠ [] := mt List.map_eq_nil_iff.mp nonempty
  have period {n : ℕ} : 0 < n + 1 := n.succ_pos
  have column {field : MACDFrame → Series} (mem : field ∈ macdFields.map Prod.snd) :
      ∃ last, iloc (field (macdColumns 12 26 9 (candles.map CandleRow.close))) = .ok last :=
    exists_iloc_of_causal (causal_macdColumns period period period mem) closes
  rcases exists_iloc_of_causal (causal_rolling 20 mean) closes with ⟨sma20, smaLast⟩
  rcases exists_iloc_of_causal (causal_emaSeries (@period 19)) closes with ⟨ema20, emaLast⟩
  rcases exists_iloc_of_causal (causal_rsiSeries (@period 13)) closes with ⟨rsi14, rsiLast⟩
  rcases exists_iloc_of_causal (causal_atrSeries (@period 13)) nonempty with ⟨atr14, atrLast⟩
  rcases @column MACDFrame.macd (by simp [macdFields]) with ⟨line, lineLast⟩
  rcases @column MACDFrame.signal (by simp [macdFields]) with ⟨signal, signalLast⟩
  rcases @column MACDFrame.hist (by simp [macdFields]) with ⟨hist, histLast⟩
  apply exists_ok_bind (sma_eq_ok.mpr ⟨by decide, rfl⟩)
  apply exists_ok_bind smaLast
  apply exists_ok_bind (ema_eq_ok.mpr ⟨by decide, rfl⟩)
  apply exists_ok_bind emaLast
  apply exists_ok_bind (rsi_eq_ok.mpr ⟨by decide, rfl⟩)
  apply exists_ok_bind rsiLast
  apply exists_ok_bind (atr_eq_ok.mpr ⟨by decide, rfl⟩)
  apply exists_ok_bind atrLast
  apply exists_ok_bind (macd_eq_ok.mpr ⟨by decide, rfl⟩)
  apply exists_ok_bind lineLast
  apply exists_ok_bind signalLast
  apply exists_ok_bind histLast
  refine ⟨_, rfl, plain_warmIndicators ?_⟩
  simp only [List.map_cons, List.map_nil]
  decide

/-- A snapshot is made of some candles, with strings that need not be rewritten. -/
theorem buildMarketSnapshot_ok {symbol : Text} (plain : Plain symbol) {candles : List CandleRow}
    (nonempty : candles ≠ []) (position : Option PositionSnapshot) {news : List NewsSnapshotItem}
    (sources : ∀ item ∈ news, Plain item.source) :
    ∃ snapshot, buildMarketSnapshot symbol candles position news = .ok snapshot ∧
      snapshot.news = news ∧ snapshot.PlainStrings := by
  rcases exists_iloc nonempty with ⟨last, here⟩
  rcases computeIndicators_ok nonempty with ⟨indicators, computed, names⟩
  apply exists_ok_bind here
  apply exists_ok_bind computed
  exact ⟨_, rfl, rfl, plain, names, sources⟩

section Content

variable (tables : CharTables) (parsed : Text → List Text) (cfg : NewsConfig)

/-- The item of a snapshot that shows a kept article. -/
def FetchedItem.inSnapshot (item : FetchedItem) : NewsSnapshotItem :=
  (item.article tables parsed cfg).inSnapshot

/-- A content shows some articles: after lines without a fence, each of them between two fences of
its own. -/
def ShowsArticles (formatting : Formatting) (items : List FetchedItem) (content : Text) : Prop :=
  ∃ header, content = header ++ items.flatMap (fun item => '\n' :: fenceBegin ++
      insideFences formatting (item.inSnapshot tables parsed cfg) ++ fenceEnd) ∧
    fencesIn header = [] ∧
    ∀ item ∈ items, fencesIn (insideFences formatting (item.inSnapshot tables parsed cfg)) = [] ∧
      ∃ before between after, insideFences formatting (item.inSnapshot tables parsed cfg) =
        before ++ defuse (item.article tables parsed cfg).title ++ between ++
          defuse (item.article tables parsed cfg).body ++ after

/-- The feeds have names that need not be rewritten. -/
def NewsEvent.NamesPlain : NewsEvent → Prop
  | .synced since feeds => ∀ provider ∈ feeds, ∀ raw ∈ provider.items since, Plain raw.source.toList
  | _ => True

variable {tables parsed cfg}

theorem plain_of_mem_fetchedItems {instruments : InstrumentTable} {events : List NewsEvent}
    (named : ∀ event ∈ events, event.NamesPlain) {item : FetchedItem}
    (mem : item ∈ fetchedItems instruments events) : Plain item.raw.source.toList := by
  induction events generalizing instruments with
  | nil => cases mem
  | cons event events ih =>
      rw [fetchedItems, List.mem_append] at mem
      rw [List.forall_mem_cons] at named
      rcases mem with now | later
      · cases event with
        | synced since feeds =>
            rcases List.mem_map.mp now with ⟨raw, returned, rfl⟩
            rcases List.mem_flatMap.mp returned with ⟨provider, listed, rawMem⟩
            exact named.1 provider listed raw rawMem
        | listed master => cases now
        | abandoned => cases now
      · exact ih named.2 later

/-- The content of a snapshot shows its articles. -/
theorem buildUserContent_showsArticles (formatting : Formatting) {snapshot : MarketSnapshot}
    (plain : snapshot.PlainStrings) {items : List FetchedItem}
    (news : snapshot.news = items.map (FetchedItem.inSnapshot tables parsed cfg)) :
    ShowsArticles tables parsed cfg formatting items (buildUserContent formatting snapshot) := by
  refine ⟨['\n'].intercalate (headerLines formatting snapshot), ?_, ?_, ?_⟩
  · rw [buildUserContent_eq, news, List.flatMap_map]
  · rw [fencesIn_join]
    apply List.flatMap_eq_nil_iff.mpr
    intro line mem
    exact fencesIn_of_plain (plain_headerLines plain line mem)
  · intro item mem
    have shown : item.inSnapshot tables parsed cfg ∈ snapshot.news := by
      rw [news]
      exact List.mem_map_of_mem mem
    exact ⟨fencesIn_insideFences (plain.sources _ shown), insideFences_shows _⟩

/-- Whatever transactions the news tables have seen, the content about an instrument that has candles
shows the newest of its news, each the first version of its article, between fences of its own. Its
symbol and the names of the feeds have no five hyphens in a row. -/
theorem prompt_shows_newest (formatting : Formatting) (instruments : InstrumentTable)
    (events : List NewsEvent) (named : ∀ event ∈ events, event.NamesPlain) (ingestedAt : ℕ → ℤ)
    {symbol : Text} (plain : Plain symbol) (instrumentId : ℕ) {candles : List CandleRow}
    (nonempty : candles ≠ []) (position : Option PositionSnapshot) (since : ℤ)
    (maxNewsItems : ℕ) :
    let store := (NewsDesk.run tables parsed cfg instruments events).store
    ∃ news content,
      IsNewsOf tables parsed cfg ingestedAt store (fetchedItems instruments events) instrumentId
        since news ∧
      store.analysisContent formatting ingestedAt (symbol, instrumentId) candles position since
        maxNewsItems = .ok content ∧
      ShowsArticles tables parsed cfg formatting ((news.take maxNewsItems).map Prod.fst)
        content := by
  intro store
  have keeps := @NewsDesk.keeps_run tables parsed cfg instruments events
  have isNews := keeps.isNewsOf ingestedAt instrumentId since
  have rows := keeps.listForInstrument_eq ingestedAt instrumentId since
  generalize newsOf tables parsed cfg ingestedAt _ instrumentId since = news at isNews rows
  have shown : ((store.listForInstrument ingestedAt instrumentId since).take maxNewsItems).map
      (fun row => row.2.inSnapshot) = ((news.take maxNewsItems).map Prod.fst).map
        (FetchedItem.inSnapshot tables parsed cfg) := by
    rw [rows, ← List.map_take, List.map_map, List.map_map]
    rfl
  have sources : ∀ item ∈ ((news.take maxNewsItems).map Prod.fst).map
      (FetchedItem.inSnapshot tables parsed cfg), Plain item.source := by
    intro item mem
    rcases List.mem_map.mp mem with ⟨fetched, listed, rfl⟩
    rcases List.mem_map.mp listed with ⟨entry, taken, rfl⟩
    rcases ((isNews.mem_iff _ _).mp (List.mem_of_mem_take taken)).1 with
      ⟨before, after, split, fresh⟩
    apply plain_of_mem_fetchedItems named
    rw [split]
    exact List.mem_append_right _ (.head _)
  rcases buildMarketSnapshot_ok plain nonempty position sources with
    ⟨snapshot, built, same, strings⟩
  refine ⟨news, buildUserContent formatting snapshot, isNews, ?_,
    buildUserContent_showsArticles formatting strings same⟩
  rw [NewsStore.analysisContent, shown]
  exact except_bind_eq_ok.mpr ⟨snapshot, built, rfl⟩

/-- A report; then a run that is abandoned; then another text under the address of the report, and
an entry without an address. The second feed is down. -/
def newsEvents : List NewsEvent :=
  [.synced 0 [rssNewsProvider "test_source"
      (.ok [{ link := some "https://x/1", title := some article }]),
    rssNewsProvider "bad_source" (.error "boom")],
    .abandoned,
    .synced 0 [rssNewsProvider "test_source"
      (.ok [{ link := some "https://x/1", title := some "Corrected".toList }, {}])]]

/-- The first version stays. -/
example : (NewsDesk.run asciiTables (fun raw => [raw]) .default InstrumentTable.sampleTable
    newsEvents).store.items.rows.map NewsItem.title = [article] := by
  decide +kernel

theorem prompt_shows_newest_sample :
    let store := (NewsDesk.run asciiTables (fun raw => [raw]) .default InstrumentTable.sampleTable
      newsEvents).store
    ∃ news content,
      IsNewsOf asciiTables (fun raw => [raw]) .default (fun _ => 0) store
        (fetchedItems InstrumentTable.sampleTable newsEvents) 0 0 news ∧
      store.analysisContent wholeFormatting (fun _ => 0) ("RELIANCE".toList, 0)
        [⟨0, 10, 11, 9, 10, 5, 0⟩] none 0 10 = .ok content ∧
      ShowsArticles asciiTables (fun raw => [raw]) .default wholeFormatting
        ((news.take 10).map Prod.fst) content := by
  have named : ∀ event ∈ newsEvents, event.NamesPlain := by
    have names : ∀ name ∈ ["test_source", "bad_source"], Plain name.toList := by decide
    intro event mem
    simp only [newsEvents, List.mem_cons, List.not_mem_nil, or_false] at mem
    rcases mem with rfl | rfl | rfl
    · intro provider listed raw returned
      simp only [List.mem_cons, List.not_mem_nil, or_false] at listed
      rcases listed with rfl | rfl
      · rw [(mem_items_rssNewsProvider returned).1]
        exact names _ (.head _)
      · cases returned
    · trivial
    · intro provider listed raw returned
      obtain rfl := List.mem_singleton.mp listed
      rw [(mem_items_rssNewsProvider returned).1]
      exact names _ (.head _)
  exact prompt_shows_newest wholeFormatting InstrumentTable.sampleTable newsEvents named
    (fun _ => 0) (by decide) 0 (List.cons_ne_nil _ _) none 0 10

end Content

end PersonalTrade
