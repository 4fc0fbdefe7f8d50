import Mathlib.Data.List.DropRight
import PersonalTrade.Intelligence.Tagging

/-!
# News ingestion

`ingest` of `intelligence/news/pipeline.py` with `NewsRepository.add_if_new`. The tables carry
the constraints that the database enforces, so ingestion may be refused at every flush; `Grows`
is what it does to them, one item, one feed and one list of providers at a time.
-/

namespace PersonalTrade

structure RawNewsItem where
  source : String
  url : String
  title : Text
  body : Text
  publishedAt : Option ℤ
deriving DecidableEq, Repr

/-- A row of `news_items`. -/
structure NewsItem where
  source : String
  url : String
  title : Text
  body : Text
  publishedAt : Option ℤ
deriving DecidableEq, Repr

/-- A row of `news_instrument_tags`. -/
structure NewsInstrumentTag where
  newsItemId : ℕ
  instrumentId : ℕ
deriving DecidableEq, Repr

structure NewsFetchError where
  message : String
deriving DecidableEq, Repr

structure NewsProvider where
  name : String
  fetch : ℤ → Except NewsFetchError (List RawNewsItem)

/-- The lengths in `NewsConfig`. -/
structure NewsConfig where
  maxTitleLength : ℕ
  maxBodyLength : ℕ
  titlePos : 1 ≤ maxTitleLength
  bodyPos : 1 ≤ maxBodyLength

structure IngestResult where
  source : String
  fetched : ℕ := 0
  stored : ℕ := 0
  error : Option String := none
deriving DecidableEq, Repr

/-- `strip_html`, with the data that `HTMLParser` finds in a text. -/
def stripHtml (tables : CharTables) (parsed : Text → List Text) (raw : Text) : Text :=
  [' '].intercalate (tables.split (parsed raw).flatten)

def clamp (tables : CharTables) (text : Text) (maxLength : ℕ) : Text :=
  if text.length ≤ maxLength then text
  else (text.take maxLength).rdropWhile tables.isSpace ++ ['…']

/-- `InstrumentRepository.list_active`, for rows with their primary keys. -/
def InstrumentTable.listActive (instruments : InstrumentTable) : List (ℕ × InstrumentRow) :=
  instruments.rows.selectRows InstrumentRow.active

/-- The tables that ingestion writes, with their unique constraints and their foreign keys. -/
structure NewsStore (instruments : InstrumentTable) where
  items : RowTable NewsItem
  tags : RowTable NewsInstrumentTag
  uniqueUrl : items.Unique NewsItem.url
  uniqueTag : tags.Unique id
  references : ∀ tag ∈ tags.rows,
    tag.newsItemId < items.nextId ∧ tag.instrumentId < instruments.rows.nextId

namespace NewsStore

variable {instruments : InstrumentTable}

/-- A flush of the session: the database checks its constraints. -/
def flush (items : RowTable NewsItem) (tags : RowTable NewsInstrumentTag) :
    Except PyError (NewsStore instruments) :=
  if uniqueUrl : items.Unique NewsItem.url then
    if uniqueTag : tags.Unique id then
      if references : ∀ tag ∈ tags.rows,
          tag.newsItemId < items.nextId ∧ tag.instrumentId < instruments.rows.nextId then
        .ok ⟨items, tags, uniqueUrl, uniqueTag, references⟩
      else .error (.integrityError "FOREIGN KEY")
    else .error (.integrityError "uq_news_instrument_tag")
  else .error (.integrityError "news_items.url")

/-- `add_if_new`, with the primary key of a new row. -/
def addIfNew (store : NewsStore instruments) (item : NewsItem) :
    Except PyError (NewsStore instruments × Option ℕ) :=
  match (store.items.select fun row => row.url = item.url).head? with
  | some _ => .ok (store, none)
  | none => do
      let added ← flush (store.items.insert item) store.tags
      .ok (added, some store.items.nextId)

/-- The tags of an item are added; they reach the database before the next item is looked up. -/
def addTags (store : NewsStore instruments) (itemId : ℕ) (ids : List ℕ) :
    Except PyError (NewsStore instruments) :=
  ids.foldlM (fun store id => flush store.items (store.tags.insert ⟨itemId, id⟩)) store

end NewsStore

section Ingest

variable (tables : CharTables) (parsed : Text → List Text) (cfg : NewsConfig)
  {instruments : InstrumentTable}

/-- The row that an item is stored as. -/
def RawNewsItem.sanitized (raw : RawNewsItem) : NewsItem where
  source := raw.source
  url := raw.url
  title := clamp tables (stripHtml tables parsed raw.title) cfg.maxTitleLength
  body := clamp tables (stripHtml tables parsed raw.body) cfg.maxBodyLength
  publishedAt := raw.publishedAt

/-- The instruments that an item is tagged with. -/
def NewsItem.concerns (instruments : InstrumentTable) (item : NewsItem) : List ℕ :=
  tagInstruments tables (item.title ++ ' ' :: item.body)
    (buildMatchers tables instruments.listActive)

/-- One turn of the inner loop of `ingest`. -/
def ingestItem (state : NewsStore instruments × ℕ) (raw : RawNewsItem) :
    Except PyError (NewsStore instruments × ℕ) := do
  let (store, stored) := state
  let item := raw.sanitized tables parsed cfg
  let (store, new) ← store.addIfNew item
  match new with
  | none => .ok (store, stored)
  | some id => do
      let store ← store.addTags id (item.concerns tables instruments)
      .ok (store, stored + 1)

/-- One turn of the outer loop of `ingest`. -/
def ingestProvider (since : ℤ) (store : NewsStore instruments) (provider : NewsProvider) :
    Except PyError (NewsStore instruments × IngestResult) :=
  match provider.fetch since with
  | .error raised => .ok (store, { source := provider.name, error := some raised.message })
  | .ok rawItems => do
      let (store, stored) ← rawItems.foldlM (ingestItem tables parsed cfg) (store, 0)
      .ok (store, { source := provider.name, fetched := rawItems.length, stored := stored })

def ingest (since : ℤ) (store : NewsStore instruments) :
    List NewsProvider → Except PyError (NewsStore instruments × List IngestResult)
  | [] => .ok (store, [])
  | provider :: providers => do
      let (store, result) ← ingestProvider tables parsed cfg since store provider
      let (store, results) ← ingest since store providers
      .ok (store, result :: results)

end Ingest

/-! ## What ingestion does to the tables -/

namespace NewsStore

variable {instruments : InstrumentTable} {store store' : NewsStore instruments}

/-- Some row has a URL. -/
def HasUrl (store : NewsStore instruments) (url : String) : Prop :=
  ∃ id row, store.items.get? id = some row ∧ row.url = url

/-- The tables are flushed when they meet their constraints. -/
theorem flush_of_constraints {items : RowTable NewsItem} {tags : RowTable NewsInstrumentTag}
    (uniqueUrl : items.Unique NewsItem.url) (uniqueTag : tags.Unique id)
    (references : ∀ tag ∈ tags.rows,
      tag.newsItemId < items.nextId ∧ tag.instrumentId < instruments.rows.nextId) :
    flush items tags = .ok ⟨items, tags, uniqueUrl, uniqueTag, references⟩ := by
  rw [flush, dif_pos uniqueUrl, dif_pos uniqueTag, dif_pos references]

theorem addIfNew_of_hasUrl {item : NewsItem} (known : store.HasUrl item.url) :
    store.addIfNew item = .ok (store, none) := by
  rcases store.items.head?_select_cases NewsItem.url item.url with
    ⟨id, _, _, _, first⟩ | ⟨new, _⟩
  · rw [addIfNew, first]
  · rcases known with ⟨id, row, found, same⟩
    exact absurd same (new id row found)

/-- A row with a new URL is accepted by the database. -/
theorem addIfNew_of_new {item : NewsItem} (new : ¬ store.HasUrl item.url) :
    ∃ added : NewsStore instruments, store.addIfNew item = .ok (added, some store.items.nextId) ∧
      added.items = store.items.insert item ∧ added.tags = store.tags := by
  rcases store.items.head?_select_cases NewsItem.url item.url with
    ⟨id, row, found, same, _⟩ | ⟨_, first⟩
  · exact absurd ⟨id, row, found, same⟩ new
  · have uniqueUrl := (RowTable.unique_insert item store.uniqueUrl).mpr
      fun id row found same => new ⟨id, row, found, same⟩
    have references : ∀ tag ∈ store.tags.rows, tag.newsItemId < (store.items.insert item).nextId ∧
        tag.instrumentId < instruments.rows.nextId := by
      intro tag mem
      rcases store.references tag mem with ⟨item, instrument⟩
      rw [RowTable.nextId_insert]
      exact ⟨by omega, instrument⟩
    refine ⟨⟨_, _, uniqueUrl, store.uniqueTag, references⟩, ?_, rfl, rfl⟩
    rw [addIfNew, first]
    exact except_bind_eq_ok.mpr
      ⟨_, flush_of_constraints uniqueUrl store.uniqueTag references, rfl⟩

/-- Tags with distinct instruments are accepted for an item without tags. -/
theorem addTags_ok {itemId : ℕ} {ids : List ℕ} (stored : itemId < store.items.nextId)
    (distinct : ids.Nodup) (instrument : ∀ id ∈ ids, id < instruments.rows.nextId)
    (untagged : ∀ tag ∈ store.tags.rows, tag.newsItemId = itemId → tag.instrumentId ∉ ids) :
    ∃ tagged : NewsStore instruments, store.addTags itemId ids = .ok tagged ∧
      tagged.items = store.items ∧
      tagged.tags.rows = store.tags.rows ++ ids.map fun id => ⟨itemId, id⟩ := by
  induction ids generalizing store with
  | nil => exact ⟨store, rfl, rfl, (List.append_nil _).symm⟩
  | cons id ids ih =>
      rw [List.nodup_cons] at distinct
      have uniqueTag := (RowTable.unique_insert (⟨itemId, id⟩ : NewsInstrumentTag)
        store.uniqueTag).mpr fun row other found same => by
          have mem : other ∈ store.tags.rows := List.mem_of_getElem? found
          rw [id_eq, id_eq] at same
          subst same
          exact untagged _ mem rfl List.mem_cons_self
      have references : ∀ tag ∈ (store.tags.insert ⟨itemId, id⟩).rows,
          tag.newsItemId < store.items.nextId ∧ tag.instrumentId < instruments.rows.nextId := by
        intro tag mem
        rcases List.mem_append.mp mem with old | new
        · exact store.references tag old
        · obtain rfl := List.mem_singleton.mp new
          exact ⟨stored, instrument id List.mem_cons_self⟩
      have first := flush_of_constraints store.uniqueUrl uniqueTag references
      rcases @ih ⟨_, _, store.uniqueUrl, uniqueTag, references⟩ stored distinct.2
          (fun other mem => instrument other (List.mem_cons_of_mem _ mem)) (by
            intro tag mem same
            rcases List.mem_append.mp mem with old | new
            · exact fun later => untagged tag old same (List.mem_cons_of_mem _ later)
            · obtain rfl := List.mem_singleton.mp new
              exact distinct.1) with ⟨tagged, added, items, tags⟩
      refine ⟨tagged, ?_, items, ?_⟩
      · rw [addTags, List.foldlM_cons, first]
        exact added
      · rw [tags]
        simp [RowTable.insert]

/-- The tables have grown by rows with some of the URLs, as many as are counted. -/
structure Grows (store store' : NewsStore instruments) (urls : List String) (stored : ℕ) : Prop
    where
  kept : store.items.rows <+: store'.items.rows
  counted : store'.items.nextId = store.items.nextId + stored
  known : ∀ url, store'.HasUrl url ↔ store.HasUrl url ∨ url ∈ urls

theorem hasUrl_insert {item : NewsItem} (rows : store'.items = store.items.insert item)
    (url : String) : store'.HasUrl url ↔ store.HasUrl url ∨ url = item.url := by
  rw [HasUrl, rows]
  constructor
  · rintro ⟨id, row, found, same⟩
    rw [RowTable.get?_insert] at found
    split_ifs at found with last
    · obtain rfl := Option.some.inj found
      exact .inr same.symm
    · exact .inl ⟨id, row, found, same⟩
  · rintro (⟨id, row, found, same⟩ | rfl)
    · have below := RowTable.lt_nextId_of_get? found
      exact ⟨id, row, by rw [RowTable.get?_insert_of_ne below.ne, found], same⟩
    · exact ⟨_, item, RowTable.get?_insert_nextId _ _, rfl⟩

theorem Grows.refl (store : NewsStore instruments) : Grows store store [] 0 :=
  ⟨List.prefix_rfl, rfl, by simp⟩

theorem Grows.trans {middle : NewsStore instruments} {urls urls' : List String}
    {stored stored' : ℕ} (first : Grows store middle urls stored)
    (second : Grows middle store' urls' stored') :
    Grows store store' (urls ++ urls') (stored + stored') where
  kept := first.kept.trans second.kept
  counted := by rw [second.counted, first.counted, Nat.add_assoc]
  known url := by rw [second.known, first.known, List.mem_append, or_assoc]

end NewsStore

/-! ## The loops -/

section Loops

open NewsStore

variable (tables : CharTables) (parsed : Text → List Text) (cfg : NewsConfig)
  {instruments : InstrumentTable} {store store' : NewsStore instruments} {since : ℤ}

/-- The URLs of the items that a provider returns. -/
def NewsProvider.urls (since : ℤ) (provider : NewsProvider) : List String :=
  match provider.fetch since with
  | .error _ => []
  | .ok rawItems => rawItems.map RawNewsItem.url

theorem tagInstruments_sublist (text : Text) (rows : List (ℕ × InstrumentRow)) :
    (tagInstruments tables text (buildMatchers tables rows)).Sublist (rows.map Prod.fst) := by
  have ids : (buildMatchers tables rows).map Matcher.instrumentId = rows.map Prod.fst := by
    rw [buildMatchers, List.map_map]
    rfl
  rw [← ids]
  exact List.filter_sublist.map _

theorem NewsItem.nodup_concerns (item : NewsItem) : (item.concerns tables instruments).Nodup := by
  have sublist := tagInstruments_sublist tables (item.title ++ ' ' :: item.body)
    instruments.listActive
  rw [InstrumentTable.listActive, RowTable.map_fst_selectRows] at sublist
  exact sublist.nodup (RowTable.nodup_select _ _)

theorem NewsItem.lt_of_mem_concerns {item : NewsItem} {id : ℕ}
    (mem : id ∈ item.concerns tables instruments) : id < instruments.rows.nextId := by
  have listed := (tagInstruments_sublist tables (item.title ++ ' ' :: item.body)
    instruments.listActive).subset mem
  rw [InstrumentTable.listActive, RowTable.map_fst_selectRows] at listed
  rcases RowTable.mem_select.mp listed with ⟨row, found, _⟩
  exact RowTable.lt_nextId_of_get? found

theorem ingestItem_of_hasUrl {raw : RawNewsItem} (known : store.HasUrl raw.url) (stored : ℕ) :
    ingestItem tables parsed cfg (store, stored) raw = .ok (store, stored) :=
  except_bind_eq_ok.mpr
    ⟨_, @addIfNew_of_hasUrl _ store (raw.sanitized tables parsed cfg) known, rfl⟩

/-- An item with a new URL is stored and tagged. -/
theorem ingestItem_of_new {raw : RawNewsItem} (new : ¬ store.HasUrl raw.url) (stored : ℕ) :
    ∃ tagged : NewsStore instruments,
      ingestItem tables parsed cfg (store, stored) raw = .ok (tagged, stored + 1) ∧
      tagged.items = store.items.insert (raw.sanitized tables parsed cfg) ∧
      tagged.tags.rows = store.tags.rows ++
        ((raw.sanitized tables parsed cfg).concerns tables instruments).map
          (NewsInstrumentTag.mk store.items.nextId) := by
  rcases @addIfNew_of_new _ store (raw.sanitized tables parsed cfg) new with
    ⟨added, inserted, items, tags⟩
  -- no tag refers to the key of the new row
  have untagged : ∀ tag ∈ added.tags.rows, tag.newsItemId = store.items.nextId →
      tag.instrumentId ∉ (raw.sanitized tables parsed cfg).concerns tables instruments := by
    intro tag mem same
    rw [tags] at mem
    exact absurd same (store.references tag mem).1.ne
  have below : store.items.nextId < added.items.nextId := by
    rw [items, RowTable.nextId_insert]
    exact Nat.lt_succ_self _
  rcases addTags_ok below (NewsItem.nodup_concerns tables (raw.sanitized tables parsed cfg))
    (fun id mem => NewsItem.lt_of_mem_concerns tables mem) untagged with
    ⟨tagged, ran, sameItems, newTags⟩
  refine ⟨tagged, ?_, sameItems.trans items, ?_⟩
  · exact except_bind_eq_ok.mpr ⟨_, inserted, except_bind_eq_ok.mpr ⟨tagged, ran, rfl⟩⟩
  · rw [newTags, tags]

/-- An item is stored and counted when its URL is new, and passed over otherwise. -/
theorem ingestItem_grows (store : NewsStore instruments) (count : ℕ) (raw : RawNewsItem) :
    ∃ store' stored, ingestItem tables parsed cfg (store, count) raw =
      .ok (store', count + stored) ∧ Grows store store' [raw.url] stored := by
  by_cases known : store.HasUrl raw.url
  · refine ⟨store, 0, ingestItem_of_hasUrl tables parsed cfg known count, List.prefix_rfl, rfl, ?_⟩
    intro url
    rw [List.mem_singleton, iff_self_or]
    rintro rfl
    exact known
  · rcases ingestItem_of_new tables parsed cfg known count with ⟨tagged, ran, items, _⟩
    refine ⟨tagged, 1, ran, ?_, ?_, ?_⟩
    · rw [items]
      exact List.prefix_append _ _
    · rw [items, RowTable.nextId_insert]
    · intro url
      rw [hasUrl_insert items, List.mem_singleton]
      rfl

theorem foldlM_ingestItem_grows (store : NewsStore instruments) (count : ℕ)
    (rawItems : List RawNewsItem) : ∃ store' stored,
      rawItems.foldlM (ingestItem tables parsed cfg) (store, count) = .ok (store', count + stored) ∧
        Grows store store' (rawItems.map RawNewsItem.url) stored := by
  induction rawItems generalizing store count with
  | nil => exact ⟨store, 0, rfl, .refl store⟩
  | cons raw rawItems ih =>
      rcases ingestItem_grows tables parsed cfg store count raw with ⟨middle, first, ran, grows⟩
      rcases ih middle (count + first) with ⟨store', others, rest, growsRest⟩
      refine ⟨store', first + others, ?_, grows.trans growsRest⟩
      rw [List.foldlM_cons, ← Nat.add_assoc]
      exact except_bind_eq_ok.mpr ⟨_, ran, rest⟩

theorem ingestProvider_of_error {provider : NewsProvider} {raised : NewsFetchError}
    (failed : provider.fetch since = .error raised) :
    ingestProvider tables parsed cfg since store provider =
      .ok (store, { source := provider.name, error := some raised.message }) := by
  rw [ingestProvider, failed]

theorem ingestProvider_grows (store : NewsStore instruments) (provider : NewsProvider) :
    ∃ store' result, ingestProvider tables parsed cfg since store provider = .ok (store', result) ∧
      result.source = provider.name ∧
      Grows store store' (provider.urls since) result.stored := by
  rw [NewsProvider.urls]
  rcases fetched : provider.fetch since with raised | rawItems
  · exact ⟨store, _, ingestProvider_of_error tables parsed cfg fetched, rfl, .refl store⟩
  · rcases foldlM_ingestItem_grows tables parsed cfg store 0 rawItems with
      ⟨store', stored, ran, grows⟩
    rw [Nat.zero_add] at ran
    refine ⟨store', { source := provider.name, fetched := rawItems.length, stored := stored }, ?_,
      rfl, grows⟩
    rw [ingestProvider, fetched]
    exact except_bind_eq_ok.mpr ⟨_, ran, rfl⟩

/-- Every list of providers is ingested, with one result for each. -/
theorem ingest_grows (store : NewsStore instruments) (providers : List NewsProvider) :
    ∃ store' results, ingest tables parsed cfg since store providers = .ok (store', results) ∧
      results.map IngestResult.source = providers.map NewsProvider.name ∧
      Grows store store' (providers.flatMap (·.urls since))
        (results.map IngestResult.stored).sum := by
  induction providers generalizing store with
  | nil => exact ⟨store, [], rfl, rfl, .refl store⟩
  | cons provider providers ih =>
      rcases ingestProvider_grows tables parsed cfg store provider with
        ⟨middle, result, ran, source, grows⟩
      rcases ih middle with ⟨store', results, rest, sources, growsRest⟩
      refine ⟨store', result :: results, ?_, ?_, ?_⟩
      · rw [ingest]
        exact except_bind_eq_ok.mpr ⟨_, ran, except_bind_eq_ok.mpr ⟨_, rest, rfl⟩⟩
      · rw [List.map_cons, List.map_cons, source, sources]
      · rw [List.flatMap_cons, List.map_cons, List.sum_cons]
        exact grows.trans growsRest

/-- Items with known URLs change nothing. -/
theorem foldlM_ingestItem_of_known {rawItems : List RawNewsItem} (stored : ℕ)
    (known : ∀ raw ∈ rawItems, store.HasUrl raw.url) :
    rawItems.foldlM (ingestItem tables parsed cfg) (store, stored) = .ok (store, stored) := by
  induction rawItems with
  | nil => rfl
  | cons raw rawItems ih =>
      rw [List.foldlM_cons]
      exact except_bind_eq_ok.mpr
        ⟨_, ingestItem_of_hasUrl tables parsed cfg (known raw List.mem_cons_self) stored,
          ih fun other mem => known other (List.mem_cons_of_mem _ mem)⟩

theorem ingestProvider_of_known {provider : NewsProvider}
    (known : ∀ url ∈ provider.urls since, store.HasUrl url) :
    ∃ result, ingestProvider tables parsed cfg since store provider = .ok (store, result) ∧
      result.stored = 0 := by
  rw [NewsProvider.urls] at known
  rcases fetched : provider.fetch since with raised | rawItems
  · exact ⟨_, ingestProvider_of_error tables parsed cfg fetched, rfl⟩
  · rw [fetched] at known
    have ran := foldlM_ingestItem_of_known tables parsed cfg 0
      fun raw mem => known raw.url (List.mem_map_of_mem mem)
    refine ⟨{ source := provider.name, fetched := rawItems.length }, ?_, rfl⟩
    rw [ingestProvider, fetched]
    exact except_bind_eq_ok.mpr ⟨_, ran, rfl⟩

/-- Feeds with known URLs change nothing. -/
theorem ingest_of_known {providers : List NewsProvider}
    (known : ∀ url ∈ providers.flatMap (·.urls since), store.HasUrl url) :
    ∃ results, ingest tables parsed cfg since store providers = .ok (store, results) ∧
      ∀ result ∈ results, result.stored = 0 := by
  induction providers with
  | nil => exact ⟨[], rfl, by simp⟩
  | cons provider providers ih =>
      rw [List.flatMap_cons] at known
      rcases ingestProvider_of_known tables parsed cfg
        fun url mem => known url (List.mem_append_left _ mem) with ⟨result, ran, nothing⟩
      rcases ih fun url mem => known url (List.mem_append_right _ mem) with ⟨results, rest, all⟩
      refine ⟨result :: results, ?_, List.forall_mem_cons.mpr ⟨nothing, all⟩⟩
      rw [ingest]
      exact except_bind_eq_ok.mpr ⟨_, ran, except_bind_eq_ok.mpr ⟨_, rest, rfl⟩⟩

/-- Two lists of providers are ingested one after the other. -/
theorem ingest_append {middle : NewsStore instruments} {before after : List NewsProvider}
    {first rest : List IngestResult}
    (ran : ingest tables parsed cfg since store before = .ok (middle, first))
    (ranRest : ingest tables parsed cfg since middle after = .ok (store', rest)) :
    ingest tables parsed cfg since store (before ++ after) = .ok (store', first ++ rest) := by
  induction before generalizing store first with
  | nil =>
      cases ran
      exact ranRest
  | cons provider before ih =>
      rw [ingest] at ran
      rcases except_bind_eq_ok.mp ran with ⟨⟨next, result⟩, head, tail⟩
      rcases except_bind_eq_ok.mp tail with ⟨⟨last, results⟩, others, made⟩
      cases made
      rw [List.cons_append, ingest]
      exact except_bind_eq_ok.mpr ⟨_, head, except_bind_eq_ok.mpr ⟨_, ih others, rfl⟩⟩

/-- A URL is stored once, the reported counts are the number of new rows, a second run changes
nothing, and a provider that fails is as if it were absent. -/
theorem ingest_idempotent_isolated (since : ℤ) (store : NewsStore instruments)
    (providers : List NewsProvider) :
    ∃ store' results, ingest tables parsed cfg since store providers = .ok (store', results) ∧
      (∀ url, (store'.items.select fun row => row.url = url).length ≤ 1) ∧
      store.items.rows <+: store'.items.rows ∧
      store'.items.nextId = store.items.nextId + (results.map IngestResult.stored).sum ∧
      (∃ again, ingest tables parsed cfg since store' providers = .ok (store', again) ∧
        ∀ result ∈ again, result.stored = 0) ∧
      ∀ before failing after raised, providers = before ++ failing :: after →
        failing.fetch since = .error raised →
        ∃ first rest, results = first ++
            { source := failing.name, error := some raised.message } :: rest ∧
          first.map IngestResult.source = before.map NewsProvider.name ∧
          ingest tables parsed cfg since store (before ++ after) = .ok (store', first ++ rest) := by
  rcases ingest_grows tables parsed cfg store providers with ⟨store', results, ran, _, grows⟩
  refine ⟨store', results, ran, fun url => ?_, grows.kept, grows.counted, ?_, ?_⟩
  · exact RowTable.length_select_le_one store'.uniqueUrl url
  · exact ingest_of_known tables parsed cfg fun url mem => (grows.known url).mpr (.inr mem)
  · rintro before failing after raised rfl failed
    rcases ingest_grows tables parsed cfg store before with ⟨middle, first, ranFirst, sources, _⟩
    rcases ingest_grows tables parsed cfg middle after with ⟨last, rest, ranRest, _⟩
    have ranFailing : ingest tables parsed cfg since middle (failing :: after) = .ok (last,
        { source := failing.name, error := some raised.message } :: rest) := by
      rw [ingest]
      exact except_bind_eq_ok.mpr ⟨_, ingestProvider_of_error tables parsed cfg failed,
        except_bind_eq_ok.mpr ⟨_, ranRest, rfl⟩⟩
    have all := ingest_append tables parsed cfg ranFirst ranFailing
    rw [ran, Except.ok.injEq, Prod.mk.injEq] at all
    rcases all with ⟨rfl, rfl⟩
    exact ⟨first, rest, rfl, sources, ingest_append tables parsed cfg ranFirst ranRest⟩

/-- The default lengths. -/
def NewsConfig.default : NewsConfig := ⟨300, 2000, by decide, by decide⟩

/-- A table of news without rows. -/
def NewsStore.empty (instruments : InstrumentTable) : NewsStore instruments where
  items := .empty
  tags := .empty
  uniqueUrl := .nil
  uniqueTag := .nil
  references := by simp [RowTable.empty]

/-- The article as a feed has it. -/
def rawArticle : RawNewsItem := ⟨"test", "https://x/1", article, [], none⟩

/-- A feed in which the article occurs twice. -/
def repeatedFeed : NewsProvider := ⟨"test_source", fun _ => .ok [rawArticle, rawArticle]⟩

/-- A feed that cannot be reached. -/
def deadFeed : NewsProvider := ⟨"bad_source", fun _ => .error ⟨"boom"⟩⟩

example : (ingest asciiTables (fun raw => [raw]) .default 0 (.empty InstrumentTable.sampleTable)
    [repeatedFeed, deadFeed, repeatedFeed]).toOption.map Prod.snd =
      some [⟨"test_source", 2, 1, none⟩, ⟨"bad_source", 0, 0, some "boom"⟩,
        ⟨"test_source", 2, 0, none⟩] := by
  decide +kernel

/-- The dead feed is as if it were absent. -/
theorem ingest_idempotent_isolated_sample : ∃ store' first rest,
    ingest asciiTables (fun raw => [raw]) .default 0 (.empty InstrumentTable.sampleTable)
        [repeatedFeed, deadFeed, repeatedFeed] =
      .ok (store', first ++ { source := "bad_source", error := some "boom" } :: rest) ∧
    ingest asciiTables (fun raw => [raw]) .default 0 (.empty InstrumentTable.sampleTable)
      [repeatedFeed, repeatedFeed] = .ok (store', first ++ rest) := by
  rcases ingest_idempotent_isolated asciiTables (fun raw => [raw]) .default 0
    (.empty InstrumentTable.sampleTable) [repeatedFeed, deadFeed, repeatedFeed] with
    ⟨store', _, ran, _, _, _, _, isolated⟩
  rcases isolated [repeatedFeed] deadFeed [repeatedFeed] ⟨"boom"⟩ rfl rfl with
    ⟨first, rest, rfl, _, without⟩
  exact ⟨store', first, rest, ran, without⟩

end Loops

end PersonalTrade
