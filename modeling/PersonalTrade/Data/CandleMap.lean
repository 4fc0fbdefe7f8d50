import PersonalTrade.Data.CandleStore
import PersonalTrade.Library.LastWrite

/-!
# The candle store as a map

What `CandleStore.write` and `CandleStore.read` mean: a dataset represents the map from
times to the last row written for them. Each write overlays its frame on the map, whatever
years it spans, and a read lists the entries of the map within its bounds.
-/

namespace PersonalTrade

open LastWrite

theorem mem_normalize {frame : List CandleRow} {row : CandleRow} :
    row ∈ normalizeCandleFrame frame ↔ lastWith CandleRow.ts frame row.ts = some row := by
  rw [normalizeCandleFrame, mem_sortByTs]
  exact mem_pwFilter

theorem lastWith_normalize (frame : List CandleRow) (ts : ℤ) :
    lastWith CandleRow.ts (normalizeCandleFrame frame) ts = lastWith CandleRow.ts frame ts := by
  have distinct := (frameContract_normalize frame).distinct
  ext row
  rw [lastWith_eq_some distinct, mem_normalize]
  constructor
  · rintro ⟨last, rfl⟩
    exact last
  · intro last
    have own := (mem_of_lastWith last).2
    exact ⟨own.symm ▸ last, own⟩

/-- Frames that keep the contract are determined by their rows. -/
theorem FrameContract.ext {frame frame' : List CandleRow} (contract : FrameContract frame)
    (contract' : FrameContract frame') (same : ∀ row, row ∈ frame ↔ row ∈ frame') :
    frame = frame' := by
  have perm : frame.Perm frame' := by
    rw [List.perm_ext_iff_of_nodup]
    · exact same
    · exact contract.imp fun earlier => by rintro rfl; exact lt_irrefl _ earlier
    · exact contract'.imp fun earlier => by rintro rfl; exact lt_irrefl _ earlier
  exact perm.eq_of_pairwise (fun _ _ _ _ before after => absurd before (lt_asymm after)) contract
    contract'

namespace Dataset

variable {dataset : Dataset} {frame : List CandleRow} {row : CandleRow}

theorem mem_rows : row ∈ dataset.rows ↔ row ∈ dataset.partition row.year := by
  rw [rows, List.mem_flatMap, partition]
  constructor
  · rintro ⟨⟨year, stored⟩, entry, mem⟩
    have found := AList.mem_lookup_iff.mpr entry
    rw [(dataset.contract year stored found).2 row mem, found]
    exact mem
  · intro mem
    rcases found : dataset.partitions.lookup row.year with _ | stored
    · rw [found] at mem
      cases mem
    · rw [found] at mem
      exact ⟨⟨row.year, stored⟩, AList.mem_lookup_iff.mp found, mem⟩

theorem contract_partition (dataset : Dataset) (year : ℤ) :
    FrameContract (dataset.partition year) := by
  rw [partition]
  rcases found : dataset.partitions.lookup year with _ | stored
  · exact List.Pairwise.nil
  · exact (dataset.contract year stored found).1

theorem partition_mergeYear (dataset : Dataset) (frame : List CandleRow) (year other : ℤ) :
    (mergeYear frame dataset year).partition other =
      if other = year then
        normalizeCandleFrame (dataset.partition year ++ frame.filter (·.year = year))
      else dataset.partition other := by
  by_cases same : other = year
  · subst other
    simp [mergeYear, partition]
  · rw [if_neg same, partition, mergeYear, AList.lookup_insert_ne same]
    rfl

theorem partition_foldl_mergeYear (frame : List CandleRow) {years : List ℤ} (distinct : years.Nodup)
    (dataset : Dataset) (year : ℤ) :
    (years.foldl (mergeYear frame) dataset).partition year =
      if year ∈ years then
        normalizeCandleFrame (dataset.partition year ++ frame.filter (·.year = year))
      else dataset.partition year := by
  induction years generalizing dataset with
  | nil => simp
  | cons first years ih =>
      rw [List.nodup_cons] at distinct
      rw [List.foldl_cons, ih distinct.2, partition_mergeYear]
      by_cases same : year = first
      · subst year
        simp [distinct.1]
      · simp [same]

/-- The file of a year after a write: what it held and what the frame has of the year,
normalized. -/
theorem partition_write (dataset : Dataset) (frame : List CandleRow) (year : ℤ) :
    (dataset.write frame).partition year = normalizeCandleFrame
      (dataset.partition year ++ (normalizeCandleFrame frame).filter (·.year = year)) := by
  rw [write, partition_foldl_mergeYear _ (List.nodup_dedup _)]
  split_ifs with written
  · rfl
  · have nothing : (normalizeCandleFrame frame).filter (·.year = year) = [] := by
      rw [List.filter_eq_nil_iff]
      intro row mem inYear
      exact written (List.mem_dedup.mpr (List.mem_map.mpr ⟨row, mem, of_decide_eq_true inYear⟩))
    rw [nothing, List.append_nil, (dataset.contract_partition year).normalize_eq]

/-- The last row of a time in the file of its year after a write. -/
theorem lastWith_partition_write (dataset : Dataset) (frame : List CandleRow) (ts : ℤ) :
    lastWith CandleRow.ts ((dataset.write frame).partition (yearOf (utcDate ts))) ts =
      (lastWith CandleRow.ts frame ts).or
        (lastWith CandleRow.ts (dataset.partition (yearOf (utcDate ts))) ts) := by
  rw [partition_write, lastWith_normalize, lastWith_append, lastWith_filter, lastWith_normalize]
  rintro row _ rfl
  exact decide_eq_true rfl

theorem mem_rows_iff_lastWith : row ∈ dataset.rows ↔
    lastWith CandleRow.ts (dataset.partition row.year) row.ts = some row := by
  rw [mem_rows, lastWith_eq_some (dataset.contract_partition _).distinct]
  simp

/-- A write overlays its frame on the map of the dataset. -/
theorem represents_write {map : ℤ → Option CandleRow}
    (represents : Represents CandleRow.ts dataset.rows map)
    (keyed : ∀ ts row, map ts = some row → row.ts = ts) (frame : List CandleRow) :
    Represents CandleRow.ts (dataset.write frame).rows (overlay CandleRow.ts map frame) := by
  have held (ts : ℤ) :
      lastWith CandleRow.ts (dataset.partition (yearOf (utcDate ts))) ts = map ts := by
    ext row
    constructor
    · intro last
      have own := (mem_of_lastWith last).2
      subst own
      exact (represents row).mp (mem_rows_iff_lastWith.mpr last)
    · intro stored
      have own := keyed ts row stored
      subst own
      exact mem_rows_iff_lastWith.mp ((represents row).mpr stored)
  intro row
  rw [mem_rows_iff_lastWith, CandleRow.year, lastWith_partition_write, held]
  rfl

theorem partition_write_write (dataset : Dataset) (frame : List CandleRow) (year : ℤ) :
    ((dataset.write frame).write frame).partition year = (dataset.write frame).partition year := by
  apply FrameContract.ext (contract_partition _ _) (contract_partition _ _)
  intro row
  by_cases inYear : row.year = year
  · subst year
    rw [← mem_rows, ← mem_rows, mem_rows_iff_lastWith, mem_rows_iff_lastWith, CandleRow.year,
      lastWith_partition_write, lastWith_partition_write, ← Option.or_assoc, Option.or_self]
  · exact iff_of_false (fun mem => inYear (partition_year mem))
      (fun mem => inYear (partition_year mem))

theorem mem_read {fromTs toTs : Option ℤ} : row ∈ dataset.read fromTs toTs ↔
    row ∈ dataset.rows ∧ (∀ bound ∈ fromTs, bound ≤ row.ts) ∧ ∀ bound ∈ toTs, row.ts ≤ bound := by
  rw [read_eq, mem_sortByTs, List.mem_filter, Bool.and_eq_true]
  cases fromTs <;> cases toTs <;> simp

theorem frameContract_read (dataset : Dataset) (fromTs toTs : Option ℤ) :
    FrameContract (dataset.read fromTs toTs) := frameContract_normalize _

end Dataset

/-! ## Successive writes -/

namespace CandleStore

/-- A store without any files. -/
def empty : CandleStore := fun _ => .missing

/-- `CandleStore.write`, with the total it returns. -/
def write (store : CandleStore) (key : DatasetKey) (frame : List CandleRow) : ℕ × CandleStore :=
  let written := (store key).write frame
  (written.countRows, Function.update store key written)

def read (store : CandleStore) (key : DatasetKey) (fromTs toTs : Option ℤ) : List CandleRow :=
  (store key).read fromTs toTs

/-- The store after some writes to its datasets. -/
def afterWrites (store : CandleStore) (writes : List (DatasetKey × List CandleRow)) : CandleStore :=
  writes.foldl (fun store made => (store.write made.1 made.2).2) store

end CandleStore

/-- The rows written to a dataset, in the order of their writing. -/
def rowsWritten (writes : List (DatasetKey × List CandleRow)) (key : DatasetKey) :
    List CandleRow :=
  ((writes.filter fun made => made.1 = key).map Prod.snd).flatten

namespace CandleStore

@[simp]
theorem write_self (store : CandleStore) (key : DatasetKey) (frame : List CandleRow) :
    (store.write key frame).2 key = (store key).write frame := by
  simp [write]

theorem write_of_ne (store : CandleStore) (frame : List CandleRow) {key other : DatasetKey}
    (ne : other ≠ key) : (store.write key frame).2 other = store other := by
  simp [write, ne]

theorem rows_missing : Dataset.missing.rows = [] := rfl

/-- A store represents, for each dataset, the last rows written to it. -/
theorem represents_afterWrites (writes : List (DatasetKey × List CandleRow)) (key : DatasetKey) :
    Represents CandleRow.ts (empty.afterWrites writes key).rows
      (lastWith CandleRow.ts (rowsWritten writes key)) := by
  induction writes using List.reverseRecOn with
  | nil =>
      intro row
      simp [afterWrites, empty, rows_missing, rowsWritten]
  | append_singleton writes made ih =>
      rcases made with ⟨written, frame⟩
      have last : empty.afterWrites (writes ++ [(written, frame)]) =
          ((empty.afterWrites writes).write written frame).2 := by
        simp [afterWrites]
      rw [last]
      by_cases same : written = key
      · subst written
        have history : rowsWritten (writes ++ [(key, frame)]) key =
            rowsWritten writes key ++ frame := by
          simp [rowsWritten]
        rw [write_self, history, ← overlay_none, overlay_append, overlay_none]
        exact Dataset.represents_write ih (fun _ _ stored => (mem_of_lastWith stored).2) frame
      · have history : rowsWritten (writes ++ [(written, frame)]) key = rowsWritten writes key := by
          simp [rowsWritten, same]
        rw [write_of_ne _ _ (Ne.symm same), history]
        exact ih

/-- In every sequence of writes, to this and to other datasets: a read yields, in strictly
ascending order, the last row written for each time within its bounds; a write returns the
number of times written so far; and repeating a write leaves every file as it is. -/
theorem lastWriteWins (writes : List (DatasetKey × List CandleRow)) (key : DatasetKey) :
    (∀ fromTs toTs,
      FrameContract ((empty.afterWrites writes).read key fromTs toTs) ∧
      ∀ row, row ∈ (empty.afterWrites writes).read key fromTs toTs ↔
        lastWith CandleRow.ts (rowsWritten writes key) row.ts = some row ∧
          (∀ bound ∈ fromTs, bound ≤ row.ts) ∧ ∀ bound ∈ toTs, row.ts ≤ bound) ∧
    ∀ frame,
      ((empty.afterWrites writes).write key frame).1 =
        ((rowsWritten writes key ++ frame).map CandleRow.ts).toFinset.card ∧
      ∀ other year,
        ((((empty.afterWrites writes).write key frame).2.write key frame).2 other).partition year =
          (((empty.afterWrites writes).write key frame).2 other).partition year := by
  refine ⟨fun fromTs toTs => ⟨Dataset.frameContract_read _ _ _, fun row => ?_⟩,
    fun frame => ⟨?_, fun other year => ?_⟩⟩
  · rw [read, Dataset.mem_read, represents_afterWrites writes key row]
  · have represents := represents_afterWrites (writes ++ [(key, frame)]) key
    have history : rowsWritten (writes ++ [(key, frame)]) key = rowsWritten writes key ++ frame := by
      simp [rowsWritten]
    rw [history] at represents
    rw [← represents.length_eq (Dataset.distinct_rows _)]
    simp [write, afterWrites, Dataset.countRows]
  · by_cases same : other = key
    · subst other
      rw [write_self, write_self]
      exact Dataset.partition_write_write _ _ _
    · rw [write_of_ne _ _ same]

end CandleStore

end PersonalTrade
