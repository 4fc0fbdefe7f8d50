import Mathlib.Data.List.AList
import PersonalTrade.Data.CandleFrame

/-!
# Candle store

`data/store/candles.py`: one Parquet file for each UTC year of a dataset, merged on a
write and scanned within inclusive bounds on a read. A dataset carries the contract
of its files, so that it holds one row for each time.
-/

namespace PersonalTrade

/-- The year of the partition of a row. -/
def CandleRow.year (row : CandleRow) : ℤ := yearOf (utcDate row.ts)

/-- The files of one dataset, by year. -/
structure Dataset where
  partitions : AList fun _ : ℤ => List CandleRow
  contract : ∀ year rows, partitions.lookup year = some rows →
    FrameContract rows ∧ ∀ row ∈ rows, row.year = year

namespace Dataset

/-- A dataset that was never written. -/
def missing : Dataset where
  partitions := ∅
  contract year rows found := by
    rw [AList.lookup_empty] at found
    cases found

/-- The rows of a partition, none when its file does not exist. -/
def partition (dataset : Dataset) (year : ℤ) : List CandleRow :=
  (dataset.partitions.lookup year).getD []

theorem partition_year {dataset : Dataset} {year : ℤ} {row : CandleRow}
    (mem : row ∈ dataset.partition year) : row.year = year := by
  rw [partition] at mem
  cases found : dataset.partitions.lookup year with
  | none =>
      rw [found] at mem
      cases mem
  | some rows =>
      rw [found] at mem
      exact (dataset.contract year rows found).2 row mem

/-- The rows of all files, as DuckDB scans them. -/
def rows (dataset : Dataset) : List CandleRow := dataset.partitions.entries.flatMap Sigma.snd

theorem distinct_rows (dataset : Dataset) : dataset.rows.Pairwise (·.ts ≠ ·.ts) := by
  rw [rows, List.pairwise_flatMap]
  constructor
  · rintro ⟨year, stored⟩ entry
    exact (dataset.contract year stored (AList.mem_lookup_iff.mpr entry)).1.distinct
  · have years : dataset.partitions.entries.Pairwise fun one two => one.1 ≠ two.1 :=
      List.pairwise_map.mp dataset.partitions.nodupKeys
    apply years.imp_of_mem
    rintro ⟨year, stored⟩ ⟨year', stored'⟩ entry entry' apart row mem row' mem' same
    have inYear := (dataset.contract year stored (AList.mem_lookup_iff.mpr entry)).2 row mem
    have inYear' := (dataset.contract year' stored' (AList.mem_lookup_iff.mpr entry')).2 row' mem'
    apply apart
    rw [← inYear, ← inYear', CandleRow.year, CandleRow.year, same]

/-- The merge of a frame into the partition of one year. -/
def mergeYear (frame : List CandleRow) (dataset : Dataset) (year : ℤ) : Dataset where
  partitions := dataset.partitions.insert year
    (normalizeCandleFrame (dataset.partition year ++ frame.filter (·.year = year)))
  contract other stored found := by
    by_cases same : other = year
    · subst other
      rw [AList.lookup_insert, Option.some.injEq] at found
      subst stored
      refine ⟨frameContract_normalize _, fun row mem => ?_⟩
      rcases List.mem_append.mp (mem_of_mem_normalize mem) with old | new
      · exact partition_year old
      · exact of_decide_eq_true (List.mem_filter.mp new).2
    · rw [AList.lookup_insert_ne same] at found
      exact dataset.contract other stored found

/-- `CandleStore.write`, with `groupby` of the frame by year. -/
def write (dataset : Dataset) (frame : List CandleRow) : Dataset :=
  let frame := normalizeCandleFrame frame
  ((frame.map CandleRow.year).dedup).foldl (mergeYear frame) dataset

/-- `_count_rows`. -/
def countRows (dataset : Dataset) : ℕ := dataset.rows.length

/-- `CandleStore.read`; a bound may be missing. -/
def read (dataset : Dataset) (fromTs toTs : Option ℤ) : List CandleRow :=
  let fromRows := dataset.rows.filter fun row => fromTs.all (· ≤ row.ts)
  let withinRows := fromRows.filter fun row => toTs.all (row.ts ≤ ·)
  normalizeCandleFrame (sortByTs withinRows)

theorem read_eq (dataset : Dataset) (fromTs toTs : Option ℤ) :
    dataset.read fromTs toTs = sortByTs (dataset.rows.filter fun row =>
      fromTs.all (· ≤ row.ts) && toTs.all (row.ts ≤ ·)) := by
  rw [read, List.filter_filter]
  simp only [Bool.and_comm]
  apply FrameContract.normalize_eq
  apply frameContract_sortByTs
  exact dataset.distinct_rows.filter _

end Dataset

/-- The directory of a dataset. -/
structure DatasetKey where
  symbol : String
  exchange : String
  interval : Interval
deriving DecidableEq, Repr

/-- The datasets under the root of a `CandleStore`. -/
abbrev CandleStore := DatasetKey → Dataset

end PersonalTrade
