import Mathlib.Data.List.Sort
import PersonalTrade.Core.Calendar
import PersonalTrade.Indicators.Batch

/-!
# Candle frames

The frame contract of `data/providers/base.py`: the rows ascend strictly in time.
-/

namespace PersonalTrade

/-- The frame contract. -/
def FrameContract (frame : List CandleRow) : Prop := frame.Pairwise (·.ts < ·.ts)

instance (frame : List CandleRow) : Decidable (FrameContract frame) :=
  inferInstanceAs (Decidable (frame.Pairwise (·.ts < ·.ts)))

/-- `drop_duplicates(subset="ts", keep="last")`. -/
def dropDuplicates (frame : List CandleRow) : List CandleRow := frame.pwFilter (·.ts ≠ ·.ts)

/-- `sort_values("ts")`. -/
def sortByTs (frame : List CandleRow) : List CandleRow := frame.insertionSort (·.ts ≤ ·.ts)

/-- `normalize_candle_frame`. -/
def normalizeCandleFrame (frame : List CandleRow) : List CandleRow :=
  sortByTs (dropDuplicates frame)

theorem mem_sortByTs {frame : List CandleRow} {row : CandleRow} :
    row ∈ sortByTs frame ↔ row ∈ frame := (List.perm_insertionSort _ frame).mem_iff

theorem frameContract_sortByTs {frame : List CandleRow} (distinct : frame.Pairwise (·.ts ≠ ·.ts)) :
    FrameContract (sortByTs frame) := by
  have sorted : (sortByTs frame).Pairwise (·.ts ≤ ·.ts) := by
    have : Std.Total fun left right : CandleRow => left.ts ≤ right.ts := ⟨fun _ _ => le_total _ _⟩
    have : IsTrans CandleRow fun left right => left.ts ≤ right.ts := ⟨fun _ _ _ => le_trans⟩
    exact List.pairwise_insertionSort _ frame
  have apart : (sortByTs frame).Pairwise (·.ts ≠ ·.ts) :=
    (List.perm_insertionSort _ frame).symm.pairwise distinct fun ne => Ne.symm ne
  exact (sorted.and apart).imp fun both => lt_of_le_of_ne both.1 both.2

theorem frameContract_normalize (frame : List CandleRow) :
    FrameContract (normalizeCandleFrame frame) := by
  apply frameContract_sortByTs
  exact List.pairwise_pwFilter frame

theorem FrameContract.distinct {frame : List CandleRow} (contract : FrameContract frame) :
    frame.Pairwise (·.ts ≠ ·.ts) := List.Pairwise.imp (fun earlier => ne_of_lt earlier) contract

theorem FrameContract.normalize_eq {frame : List CandleRow} (contract : FrameContract frame) :
    normalizeCandleFrame frame = frame := by
  rw [normalizeCandleFrame, dropDuplicates, List.pwFilter_eq_self.mpr contract.distinct]
  apply List.Pairwise.insertionSort_eq
  exact List.Pairwise.imp (fun earlier => le_of_lt earlier) contract

theorem mem_of_mem_normalize {frame : List CandleRow} {row : CandleRow}
    (mem : row ∈ normalizeCandleFrame frame) : row ∈ frame :=
  (List.pwFilter_sublist frame).mem (mem_sortByTs.mp mem)

end PersonalTrade
