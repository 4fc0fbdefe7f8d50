import Mathlib.Tactic

/-!
# Windows that tile a range

Windows of consecutive integers, both ends included, laid side by side from the upper end
of a range down to its lower end.
-/

/-- The integers from `first` to `last`. -/
structure Window where
  first : ℤ
  last : ℤ
deriving DecidableEq, Repr

/-- Both ends belong to the window. -/
def Window.Contains (window : Window) (x : ℤ) : Prop := window.first ≤ x ∧ x ≤ window.last

/-- Windows of at most `size` integers laid from `high` down to `low`. -/
inductive TilesDown (size low : ℤ) : ℤ → List Window → Prop where
  | done {high : ℤ} (passed : high < low) : TilesDown size low high []
  | next {high first : ℤ} {windows : List Window} (within : low ≤ first) (nonempty : first ≤ high)
      (short : high - first + 1 ≤ size) (rest : TilesDown size low (first - 1) windows) :
      TilesDown size low high (⟨first, high⟩ :: windows)

/-- The windows are not empty, do not overlap, cover the range and nothing else, and none is
longer than `size`. -/
structure Tiling (size low high : ℤ) (windows : List Window) : Prop where
  nonempty : ∀ window ∈ windows, window.first ≤ window.last
  disjoint : windows.Pairwise fun left right => ∀ x, ¬ (left.Contains x ∧ right.Contains x)
  covers : ∀ x, (∃ window ∈ windows, window.Contains x) ↔ low ≤ x ∧ x ≤ high
  short : ∀ window ∈ windows, window.last - window.first + 1 ≤ size

/-- Windows laid side by side cover what is below them. -/
theorem TilesDown.covers {size low high : ℤ} {windows : List Window}
    (tiles : TilesDown size low high windows) (x : ℤ) :
    (∃ window ∈ windows, window.Contains x) ↔ low ≤ x ∧ x ≤ high := by
  induction tiles with
  | done passed =>
      simp only [List.not_mem_nil, false_and, exists_false, false_iff, not_and]
      omega
  | next within nonempty _ _ ih =>
      simp only [List.mem_cons, exists_eq_or_imp]
      rw [ih]
      simp only [Window.Contains]
      omega

theorem TilesDown.tiling {size low high : ℤ} {windows : List Window}
    (tiles : TilesDown size low high windows) : Tiling size low high windows := by
  refine ⟨?_, ?_, tiles.covers, ?_⟩
  · induction tiles with
    | done _ => simp
    | next _ nonempty _ _ ih => exact List.forall_mem_cons.mpr ⟨nonempty, ih⟩
  · induction tiles with
    | done _ => exact .nil
    | next _ _ _ rest ih =>
        refine .cons (fun window mem x both => ?_) ih
        have below := (rest.covers x).mp ⟨window, mem, both.2⟩
        have above := both.1.1
        dsimp only at above
        omega
  · induction tiles with
    | done _ => simp
    | next _ _ short _ ih => exact List.forall_mem_cons.mpr ⟨short, ih⟩
