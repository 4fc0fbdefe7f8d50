import PersonalTrade.Intelligence.Prompt

/-!
# Broken runs

What `_defuse` makes of a run of hyphens: one of five keeps four, but a longer one keeps all of its
hyphens but one, so that five or more still stand in a row. The runs of five are exactly what it
breaks (`defuse_breaks_iff`), which is what the fences are made of.
-/

namespace PersonalTrade

/-- A text with so many hyphens in a row. -/
def HasRun (count : ℕ) (text : Text) : Prop := List.replicate count '-' <:+: text

/-! ## Runs of a text -/

theorem not_hasRun_nil {count : ℕ} (positive : 0 < count) : ¬ HasRun count [] := by
  rw [HasRun, List.infix_nil, List.replicate_eq_nil_iff]
  exact positive.ne'

theorem hasRun_cons_iff {count : ℕ} (positive : 0 < count) {head : Char} (other : head ≠ '-')
    (text : Text) : HasRun count (head :: text) ↔ HasRun count text := by
  have apart : head ∉ List.replicate count '-' := fun mem => other (List.eq_of_mem_replicate mem)
  have split := infix_append_cons_iff apart [] text
  rw [List.nil_append, List.infix_nil, List.replicate_eq_nil_iff] at split
  exact split.trans (or_iff_right positive.ne')

/-- A whole run, and what follows it. -/
theorem hasRun_append_iff {count : ℕ} (positive : 0 < count) (run : ℕ) {text : Text}
    (stops : text.head? ≠ some '-') :
    HasRun count (List.replicate run '-' ++ text) ↔ count ≤ run ∨ HasRun count text := by
  have within : List.replicate count '-' <:+: List.replicate run '-' ↔ count ≤ run := by
    simp [List.infix_replicate_iff]
  rcases text with _ | ⟨head, text⟩
  · rw [List.append_nil, or_iff_left (not_hasRun_nil positive)]
    exact within
  · have other : head ≠ '-' := fun same => stops (congrArg some same)
    have apart : head ∉ List.replicate count '-' := fun mem => other (List.eq_of_mem_replicate mem)
    rw [hasRun_cons_iff positive other, HasRun, infix_append_cons_iff apart, within]
    rfl

/-! ## Runs of a defused text -/

/-- A text without a run of five is not changed. -/
theorem defuseFrom_of_plain {text : Text} (plain : Plain text) (before : Option Char) :
    defuseFrom before text = text := by
  induction text using hyphenRuns_induction generalizing before with
  | nil => exact defuseFrom_nil before
  | other head rest other ih =>
      rw [defuseFrom_cons_of_ne other, ih ((plain_cons_iff other).mp plain)]
  | hyphens run rest stops ih =>
      have runs := (hasRun_append_iff (by decide : 0 < 5) run stops).not.mp plain
      rw [not_or, not_le] at runs
      rcases defuseFrom_short before runs.1 stops with ⟨last, kept⟩
      rw [kept, ih runs.2]

/-- Five hyphens in a row are left exactly by six. -/
theorem hasRun_defuseFrom_iff (text : Text) (before : Option Char) :
    HasRun 5 (defuseFrom before text) ↔ HasRun 6 text := by
  induction text using hyphenRuns_induction generalizing before with
  | nil =>
      rw [defuseFrom_nil]
      exact iff_of_false (not_hasRun_nil (by decide)) (not_hasRun_nil (by decide))
  | other head rest other ih =>
      rw [defuseFrom_cons_of_ne other, hasRun_cons_iff (by decide) other,
        hasRun_cons_iff (by decide) other, ih]
  | hyphens run rest stops ih =>
      rw [hasRun_append_iff (by decide) run stops]
      rcases lt_or_ge run 5 with short | long
      · rcases defuseFrom_short before short stops with ⟨last, kept⟩
        rw [kept, hasRun_append_iff (by decide) run (head?_defuseFrom stops), ih last]
        exact or_congr (by omega) Iff.rfl
      · rcases defuseFrom_long before long stops with ⟨last, broken⟩
        have single : HasRun 5 ('-' :: defuseFrom last rest) ↔ HasRun 5 (defuseFrom last rest) := by
          have split := hasRun_append_iff (by decide : 0 < 5) 1 (@head?_defuseFrom last rest stops)
          exact split.trans (or_iff_right (by decide))
        rw [broken, hasRun_append_iff (by decide) (run - 1) (by simp),
          hasRun_cons_iff (by decide) (by decide), single, ih last]
        exact or_congr (by omega) Iff.rfl

/-- The defused text has no run of five hyphens, differs from the text only in such runs and is not
changed by another turn, exactly if no six hyphens stand in a row. -/
theorem defuse_breaks_iff (text : Text) :
    (¬ HasRun 5 (defuse text) ∧ DiffersInRuns text (defuse text) ∧
        defuse (defuse text) = defuse text) ↔ ¬ HasRun 6 text := by
  have runs : HasRun 5 (defuse text) ↔ HasRun 6 text := hasRun_defuseFrom_iff text none
  constructor
  · rintro ⟨plain, _⟩
    exact runs.not.mp plain
  · intro short
    have plain : Plain (defuse text) := runs.not.mpr short
    exact ⟨plain, differsInRuns_defuseFrom text none, defuseFrom_of_plain plain none⟩

/-- Six hyphens. -/
def sixHyphens : Text := "------".toList

theorem sixHyphens_keep_five :
    defuse sixHyphens = "----- -".toList ∧ HasRun 5 (defuse sixHyphens) := by
  have kept : defuse sixHyphens = "----- -".toList := by decide +kernel
  rw [kept]
  exact ⟨rfl, [], " -".toList, rfl⟩

end PersonalTrade
