import Mathlib.Tactic

/-!
# Markers in a text

Where fixed texts, the markers, occur in another text, and what putting texts together does to
their occurrences.
-/

variable {α β : Type}

/-- A separator that is no part of a text cuts it off. -/
theorem prefix_append_cons_iff {marker : List α} {separator : α} (apart : separator ∉ marker)
    (left right : List α) :
    marker <+: left ++ separator :: right ↔ marker <+: left := by
  constructor
  · intro starts
    induction marker generalizing left with
    | nil => exact List.nil_prefix
    | cons head marker ih =>
        simp only [List.mem_cons, not_or] at apart
        rcases left with _ | ⟨first, left⟩
        · exact absurd (List.cons_prefix_cons.mp starts).1.symm apart.1
        · rw [List.cons_append, List.cons_prefix_cons] at starts
          exact List.cons_prefix_cons.mpr ⟨starts.1, ih apart.2 _ starts.2⟩
  · exact fun starts => starts.trans (List.prefix_append _ _)

theorem infix_append_cons_iff {marker : List α} {separator : α} (apart : separator ∉ marker)
    (left right : List α) :
    marker <:+: left ++ separator :: right ↔ marker <:+: left ∨ marker <:+: right := by
  induction left with
  | nil =>
      have here := prefix_append_cons_iff apart [] right
      rw [List.nil_append] at here ⊢
      rw [List.infix_cons_iff, here, List.prefix_nil, List.infix_nil]
  | cons head left ih =>
      have here := prefix_append_cons_iff apart (head :: left) right
      rw [List.cons_append] at here ⊢
      rw [List.infix_cons_iff, here, ih, List.infix_cons_iff, or_assoc]

/-- Joined lines are the first line and, after a separator each, the others. -/
theorem intercalate_cons_eq (separator : α) (line : List α) (lines : List (List α)) :
    [separator].intercalate (line :: lines) = line ++ lines.flatMap (separator :: ·) := by
  induction lines generalizing line with
  | nil => simp [List.intercalate]
  | cons next lines ih =>
      have joined : [separator].intercalate (line :: next :: lines) =
          line ++ separator :: [separator].intercalate (next :: lines) := by
        simp [List.intercalate]
      rw [joined, ih, List.flatMap_cons, List.cons_append]

variable [DecidableEq α]

/-- The names of the markers that start somewhere in a text, in the order of their places. -/
def occurrences (markers : List (β × List α)) : List α → List β
  | [] => []
  | head :: rest =>
      (markers.filter fun marker => marker.2.isPrefixOf (head :: rest)).map Prod.fst ++
        occurrences markers rest

section Occurrences

variable {markers : List (β × List α)}

/-- No marker starts here. -/
theorem occurrences_cons_of_no_start {head : α} {rest : List α}
    (noStart : ∀ marker ∈ markers, ¬ marker.2 <+: head :: rest) :
    occurrences markers (head :: rest) = occurrences markers rest := by
  have nothing : markers.filter (fun marker => marker.2.isPrefixOf (head :: rest)) = [] := by
    rw [List.filter_eq_nil_iff]
    intro marker mem starts
    exact noStart marker mem (List.isPrefixOf_iff_prefix.mp starts)
  rw [occurrences, nothing]
  rfl

/-- No marker starts with one of these characters. -/
theorem occurrences_append {left right : List α}
    (noStart : ∀ head ∈ left, ∀ marker ∈ markers, marker.2.head? ≠ some head)
    (nonempty : ∀ marker ∈ markers, marker.2 ≠ []) :
    occurrences markers (left ++ right) = occurrences markers right := by
  induction left with
  | nil => rfl
  | cons head left ih =>
      rw [List.cons_append, occurrences_cons_of_no_start,
        ih fun other mem => noStart other (.tail _ mem)]
      intro marker mem starts
      rcases text : marker.2 with _ | ⟨first, others⟩
      · exact nonempty marker mem text
      · rw [text, List.cons_prefix_cons] at starts
        exact noStart head (.head _) marker mem (by rw [text, starts.1]; rfl)

/-- A text without the common beginning of the markers has none of them. -/
theorem occurrences_eq_nil {opening text : List α}
    (common : ∀ marker ∈ markers, opening <+: marker.2) (absent : ¬ opening <:+: text) :
    occurrences markers text = [] := by
  induction text with
  | nil => rfl
  | cons head rest ih =>
      rw [List.infix_cons_iff, not_or] at absent
      rw [occurrences_cons_of_no_start, ih absent.2]
      intro marker mem starts
      exact absent.1 ((common marker mem).trans starts)

/-- No marker reaches across a separator that is part of none. -/
theorem occurrences_append_cons {left right : List α} {separator : α}
    (apart : ∀ marker ∈ markers, separator ∉ marker.2)
    (nonempty : ∀ marker ∈ markers, marker.2 ≠ []) :
    occurrences markers (left ++ separator :: right) =
      occurrences markers left ++ occurrences markers right := by
  induction left with
  | nil =>
      rw [List.nil_append, occurrences_cons_of_no_start]
      · rfl
      · intro marker mem starts
        have here := (prefix_append_cons_iff (apart marker mem) [] right).mp starts
        exact nonempty marker mem (List.prefix_nil.mp here)
  | cons head left ih =>
      have same : markers.filter
          (fun marker => marker.2.isPrefixOf (head :: (left ++ separator :: right))) =
          markers.filter fun marker => marker.2.isPrefixOf (head :: left) := by
        apply List.filter_congr
        intro marker mem
        rw [Bool.eq_iff_iff, List.isPrefixOf_iff_prefix, List.isPrefixOf_iff_prefix]
        exact prefix_append_cons_iff (apart marker mem) (head :: left) right
      rw [List.cons_append, occurrences, occurrences, same, ih, List.append_assoc]

/-- The occurrences in lines that are joined are those in each line. -/
theorem occurrences_intercalate {separator : α} {lines : List (List α)}
    (apart : ∀ marker ∈ markers, separator ∉ marker.2)
    (nonempty : ∀ marker ∈ markers, marker.2 ≠ []) :
    occurrences markers ([separator].intercalate lines) =
      lines.flatMap (occurrences markers) := by
  rcases lines with _ | ⟨line, lines⟩
  · rfl
  · rw [intercalate_cons_eq, List.flatMap_cons]
    induction lines generalizing line with
    | nil => simp
    | cons next lines ih =>
        rw [List.flatMap_cons, List.cons_append, occurrences_append_cons apart nonempty, ih,
          List.flatMap_cons]

end Occurrences
