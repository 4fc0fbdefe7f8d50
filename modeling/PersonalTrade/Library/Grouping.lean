import Mathlib.Data.List.SplitBy
import Mathlib.Order.Basic
import Mathlib.Tactic

/-!
# Grouping a stream by key

A collector keeps the items of one key in an open group. It lets the group go when an
item of another key arrives and when it is flushed. The groups of a flushed run are
the maximal runs of equal keys between the flushes (`collected_flush`), and they
succeed each other by key if and only if the items themselves do
(`pairwise_precedes_iff`).
-/

universe u v

variable {α : Type u} {κ : Type v}

/-- What a collector receives. -/
inductive Arrival (α : Type u) where
  | item (entry : α)
  | flush

/-- The items between the flushes; the last segment follows the last flush. -/
def segments : List (Arrival α) → List (List α)
  | [] => [[]]
  | .flush :: arrivals => [] :: segments arrivals
  | .item entry :: arrivals => (segments arrivals).modifyHead (entry :: ·)

theorem segments_ne_nil (arrivals : List (Arrival α)) : segments arrivals ≠ [] := by
  induction arrivals with
  | nil => exact List.cons_ne_nil _ _
  | cons arrival arrivals ih =>
      cases arrival with
      | item entry => simpa [segments] using ih
      | flush => exact List.cons_ne_nil _ _

/-- The segments hold the items that arrived. -/
theorem mem_flatten_segments {arrivals : List (Arrival α)} {entry : α} :
    entry ∈ (segments arrivals).flatten ↔ .item entry ∈ arrivals := by
  induction arrivals with
  | nil => simp [segments]
  | cons arrival arrivals ih =>
      cases arrival with
      | flush => simp [segments, ih]
      | item first =>
          rcases split : segments arrivals with _ | ⟨segment, later⟩
          · exact absurd split (segments_ne_nil arrivals)
          · rw [split, List.flatten_cons, List.mem_append] at ih
            simp [segments, split, ← ih]

section Uniform

/-- All items of a group have one key. -/
def Uniform (key : α → κ) (group : List α) : Prop :=
  ∀ left ∈ group, ∀ right ∈ group, key left = key right

variable {key : α → κ}

theorem Uniform.singleton (entry : α) : Uniform key [entry] := by
  intro left leftMem right rightMem
  rw [List.mem_singleton.mp leftMem, List.mem_singleton.mp rightMem]

theorem Uniform.concat {group : List α} {first entry : α} (uniform : Uniform key group)
    (mem : first ∈ group) (same : key entry = key first) : Uniform key (group ++ [entry]) := by
  have toFirst : ∀ other ∈ group ++ [entry], key other = key first := by
    intro other otherMem
    rcases List.mem_append.mp otherMem with old | new
    · exact uniform other old first mem
    · rw [List.mem_singleton.mp new, same]
  intro left leftMem right rightMem
  rw [toFirst left leftMem, toFirst right rightMem]

end Uniform

section Collector

variable [DecidableEq κ] (key : α → κ)

/-- Two items of one key. -/
def sameKey (left right : α) : Bool := key left = key right

/-- One arrival: the open group after it, and the group it lets go. -/
def gather (group : List α) : Arrival α → List α × Option (List α)
  | .item entry =>
      match group with
      | [] => ([entry], none)
      | first :: _ =>
          if key entry = key first then (group ++ [entry], none) else ([entry], some group)
  | .flush => ([], if group = [] then none else some group)

/-- The groups let go along a run. -/
def collected : List α → List (Arrival α) → List (List α)
  | _, [] => []
  | group, arrival :: arrivals =>
      (gather key group arrival).2.toList ++ collected (gather key group arrival).1 arrivals

/-- The open group after a run. -/
def openGroup (arrivals : List (Arrival α)) : List α :=
  arrivals.foldl (fun group arrival => (gather key group arrival).1) []

/-- The maximal runs of equal keys between the flushes. -/
def groups (arrivals : List (Arrival α)) : List (List α) :=
  (segments arrivals).flatMap (List.splitBy (sameKey key))

variable {key}

theorem Uniform.isChain {group : List α} (uniform : Uniform key group) :
    group.IsChain fun left right => sameKey key left right := by
  apply List.Pairwise.isChain
  apply List.pairwise_of_forall_mem_list
  intro left leftMem right rightMem
  exact decide_eq_true (uniform left leftMem right rightMem)

/-- A group of a run is uniform. -/
theorem uniform_of_mem_splitBy {segment group : List α}
    (mem : group ∈ segment.splitBy (sameKey key)) : Uniform key group := by
  have chain : group.IsChain fun left right => key left = key right := by
    apply (List.isChain_of_mem_splitBy mem).imp
    intro left right same
    exact of_decide_eq_true same
  have pairwise := List.isChain_iff_pairwise.mp chain
  have backwards : group.Pairwise (flip fun left right => key left = key right) := by
    apply pairwise.imp
    intro left right same
    exact same.symm
  intro left leftMem right rightMem
  exact List.Pairwise.forall_of_forall_of_flip (R := fun left right => key left = key right)
    (fun _ _ => rfl) pairwise backwards leftMem rightMem

theorem uniform_of_mem_groups {arrivals : List (Arrival α)} {group : List α}
    (mem : group ∈ groups key arrivals) : Uniform key group := by
  rcases List.mem_flatMap.mp mem with ⟨segment, _, inside⟩
  exact uniform_of_mem_splitBy inside

theorem ne_nil_of_mem_groups {arrivals : List (Arrival α)} {group : List α}
    (mem : group ∈ groups key arrivals) : group ≠ [] := by
  rcases List.mem_flatMap.mp mem with ⟨segment, _, inside⟩
  exact List.ne_nil_of_mem_splitBy inside

/-- A uniform group that the next item does not continue is cut off. -/
theorem splitBy_uniform_append {group : List α} {first entry : α} (rest : List α)
    (uniform : Uniform key group) (mem : first ∈ group) (other : key entry ≠ key first) :
    (group ++ entry :: rest).splitBy (sameKey key) =
      group :: (entry :: rest).splitBy (sameKey key) := by
  have nonempty : group ≠ [] := List.ne_nil_of_mem mem
  rw [List.splitBy_append]
  · rw [List.splitBy_of_isChain nonempty uniform.isChain, List.singleton_append]
  · intro last lastMem next nextMem
    have lastKey := uniform last (List.mem_of_mem_getLast? lastMem) first mem
    rw [List.head?_cons, Option.mem_some_iff] at nextMem
    subst nextMem
    rw [sameKey, decide_eq_false_iff_not, lastKey]
    exact other.symm

/-- A run that is flushed at its end lets go the maximal runs of equal keys, the first
segment being continued from the open group. -/
theorem collected_flush_from {group : List α} (uniform : Uniform key group)
    (arrivals : List (Arrival α)) :
    collected key group (arrivals ++ [.flush]) =
      ((segments arrivals).modifyHead (group ++ ·)).flatMap (List.splitBy (sameKey key)) := by
  induction arrivals generalizing group with
  | nil =>
      cases group with
      | nil => rfl
      | cons first group =>
          have whole := List.splitBy_of_isChain (List.cons_ne_nil first group) uniform.isChain
          simp [collected, gather, segments, whole]
  | cons arrival arrivals ih =>
      cases arrival with
      | flush =>
          have fresh : Uniform key [] := fun left leftMem => absurd leftMem List.not_mem_nil
          have restart := ih fresh
          have unchanged : (segments arrivals).modifyHead (([] : List α) ++ ·) =
              segments arrivals := by
            cases segments arrivals <;> rfl
          rw [unchanged] at restart
          cases group with
          | nil => simpa [collected, gather, segments] using restart
          | cons first group =>
              have whole := List.splitBy_of_isChain (List.cons_ne_nil first group) uniform.isChain
              simpa [collected, gather, segments, whole] using restart
      | item entry =>
          cases group with
          | nil =>
              have opened := ih (Uniform.singleton entry)
              simpa [collected, gather, segments, List.modifyHead_modifyHead,
                Function.comp_def] using opened
          | cons first group =>
              have mem : first ∈ first :: group := List.mem_cons_self
              by_cases same : key entry = key first
              · have continued := ih (uniform.concat mem same)
                simpa [collected, gather, same, segments, List.modifyHead_modifyHead,
                  Function.comp_def] using continued
              · have reopened := ih (Uniform.singleton entry)
                -- the open group ends at the arriving item
                rcases split : segments arrivals with _ | ⟨segment, later⟩
                · exact absurd split (segments_ne_nil arrivals)
                · rw [split] at reopened
                  have cut := splitBy_uniform_append segment uniform mem same
                  simp only [List.cons_append] at cut
                  simpa [collected, gather, same, segments, split, cut] using reopened

/-- A run that is flushed at its end lets go the maximal runs of equal keys. -/
theorem collected_flush (arrivals : List (Arrival α)) :
    collected key [] (arrivals ++ [.flush]) = groups key arrivals := by
  have fresh : Uniform key [] := fun left leftMem => absurd leftMem List.not_mem_nil
  rw [collected_flush_from fresh]
  rcases split : segments arrivals with _ | ⟨segment, later⟩
  · exact absurd split (segments_ne_nil arrivals)
  · simp [groups, split]

theorem collected_append (group : List α) (arrivals later : List (Arrival α)) :
    collected key group (arrivals ++ later) = collected key group arrivals ++
      collected key (arrivals.foldl (fun group arrival => (gather key group arrival).1) group)
        later := by
  induction arrivals generalizing group with
  | nil => rfl
  | cons arrival arrivals ih => simp [collected, ih]

theorem collected_concat (arrivals : List (Arrival α)) (arrival : Arrival α) :
    collected key [] (arrivals ++ [arrival]) =
      collected key [] arrivals ++ (gather key (openGroup key arrivals) arrival).2.toList := by
  rw [collected_append]
  simp [collected, openGroup]

theorem openGroup_concat (arrivals : List (Arrival α)) (arrival : Arrival α) :
    openGroup key (arrivals ++ [arrival]) = (gather key (openGroup key arrivals) arrival).1 := by
  rw [openGroup, List.foldl_concat, openGroup]

/-- There is a group as soon as an item has arrived. -/
theorem groups_eq_nil {arrivals : List (Arrival α)} :
    groups key arrivals = [] ↔ ∀ entry, .item entry ∉ arrivals := by
  rw [groups, List.flatMap_eq_nil_iff]
  constructor
  · intro empty entry mem
    rcases List.mem_flatten.mp (mem_flatten_segments.mpr mem) with ⟨segment, segmentMem, entryMem⟩
    rw [List.splitBy_eq_nil.mp (empty segment segmentMem)] at entryMem
    exact absurd entryMem List.not_mem_nil
  · intro absent segment segmentMem
    rw [List.splitBy_eq_nil, List.eq_nil_iff_forall_not_mem]
    intro entry entryMem
    exact absent entry (mem_flatten_segments.mp (List.mem_flatten_of_mem segmentMem entryMem))

/-- Two neighbouring groups of a segment have different keys. -/
theorem isChain_splitBy (segment : List α) :
    (segment.splitBy (sameKey key)).IsChain fun earlier later =>
      ∀ left ∈ earlier, ∀ right ∈ later, key left ≠ key right := by
  have adjacent := List.isChain_getLast_head_splitBy (sameKey key) segment
  apply adjacent.imp_of_mem_imp
  rintro earlier later earlierMem laterMem ⟨earlierSome, laterSome, differ⟩ left leftMem right
    rightMem equal
  have lastKey := uniform_of_mem_splitBy earlierMem _ (List.getLast_mem earlierSome) left leftMem
  have headKey := uniform_of_mem_splitBy laterMem _ (List.head_mem laterSome) right rightMem
  rw [sameKey, decide_eq_false_iff_not] at differ
  exact differ (by rw [lastKey, headKey, equal])

end Collector

section Order

variable [LinearOrder κ] (key : α → κ)

/-- Every item of a group comes before every item of a later one. -/
def Precedes (earlier later : List α) : Prop :=
  ∀ left ∈ earlier, ∀ right ∈ later, key left < key right

/-- The keys never go back, and no key is met again after a flush. -/
structure InOrder (arrivals : List (Arrival α)) : Prop where
  within : ∀ segment ∈ segments arrivals, segment.Pairwise fun left right => key left ≤ key right
  across : (segments arrivals).Pairwise (Precedes key)

variable {key}

/-- Neighbours that differ make a weak order strict. -/
theorem pairwise_precedes_of_weakly {groups : List (List α)}
    (nonempty : ∀ group ∈ groups, group ≠ [])
    (weakly : groups.Pairwise fun earlier later =>
      ∀ left ∈ earlier, ∀ right ∈ later, key left ≤ key right)
    (differ : groups.IsChain fun earlier later =>
      ∀ left ∈ earlier, ∀ right ∈ later, key left ≠ key right) :
    groups.Pairwise (Precedes key) := by
  induction groups with
  | nil => exact .nil
  | cons first groups ih =>
      cases groups with
      | nil => exact List.pairwise_singleton _ _
      | cons second groups =>
          rw [List.isChain_cons_cons] at differ
          have ordered := List.pairwise_cons.mp weakly
          have later := ih (fun group mem => nonempty group (List.mem_cons_of_mem _ mem))
            ordered.2 differ.2
          have next : Precedes key first second := by
            intro left leftMem right rightMem
            exact lt_of_le_of_ne (ordered.1 second List.mem_cons_self left leftMem right rightMem)
              (differ.1 left leftMem right rightMem)
          apply List.Pairwise.cons _ later
          intro group mem
          rcases List.mem_cons.mp mem with rfl | beyond
          · exact next
          · -- an item of the second group lies between the two
            rcases List.exists_mem_of_ne_nil second
              (nonempty second (List.mem_cons_of_mem _ List.mem_cons_self)) with ⟨between, inside⟩
            intro left leftMem right rightMem
            calc key left < key between := next left leftMem between inside
              _ < key right := (List.pairwise_cons.mp later).1 group beyond between inside right
                rightMem

/-- The groups of one segment succeed each other if and only if its items do. -/
theorem pairwise_precedes_splitBy (segment : List α) :
    (segment.splitBy (sameKey key)).Pairwise (Precedes key) ↔
      segment.Pairwise fun left right => key left ≤ key right := by
  have flattened := List.flatten_splitBy (sameKey key) segment
  constructor
  · intro precede
    rw [← flattened, List.pairwise_flatten]
    constructor
    · intro group mem
      apply List.pairwise_of_forall_mem_list
      intro left leftMem right rightMem
      exact (uniform_of_mem_splitBy mem left leftMem right rightMem).le
    · apply precede.imp
      intro earlier later before left leftMem right rightMem
      exact (before left leftMem right rightMem).le
  · intro ascending
    rw [← flattened, List.pairwise_flatten] at ascending
    exact pairwise_precedes_of_weakly (fun group => List.ne_nil_of_mem_splitBy) ascending.2
      (isChain_splitBy segment)

theorem mem_of_mem_splitBy {segment group : List α} {entry : α}
    (groupMem : group ∈ segment.splitBy (sameKey key)) (mem : entry ∈ group) :
    entry ∈ segment := by
  rw [← List.flatten_splitBy (sameKey key) segment]
  exact List.mem_flatten_of_mem groupMem mem

theorem exists_mem_splitBy (key : α → κ) {segment : List α} {entry : α} (mem : entry ∈ segment) :
    ∃ group ∈ segment.splitBy (sameKey key), entry ∈ group := by
  rw [← List.flatten_splitBy (sameKey key) segment] at mem
  exact List.mem_flatten.mp mem

/-- The groups of a run succeed each other by key if and only if its items do. -/
theorem pairwise_precedes_iff (arrivals : List (Arrival α)) :
    (groups key arrivals).Pairwise (Precedes key) ↔ InOrder key arrivals := by
  rw [groups, List.pairwise_flatMap]
  constructor
  · rintro ⟨within, across⟩
    constructor
    · intro segment mem
      exact (pairwise_precedes_splitBy segment).mp (within segment mem)
    · apply across.imp
      intro earlier later before left leftMem right rightMem
      rcases exists_mem_splitBy key leftMem with ⟨leftGroup, leftIn, leftInside⟩
      rcases exists_mem_splitBy key rightMem with ⟨rightGroup, rightIn, rightInside⟩
      exact before leftGroup leftIn rightGroup rightIn left leftInside right rightInside
  · rintro ⟨within, across⟩
    constructor
    · intro segment mem
      exact (pairwise_precedes_splitBy segment).mpr (within segment mem)
    · apply across.imp
      intro earlier later before leftGroup leftIn rightGroup rightIn left leftMem right rightMem
      exact before left (mem_of_mem_splitBy leftIn leftMem) right
        (mem_of_mem_splitBy rightIn rightMem)

end Order

section StableSort

variable {key : α → ℤ}

/-- What is sorted by key among the entries of a list stands as it is after the list is sorted. -/
theorem filter_mergeSort_of_pairwise {selected : α → Bool} {entries : List α}
    (sorted : (entries.filter selected).Pairwise fun first second => key first ≤ key second) :
    (entries.mergeSort fun first second => decide (key first ≤ key second)).filter selected =
      entries.filter selected := by
  have kept : (entries.filter selected).Sublist
      (entries.mergeSort fun first second => decide (key first ≤ key second)) := by
    refine List.sublist_mergeSort (fun _ _ _ before after => ?_) (fun first second => ?_)
      (sorted.imp fun le => decide_eq_true le) List.filter_sublist
    · exact decide_eq_true ((of_decide_eq_true before).trans (of_decide_eq_true after))
    · simpa using le_total (key first) (key second)
  have within := kept.filter selected
  simp only [List.filter_filter, Bool.and_self] at within
  exact (within.eq_of_length ((List.mergeSort_perm _ _).filter selected).length_eq.symm).symm

end StableSort
