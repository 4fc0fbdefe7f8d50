import Mathlib.Tactic

/-!
# Patterns

Patterns with word boundaries over a list of characters, matched by backtracking: the ends of a
match are listed in the order in which they are tried.
-/

/-- A pattern. -/
inductive Regex (α : Type) where
  | empty
  | char (accepts : α → Bool)
  | boundary
  | seq (first second : Regex α)
  | alt (first second : Regex α)
  /-- At least so many characters, as many as possible first. -/
  | atLeast (count : ℕ) (accepts : α → Bool)

/-- A place in a text: the character before it, and what follows. -/
structure Place (α : Type) where
  before : Option α
  rest : List α
deriving DecidableEq

variable {α : Type}

/-- A boundary has a word character on one side only. -/
def Place.isBoundary (isWord : α → Bool) (place : Place α) : Bool :=
  (place.before.any isWord) != (place.rest.head?.any isWord)

/-- The ends of a repetition. -/
def repetitionEnds (accepts : α → Bool) : ℕ → Option α → List α → List (Place α)
  | 0, before, [] => [⟨before, []⟩]
  | _ + 1, _, [] => []
  | 0, before, head :: rest =>
      (if accepts head then repetitionEnds accepts 0 (some head) rest else []) ++
        [⟨before, head :: rest⟩]
  | count + 1, _, head :: rest =>
      if accepts head then repetitionEnds accepts count (some head) rest else []

namespace Regex

/-- The places where a match can end. -/
def ends (isWord : α → Bool) : Regex α → Place α → List (Place α)
  | empty, place => [place]
  | char accepts, place =>
      match place.rest with
      | [] => []
      | head :: rest => if accepts head then [⟨some head, rest⟩] else []
  | boundary, place => if place.isBoundary isWord then [place] else []
  | seq first second, place => (first.ends isWord place).flatMap (second.ends isWord)
  | alt first second, place => first.ends isWord place ++ second.ends isWord place
  | atLeast count accepts, place => repetitionEnds accepts count place.before place.rest

/-- The literal text, each of its characters as `same` compares it. -/
def literal (same : α → α → Bool) (text : List α) : Regex α :=
  text.foldr (fun head rest => seq (char (same head)) rest) empty

/-- One of several patterns, the first ones first. -/
def anyOf (patterns : List (Regex α)) : Regex α := patterns.foldr alt (char fun _ => false)

/-- The pattern or nothing. -/
def optional (pattern : Regex α) : Regex α := alt pattern empty

/-- The literal text between two word boundaries. -/
def delimited (same : α → α → Bool) (text : List α) : Regex α :=
  seq boundary (seq (literal same text) boundary)

/-- `re.search` from a place on: whether there is a match. -/
def searchFrom (isWord : α → Bool) (pattern : Regex α) : Option α → List α → Bool
  | before, [] => !(pattern.ends isWord ⟨before, []⟩).isEmpty
  | before, head :: rest => !(pattern.ends isWord ⟨before, head :: rest⟩).isEmpty ||
      searchFrom isWord pattern (some head) rest

def search (isWord : α → Bool) (pattern : Regex α) (text : List α) : Bool :=
  pattern.searchFrom isWord none text

/-- `re.sub` from a place on, for a pattern that does not match the empty text. -/
def subFrom (isWord : α → Bool) (pattern : Regex α) (replace : List α → List α) :
    Option α → List α → List α
  | _, [] => []
  | before, head :: rest =>
      match (pattern.ends isWord ⟨before, head :: rest⟩).head? with
      | none => head :: subFrom isWord pattern replace (some head) rest
      | some place =>
          if _shorter : place.rest.length < (head :: rest).length then
            replace ((head :: rest).take ((head :: rest).length - place.rest.length)) ++
              subFrom isWord pattern replace place.before place.rest
          else head :: subFrom isWord pattern replace (some head) rest
termination_by _ text => text.length
decreasing_by
  · exact Nat.lt_succ_self _
  · exact _shorter
  · exact Nat.lt_succ_self _

def sub (isWord : α → Bool) (pattern : Regex α) (replace : List α → List α) (text : List α) :
    List α :=
  pattern.subFrom isWord replace none text

variable {isWord : α → Bool} {pattern : Regex α} {replace : List α → List α}

@[simp]
theorem subFrom_nil (before : Option α) : pattern.subFrom isWord replace before [] = [] := by
  rw [subFrom]

/-- A place without a match keeps its character. -/
theorem subFrom_cons_of_ends_eq_nil {before : Option α} {head : α} {rest : List α}
    (noMatch : pattern.ends isWord ⟨before, head :: rest⟩ = []) :
    pattern.subFrom isWord replace before (head :: rest) =
      head :: pattern.subFrom isWord replace (some head) rest := by
  rw [subFrom, noMatch]
  rfl

/-- A match is replaced as a whole. -/
theorem subFrom_append_of_head? {before last : Option α} {matched rest : List α}
    (nonempty : matched ≠ [])
    (ended : (pattern.ends isWord ⟨before, matched ++ rest⟩).head? = some ⟨last, rest⟩) :
    pattern.subFrom isWord replace before (matched ++ rest) =
      replace matched ++ pattern.subFrom isWord replace last rest := by
  cases matched with
  | nil => exact absurd rfl nonempty
  | cons head matched =>
      rw [List.cons_append] at ended ⊢
      rw [subFrom, ended]
      simp only [List.length_cons, List.length_append]
      rw [dif_pos (by omega), ← List.cons_append]
      congr 2
      rw [List.take_left' (by simp; omega)]

end Regex

theorem getLast?_cons_or (head : α) (passed : List α) (before : Option α) :
    ((head :: passed).getLast?).or before = (passed.getLast?).or (some head) := by
  cases passed <;> simp [List.getLast?_cons]

/-- Fewer characters than the repetition needs, and the next one is another. -/
theorem repetitionEnds_eq_nil {accepts : α → Bool} {count : ℕ} {run rest : List α}
    {before : Option α} (short : run.length < count) (stops : rest.head?.any accepts = false) :
    repetitionEnds accepts count before (run ++ rest) = [] := by
  induction run generalizing count before with
  | nil =>
      rcases count with _ | count
      · cases short
      · cases rest with
        | nil => rfl
        | cons head rest =>
            simp only [List.head?_cons, Option.any_some] at stops
            simp [repetitionEnds, stops]
  | cons head run ih =>
      rcases count with _ | count
      · cases short
      · rw [List.cons_append, repetitionEnds, ih (Nat.lt_of_succ_lt_succ short), ite_self]

/-- A repetition first takes all the characters it accepts. -/
theorem head?_repetitionEnds {accepts : α → Bool} {count : ℕ} {run rest : List α}
    {before : Option α} (long : count ≤ run.length) (all : ∀ head ∈ run, accepts head = true)
    (stops : rest.head?.any accepts = false) :
    (repetitionEnds accepts count before (run ++ rest)).head? =
      some ⟨(run.getLast?).or before, rest⟩ := by
  induction run generalizing count before with
  | nil =>
      obtain rfl : count = 0 := by simpa using long
      cases rest with
      | nil => rfl
      | cons head rest =>
          simp only [List.head?_cons, Option.any_some] at stops
          simp [repetitionEnds, stops]
  | cons head run ih =>
      have accepted := all head (.head _)
      rw [getLast?_cons_or]
      rcases count with _ | count
      · have more : (repetitionEnds accepts 0 (some head) (run ++ rest)).head? =
            some ⟨(run.getLast?).or (some head), rest⟩ :=
          ih (Nat.zero_le _) fun other mem => all other (.tail _ mem)
        rw [List.cons_append, repetitionEnds, if_pos accepted, List.head?_append, more]
        rfl
      · rw [List.cons_append, repetitionEnds, if_pos accepted]
        exact ih (Nat.le_of_succ_le_succ long) fun other mem => all other (.tail _ mem)

namespace Regex

variable {isWord : α → Bool} {same : α → α → Bool}

/-- The place after the next part of a text. -/
def placeAfter (before : Option α) (passed rest : List α) : Place α :=
  ⟨(passed.getLast?).or before, rest⟩

theorem mem_ends_boundary {start place : Place α} :
    place ∈ boundary.ends isWord start ↔ start.isBoundary isWord = true ∧ place = start := by
  rw [ends, List.mem_ite_nil_right, List.mem_singleton]

theorem mem_ends_seq {first second : Regex α} {start place : Place α} :
    place ∈ (seq first second).ends isWord start ↔
      ∃ middle ∈ first.ends isWord start, place ∈ second.ends isWord middle := by
  rw [ends, List.mem_flatMap]

theorem mem_ends_char {accepts : α → Bool} {start place : Place α} :
    place ∈ (char accepts).ends isWord start ↔
      ∃ head, start.rest = head :: place.rest ∧ accepts head = true ∧
        place = ⟨some head, place.rest⟩ := by
  rcases start with ⟨before, _ | ⟨head, rest⟩⟩
  · simp [ends]
  · rw [ends, List.mem_ite_nil_right, List.mem_singleton]
    constructor
    · rintro ⟨accepted, rfl⟩
      exact ⟨head, rfl, accepted, rfl⟩
    · rintro ⟨next, split, accepted, here⟩
      rcases List.cons.inj split with ⟨rfl, rfl⟩
      exact ⟨accepted, here⟩

theorem mem_ends_anyOf {patterns : List (Regex α)} {start place : Place α} :
    place ∈ (anyOf patterns).ends isWord start ↔
      ∃ pattern ∈ patterns, place ∈ pattern.ends isWord start := by
  induction patterns with
  | nil =>
      simp only [anyOf, List.foldr_nil, mem_ends_char]
      simp
  | cons pattern patterns ih =>
      have unfolded : anyOf (pattern :: patterns) = alt pattern (anyOf patterns) := rfl
      rw [unfolded, ends, List.mem_append, ih, List.exists_mem_cons_iff]

theorem mem_ends_optional {pattern : Regex α} {start place : Place α} :
    place ∈ (optional pattern).ends isWord start ↔
      place ∈ pattern.ends isWord start ∨ place = start := by
  rw [optional, ends, List.mem_append, ends, List.mem_singleton]

/-- A literal is matched by a text of the same length, character by character. -/
theorem mem_ends_literal {text rest : List α} {before : Option α} {place : Place α} :
    place ∈ (literal same text).ends isWord ⟨before, rest⟩ ↔
      ∃ matched, rest = matched ++ place.rest ∧ List.Forall₂ (same · ·) text matched ∧
        place = placeAfter before matched place.rest := by
  induction text generalizing before rest with
  | nil =>
      simp only [literal, List.foldr_nil, ends, List.mem_singleton]
      constructor
      · rintro rfl
        exact ⟨[], rfl, .nil, rfl⟩
      · rintro ⟨matched, split, pairs, here⟩
        cases pairs
        rw [here, split]
        rfl
  | cons head text ih =>
      have unfolded : literal same (head :: text) = seq (char (same head)) (literal same text) := rfl
      rw [unfolded, mem_ends_seq]
      constructor
      · rintro ⟨⟨_, middle⟩, first, others⟩
        rcases mem_ends_char.mp first with ⟨next, split, accepted, here⟩
        simp only at split here
        rw [here] at others
        rcases ih.mp others with ⟨matched, rfl, pairs, after⟩
        refine ⟨next :: matched, split, .cons accepted pairs, ?_⟩
        rw [placeAfter, getLast?_cons_or]
        exact after
      · rintro ⟨matched, split, pairs, here⟩
        rcases pairs with _ | ⟨accepted, pairs⟩
        rename_i next matched
        rw [placeAfter, getLast?_cons_or] at here
        exact ⟨⟨some next, matched ++ place.rest⟩, mem_ends_char.mpr ⟨next, split, accepted, rfl⟩,
          ih.mpr ⟨matched, rfl, pairs, here⟩⟩

theorem searchFrom_iff {pattern : Regex α} {before : Option α} {text : List α} :
    pattern.searchFrom isWord before text = true ↔ ∃ passed rest, text = passed ++ rest ∧
      pattern.ends isWord (placeAfter before passed rest) ≠ [] := by
  induction text generalizing before with
  | nil =>
      rw [searchFrom, Bool.not_eq_true', List.isEmpty_eq_false_iff]
      constructor
      · exact fun found => ⟨[], [], rfl, found⟩
      · rintro ⟨passed, rest, split, found⟩
        rcases List.append_eq_nil_iff.mp split.symm with ⟨rfl, rfl⟩
        exact found
  | cons head text ih =>
      rw [searchFrom, Bool.or_eq_true, Bool.not_eq_true', List.isEmpty_eq_false_iff, ih]
      constructor
      · rintro (found | ⟨passed, rest, rfl, found⟩)
        · exact ⟨[], head :: text, rfl, found⟩
        · refine ⟨head :: passed, rest, rfl, ?_⟩
          rw [placeAfter, getLast?_cons_or]
          exact found
      · rintro ⟨passed, rest, split, found⟩
        rcases passed with _ | ⟨first, passed⟩
        · rw [List.nil_append] at split
          subst split
          exact .inl found
        · rw [List.cons_append, List.cons.injEq] at split
          rcases split with ⟨rfl, split⟩
          rw [placeAfter, getLast?_cons_or] at found
          exact .inr ⟨passed, rest, split, found⟩

/-- A text that `same` cannot tell from `phrase` stands between two word boundaries. -/
def Mentions (isWord : α → Bool) (same : α → α → Bool) (phrase text : List α) : Prop :=
  ∃ left matched right, text = left ++ (matched ++ right) ∧
    List.Forall₂ (same · ·) phrase matched ∧
    Place.isBoundary isWord ⟨left.getLast?, matched ++ right⟩ = true ∧
    Place.isBoundary isWord ⟨(matched.getLast?).or left.getLast?, right⟩ = true

theorem search_delimited_iff {phrase text : List α} :
    (delimited same phrase).search isWord text = true ↔ Mentions isWord same phrase text := by
  rw [search, searchFrom_iff]
  constructor
  · rintro ⟨left, rest, rfl, found⟩
    rcases List.exists_mem_of_ne_nil _ found with ⟨place, mem⟩
    rcases mem_ends_seq.mp mem with ⟨_, opened, mem⟩
    rcases mem_ends_boundary.mp opened with ⟨opens, rfl⟩
    rcases mem_ends_seq.mp mem with ⟨closed, mem, closing⟩
    rcases mem_ends_literal.mp mem with ⟨matched, rfl, pairs, here⟩
    have closes := (mem_ends_boundary.mp closing).1
    rw [here] at closes
    rw [placeAfter, Option.or_none] at opens closes
    exact ⟨left, matched, closed.rest, rfl, pairs, opens, closes⟩
  · rintro ⟨left, matched, right, rfl, pairs, opens, closes⟩
    have found : placeAfter left.getLast? matched right ∈
        (delimited same phrase).ends isWord ⟨left.getLast?, matched ++ right⟩ := by
      refine mem_ends_seq.mpr ⟨_, mem_ends_boundary.mpr ⟨opens, rfl⟩, ?_⟩
      refine mem_ends_seq.mpr ⟨placeAfter left.getLast? matched right,
        mem_ends_literal.mpr ⟨matched, rfl, pairs, rfl⟩, ?_⟩
      exact mem_ends_boundary.mpr ⟨closes, rfl⟩
    refine ⟨left, matched ++ right, rfl, ?_⟩
    rw [placeAfter, Option.or_none]
    exact List.ne_nil_of_mem found

end Regex
