import Mathlib.Tactic
import Mathlib.Data.List.DropRight
import Mathlib.Data.List.ReduceOption

/-!
# Machines that read a series

A machine turns each entry of a series into an output and its next state. A series
can also be transformed as a whole, entry `i` of the result being computed from
the first `i + 1` entries of the input. The two meet in `outputs_eq_perPrefix`: a
machine whose state is a function of what it has seen computes a per-prefix
transformation. Both are causal, and causal transformations compose.

A `none` in a series is an entry that is not available yet.
-/

universe u v w

variable {S : Type u} {T : Type v} {α β γ : Type w}

/-- The outputs of a machine along a series. -/
def outputs (step : S → α → S × β) : S → List α → List β
  | _, [] => []
  | state, entry :: rest => (step state entry).2 :: outputs step (step state entry).1 rest

/-- The output of the last entry. -/
def lastOutput (step : S → α → S × β) (state : S) (series : List α) : Option β :=
  (outputs step state series).getLast?

/-- The state after a series. -/
def finalState (step : S → α → S × β) (state : S) (series : List α) : S :=
  series.foldl (fun state entry => (step state entry).1) state

/-- Entry `i` of the result is computed from the first `i + 1` entries. -/
def perPrefix (value : List α → β) (series : List α) : List β :=
  (List.range series.length).map fun i => value (series.take (i + 1))

/-- A transformation of series that never reads ahead. -/
structure Causal (transform : List α → List β) : Prop where
  length : ∀ series, (transform series).length = series.length
  take : ∀ series count, (transform series).take count = transform (series.take count)

/-! ## Per-prefix transformations -/

@[simp]
theorem length_perPrefix (value : List α → β) (series : List α) :
    (perPrefix value series).length = series.length := by
  simp [perPrefix]

theorem getElem?_perPrefix (value : List α → β) {series : List α} {i : ℕ}
    (within : i < series.length) :
    (perPrefix value series)[i]? = some (value (series.take (i + 1))) := by
  simp [perPrefix, within]

theorem perPrefix_cons (value : List α → β) (entry : α) (rest : List α) :
    perPrefix value (entry :: rest) =
      value [entry] :: perPrefix (fun seen => value (entry :: seen)) rest := by
  simp [perPrefix, List.range_succ_eq_map, Function.comp_def]

theorem map_perPrefix (after : β → γ) (value : List α → β) (series : List α) :
    (perPrefix value series).map after = perPrefix (fun seen => after (value seen)) series := by
  simp [perPrefix, Function.comp_def]

theorem causal_perPrefix (value : List α → β) : Causal (perPrefix value) where
  length := length_perPrefix value
  take series count := by
    apply List.ext_getElem?
    intro i
    by_cases within : i < (series.take count).length
    · have both : i < count ∧ i < series.length := by
        simpa using within
      rw [List.getElem?_take_of_lt both.1, getElem?_perPrefix value both.2,
        getElem?_perPrefix value within, List.take_take, Nat.min_eq_left both.1]
    · have outside : (series.take count).length ≤ i := not_lt.mp within
      have outsideTake : ((perPrefix value series).take count).length ≤ i := by
        rwa [List.length_take, length_perPrefix, ← List.length_take]
      have outsidePrefix : (perPrefix value (series.take count)).length ≤ i := by
        rwa [length_perPrefix]
      rw [List.getElem?_eq_none outsideTake, List.getElem?_eq_none outsidePrefix]

/-! ## Machines -/

@[simp]
theorem length_outputs (step : S → α → S × β) (state : S) (series : List α) :
    (outputs step state series).length = series.length := by
  induction series generalizing state with
  | nil => rfl
  | cons entry rest ih => simp [outputs, ih]

theorem take_outputs (step : S → α → S × β) (state : S) (series : List α) (count : ℕ) :
    (outputs step state series).take count = outputs step state (series.take count) := by
  induction series generalizing state count with
  | nil => simp [outputs]
  | cons entry rest ih =>
      cases count with
      | zero => rfl
      | succ count => simp [outputs, ih]

theorem causal_outputs (step : S → α → S × β) (state : S) : Causal (outputs step state) where
  length := length_outputs step state
  take := take_outputs step state

/-- Feeding the first `i + 1` entries yields output `i` of the whole series. -/
theorem lastOutput_take (step : S → α → S × β) (state : S) {series : List α} {i : ℕ}
    (within : i < series.length) :
    lastOutput step state (series.take (i + 1)) = (outputs step state series)[i]? := by
  rw [lastOutput, ← take_outputs, List.getLast?_eq_getElem?, List.length_take, length_outputs,
    Nat.min_eq_left (Nat.succ_le_of_lt within), Nat.succ_sub_one,
    List.getElem?_take_of_lt (Nat.lt_succ_self i)]

/-- Output `i` is that of the state after the first `i` entries. -/
theorem getElem?_outputs (step : S → α → S × β) (state : S) {series : List α} {i : ℕ} {entry : α}
    (at_index : series[i]? = some entry) :
    (outputs step state series)[i]? =
      some (step (finalState step state (series.take i)) entry).2 := by
  induction series generalizing state i with
  | nil => cases at_index
  | cons first rest ih =>
      cases i with
      | zero =>
          cases at_index
          rfl
      | succ i =>
          rw [List.getElem?_cons_succ] at at_index
          rw [outputs, List.getElem?_cons_succ, ih _ at_index]
          rfl

theorem finalState_concat (step : S → α → S × β) (state : S) (series : List α) (entry : α) :
    finalState step state (series ++ [entry]) =
      (step (finalState step state series) entry).1 := by
  rw [finalState, List.foldl_concat, finalState]

theorem outputs_concat (step : S → α → S × β) (state : S) (series : List α) (entry : α) :
    outputs step state (series ++ [entry]) =
      outputs step state series ++ [(step (finalState step state series) entry).2] := by
  induction series generalizing state with
  | nil => rfl
  | cons first rest ih =>
      simp only [List.cons_append, outputs, ih]
      rfl

/-- A machine whose state summarizes what it has seen computes a per-prefix
transformation. -/
theorem outputs_eq_perPrefix {step : S → α → S × β} {state : S} {value : List α → β}
    {motive : List α → S → Prop} (initial : motive [] state)
    (preserved : ∀ seen state entry, motive seen state →
      motive (seen ++ [entry]) (step state entry).1 ∧
        (step state entry).2 = value (seen ++ [entry])) (series : List α) :
    outputs step state series = perPrefix value series := by
  -- the part of the series already read is the accumulator of the induction
  suffices general : ∀ seen state, motive seen state →
      outputs step state series = perPrefix (fun later => value (seen ++ later)) series from
    general [] state initial
  induction series with
  | nil => exact fun _ _ _ => rfl
  | cons entry rest ih =>
      intro seen state summary
      rcases preserved seen state entry summary with ⟨kept, emitted⟩
      rw [outputs, perPrefix_cons, emitted, ih (seen ++ [entry]) _ kept]
      simp only [List.append_assoc, List.singleton_append]

/-! ## Composition of causal transformations -/

namespace Causal

variable {transform other : List α → List β}

/-- Series that agree on a beginning are transformed alike on it. -/
theorem congr (causal : Causal transform) {series series' : List α} {count : ℕ}
    (agree : series.take count = series'.take count) :
    (transform series).take count = (transform series').take count := by
  rw [causal.take, causal.take, agree]

/-- One more entry of the input adds one entry to the result. -/
theorem concat (causal : Causal transform) (series : List α) (entry : α) :
    ∃ last, transform (series ++ [entry]) = transform series ++ [last] := by
  have before : (transform (series ++ [entry])).take series.length = transform series := by
    rw [causal.take, List.take_left]
  have one : ((transform (series ++ [entry])).drop series.length).length = 1 := by
    rw [List.length_drop, causal.length, List.length_append, List.length_singleton]
    omega
  rcases List.length_eq_one_iff.mp one with ⟨last, rest⟩
  exact ⟨last, by rw [← before, ← rest, List.take_append_drop]⟩

theorem nil (causal : Causal transform) : transform [] = [] :=
  List.length_eq_zero_iff.mp (causal.length [])

protected theorem id : Causal fun series : List α => series :=
  ⟨fun _ => rfl, fun _ _ => rfl⟩

theorem of_map (f : α → β) : Causal (List.map f) where
  length := fun _ => List.length_map f
  take := fun _ _ => List.map_take.symm

theorem comp {first : List α → List β} {second : List β → List γ} (later : Causal second)
    (earlier : Causal first) : Causal fun series => second (first series) where
  length series := by rw [later.length, earlier.length]
  take series count := by rw [later.take, earlier.take]

theorem zipWith {δ : Type w} {left : List α → List β} {right : List α → List γ}
    (causalLeft : Causal left) (causalRight : Causal right) (f : β → γ → δ) :
    Causal fun series => List.zipWith f (left series) (right series) where
  length series := by rw [List.length_zipWith, causalLeft.length, causalRight.length, min_self]
  take series count := by rw [List.take_zipWith, causalLeft.take, causalRight.take]

/-- A per-prefix transformation absorbs a causal one before it. -/
theorem perPrefix_comp {transform : List α → List β} (causal : Causal transform) (value : List β → γ)
    (series : List α) :
    perPrefix value (transform series) = perPrefix (fun seen => value (transform seen)) series := by
  simp only [perPrefix, causal.length, causal.take]

end Causal

/-! ## Seeded recursions -/

/-- The recursion starts after `period` entries from a seed computed from them. -/
def seeded (period : ℕ) (seed : List α → β) (combine : β → α → β) (series : List α) :
    List (Option β) :=
  if period ≤ series.length then
    List.replicate (period - 1) none ++
      ((series.drop period).scanl combine (seed (series.take period))).map some
  else List.replicate series.length none

/-- The value of a seeded recursion after the entries seen so far. -/
def seededValue (period : ℕ) (seed : List α → β) (combine : β → α → β) (seen : List α) :
    Option β :=
  if seen.length < period then none
  else some ((seen.drop period).foldl combine (seed (seen.take period)))

section Seeded

variable {period : ℕ} {seed : List α → β} {combine : β → α → β}

theorem length_seeded (positive : 0 < period) (series : List α) :
    (seeded period seed combine series).length = series.length := by
  rw [seeded]
  split_ifs with enough
  · simp only [List.length_append, List.length_replicate, List.length_map, List.length_scanl,
      List.length_drop]
    omega
  · exact List.length_replicate

theorem seeded_eq_perPrefix (positive : 0 < period) (series : List α) :
    seeded period seed combine series = perPrefix (seededValue period seed combine) series := by
  apply List.ext_getElem?
  intro i
  by_cases within : i < series.length
  · rw [getElem?_perPrefix _ within, seeded, seededValue, List.length_take,
      Nat.min_eq_left within]
    split_ifs with enough early early
    · rw [List.getElem?_append_left (by simp; omega)]
      simp only [List.getElem?_replicate]
      rw [if_pos (by omega)]
    · have offset : i - (period - 1) < (series.drop period).length + 1 := by
        simp only [List.length_drop]
        omega
      rw [List.getElem?_append_right (by simp; omega), List.length_replicate, List.getElem?_map,
        List.getElem?_scanl, if_pos (by omega), List.drop_take, List.take_take,
        Nat.min_eq_left (by omega)]
      simp only [Option.map_some]
      congr 4
      omega
    · simp [within]
    · omega
  · have outside : series.length ≤ i := not_lt.mp within
    rw [List.getElem?_eq_none (by rw [length_seeded positive]; exact outside),
      List.getElem?_eq_none (by rw [length_perPrefix]; exact outside)]

/-- The last entry of the seeding stretch. -/
theorem seededValue_seed {seen : List α} (full : seen.length = period) :
    seededValue period seed combine seen = some (seed seen) := by
  subst full
  simp [seededValue]

theorem seededValue_eq_none {seen : List α} :
    seededValue period seed combine seen = none ↔ seen.length < period := by
  rw [seededValue]
  split_ifs with early <;> simp [early]

/-- Until the seed entries are only collected. -/
theorem seededValue_concat_of_none {seen : List α}
    (before : seededValue period seed combine seen = none) (entry : α) :
    seededValue period seed combine (seen ++ [entry]) =
      if (seen ++ [entry]).length < period then none else some (seed (seen ++ [entry])) := by
  have early : seen.length < period := seededValue_eq_none.mp before
  split_ifs with still
  · exact seededValue_eq_none.mpr still
  · apply seededValue_seed
    simp only [List.length_append, List.length_singleton] at still ⊢
    omega

/-- After the seed each entry is combined with the value before it. -/
theorem seededValue_concat {seen : List α} {value : β}
    (before : seededValue period seed combine seen = some value) (entry : α) :
    seededValue period seed combine (seen ++ [entry]) = some (combine value entry) := by
  rw [seededValue] at before
  split_ifs at before with early
  have late : period ≤ seen.length := not_lt.mp early
  rw [seededValue, if_neg (by simp; omega), List.drop_append_of_le_length late,
    List.take_append_of_le_length late, List.foldl_concat]
  rw [Option.some.injEq] at before
  rw [before]

/-- What holds of every seed and is kept by every combination holds of all values. -/
theorem seeded_forall (positive : 0 < period) {fine : α → Prop} {good : β → Prop}
    (seeds : ∀ entries, (∀ entry ∈ entries, fine entry) → good (seed entries))
    (combines : ∀ value entry, good value → fine entry → good (combine value entry))
    {series : List α} (allFine : ∀ entry ∈ series, fine entry) {value : β}
    (mem : some value ∈ seeded period seed combine series) : good value := by
  rw [seeded_eq_perPrefix positive, perPrefix, List.mem_map] at mem
  rcases mem with ⟨i, _, at_index⟩
  rw [seededValue] at at_index
  split_ifs at at_index with early
  rw [Option.some.injEq] at at_index
  have seen : ∀ entry ∈ series.take (i + 1), fine entry :=
    fun entry taken => allFine entry (List.mem_of_mem_take taken)
  rw [← at_index]
  apply List.foldlRecOn
  · exact seeds _ fun entry taken => seen entry (List.mem_of_mem_take taken)
  · intro before kept entry later
    exact combines before entry kept (seen entry (List.mem_of_mem_drop later))

end Seeded

/-! ## Bounded windows -/

/-- `deque(maxlen)`: the oldest entry falls out when the buffer is full. -/
def pushBounded (maxlen : ℕ) (buffer : List α) (entry : α) : List α :=
  (buffer ++ [entry]).rtake maxlen

theorem length_rtake (count : ℕ) (series : List α) :
    (series.rtake count).length = min count series.length := by
  simp only [List.rtake, List.length_drop]
  omega

theorem length_pushBounded_le (maxlen : ℕ) (buffer : List α) (entry : α) :
    (pushBounded maxlen buffer entry).length ≤ maxlen := by
  rw [pushBounded, length_rtake]
  exact min_le_left _ _

theorem rtake_rtake_of_le {fewer count : ℕ} (within : fewer ≤ count) (series : List α) :
    (series.rtake count).rtake fewer = series.rtake fewer := by
  simp only [List.rtake_eq_reverse_take_reverse, List.reverse_reverse, List.take_take,
    Nat.min_eq_left within]

/-- A bounded buffer holds the last entries pushed. -/
theorem pushBounded_rtake (maxlen : ℕ) (seen : List α) (entry : α) :
    pushBounded maxlen (seen.rtake maxlen) entry = (seen ++ [entry]).rtake maxlen := by
  cases maxlen with
  | zero => simp [pushBounded]
  | succ maxlen =>
      rw [pushBounded, List.rtake_concat_succ, List.rtake_concat_succ,
        rtake_rtake_of_le (Nat.le_succ maxlen)]

/-- A rolling window of `period` entries, once it is full. -/
def rolling (period : ℕ) (aggregate : List α → β) (series : List α) : List (Option β) :=
  perPrefix (fun seen => if seen.length < period then none else some (aggregate (seen.rtake period)))
    series

theorem causal_rolling (period : ℕ) (aggregate : List α → β) : Causal (rolling period aggregate) :=
  ⟨fun _ => length_perPrefix _ _, fun _ _ => (causal_perPrefix _).take _ _⟩

/-- A buffer of the last `period` entries computes the rolling aggregate. -/
theorem outputs_eq_rolling (valid : S → Prop) (buffer : S → List α)
    {step : S → α → S × Option β} {period : ℕ} {aggregate : List α → β} {state : S}
    (initial : valid state) (empty : buffer state = [])
    (kept : ∀ state entry, valid state → valid (step state entry).1)
    (pushes : ∀ state entry, valid state →
      buffer (step state entry).1 = pushBounded period (buffer state) entry)
    (emits : ∀ state entry, valid state → (step state entry).2 =
      if (pushBounded period (buffer state) entry).length < period then none
      else some (aggregate (pushBounded period (buffer state) entry))) (series : List α) :
    outputs step state series = rolling period aggregate series := by
  apply outputs_eq_perPrefix
    (motive := fun seen state => valid state ∧ buffer state = seen.rtake period)
  · exact ⟨initial, by simpa using empty⟩
  · rintro seen state entry ⟨still, held⟩
    have pushed : pushBounded period (buffer state) entry = (seen ++ [entry]).rtake period := by
      rw [held, pushBounded_rtake]
    have full : ((seen ++ [entry]).rtake period).length < period ↔
        (seen ++ [entry]).length < period := by
      rw [length_rtake]
      omega
    refine ⟨⟨kept state entry still, ?_⟩, ?_⟩
    · rw [pushes state entry still, pushed]
    · simp only [emits state entry still, pushed, full]

theorem map_rolling (period : ℕ) (aggregate : List α → β) (after : β → γ) (series : List α) :
    (rolling period aggregate series).map (Option.map after) =
      rolling period (fun window => after (aggregate window)) series := by
  simp only [rolling, map_perPrefix, apply_ite (Option.map after), Option.map_none, Option.map_some]

theorem zipWith_rolling {δ : Type w} (period : ℕ) (left : List α → β) (right : List α → γ)
    (op : β → γ → δ) (series : List α) :
    List.zipWith (Option.map₂ op) (rolling period left series) (rolling period right series) =
      rolling period (fun window => op (left window) (right window)) series := by
  simp only [rolling, perPrefix, List.zipWith_map, List.zipWith_self]
  apply List.map_congr_left
  intro i _
  split_ifs <;> rfl

/-! ## Series over the available entries of another -/

/-- Put the entries of a series computed over the available entries of `line` back
where those stand. -/
def onAvailable : List (Option α) → List (Option β) → List (Option β)
  | [], _ => []
  | none :: line, values => none :: onAvailable line values
  | some _ :: line, [] => none :: onAvailable line []
  | some _ :: line, value :: values => value :: onAvailable line values

/-- A machine that skips unavailable entries. -/
def whenAvailable (step : S → α → S × Option β) (state : S) : Option α → S × Option β
  | none => (state, none)
  | some entry => step state entry

theorem onAvailable_outputs (step : S → α → S × Option β) (state : S) (line : List (Option α)) :
    onAvailable line (outputs step state line.reduceOption) =
      outputs (whenAvailable step) state line := by
  induction line generalizing state with
  | nil => rfl
  | cons entry line ih =>
      cases entry with
      | none => simp [onAvailable, outputs, whenAvailable, ih]
      | some entry => simp [onAvailable, outputs, whenAvailable, ih]
