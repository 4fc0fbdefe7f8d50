import Mathlib.Tactic

/-!
# Bounded retries against an outside world

A caller repeats an attempt while its verdict is `again` and its budget lasts,
pausing before each repetition; the pause itself may raise. The world keeps what
every attempt did to it. `retry_trace` reduces a whole call to its last attempt:
all the earlier ones asked for a repetition, and the world is what they left.
-/

namespace Retry

variable {ω ε α : Type}

/-- What one attempt tells the caller. -/
inductive Verdict (ε α : Type) where
  | done (value : α)
  | fail (exception : ε)
  | again (exception : ε)
deriving DecidableEq

/-- Repeat an attempt at most `left` further times. -/
def retry (once : ω → Verdict ε α × ω) (pause : ℕ → Except ε Unit) (attempt : ℕ) :
    ℕ → ω → Except ε α × ω
  | left, world =>
      match once world, left with
      | (.done value, world), _ => (.ok value, world)
      | (.fail exception, world), _ => (.error exception, world)
      | (.again exception, world), 0 => (.error exception, world)
      | (.again _, world), left + 1 =>
          match pause attempt with
          | .error exception => (.error exception, world)
          | .ok () => retry once pause (attempt + 1) left world

/-- The world after `n` attempts. -/
def worldAfter (once : ω → Verdict ε α × ω) (n : ℕ) (world : ω) : ω :=
  (fun world => (once world).2)^[n] world

/-- The verdict of the attempt made after `n` earlier ones. -/
def verdictAt (once : ω → Verdict ε α × ω) (n : ℕ) (world : ω) : Verdict ε α :=
  (once (worldAfter once n world)).1

/-- The verdict asks for a repetition. -/
def Verdict.IsAgain : Verdict ε α → Prop
  | .again _ => True
  | _ => False

/-- Attempt `n` is made: all the earlier ones asked for a repetition, the budget
covers it and no pause before it raised. -/
def Attempted (once : ω → Verdict ε α × ω) (pause : ℕ → Except ε Unit) (left : ℕ) (world : ω)
    (n : ℕ) : Prop :=
  n ≤ left ∧ ∀ k < n, (verdictAt once k world).IsAgain ∧ pause k = .ok ()

@[simp]
theorem worldAfter_zero (once : ω → Verdict ε α × ω) (world : ω) :
    worldAfter once 0 world = world := rfl

theorem worldAfter_succ (once : ω → Verdict ε α × ω) (n : ℕ) (world : ω) :
    worldAfter once (n + 1) world = (once (worldAfter once n world)).2 := by
  simp [worldAfter, Function.iterate_succ_apply']

theorem worldAfter_shift (once : ω → Verdict ε α × ω) (n : ℕ) (world : ω) :
    worldAfter once n (once world).2 = worldAfter once (n + 1) world := by
  simp [worldAfter, Function.iterate_succ_apply]

/-- How a call ends: with the verdict of its last attempt, unless the budget or a
pause ends it. -/
inductive Ends (pause : ℕ → Except ε Unit) (attempt left n : ℕ) :
    Verdict ε α → Except ε α → Prop where
  | done (value : α) : Ends pause attempt left n (.done value) (.ok value)
  | fail (exception : ε) : Ends pause attempt left n (.fail exception) (.error exception)
  | exhausted (exception : ε) (spent : n = left) :
      Ends pause attempt left n (.again exception) (.error exception)
  | pauseRaised (asked exception : ε) (unspent : n < left)
      (raised : pause (attempt + n) = .error exception) :
      Ends pause attempt left n (.again asked) (.error exception)

theorem Ends.shift {pause : ℕ → Except ε Unit} {attempt left n : ℕ} {verdict : Verdict ε α}
    {result : Except ε α} (ends : Ends pause (attempt + 1) left n verdict result) :
    Ends pause attempt (left + 1) (n + 1) verdict result := by
  cases ends with
  | done value => exact .done value
  | fail exception => exact .fail exception
  | exhausted exception spent => exact .exhausted exception (by omega)
  | pauseRaised asked exception unspent raised =>
      refine .pauseRaised asked exception (by omega) ?_
      rwa [Nat.add_assoc, Nat.add_comm 1 n] at raised

/-- A call returns a value exactly when its last verdict is that value. -/
theorem Ends.eq_ok_iff {pause : ℕ → Except ε Unit} {attempt left n : ℕ} {verdict : Verdict ε α}
    {result : Except ε α} (ends : Ends pause attempt left n verdict result) (value : α) :
    result = .ok value ↔ verdict = .done value := by
  cases ends with
  | done value => simp
  | _ => simp

/-- Every call has a last attempt `n`: the earlier ones asked for a repetition,
the world is what `n + 1` attempts left, and the result is read off the verdict. -/
theorem retry_trace (once : ω → Verdict ε α × ω) (pause : ℕ → Except ε Unit)
    (attempt left : ℕ) (world : ω) :
    ∃ n ≤ left,
      (∀ k < n, (verdictAt once k world).IsAgain ∧ pause (attempt + k) = .ok ()) ∧
      (retry once pause attempt left world).2 = worldAfter once (n + 1) world ∧
      Ends pause attempt left n (verdictAt once n world)
        (retry once pause attempt left world).1 := by
  induction left generalizing attempt world with
  | zero =>
      refine ⟨0, le_rfl, by simp, ?_⟩
      rw [retry.eq_def]
      rcases onceEq : once world with ⟨value | exception | exception, world'⟩ <;>
        simp only [verdictAt, worldAfter_succ, worldAfter_zero, onceEq, true_and]
      · exact .done value
      · exact .fail exception
      · exact .exhausted exception rfl
  | succ left ih =>
      rcases onceEq : once world with ⟨value | exception | exception, world'⟩
      · refine ⟨0, by omega, by simp, ?_⟩
        rw [retry.eq_def]
        simp only [verdictAt, worldAfter_succ, worldAfter_zero, onceEq, true_and]
        exact .done value
      · refine ⟨0, by omega, by simp, ?_⟩
        rw [retry.eq_def]
        simp only [verdictAt, worldAfter_succ, worldAfter_zero, onceEq, true_and]
        exact .fail exception
      · rcases pauseEq : pause attempt with raised | _
        · refine ⟨0, by omega, by simp, ?_⟩
          rw [retry.eq_def]
          simp only [verdictAt, worldAfter_succ, worldAfter_zero, onceEq, pauseEq, true_and]
          exact .pauseRaised exception raised (by omega) (by simpa using pauseEq)
        · rcases ih (attempt + 1) world' with ⟨n, withinBudget, earlier, worldEq, ends⟩
          have shifted : ∀ k, worldAfter once k world' = worldAfter once (k + 1) world := by
            intro k
            rw [← worldAfter_shift, onceEq]
          have unfolded : retry once pause attempt (left + 1) world =
              retry once pause (attempt + 1) left world' := by
            rw [retry.eq_def]
            simp [onceEq, pauseEq]
          refine ⟨n + 1, by omega, ?_, ?_, ?_⟩
          · intro k below
            rcases k with _ | k
            · simp [verdictAt, onceEq, Verdict.IsAgain, pauseEq]
            · have := earlier k (by omega)
              simpa [verdictAt, shifted, Nat.add_assoc, Nat.add_comm, Nat.add_left_comm] using this
          · rw [unfolded, worldEq, shifted]
          · rw [unfolded]
            have verdictEq : verdictAt once (n + 1) world = verdictAt once n world' := by
              simp [verdictAt, shifted]
            rw [verdictEq]
            exact ends.shift

/-- The attempts made by a call are those up to its last one. -/
theorem retry_last (once : ω → Verdict ε α × ω) (pause : ℕ → Except ε Unit) (left : ℕ)
    (world : ω) :
    ∃ n, (∀ k, Attempted once pause left world k ↔ k ≤ n) ∧
      (retry once pause 0 left world).2 = worldAfter once (n + 1) world ∧
      Ends pause 0 left n (verdictAt once n world) (retry once pause 0 left world).1 := by
  rcases retry_trace once pause 0 left world with ⟨n, withinBudget, earlier, worldEq, ends⟩
  refine ⟨n, fun k => ⟨?_, ?_⟩, worldEq, ends⟩
  · rintro ⟨kWithin, kEarlier⟩
    by_contra beyond
    have atLast := kEarlier n (by omega)
    generalize verdictAt once n world = verdict at ends atLast
    generalize (retry once pause 0 left world).1 = result at ends
    cases ends with
    | done value => exact atLast.1
    | fail exception => exact atLast.1
    | exhausted exception spent => omega
    | pauseRaised asked exception unspent raised =>
        rw [Nat.zero_add, atLast.2] at raised
        cases raised
  · intro upTo
    refine ⟨by omega, fun j below => ?_⟩
    simpa using earlier j (by omega)

/-- A call moves the world along every preorder along which an attempt moves it. -/
theorem retry_moves {rel : ω → ω → Prop} [IsPreorder ω rel] {once : ω → Verdict ε α × ω}
    (moved : ∀ world, rel world (once world).2) (pause : ℕ → Except ε Unit) (left : ℕ) (world : ω) :
    rel world (retry once pause 0 left world).2 := by
  have attempts : ∀ n, rel world (worldAfter once n world) := by
    intro n
    induction n with
    | zero => exact refl_of rel world
    | succ n ih =>
        rw [worldAfter_succ]
        exact IsTrans.trans _ _ _ ih (moved _)
  rcases retry_last once pause left world with ⟨n, _, worldEq, _⟩
  rw [worldEq]
  exact attempts (n + 1)

end Retry
