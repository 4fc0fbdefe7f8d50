import PersonalTrade.Library.Projection

/-!
# Bearer tokens

A machine whose steps hand out tokens that its clients present later. Nobody else can make one: in
a run that is `Unforged` every token that a label presents was handed out before it. What holds of
a token when it is handed out, given that it held of the one presented for it, then holds of every
token of the run.
-/

universe u v w

variable {S : Type u} {L : Type v} {T : Type w}

/-- Every token that a run presents was handed out by an earlier step of it. -/
def Unforged (step : S → L → S) (issues : S → L → List T) (presents : L → Option T) (start : S)
    (run : List L) : Prop :=
  ∀ before label after, run = before ++ label :: after → ∀ token ∈ presents label,
    token ∈ projected step issues start before

/-- The empty run presents nothing. -/
theorem unforged_nil {step : S → L → S} {issues : S → L → List T} {presents : L → Option T}
    {start : S} : Unforged step issues presents start [] := by
  intro before label after split
  simp at split

namespace Unforged

variable {step : S → L → S} {issues : S → L → List T} {presents : L → Option T} {start : S}
  {run : List L} {label : L}

/-- A part of an unforged run is unforged. -/
theorem of_concat (unforged : Unforged step issues presents start (run ++ [label])) :
    Unforged step issues presents start run := by
  rintro before other after rfl
  exact unforged before other (after ++ [label]) (by simp)

/-- One more label may present what the run has handed out. -/
theorem concat (unforged : Unforged step issues presents start run)
    (shown : ∀ token ∈ presents label, token ∈ projected step issues start run) :
    Unforged step issues presents start (run ++ [label]) := by
  intro before other after split
  rcases List.eq_nil_or_concat after with rfl | ⟨after, last, rfl⟩
  · rcases List.append_inj' split rfl with ⟨rfl, same⟩
    rw [← List.singleton_inj.mp same]
    exact shown
  · rw [List.concat_eq_append, ← List.cons_append, ← List.append_assoc] at split
    exact unforged before other after (List.append_inj' split rfl).1

theorem of_append {later : List L}
    (unforged : Unforged step issues presents start (run ++ later)) :
    Unforged step issues presents start run := by
  induction later using List.reverseRecOn with
  | nil => simpa using unforged
  | append_singleton later label ih =>
      rw [← List.append_assoc] at unforged
      exact ih unforged.of_concat

/-- What is handed down from the token that a label presents to the tokens that its step hands out
holds of every token of an unforged run. -/
theorem issued {motive : List L → T → Prop} (unforged : Unforged step issues presents start run)
    (grows : ∀ history label token, motive history token → motive (history ++ [label]) token)
    (hands : ∀ history label, (∀ token ∈ presents label, motive history token) →
      ∀ token ∈ issues (runSteps step start history) label, motive (history ++ [label]) token) :
    ∀ token ∈ projected step issues start run, motive run token := by
  induction run using List.reverseRecOn with
  | nil => simp
  | append_singleton run label ih =>
      have earlier := ih unforged.of_concat
      intro token mem
      rw [projected_concat] at mem
      rcases List.mem_append.mp mem with old | new
      · exact grows run label token (earlier token old)
      · refine hands run label ?_ token new
        intro presented shown
        exact earlier presented (unforged run label [] rfl presented shown)

/-- It holds of every token that is presented. -/
theorem presented {motive : List L → T → Prop}
    (unforged : Unforged step issues presents start run)
    (grows : ∀ history label token, motive history token → motive (history ++ [label]) token)
    (hands : ∀ history label, (∀ token ∈ presents label, motive history token) →
      ∀ token ∈ issues (runSteps step start history) label, motive (history ++ [label]) token)
    {before after : List L} (split : run = before ++ label :: after) :
    ∀ token ∈ presents label, motive before token := by
  intro token shown
  subst run
  exact unforged.of_append.issued grows hands token (unforged before label after rfl token shown)

end Unforged
