import PersonalTrade.Library.Transaction

/-!
# Interrupted units of work

A body whose steps may raise at any moment: before a step acts, after it, or halfway
through. `Interrupts faulty body` says that a run of `faulty` either goes as the run of
`body` or raises. It is closed under sequencing, so that a body with interrupted steps is
an interruption of the body, and its unit of work leaves the store of the body or the one
before.
-/

universe u

namespace Transaction

variable {δ ω ε α β : Type}

/-- Each run of `faulty` goes as that of `body`, or raises. -/
def Interrupts (faulty body : Transaction δ ω ε α) : Prop :=
  ∀ store world, faulty store world = body store world ∨
    ∃ exception world', faulty.Raises store world exception world'

theorem interrupts_refl (body : Transaction δ ω ε α) : Interrupts body body :=
  fun _ _ => .inl rfl

/-- Interrupted steps in sequence interrupt the sequence of the steps. -/
theorem interrupts_bind {faulty body : Transaction δ ω ε β}
    {faultyNext next : β → Transaction δ ω ε α} (first : Interrupts faulty body)
    (second : ∀ value, Interrupts (faultyNext value) (next value)) :
    Interrupts (faulty >>= faultyNext) (body >>= next) := by
  intro store world
  rcases first store world with same | ⟨exception, world', raises⟩
  · rcases ran : body store world with ⟨raised | ⟨value, middle⟩, middleWorld⟩
    · left
      rw [bind_run, bind_run, same, ran]
    · rw [ran] at same
      rcases second value middle middleWorld with sameNext | ⟨exception, world', raises⟩
      · left
        simpa [bind_run, same, ran] using sameNext
      · exact .inr ⟨exception, world', raises_bind.mpr (.inr ⟨value, middle, _, same, raises⟩)⟩
  · exact .inr ⟨exception, world', raises_bind.mpr (.inl raises)⟩

/-- A unit of work around an interrupted body commits the store of the body, or raises and
leaves the store before. -/
theorem commit_of_interrupts {faulty body : Transaction δ ω ε α} (interrupts : Interrupts faulty body)
    (store : δ) (world : ω) :
    (∃ value store' world', body.Yields store world value store' world' ∧
      faulty.commit store world = (.ok value, store', world')) ∨
      ∃ exception world', faulty.commit store world = (.error exception, store, world') := by
  rcases yields_or_raises faulty store world with ⟨value, store', world', yields⟩ |
    ⟨exception, world', raises⟩
  · refine .inl ⟨value, store', world', ?_, commit_of_yields yields⟩
    rcases interrupts store world with same | ⟨exception, other, raises⟩
    · rwa [Yields, ← same]
    · rw [Raises, yields] at raises
      cases raises
  · exact .inr ⟨exception, world', commit_of_raises raises⟩

/-- A way to interrupt the steps of a body, for each label of a step. -/
structure Interruption (σ : Type) (δ ω ε : Type) where
  run : σ → {α : Type} → Transaction δ ω ε α → Transaction δ ω ε α
  interrupts : ∀ (step : σ) {α : Type} (body : Transaction δ ω ε α),
    Interrupts (run step body) body

namespace Interruption

variable {σ : Type}

/-- No step is interrupted. -/
def none : Interruption σ δ ω ε where
  run _ _ body := body
  interrupts _ _ body := interrupts_refl body

/-- The steps with a fault raise it: before they act, or once they have acted. -/
def raising (fault : σ → Option ε) (acts : Bool) : Interruption σ δ ω ε where
  run step _ body :=
    match fault step with
    | .none => body
    | some exception => if acts then body >>= fun _ => raise exception else raise exception
  interrupts step _ body := by
    cases fault step with
    | none => exact interrupts_refl body
    | some exception =>
        intro store world
        cases acts with
        | false => exact .inr ⟨exception, world, rfl⟩
        | true =>
            rcases yields_or_raises body store world with ⟨value, store', world', yields⟩ |
              ⟨raised, world', raises⟩
            · exact .inr ⟨exception, world', raises_bind.mpr
                (.inr ⟨value, store', world', yields, by simp⟩)⟩
            · exact .inr ⟨raised, world', raises_bind.mpr (.inl raises)⟩

/-- The step is left alone. -/
def Spares (interruption : Interruption σ δ ω ε) (step : σ) : Prop :=
  ∀ {α : Type} (body : Transaction δ ω ε α), interruption.run step body = body

end Interruption

/-- `try` and `except`: the handler runs on what the body left. -/
def tryExcept {S : Type u} (body : Except ε α × S) (handler : ε → S → Except ε α × S) :
    Except ε α × S :=
  match body with
  | (.ok value, state) => (.ok value, state)
  | (.error raised, state) => handler raised state

end Transaction
