import Mathlib.Tactic

/-!
# Units of work over a store and an outside world

A transaction reads and rewrites a private copy of the store and may act on a
world outside it. Raising an exception abandons the copy, but nothing takes back
what was already done to the world. `Transaction.commit` is the unit of work
around a body: commit on normal exit, full rollback on an exception.

`Transaction.Yields` is the graph of the runs that return normally and
`Transaction.Raises` that of the runs that raise. Their rules peel a body apart
one statement at a time, so proofs never unfold the monad.
-/

universe u

/-- A computation on a store `δ` and a world `ω` raising exceptions `ε`. The store
of a run that raises is lost, the world is kept. -/
def Transaction (δ ω ε α : Type) : Type := δ → ω → Except ε (α × δ) × ω

namespace Transaction

variable {δ ω ε α β : Type}

instance : Monad (Transaction δ ω ε) where
  pure value := fun store world => (.ok (value, store), world)
  bind body next := fun store world =>
    match body store world with
    | (.ok (value, store), world) => next value store world
    | (.error raised, world) => (.error raised, world)

/-- Raise an exception. -/
def raise (exception : ε) : Transaction δ ω ε α := fun _ world => (.error exception, world)

/-- The current store. -/
def read : Transaction δ ω ε δ := fun store world => (.ok (store, store), world)

/-- Rewrite the store. -/
def modify (change : δ → δ) : Transaction δ ω ε Unit :=
  fun store world => (.ok ((), change store), world)

/-- Rewrite the store and return a value computed from it. -/
def compute (update : δ → α × δ) : Transaction δ ω ε α := fun store world =>
  (.ok (update store), world)

/-- Act on the world, leaving the store alone. -/
def external (act : ω → α × ω) : Transaction δ ω ε α := fun store world =>
  match act world with
  | (value, world) => (.ok (value, store), world)

/-- Return a value or raise. -/
def ofExcept : Except ε α → Transaction δ ω ε α
  | .ok value => pure value
  | .error raised => raise raised

/-- Run a body that uses no world inside one that has a world. -/
def lift (body : Transaction δ Unit ε α) : Transaction δ ω ε α := fun store world =>
  ((body store ()).1, world)

instance : MonadLift (Transaction δ Unit ε) (Transaction δ ω ε) := ⟨lift⟩

/-- Run a body next to a log that it does not touch. -/
def beside {κ : Type} (body : Transaction δ ω ε α) : Transaction δ (κ × ω) ε α :=
  fun store world =>
    match body store world.2 with
    | (result, world') => (result, world.1, world')

/-- Append an entry to the log. -/
def record {κ : Type} (entry : κ) : Transaction δ (List κ × ω) ε Unit :=
  external fun world => ((), world.1 ++ [entry], world.2)

/-- Run a body on each element in turn, keeping the results that are present. -/
def collect (body : β → Transaction δ ω ε (Option α)) : List β → Transaction δ ω ε (List α)
  | [] => pure []
  | element :: rest => do
      let result ← body element
      let results ← collect body rest
      pure (result.toList ++ results)

/-- The unit of work: commit on normal exit, full rollback on an exception. -/
def commit (body : Transaction δ ω ε α) (store : δ) (world : ω) : Except ε α × δ × ω :=
  match body store world with
  | (.ok (value, store'), world') => (.ok value, store', world')
  | (.error raised, world') => (.error raised, store, world')

/-- The body returns `value`, leaving `store'` and `world'`. -/
def Yields (body : Transaction δ ω ε α) (store : δ) (world : ω) (value : α) (store' : δ)
    (world' : ω) : Prop := body store world = (.ok (value, store'), world')

/-- The body raises `exception`, leaving `world'`. -/
def Raises (body : Transaction δ ω ε α) (store : δ) (world : ω) (exception : ε) (world' : ω) :
    Prop := body store world = (.error exception, world')

section Rules

variable {store store' : δ} {world world' : ω} {value : α} {exception : ε}

@[simp]
theorem yields_pure {result : α} :
    (pure result : Transaction δ ω ε α).Yields store world value store' world' ↔
      value = result ∧ store' = store ∧ world' = world := by
  change ((Except.ok (result, store), world) : Except ε (α × δ) × ω) = _ ↔ _
  grind

@[simp]
theorem yields_bind {body : Transaction δ ω ε β} {next : β → Transaction δ ω ε α} :
    (body >>= next).Yields store world value store' world' ↔
      ∃ middle middleStore middleWorld,
        body.Yields store world middle middleStore middleWorld ∧
          (next middle).Yields middleStore middleWorld value store' world' := by
  change (match body store world with
    | (.ok (value, store), world) => next value store world
    | (.error raised, world) => (.error raised, world)) = _ ↔ _
  unfold Yields
  rcases body store world with ⟨_ | ⟨middle, middleStore⟩, middleWorld⟩ <;> grind

@[simp]
theorem raises_pure {result : α} :
    ¬ (pure result : Transaction δ ω ε α).Raises store world exception world' := by
  change ¬ ((Except.ok (result, store), world) : Except ε (α × δ) × ω) = _
  simp

@[simp]
theorem raises_bind {body : Transaction δ ω ε β} {next : β → Transaction δ ω ε α} :
    (body >>= next).Raises store world exception world' ↔
      body.Raises store world exception world' ∨
        ∃ middle middleStore middleWorld,
          body.Yields store world middle middleStore middleWorld ∧
            (next middle).Raises middleStore middleWorld exception world' := by
  change (match body store world with
    | (.ok (value, store), world) => next value store world
    | (.error raised, world) => (.error raised, world)) = _ ↔ _
  unfold Yields Raises
  rcases body store world with ⟨_ | ⟨middle, middleStore⟩, middleWorld⟩ <;> grind

@[simp]
theorem raises_raise {raised : ε} :
    (raise raised : Transaction δ ω ε α).Raises store world exception world' ↔
      exception = raised ∧ world' = world := by
  simp only [Raises, raise]
  grind

@[simp]
theorem raises_read :
    ¬ (read : Transaction δ ω ε δ).Raises store world exception world' := by
  simp [Raises, read]

@[simp]
theorem raises_modify {change : δ → δ} :
    ¬ (modify change : Transaction δ ω ε Unit).Raises store world exception world' := by
  simp [Raises, modify]

@[simp]
theorem raises_compute {update : δ → α × δ} :
    ¬ (compute update : Transaction δ ω ε α).Raises store world exception world' := by
  simp [Raises, compute]

@[simp]
theorem raises_external {act : ω → α × ω} :
    ¬ (external act : Transaction δ ω ε α).Raises store world exception world' := by
  simp [Raises, external]

@[simp]
theorem raises_ofExcept {result : Except ε α} :
    (ofExcept result : Transaction δ ω ε α).Raises store world exception world' ↔
      result = .error exception ∧ world' = world := by
  cases result with
  | ok returned => simp [ofExcept]
  | error raised => simp only [ofExcept, raises_raise]; grind

@[simp]
theorem raises_lift {body : Transaction δ Unit ε α} :
    (lift body : Transaction δ ω ε α).Raises store world exception world' ↔
      body.Raises store () exception () ∧ world' = world := by
  simp only [Raises, lift]
  grind

@[simp]
theorem yields_raise :
    ¬ (raise exception : Transaction δ ω ε α).Yields store world value store' world' := by
  simp [Yields, raise]

@[simp]
theorem yields_read {result : δ} :
    (read : Transaction δ ω ε δ).Yields store world result store' world' ↔
      store = result ∧ store = store' ∧ world' = world := by
  simp only [Yields, read]
  grind

@[simp]
theorem yields_modify {change : δ → δ} {result : Unit} :
    (modify change : Transaction δ ω ε Unit).Yields store world result store' world' ↔
      store' = change store ∧ world' = world := by
  simp only [Yields, modify]
  grind

@[simp]
theorem yields_compute {update : δ → α × δ} :
    (compute update : Transaction δ ω ε α).Yields store world value store' world' ↔
      update store = (value, store') ∧ world' = world := by
  simp only [Yields, compute]
  grind

@[simp]
theorem yields_external {act : ω → α × ω} :
    (external act : Transaction δ ω ε α).Yields store world value store' world' ↔
      act world = (value, world') ∧ store' = store := by
  simp only [Yields, external]
  grind

@[simp]
theorem yields_ofExcept {result : Except ε α} :
    (ofExcept result : Transaction δ ω ε α).Yields store world value store' world' ↔
      result = .ok value ∧ store' = store ∧ world' = world := by
  cases result with
  | ok returned => simp only [ofExcept, yields_pure]; grind
  | error raised => simp [ofExcept]

@[simp]
theorem yields_lift {body : Transaction δ Unit ε α} :
    (lift body : Transaction δ ω ε α).Yields store world value store' world' ↔
      body.Yields store () value store' () ∧ world' = world := by
  simp only [Yields, lift]
  grind

@[simp]
theorem monadLift_eq (body : Transaction δ Unit ε α) :
    (monadLift body : Transaction δ ω ε α) = lift body := rfl

end Rules

/-- Running one body after another. -/
theorem bind_run (body : Transaction δ ω ε β) (next : β → Transaction δ ω ε α) (store : δ)
    (world : ω) : (body >>= next) store world =
      match body store world with
      | (.ok (value, store), world) => next value store world
      | (.error raised, world) => (.error raised, world) := rfl

theorem bind_pure (body : Transaction δ ω ε α) : body >>= pure = body := by
  funext store world
  rw [bind_run]
  rcases body store world with ⟨_ | _, _⟩ <;> rfl

theorem bind_bind {γ : Type} (body : Transaction δ ω ε γ) (next : γ → Transaction δ ω ε β)
    (last : β → Transaction δ ω ε α) :
    body >>= next >>= last = body >>= fun value => next value >>= last := by
  funext store world
  simp only [bind_run]
  rcases body store world with ⟨_ | _, _⟩ <;> rfl

/-- Whether a body returns or raises, it moves the world along a relation. -/
def Moves (rel : ω → ω → Prop) (body : Transaction δ ω ε α) : Prop :=
  ∀ store world, rel world (body store world).2

theorem Moves.of_yields {rel : ω → ω → Prop} {body : Transaction δ ω ε α} {store store' : δ}
    {world world' : ω} {value : α} (moves : Moves rel body)
    (yields : body.Yields store world value store' world') : rel world world' := by
  have moved := moves store world
  rwa [yields] at moved

theorem moves_external {rel : ω → ω → Prop} {act : ω → α × ω}
    (moved : ∀ world, rel world (act world).2) : Moves rel (external act : Transaction δ ω ε α) :=
  fun _ world => moved world

section Moves

variable {rel : ω → ω → Prop} [IsPreorder ω rel]

theorem moves_bind {body : Transaction δ ω ε β} {next : β → Transaction δ ω ε α}
    (first : Moves rel body)
    (second : ∀ store world value store' world', body.Yields store world value store' world' →
      Moves rel (next value)) : Moves rel (body >>= next) := by
  intro store world
  have moved := first store world
  rw [bind_run]
  rcases ran : body store world with ⟨_ | ⟨value, store'⟩, world'⟩
  · rwa [ran] at moved
  · rw [ran] at moved
    exact IsTrans.trans _ _ _ moved (second _ _ _ _ _ ran store' world')

theorem moves_pure (value : α) : Moves rel (pure value : Transaction δ ω ε α) :=
  fun _ world => refl_of rel world

theorem moves_raise (exception : ε) : Moves rel (raise exception : Transaction δ ω ε α) :=
  fun _ world => refl_of rel world

theorem moves_read : Moves rel (read : Transaction δ ω ε δ) := fun _ world => refl_of rel world

theorem moves_modify (change : δ → δ) : Moves rel (modify change : Transaction δ ω ε Unit) :=
  fun _ world => refl_of rel world

theorem moves_lift (body : Transaction δ Unit ε α) : Moves rel (lift body : Transaction δ ω ε α) :=
  fun _ world => refl_of rel world

theorem moves_ofExcept (result : Except ε α) :
    Moves rel (ofExcept result : Transaction δ ω ε α) := by
  cases result with
  | ok value => exact moves_pure value
  | error raised => exact moves_raise raised

theorem moves_collect {body : β → Transaction δ ω ε (Option α)}
    (each : ∀ element, Moves rel (body element)) (elements : List β) :
    Moves rel (collect body elements) := by
  induction elements with
  | nil => exact moves_pure []
  | cons element rest ih =>
      exact moves_bind (each element) fun _ _ _ _ _ _ =>
        moves_bind ih fun _ _ _ _ _ _ => moves_pure _

end Moves

section Beside

variable {κ : Type}

theorem beside_run (body : Transaction δ ω ε α) (store : δ) (log : κ) (world : ω) :
    beside body store (log, world) = ((body store world).1, log, (body store world).2) := rfl

/-- `beside` commutes with the operations of a transaction. -/
theorem beside_bind (body : Transaction δ ω ε β) (next : β → Transaction δ ω ε α) :
    (beside (body >>= next) : Transaction δ (κ × ω) ε α) =
      beside body >>= fun value => beside (next value) := by
  funext store world
  simp only [beside, bind_run]
  rcases body store world.2 with ⟨_ | _, _⟩ <;> rfl

theorem beside_pure (value : α) :
    (beside (pure value : Transaction δ ω ε α) : Transaction δ (κ × ω) ε α) = pure value := rfl

theorem beside_read :
    (beside (read : Transaction δ ω ε δ) : Transaction δ (κ × ω) ε δ) = read := rfl

theorem beside_ofExcept (result : Except ε α) :
    (beside (ofExcept result : Transaction δ ω ε α) : Transaction δ (κ × ω) ε α) =
      ofExcept result := by
  cases result <;> rfl

theorem beside_lift (body : Transaction δ Unit ε α) :
    (beside (lift body : Transaction δ ω ε α) : Transaction δ (κ × ω) ε α) = lift body := rfl

end Beside

/-- The store after a unit of work is the committed one or the one before. -/
theorem commit_store (body : Transaction δ ω ε α) (store : δ) (world : ω) :
    (body.commit store world).2.1 = store ∨
      ∃ value world', body.Yields store world value (body.commit store world).2.1 world' := by
  unfold commit Yields
  rcases body store world with ⟨_ | ⟨value, store'⟩, world'⟩
  · exact .inl rfl
  · exact .inr ⟨value, world', rfl⟩

/-- A body that returns normally is committed. -/
theorem commit_of_yields {body : Transaction δ ω ε α} {store store' : δ} {world world' : ω}
    {value : α} (yields : body.Yields store world value store' world') :
    body.commit store world = (.ok value, store', world') := by
  unfold Yields at yields
  simp [commit, yields]

/-- A body that raises is rolled back, but the world keeps its traces. -/
theorem commit_of_raises {body : Transaction δ ω ε α} {store : δ} {world world' : ω}
    {exception : ε} (raises : body.Raises store world exception world') :
    body.commit store world = (.error exception, store, world') := by
  unfold Raises at raises
  simp [commit, raises]

/-- A body that does not raise returns. -/
theorem exists_yields (body : Transaction δ Unit ε α) (store : δ)
    (returns : (body store ()).1.toOption.isSome = true) :
    ∃ value store', body.Yields store () value store' () := by
  rcases ran : body store () with ⟨_ | ⟨value, store'⟩, ⟨⟩⟩
  · rw [ran] at returns
    cases returns
  · exact ⟨value, store', ran⟩

/-- Every run returns normally or raises. -/
theorem yields_or_raises (body : Transaction δ ω ε α) (store : δ) (world : ω) :
    (∃ value store' world', body.Yields store world value store' world') ∨
      ∃ exception world', body.Raises store world exception world' := by
  unfold Yields Raises
  rcases body store world with ⟨raised | ⟨value, store'⟩, world'⟩
  · exact .inr ⟨raised, world', rfl⟩
  · exact .inl ⟨value, store', world', rfl⟩

/-- A loop over `elements` reaches `element` with this store and world. -/
def Visits (body : β → Transaction δ ω ε (Option α)) (elements : List β) (store : δ) (world : ω)
    (element : β) (middle : δ) (middleWorld : ω) : Prop :=
  ∃ earlier later results, elements = earlier ++ element :: later ∧
    (collect body earlier).Yields store world results middle middleWorld

/-- A loop goes on after its last element. -/
theorem collect_concat {body : β → Transaction δ ω ε (Option α)} {elements : List β} {element : β}
    {store middle store' : δ} {world middleWorld world' : ω} {results : List α} {value : Option α}
    (first : (collect body elements).Yields store world results middle middleWorld)
    (last : (body element).Yields middle middleWorld value store' world') :
    (collect body (elements ++ [element])).Yields store world (results ++ value.toList) store'
      world' := by
  induction elements generalizing store world results with
  | nil =>
      simp only [collect, yields_pure] at first
      rcases first with ⟨rfl, rfl, rfl⟩
      simp only [List.nil_append, collect, yields_bind, yields_pure]
      exact ⟨value, store', world', last, [], store', world', ⟨rfl, rfl, rfl⟩, by simp, rfl, rfl⟩
  | cons head rest ih =>
      simp only [collect, yields_bind, yields_pure] at first
      rcases first with ⟨headValue, headStore, headWorld, headYields, restResults, _, _, restYields,
        rfl, rfl, rfl⟩
      simp only [List.cons_append, collect, yields_bind, yields_pure]
      exact ⟨headValue, headStore, headWorld, headYields, _, _, _, ih restYields, by simp, rfl, rfl⟩

/-- A loop that raises raises in one of its visits. -/
theorem visits_of_raises {body : β → Transaction δ ω ε (Option α)} {elements : List β} {store : δ}
    {world world' : ω} {exception : ε}
    (raises : (collect body elements).Raises store world exception world') :
    ∃ element middle middleWorld, Visits body elements store world element middle middleWorld ∧
      (body element).Raises middle middleWorld exception world' := by
  suffices onwards : ∀ rest earlier done middle middleWorld, elements = earlier ++ rest →
      (collect body earlier).Yields store world done middle middleWorld →
      (collect body rest).Raises middle middleWorld exception world' →
      ∃ element later laterWorld, Visits body elements store world element later laterWorld ∧
        (body element).Raises later laterWorld exception world' from
    onwards elements [] [] store world rfl (by simp [collect]) raises
  intro rest
  induction rest with
  | nil =>
      intro _ _ _ _ _ _ finish
      simp [collect] at finish
  | cons element rest ih =>
      intro earlier done middle middleWorld split soFar onward
      rw [collect, raises_bind] at onward
      rcases onward with raised | ⟨value, next, nextWorld, yielded, others⟩
      · exact ⟨element, middle, middleWorld, ⟨earlier, rest, done, split, soFar⟩, raised⟩
      · simp only [raises_bind, raises_pure, and_false, exists_false, or_false] at others
        exact ih (earlier ++ [element]) _ next nextWorld (by simp [split])
          (collect_concat soFar yielded) others

/-- A loop preserves an invariant that each visit preserves. -/
theorem collect_invariant {body : β → Transaction δ ω ε (Option α)} {motive : List β → δ → ω → Prop}
    {elements : List β} {store store' : δ} {world world' : ω} {results : List α}
    (preserved : ∀ element rest middle middleWorld value next nextWorld,
      Visits body elements store world element middle middleWorld →
      motive (element :: rest) middle middleWorld →
      (body element).Yields middle middleWorld value next nextWorld → motive rest next nextWorld)
    (initial : motive elements store world)
    (yields : (collect body elements).Yields store world results store' world') :
    motive [] store' world' := by
  suffices onwards : ∀ rest earlier done middle middleWorld remaining,
      elements = earlier ++ rest → (collect body earlier).Yields store world done middle middleWorld →
      motive rest middle middleWorld →
      (collect body rest).Yields middle middleWorld remaining store' world' →
      motive [] store' world' from
    onwards elements [] [] store world results rfl (by simp [collect]) initial yields
  intro rest
  induction rest with
  | nil =>
      intro earlier done middle middleWorld remaining _ _ holds finish
      simp only [collect, yields_pure] at finish
      rcases finish with ⟨_, rfl, rfl⟩
      exact holds
  | cons element rest ih =>
      intro earlier done middle middleWorld remaining split soFar holds onward
      simp only [collect, yields_bind] at onward
      rcases onward with ⟨value, next, nextWorld, yielded, others, _, _, yieldedRest, finish⟩
      simp only [yields_pure] at finish
      rcases finish with ⟨_, rfl, rfl⟩
      have visited : Visits body elements store world element middle middleWorld :=
        ⟨earlier, rest, done, split, soFar⟩
      exact ih (earlier ++ [element]) _ next nextWorld others (by simp [split])
        (collect_concat soFar yielded) (preserved _ _ _ _ _ _ _ visited holds yielded) yieldedRest

/-- A loop that returns has visited each of its elements, and returned there. -/
theorem visits_of_yields {body : β → Transaction δ ω ε (Option α)} {elements : List β}
    {store store' : δ} {world world' : ω} {results : List α} {element : β}
    (mem : element ∈ elements)
    (yields : (collect body elements).Yields store world results store' world') :
    ∃ middle middleWorld value next nextWorld,
      Visits body elements store world element middle middleWorld ∧
        (body element).Yields middle middleWorld value next nextWorld := by
  have ends := collect_invariant (motive := fun rest _ _ => element ∈ rest ∨
    ∃ middle middleWorld value next nextWorld,
      Visits body elements store world element middle middleWorld ∧
        (body element).Yields middle middleWorld value next nextWorld)
    (fun other rest middle middleWorld value next nextWorld visited soFar returned => by
      rcases soFar with waiting | done
      · rcases List.mem_cons.mp waiting with rfl | later
        · exact .inr ⟨middle, middleWorld, value, next, nextWorld, visited, returned⟩
        · exact .inl later
      · exact .inr done) (.inl mem) yields
  exact ends.resolve_left (by simp)

/-- Elements on which the body does nothing can be left out of a loop. -/
theorem collect_filter {body : β → Transaction δ ω ε (Option α)} (keep : β → Bool)
    {elements : List β} {store store' : δ} {world world' : ω} {results : List α}
    (idle : ∀ element middle middleWorld value next nextWorld,
      Visits body elements store world element middle middleWorld → keep element = false →
      (body element).Yields middle middleWorld value next nextWorld →
      next = middle ∧ nextWorld = middleWorld)
    (yields : (collect body elements).Yields store world results store' world') :
    ∃ kept, (collect body (elements.filter keep)).Yields store world kept store' world' := by
  have ends := collect_invariant (motive := fun rest middle middleWorld =>
    ∃ earlier kept, elements = earlier ++ rest ∧
      (collect body (earlier.filter keep)).Yields store world kept middle middleWorld)
    (fun element rest middle middleWorld value next nextWorld visited soFar returned => by
      rcases soFar with ⟨earlier, kept, split, ran⟩
      refine ⟨earlier ++ [element], ?_⟩
      cases kind : keep element with
      | true =>
          refine ⟨kept ++ value.toList, by simp [split], ?_⟩
          rw [List.filter_append, List.filter_cons_of_pos kind, List.filter_nil]
          exact collect_concat ran returned
      | false =>
          rcases idle _ _ _ _ _ _ visited kind returned with ⟨rfl, rfl⟩
          refine ⟨kept, by simp [split], ?_⟩
          rw [List.filter_append, List.filter_cons_of_neg (by simp [kind]), List.filter_nil,
            List.append_nil]
          exact ran) ⟨[], [], rfl, by simp [collect]⟩ yields
  rcases ends with ⟨earlier, kept, split, ran⟩
  rw [List.append_nil] at split
  exact ⟨kept, split ▸ ran⟩

end Transaction
