import Mathlib.Tactic
import Mathlib.Data.Set.Card
import Mathlib.Algebra.BigOperators.Group.Finset.Basic

/-!
# Exposure of a set of working orders

What a book of orders can do to a portfolio, without prices, cash or states. An
`Exposure` has a signed net quantity for each instrument and, for each order that
may still trade, its instrument, direction and remaining quantity. Between
submissions an exposure can only make `Progress`: an order fills part of what
remains, or stops working.

The file states what submissions have to respect so that any progress, in any
order, keeps a portfolio property: which instruments are occupied, that no fill
crosses zero, that no quantity grows, and that an exit never exceeds the position
it closes.
-/

universe u v

/-- The direction in which an order moves a net quantity. -/
inductive Direction where
  | up
  | down
deriving DecidableEq, Repr

namespace Direction

/-- The sign of one unit traded in a direction. -/
def sign : Direction → ℤ
  | up => 1
  | down => -1

/-- The other direction. -/
def flip : Direction → Direction
  | up => down
  | down => up

end Direction

/-- An order that may still trade. -/
structure Working (ι : Type u) where
  instrument : ι
  direction : Direction
  remaining : ℕ
deriving DecidableEq

/-- Net quantities and working orders. -/
structure Exposure (ι : Type u) (κ : Type v) where
  net : ι → ℤ
  working : κ → Option (Working ι)

namespace Exposure

variable {ι : Type u} {κ : Type v} [DecidableEq ι] [DecidableEq κ]

/-- A new order starts working. -/
def submit (e : Exposure ι κ) (key : κ) (order : Working ι) : Exposure ι κ :=
  { e with working := Function.update e.working key (some order) }

/-- An order stops working. -/
def retire (e : Exposure ι κ) (key : κ) : Exposure ι κ :=
  { e with working := Function.update e.working key none }

/-- An order trades part of what remains. -/
def fill (e : Exposure ι κ) (key : κ) (order : Working ι) (qty : ℕ) : Exposure ι κ where
  net := Function.update e.net order.instrument
    (e.net order.instrument + order.direction.sign * qty)
  working := Function.update e.working key
    (some { order with remaining := order.remaining - qty })

/-- What can happen to an exposure between submissions. -/
inductive Progress : Exposure ι κ → Exposure ι κ → Prop where
  | fill {e : Exposure ι κ} {key : κ} {order : Working ι} {qty : ℕ}
      (present : e.working key = some order) (positive : 0 < qty)
      (within : qty ≤ order.remaining) : Progress e (e.fill key order qty)
  | retire {e : Exposure ι κ} {key : κ} {order : Working ι}
      (present : e.working key = some order) : Progress e (e.retire key)

/-- Any number of fills and retirements. -/
abbrev Progresses : Exposure ι κ → Exposure ι κ → Prop := Relation.ReflTransGen Progress

/-- A property kept by every fill and every retirement is kept by any progress. -/
theorem Progresses.preserves {motive : Exposure ι κ → Prop}
    (step : ∀ {e e' : Exposure ι κ}, motive e → Progress e e' → motive e') {e e' : Exposure ι κ}
    (progresses : Progresses e e') (initial : motive e) : motive e' := by
  induction progresses with
  | refl => exact initial
  | tail _ progress ih => exact step ih progress

/-- Progress starts no order. -/
theorem exists_working_progresses {e e' : Exposure ι κ} (progresses : Progresses e e') {key : κ}
    {order' : Working ι} (working : e'.working key = some order') :
    ∃ order, e.working key = some order := by
  have kept := progresses.preserves (motive := fun later => ∀ key order',
    later.working key = some order' → ∃ order, e.working key = some order) ?_ fun _ order' found =>
      ⟨order', found⟩
  · exact kept key order' working
  intro later later' ih progress other order' found
  cases progress with
  | @fill filled before qty present positive within =>
      by_cases same : other = filled
      · exact same ▸ ih filled before present
      · exact ih other order' (by simpa [fill, Function.update_of_ne same] using found)
  | @retire retired before present =>
      by_cases same : other = retired
      · exact same ▸ ih retired before present
      · exact ih other order' (by simpa [retire, Function.update_of_ne same] using found)

/-! ## Occupied instruments -/

/-- Instruments with a position or an order that may open one. -/
def occupied (e : Exposure ι κ) : Set ι :=
  { i | e.net i ≠ 0 ∨ ∃ key order, e.working key = some order ∧ order.instrument = i }

/-- Progress occupies no further instrument. -/
theorem occupied_progress {e e' : Exposure ι κ} (progress : Progress e e') :
    e'.occupied ⊆ e.occupied := by
  cases progress with
  | @fill key order qty present positive within =>
      rintro i (moved | ⟨key', order', working, rfl⟩)
      · by_cases same : i = order.instrument
        · exact .inr ⟨key, order, present, same.symm⟩
        · exact .inl (by simpa [fill, Function.update_of_ne same] using moved)
      · by_cases same : key' = key
        · subst key'
          simp only [fill, Function.update_self, Option.some.injEq] at working
          subst order'
          exact .inr ⟨key, order, present, rfl⟩
        · exact .inr ⟨key', order', by simpa [fill, Function.update_of_ne same] using working, rfl⟩
  | @retire key order present =>
      rintro i (moved | ⟨key', order', working, rfl⟩)
      · exact .inl moved
      · by_cases same : key' = key
        · subst key'
          simp [retire] at working
        · exact .inr ⟨key', order', by simpa [retire, Function.update_of_ne same] using working,
            rfl⟩

theorem occupied_progresses {e e' : Exposure ι κ} (progresses : Progresses e e') :
    e'.occupied ⊆ e.occupied :=
  progresses.preserves (motive := fun later => later.occupied ⊆ e.occupied)
    (fun ih progress => (occupied_progress progress).trans ih) subset_rfl

omit [DecidableEq ι] in
/-- A submission occupies at most its own instrument. -/
theorem occupied_submit (e : Exposure ι κ) (key : κ) (order : Working ι) :
    (e.submit key order).occupied ⊆ insert order.instrument e.occupied := by
  rintro i (moved | ⟨key', order', working, rfl⟩)
  · exact .inr (.inl moved)
  · by_cases same : key' = key
    · subst key'
      simp only [submit, Function.update_self, Option.some.injEq] at working
      exact .inl (by rw [working])
    · exact .inr (.inr ⟨key', order',
        by simpa [submit, Function.update_of_ne same] using working, rfl⟩)

/-! ## Resting quantities -/

/-- What an entry of the order table contributes to one side of an instrument. -/
def weight (entry : Option (Working ι)) (i : ι) (direction : Direction) : ℕ :=
  match entry with
  | some order =>
      if order.instrument = i ∧ order.direction = direction then order.remaining else 0
  | none => 0

/-- The quantity that the orders among `keys` may still trade on one side of an
instrument. -/
def resting (e : Exposure ι κ) (keys : Finset κ) (i : ι) (direction : Direction) : ℕ :=
  ∑ key ∈ keys, weight (e.working key) i direction

/-- All the working orders are among `keys`. -/
def SupportedBy (e : Exposure ι κ) (keys : Finset κ) : Prop :=
  ∀ key order, e.working key = some order → key ∈ keys

omit [DecidableEq κ] in
theorem weight_le_resting {e : Exposure ι κ} {keys : Finset κ} {key : κ} {order : Working ι}
    (supported : e.SupportedBy keys) (present : e.working key = some order) :
    order.remaining ≤ e.resting keys order.instrument order.direction := by
  calc order.remaining = weight (e.working key) order.instrument order.direction := by
        simp [weight, present]
    _ ≤ e.resting keys order.instrument order.direction :=
        Finset.single_le_sum
          (f := fun key => weight (e.working key) order.instrument order.direction)
          (fun _ _ => Nat.zero_le _) (supported key order present)

/-- Replacing one entry changes a resting quantity by the difference of the weights. -/
theorem resting_update (working : κ → Option (Working ι)) (net net' : ι → ℤ) {keys : Finset κ}
    {key : κ} (entry : Option (Working ι)) (mem : key ∈ keys) (i : ι) (direction : Direction) :
    resting ⟨net', Function.update working key entry⟩ keys i direction +
        weight (working key) i direction =
      resting ⟨net, working⟩ keys i direction + weight entry i direction := by
  simp only [resting]
  rw [← Finset.add_sum_erase keys _ mem,
    ← Finset.add_sum_erase keys (fun key => weight (working key) i direction) mem]
  have others : ∑ other ∈ keys.erase key,
        weight (Function.update working key entry other) i direction =
      ∑ other ∈ keys.erase key, weight (working other) i direction := by
    apply Finset.sum_congr rfl
    intro other otherMem
    rw [Function.update_of_ne (Finset.ne_of_mem_erase otherMem)]
  rw [others, Function.update_self]
  omega

omit [DecidableEq κ] in
/-- Keys beyond the working orders contribute nothing. -/
theorem resting_eq_of_subset {e : Exposure ι κ} {keys more : Finset κ} (subset : keys ⊆ more)
    (supported : e.SupportedBy keys) (i : ι) (direction : Direction) :
    e.resting more i direction = e.resting keys i direction := by
  refine (Finset.sum_subset subset fun key _ outside => ?_).symm
  rcases entry : e.working key with _ | order
  · rfl
  · exact absurd (supported key order entry) outside

theorem supportedBy_progress {keys : Finset κ} {e e' : Exposure ι κ}
    (supported : e.SupportedBy keys) (progress : Progress e e') : e'.SupportedBy keys := by
  intro key order working
  cases progress with
  | @fill filled before qty present positive within =>
      by_cases same : key = filled
      · exact same ▸ supported _ _ present
      · exact supported key order (by simpa [fill, Function.update_of_ne same] using working)
  | @retire retired before present =>
      by_cases same : key = retired
      · exact same ▸ supported _ _ present
      · exact supported key order (by simpa [retire, Function.update_of_ne same] using working)

omit [DecidableEq ι] in
theorem supportedBy_submit {keys more : Finset κ} {e : Exposure ι κ} {key : κ}
    (supported : e.SupportedBy keys) (subset : keys ⊆ more) (mem : key ∈ more)
    (order : Working ι) : (e.submit key order).SupportedBy more := by
  intro other working present
  by_cases same : other = key
  · exact same ▸ mem
  · exact subset
      (supported other working (by simpa [submit, Function.update_of_ne same] using present))

/-- A fill uses up exactly what it trades, on its own side of its own instrument. -/
theorem resting_fill {e : Exposure ι κ} {keys : Finset κ} {key : κ} {order : Working ι} {qty : ℕ}
    (supported : e.SupportedBy keys) (present : e.working key = some order)
    (within : qty ≤ order.remaining) (i : ι) (direction : Direction) :
    (e.fill key order qty).resting keys i direction +
        (if order.instrument = i ∧ order.direction = direction then qty else 0) =
      e.resting keys i direction := by
  have changed := resting_update e.working e.net (e.fill key order qty).net
    (some { order with remaining := order.remaining - qty })
    (supported key order present) i direction
  rw [present] at changed
  change (e.fill key order qty).resting keys i direction + _ = e.resting keys i direction + _
    at changed
  simp only [weight] at changed
  split_ifs at changed ⊢ <;> omega

/-- Retiring an order never adds to a resting quantity. -/
theorem resting_retire_le {e : Exposure ι κ} {keys : Finset κ} {key : κ} {order : Working ι}
    (supported : e.SupportedBy keys) (present : e.working key = some order) (i : ι)
    (direction : Direction) :
    (e.retire key).resting keys i direction ≤ e.resting keys i direction := by
  have changed := resting_update e.working e.net e.net none
    (supported key order present) i direction
  change (e.retire key).resting keys i direction + _ = e.resting keys i direction + 0 at changed
  omega

/-- A submission under a fresh key adds its quantity to its own side. -/
theorem resting_submit {e : Exposure ι κ} {keys : Finset κ} {key : κ} (order : Working ι)
    (mem : key ∈ keys) (fresh : e.working key = none) (i : ι) (direction : Direction) :
    (e.submit key order).resting keys i direction =
      e.resting keys i direction + weight (some order) i direction := by
  have changed := resting_update e.working e.net e.net (some order) mem i direction
  rw [fresh] at changed
  change (e.submit key order).resting keys i direction + 0 =
    e.resting keys i direction + _ at changed
  omega

/-! ## Fills that never cross zero -/

/-- On every instrument the orders against the position fit into it, and a flat
instrument has resting orders on one side at most. -/
def ClosingSafe (e : Exposure ι κ) (keys : Finset κ) : Prop :=
  ∀ i, (∀ direction : Direction, direction.sign * e.net i < 0 →
      (e.resting keys i direction : ℤ) ≤ |e.net i|) ∧
    (e.net i = 0 → e.resting keys i .up = 0 ∨ e.resting keys i .down = 0)

omit [DecidableEq κ] in
/-- The two directions of `ClosingSafe` written out. -/
theorem closingSafe_iff {e : Exposure ι κ} {keys : Finset κ} :
    e.ClosingSafe keys ↔ ∀ i,
      (0 < e.net i → (e.resting keys i .down : ℤ) ≤ e.net i) ∧
      (e.net i < 0 → (e.resting keys i .up : ℤ) ≤ -e.net i) ∧
      (e.net i = 0 → e.resting keys i .up = 0 ∨ e.resting keys i .down = 0) := by
  unfold ClosingSafe
  refine forall_congr' fun i => ?_
  constructor
  · rintro ⟨against, flat⟩
    refine ⟨fun long => ?_, fun short => ?_, flat⟩
    · simpa [abs_of_pos long] using against .down (by simp [Direction.sign]; omega)
    · simpa [abs_of_neg short] using against .up (by simp [Direction.sign]; omega)
  · rintro ⟨long, short, flat⟩
    refine ⟨fun direction against => ?_, flat⟩
    cases direction with
    | up =>
        simp only [Direction.sign, one_mul] at against
        simpa [abs_of_neg against] using short against
    | down =>
        simp only [Direction.sign, neg_mul, one_mul, Left.neg_neg_iff] at against
        simpa [abs_of_pos against] using long against

omit [DecidableEq κ] in
/-- Under `ClosingSafe` a fill against a position is at most the position. -/
theorem ClosingSafe.fill_le {e : Exposure ι κ} {keys : Finset κ} (safe : e.ClosingSafe keys)
    (supported : e.SupportedBy keys) {key : κ} {order : Working ι} {qty : ℕ}
    (present : e.working key = some order) (within : qty ≤ order.remaining)
    (against : order.direction.sign * e.net order.instrument < 0) :
    (qty : ℤ) ≤ |e.net order.instrument| := by
  have fits := (safe order.instrument).1 order.direction against
  have covered := weight_le_resting supported present
  omega

theorem closingSafe_progress {keys : Finset κ} {e e' : Exposure ι κ}
    (supported : e.SupportedBy keys) (safe : e.ClosingSafe keys) (progress : Progress e e') :
    e'.ClosingSafe keys := by
  rw [closingSafe_iff] at safe ⊢
  intro i
  rcases safe i with ⟨long, short, flat⟩
  cases progress with
  | @fill key order qty present positive within =>
      have up := resting_fill supported present within i .up
      have down := resting_fill supported present within i .down
      have covered := weight_le_resting supported present
      by_cases same : order.instrument = i
      · subst i
        have moved : (e.fill key order qty).net order.instrument =
            e.net order.instrument + order.direction.sign * qty := by
          simp [fill]
        rw [moved]
        cases direction : order.direction with
        | up =>
            simp only [direction, true_and, if_true, reduceCtorEq, and_false, if_false] at up down
            rw [direction] at covered
            simp only [Direction.sign]
            omega
        | down =>
            simp only [direction, true_and, if_true, reduceCtorEq, and_false, if_false] at up down
            rw [direction] at covered
            simp only [Direction.sign]
            omega
      · have unmoved : (e.fill key order qty).net i = e.net i := by
          simp [fill, Function.update_of_ne (Ne.symm same)]
        simp only [same, false_and, if_false] at up down
        rw [unmoved]
        omega
  | @retire key order present =>
      have up := resting_retire_le supported present i .up
      have down := resting_retire_le supported present i .down
      have netEq : (e.retire key).net = e.net := rfl
      rw [netEq]
      omega

theorem closingSafe_progresses {keys : Finset κ} {e e' : Exposure ι κ}
    (supported : e.SupportedBy keys) (safe : e.ClosingSafe keys) (progresses : Progresses e e') :
    e'.ClosingSafe keys :=
  (progresses.preserves (motive := fun later => later.SupportedBy keys ∧ later.ClosingSafe keys)
    (fun ⟨ihSupported, ihSafe⟩ progress => ⟨supportedBy_progress ihSupported progress,
      closingSafe_progress ihSupported ihSafe progress⟩) ⟨supported, safe⟩).2

omit [DecidableEq κ] in
theorem closingSafe_of_subset {keys more : Finset κ} {e : Exposure ι κ} (subset : keys ⊆ more)
    (supported : e.SupportedBy keys) (safe : e.ClosingSafe keys) : e.ClosingSafe more := by
  intro i
  simp only [resting_eq_of_subset subset supported]
  exact safe i

/-- An order opening a flat instrument must face no resting order of the other side. -/
theorem closingSafe_submit_opening {keys : Finset κ} {e : Exposure ι κ} {key : κ}
    {order : Working ι} (safe : e.ClosingSafe keys) (mem : key ∈ keys)
    (fresh : e.working key = none) (flat : e.net order.instrument = 0)
    (unopposed : e.resting keys order.instrument order.direction.flip = 0) :
    (e.submit key order).ClosingSafe keys := by
  rw [closingSafe_iff] at safe ⊢
  intro i
  rcases safe i with ⟨long, short, flatSafe⟩
  have up := resting_submit order mem fresh i .up
  have down := resting_submit order mem fresh i .down
  have netEq : (e.submit key order).net = e.net := rfl
  rw [netEq]
  by_cases same : order.instrument = i
  · subst i
    cases direction : order.direction with
    | up =>
        simp only [direction, Direction.flip] at unopposed
        simp only [weight, direction, true_and, if_true, reduceCtorEq, and_false, if_false]
          at up down
        omega
    | down =>
        simp only [direction, Direction.flip] at unopposed
        simp only [weight, direction, true_and, if_true, reduceCtorEq, and_false, if_false]
          at up down
        omega
  · simp only [weight, same, false_and, if_false] at up down
    omega

/-- An order closing a position must fit into it and be the only resting one on its side. -/
theorem closingSafe_submit_closing {keys : Finset κ} {e : Exposure ι κ} {key : κ}
    {order : Working ι} (safe : e.ClosingSafe keys) (mem : key ∈ keys)
    (fresh : e.working key = none)
    (against : order.direction.sign * e.net order.instrument < 0)
    (fits : (order.remaining : ℤ) ≤ |e.net order.instrument|)
    (alone : e.resting keys order.instrument order.direction = 0) :
    (e.submit key order).ClosingSafe keys := by
  rw [closingSafe_iff] at safe ⊢
  intro i
  rcases safe i with ⟨long, short, flatSafe⟩
  have up := resting_submit order mem fresh i .up
  have down := resting_submit order mem fresh i .down
  have netEq : (e.submit key order).net = e.net := rfl
  rw [netEq]
  by_cases same : order.instrument = i
  · subst i
    cases direction : order.direction with
    | up =>
        simp only [direction, Direction.sign, one_mul] at against alone
        rw [abs_of_neg against] at fits
        simp only [weight, direction, true_and, if_true, reduceCtorEq, and_false, if_false]
          at up down
        omega
    | down =>
        simp only [direction, Direction.sign, neg_mul, one_mul, Left.neg_neg_iff] at against alone
        rw [abs_of_pos against] at fits
        simp only [weight, direction, true_and, if_true, reduceCtorEq, and_false, if_false]
          at up down
        omega
  · simp only [weight, same, false_and, if_false] at up down
    omega

/-! ## Exposure that only shrinks -/

/-- Whatever still rests is against its position and fits into it. -/
def OnlyCloses (e : Exposure ι κ) (keys : Finset κ) : Prop :=
  ∀ i (direction : Direction), 0 < e.resting keys i direction →
    direction.sign * e.net i < 0 ∧ (e.resting keys i direction : ℤ) ≤ |e.net i|

omit [DecidableEq κ] in
/-- The two directions of `OnlyCloses` written out. -/
theorem onlyCloses_iff {e : Exposure ι κ} {keys : Finset κ} :
    e.OnlyCloses keys ↔ ∀ i,
      (0 < e.resting keys i .up → (e.resting keys i .up : ℤ) ≤ -e.net i) ∧
      (0 < e.resting keys i .down → (e.resting keys i .down : ℤ) ≤ e.net i) := by
  unfold OnlyCloses
  refine forall_congr' fun i => ?_
  constructor
  · intro closes
    refine ⟨fun rests => ?_, fun rests => ?_⟩
    · rcases closes .up rests with ⟨against, fits⟩
      simp only [Direction.sign, one_mul] at against
      rwa [abs_of_neg against] at fits
    · rcases closes .down rests with ⟨against, fits⟩
      simp only [Direction.sign, neg_mul, one_mul, Left.neg_neg_iff] at against
      rwa [abs_of_pos against] at fits
  · rintro ⟨up, down⟩ direction rests
    cases direction with
    | up =>
        have fits := up rests
        have short : e.net i < 0 := by omega
        exact ⟨by simpa [Direction.sign] using short, by rwa [abs_of_neg short]⟩
    | down =>
        have fits := down rests
        have long : 0 < e.net i := by omega
        exact ⟨by simpa [Direction.sign] using long, by rwa [abs_of_pos long]⟩

/-- While orders only close, a fill or retirement grows no position. -/
theorem onlyCloses_progress {keys : Finset κ} {e e' : Exposure ι κ}
    (supported : e.SupportedBy keys) (closes : e.OnlyCloses keys) (progress : Progress e e') :
    e'.OnlyCloses keys ∧ ∀ i, |e'.net i| ≤ |e.net i| := by
  rw [onlyCloses_iff] at closes ⊢
  rw [← forall_and]
  intro i
  rcases closes i with ⟨closesUp, closesDown⟩
  cases progress with
  | @fill key order qty present positive within =>
      have up := resting_fill supported present within i .up
      have down := resting_fill supported present within i .down
      have covered := weight_le_resting supported present
      by_cases same : order.instrument = i
      · subst i
        have moved : (e.fill key order qty).net order.instrument =
            e.net order.instrument + order.direction.sign * qty := by
          simp [fill]
        rw [moved]
        cases direction : order.direction with
        | up =>
            simp only [direction, true_and, if_true, reduceCtorEq, and_false, if_false] at up down
            rw [direction] at covered
            simp only [Direction.sign, one_mul]
            refine ⟨by omega, ?_⟩
            rw [abs_of_nonpos (by omega), abs_of_nonpos (by omega)]
            omega
        | down =>
            simp only [direction, true_and, if_true, reduceCtorEq, and_false, if_false] at up down
            rw [direction] at covered
            simp only [Direction.sign, neg_mul, one_mul]
            refine ⟨by omega, ?_⟩
            rw [abs_of_nonneg (by omega), abs_of_nonneg (by omega)]
            omega
      · have unmoved : (e.fill key order qty).net i = e.net i := by
          simp [fill, Function.update_of_ne (Ne.symm same)]
        simp only [same, false_and, if_false] at up down
        rw [unmoved]
        exact ⟨by omega, le_rfl⟩
  | @retire key order present =>
      have up := resting_retire_le supported present i .up
      have down := resting_retire_le supported present i .down
      have netEq : (e.retire key).net = e.net := rfl
      rw [netEq]
      exact ⟨by omega, le_rfl⟩

/-- While orders only close, no progress grows a position. -/
theorem OnlyCloses.abs_net_le {keys : Finset κ} {e e' : Exposure ι κ}
    (supported : e.SupportedBy keys) (closes : e.OnlyCloses keys)
    (progresses : Progresses e e') (i : ι) : |e'.net i| ≤ |e.net i| := by
  have kept := progresses.preserves
    (motive := fun later => later.SupportedBy keys ∧ later.OnlyCloses keys ∧
      ∀ i, |later.net i| ≤ |e.net i|)
    (fun ⟨ihSupported, ihCloses, ihLe⟩ progress =>
      ⟨supportedBy_progress ihSupported progress,
        (onlyCloses_progress ihSupported ihCloses progress).1,
        fun i => ((onlyCloses_progress ihSupported ihCloses progress).2 i).trans (ihLe i)⟩)
    ⟨supported, closes, fun _ => le_rfl⟩
  exact kept.2.2 i

/-! ## One working order for each instrument -/

/-- Each instrument has one working order at most, and an exit order is against
its position and fits into it. -/
structure SingleWorking (exits : κ → Prop) (e : Exposure ι κ) : Prop where
  unique : ∀ key key' order order', e.working key = some order → e.working key' = some order' →
    order.instrument = order'.instrument → key = key'
  exit_fits : ∀ key order, exits key → e.working key = some order →
    order.direction.sign * e.net order.instrument ≤ -order.remaining

theorem singleWorking_progress {exits : κ → Prop} {e e' : Exposure ι κ}
    (single : e.SingleWorking exits) (progress : Progress e e') : e'.SingleWorking exits := by
  cases progress with
  | @fill key order qty present positive within =>
      have entry : ∀ key' order', (e.fill key order qty).working key' = some order' →
          ∃ before, e.working key' = some before ∧ before.instrument = order'.instrument ∧
            (key' ≠ key → order' = before) := by
        intro key' order' working
        by_cases same : key' = key
        · subst key'
          simp only [fill, Function.update_self, Option.some.injEq] at working
          subst order'
          exact ⟨order, present, rfl, fun ne => absurd rfl ne⟩
        · simp only [fill, Function.update_of_ne same] at working
          exact ⟨order', working, rfl, fun _ => rfl⟩
      refine ⟨?_, ?_⟩
      · intro first second firstOrder secondOrder firstWorking secondWorking sameInstrument
        rcases entry first firstOrder firstWorking with ⟨before, beforeWorking, beforeEq, _⟩
        rcases entry second secondOrder secondWorking with ⟨after, afterWorking, afterEq, _⟩
        exact single.unique first second before after beforeWorking afterWorking
          (by rw [beforeEq, afterEq, sameInstrument])
      · intro key' order' isExit working
        by_cases same : key' = key
        · subst key'
          simp only [fill, Function.update_self, Option.some.injEq] at working
          subst order'
          have fits := single.exit_fits key order isExit present
          simp only [fill, Function.update_self]
          cases direction : order.direction <;>
            simp only [direction, Direction.sign] at fits ⊢ <;> omega
        · rcases entry key' order' working with ⟨before, beforeWorking, beforeEq, kept⟩
          have unchanged := kept same
          subst order'
          -- another working order cannot be on the filled instrument
          have apart : before.instrument ≠ order.instrument := fun shared =>
            same (single.unique key' key before order beforeWorking present shared)
          have fits := single.exit_fits key' before isExit beforeWorking
          simpa [fill, Function.update_of_ne apart] using fits
  | @retire key order present =>
      have entry : ∀ key' order', (e.retire key).working key' = some order' →
          e.working key' = some order' := by
        intro key' order' working
        by_cases same : key' = key
        · subst key'
          simp [retire] at working
        · simpa [retire, Function.update_of_ne same] using working
      refine ⟨?_, ?_⟩
      · intro first second firstOrder secondOrder firstWorking secondWorking
        exact single.unique first second firstOrder secondOrder (entry _ _ firstWorking)
          (entry _ _ secondWorking)
      · intro key' order' isExit working
        exact single.exit_fits key' order' isExit (entry _ _ working)

theorem singleWorking_progresses {exits : κ → Prop} {e e' : Exposure ι κ}
    (single : e.SingleWorking exits) (progresses : Progresses e e') : e'.SingleWorking exits :=
  progresses.preserves (motive := SingleWorking exits) singleWorking_progress single

omit [DecidableEq ι] in
/-- An order may be submitted on an instrument without a working one; an exit must
fit into its position. -/
theorem singleWorking_submit {exits exits' : κ → Prop} {e : Exposure ι κ} {key : κ}
    {order : Working ι} (single : e.SingleWorking exits)
    (sameExits : ∀ key' order', e.working key' = some order' → key' ≠ key → exits' key' →
      exits key')
    (free : ∀ key' order', e.working key' = some order' → order'.instrument ≠ order.instrument)
    (fits : exits' key → order.direction.sign * e.net order.instrument ≤ -order.remaining) :
    (e.submit key order).SingleWorking exits' := by
  refine ⟨?_, ?_⟩
  · intro first second firstOrder secondOrder firstWorking secondWorking sameInstrument
    by_cases firstNew : first = key <;> by_cases secondNew : second = key
    · rw [firstNew, secondNew]
    · subst first
      simp only [submit, Function.update_self, Option.some.injEq] at firstWorking
      simp only [submit, Function.update_of_ne secondNew] at secondWorking
      subst firstOrder
      exact absurd sameInstrument.symm (free second secondOrder secondWorking)
    · subst second
      simp only [submit, Function.update_self, Option.some.injEq] at secondWorking
      simp only [submit, Function.update_of_ne firstNew] at firstWorking
      subst secondOrder
      exact absurd sameInstrument (free first firstOrder firstWorking)
    · simp only [submit, Function.update_of_ne firstNew] at firstWorking
      simp only [submit, Function.update_of_ne secondNew] at secondWorking
      exact single.unique first second firstOrder secondOrder firstWorking secondWorking
        sameInstrument
  · intro key' order' isExit working
    by_cases new : key' = key
    · subst key'
      simp only [submit, Function.update_self, Option.some.injEq] at working
      subst order'
      exact fits isExit
    · simp only [submit, Function.update_of_ne new] at working
      exact single.exit_fits key' order' (sameExits key' order' working new isExit) working

omit [DecidableEq ι] [DecidableEq κ] in
/-- Only the working orders matter for which orders count as exits. -/
theorem SingleWorking.mono {exits exits' : κ → Prop} {e : Exposure ι κ}
    (single : e.SingleWorking exits)
    (fewer : ∀ key order, e.working key = some order → exits' key → exits key) :
    e.SingleWorking exits' :=
  ⟨single.unique, fun key order isExit working =>
    single.exit_fits key order (fewer key order working isExit) working⟩

end Exposure
