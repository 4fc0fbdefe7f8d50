import Mathlib.Data.List.Induction

/-!
# First write wins

Entries that carry their key arrive one after the other, and an entry is kept only if no entry
before it has its key.
-/

universe u v

namespace FirstWins

variable {α : Type u} {κ : Type v} [DecidableEq κ] {key : α → κ}

/-- Keep an entry unless its key is known. -/
def keep (key : α → κ) (kept : List α) (entry : α) : List α :=
  if key entry ∈ kept.map key then kept else kept ++ [entry]

theorem keep_of_mem {kept : List α} {entry : α} (known : key entry ∈ kept.map key) :
    keep key kept entry = kept := if_pos known

theorem keep_of_notMem {kept : List α} {entry : α} (fresh : key entry ∉ kept.map key) :
    keep key kept entry = kept ++ [entry] := if_neg fresh

/-- The first entry under each key. -/
def firsts (key : α → κ) (entries : List α) : List α := entries.foldl (keep key) []

theorem firsts_concat (entries : List α) (entry : α) :
    firsts key (entries ++ [entry]) = keep key (firsts key entries) entry := by
  rw [firsts, List.foldl_append]
  rfl

theorem firsts_append (entries later : List α) :
    firsts key (entries ++ later) = later.foldl (keep key) (firsts key entries) :=
  List.foldl_append ..

theorem mem_map_keep {kept : List α} {entry : α} {value : κ} :
    value ∈ (keep key kept entry).map key ↔ value ∈ kept.map key ∨ value = key entry := by
  rw [keep]
  split_ifs with known
  · constructor
    · exact .inl
    · rintro (mem | rfl)
      · exact mem
      · exact known
  · simp

/-- Every key that has arrived is kept. -/
theorem mem_map_firsts {entries : List α} {value : κ} :
    value ∈ (firsts key entries).map key ↔ value ∈ entries.map key := by
  induction entries using List.reverseRecOn with
  | nil => rfl
  | append_singleton entries entry ih =>
      rw [firsts_concat, mem_map_keep, ih]
      simp

theorem pairwise_firsts (entries : List α) :
    (firsts key entries).Pairwise (key · ≠ key ·) := by
  induction entries using List.reverseRecOn with
  | nil => exact .nil
  | append_singleton entries entry ih =>
      rw [firsts_concat, keep]
      split_ifs with known
      · exact ih
      · rw [List.pairwise_append]
        refine ⟨ih, List.pairwise_singleton _ _, ?_⟩
        intro other mem last same
        rw [List.mem_singleton.mp same]
        exact fun equal => known (List.mem_map.mpr ⟨other, mem, equal⟩)

/-- What is kept stays. -/
theorem mem_foldl_keep {kept later : List α} {entry : α} (mem : entry ∈ kept) :
    entry ∈ later.foldl (keep key) kept := by
  induction later generalizing kept with
  | nil => exact mem
  | cons next later ih =>
      apply ih
      rw [keep]
      split_ifs
      · exact mem
      · exact List.mem_append_left _ mem

/-- An entry is kept exactly if its key has not arrived before it. -/
theorem mem_firsts_iff {entries : List α} {entry : α} : entry ∈ firsts key entries ↔
    ∃ before after, entries = before ++ entry :: after ∧ key entry ∉ before.map key := by
  constructor
  · intro mem
    induction entries using List.reverseRecOn with
    | nil => cases mem
    | append_singleton entries last ih =>
        rw [firsts_concat, keep] at mem
        have earlier (found : entry ∈ firsts key entries) : ∃ before after,
            entries ++ [last] = before ++ entry :: after ∧ key entry ∉ before.map key := by
          rcases ih found with ⟨before, after, rfl, fresh⟩
          exact ⟨before, after ++ [last], by simp, fresh⟩
        split_ifs at mem with known
        · exact earlier mem
        · rcases List.mem_append.mp mem with found | own
          · exact earlier found
          · rw [List.mem_singleton.mp own]
            exact ⟨entries, [], rfl, fun arrived => known (mem_map_firsts.mpr arrived)⟩
  · rintro ⟨before, after, rfl, fresh⟩
    have new : key entry ∉ (firsts key before).map key := fun known =>
      fresh (mem_map_firsts.mp known)
    rw [firsts_append, List.foldl_cons, keep_of_notMem new]
    apply mem_foldl_keep
    exact List.mem_append_right _ (.head _)

end FirstWins
