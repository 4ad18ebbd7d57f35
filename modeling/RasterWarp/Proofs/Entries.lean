/-
# Entries under keys

Datasets are registered under paths, and buffers are lent out under numbers: both are lists of
entries, looked up by key, in which the entry under a key is changed or left out.  What is found
afterwards is told here for keys of any kind.
-/
import Mathlib.Data.List.Basic

namespace RasterWarp

variable {κ β γ : Type} [BEq κ] [LawfulBEq κ]

/-- What is found is there. -/
theorem mem_of_lookup {entries : List (κ × β)} {k : κ} {b : β}
    (h : entries.lookup k = some b) : (k, b) ∈ entries := by
  obtain ⟨before, after, rfl, -⟩ := List.lookup_eq_some_iff.mp h
  exact List.mem_append_right before List.mem_cons_self

variable [DecidableEq κ]

theorem lookup_entry (key : κ) (b : β) (rest : List (κ × β)) (k : κ) :
    ((key, b) :: rest).lookup k = if k = key then some b else rest.lookup k := by
  rw [List.lookup_cons]
  by_cases hk : k = key
  · rw [if_pos hk, beq_iff_eq.mpr hk]
  · rw [if_neg hk, beq_eq_false_iff_ne.mpr hk]

/-- Values that are changed, each in view of its key. -/
theorem lookup_map (g : κ → β → γ) (entries : List (κ × β)) (k : κ) :
    (entries.map fun e => (e.1, g e.1 e.2)).lookup k = (entries.lookup k).map (g k) := by
  induction entries with
  | nil => rfl
  | cons e rest ih =>
    rw [List.map_cons, lookup_entry, lookup_entry, ih]
    by_cases h : k = e.1
    · rw [if_pos h, if_pos h, h, Option.map_some]
    · rw [if_neg h, if_neg h]

omit [BEq κ] [LawfulBEq κ] in
/-- A change of the entry under a key keeps all keys. -/
theorem map_entry (key : κ) (f : β → β) (entries : List (κ × β)) :
    (entries.map fun (k, b) => if k = key then (k, f b) else (k, b))
      = entries.map fun e => (e.1, if e.1 = key then f e.2 else e.2) := by
  refine List.map_congr_left fun e _ => ?_
  obtain ⟨k, b⟩ := e
  simp only
  split <;> rfl

/-- **The entry under a key is changed.** -/
theorem lookup_map_entry (key : κ) (f : β → β) (entries : List (κ × β)) (k : κ) :
    (entries.map fun (k, b) => if k = key then (k, f b) else (k, b)).lookup k
      = (entries.lookup k).map fun b => if k = key then f b else b := by
  rw [map_entry]
  exact lookup_map (fun k b => if k = key then f b else b) entries k

/-- **The entry under a key is left out.** -/
theorem lookup_filter (key : κ) (entries : List (κ × β)) (k : κ) :
    (entries.filter fun e => e.1 ≠ key).lookup k
      = if k = key then none else entries.lookup k := by
  induction entries with
  | nil => exact (ite_self none).symm
  | cons e rest ih =>
    rw [List.filter_cons, lookup_entry]
    by_cases h : e.1 = key
    · rw [if_neg (by simp [h]), ih, h]
      by_cases hk : k = key
      · rw [if_pos hk, if_pos hk]
      · rw [if_neg hk, if_neg hk, if_neg hk]
    · rw [if_pos (by simp [h]), lookup_entry, ih]
      by_cases hk : k = e.1
      · rw [if_pos hk, if_neg (hk ▸ h), if_pos hk]
      · rw [if_neg hk, if_neg hk]

end RasterWarp
