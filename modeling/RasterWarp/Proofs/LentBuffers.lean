/-
# What is lent out, told from its history

Buffers are checked out of a pool, written to while they are out, and handed back.  Whoever writes
to a buffer or hands it back has it; nothing else is asked of those who use the pool.

What can be seen of a pool afterwards is in the history of its uses (`Kept`).  A buffer that is out
holds zeros, changed by what was written under its number and by nothing else, and how many wait
can be counted along the history.  Every use keeps the two in step (`Kept.step`), by one law for
each kind of use on what is found under a number (`get?_acquire`, `get?_update`, `get?_release`).

Main statement: `Course.kept`.
-/
import RasterWarp.Proofs.Entries
import RasterWarp.ScratchPool
import Mathlib.Data.List.Nodup

namespace RasterWarp
namespace Lending

/-! ## 1. Uses of a pool -/

/-- A use of a pool: a buffer is asked for, changed, or handed back. -/
inductive Use where
  | acquire (size : Nat)
  | write (n : Nat) (f : Bytes → Bytes)
  | release (n : Nat)

/-- What a use does. -/
def step (l : Lending) : Use → Lending
  | .acquire size => (l.acquire size).2
  | .write n f => l.update n f
  | .release n => l.release n

/-- Only a buffer that is out is written to or handed back. -/
def Allows (l : Lending) : Use → Prop
  | .acquire _ => True
  | .write n _ => ∃ b, l.get? n = some b
  | .release n => ∃ b, l.get? n = some b

/-- **A course of a pool,** from the empty one on, with its history. -/
inductive Course (maxIdle : Nat) : List Use → Lending → Prop
  | start : Course maxIdle [] (.new maxIdle)
  | use {uses : List Use} {l : Lending} {u : Use} (h : Course maxIdle uses l) (hu : l.Allows u) :
      Course maxIdle (uses ++ [u]) (l.step u)

/-- Where a course leads is where its uses lead, one after the other. -/
theorem Course.foldl_step {maxIdle : Nat} {uses : List Use} {l : Lending}
    (h : Course maxIdle uses l) : uses.foldl step (.new maxIdle) = l := by
  induction h with
  | start => rfl
  | use h hu ih => rw [List.foldl_append, ih, List.foldl_cons, List.foldl_nil]

/-! ## 2. What is found under a number -/

section Lookup

variable (l : Lending) (n k : Nat)

/-- A buffer of a size that buffers can have is checked out. -/
theorem acquire_of_lt {size : Nat} (hsize : size < bufferBound) : l.acquire size
    = (.ok l.next,
        ⟨(l.pool.acquire size).2, (l.next, Bytes.zeros size) :: l.lent, l.next + 1⟩) := by
  unfold acquire
  simp only [ScratchPool.acquire_eq, if_pos hsize]

/-- None is of any other size, and the one it would have been made of is lost to the pool. -/
theorem acquire_of_le {size : Nat} (hsize : bufferBound ≤ size) :
    l.acquire size = (.error .capacity, { l with pool := (l.pool.acquire size).2 }) := by
  unfold acquire
  simp only [ScratchPool.acquire_eq, if_neg (Nat.not_lt.mpr hsize)]

/-- A buffer that was just checked out is blank, and no other has changed. -/
theorem get?_acquire (size : Nat) : (l.acquire size).2.get? k
    = if k = l.next ∧ size < bufferBound then some (Bytes.zeros size) else l.get? k := by
  by_cases hsize : size < bufferBound
  · simp only [acquire_of_lt l hsize, hsize, and_true]
    exact lookup_entry ..
  · rw [acquire_of_le l (Nat.not_lt.mp hsize), if_neg fun h => hsize h.2]
    rfl

/-- Buffers keep their numbers. -/
theorem numbers_update (f : Bytes → Bytes) :
    (l.update n f).lent.map Prod.fst = l.lent.map Prod.fst := by
  unfold update
  simp only
  rw [map_entry, List.map_map]
  rfl

/-- A write is to one buffer. -/
theorem get?_update (f : Bytes → Bytes) :
    (l.update n f).get? k = if k = n then (l.get? k).map f else l.get? k := by
  refine (lookup_map_entry n f l.lent k).trans ?_
  by_cases hk : k = n
  · simp only [hk, if_true, get?]
  · simp only [hk, if_false, Option.map_id', get?]

/-- A buffer that is out is given to the pool, and nothing is left under its number. -/
theorem release_eq {b : Bytes} (hn : l.get? n = some b) :
    l.release n = { l with pool := l.pool.release b, lent := l.lent.filter fun e => e.1 ≠ n } := by
  unfold release
  rw [hn]

/-- A buffer that was handed back is out no more. -/
theorem get?_release : (l.release n).get? k = if k = n then none else l.get? k := by
  unfold release
  cases hn : l.get? n with
  | none =>
    by_cases hk : k = n
    · rw [if_pos hk, hk]
      exact hn
    · rw [if_neg hk]
  | some b => exact lookup_filter n l.lent k

end Lookup

/-! ## 3. What a history tells -/

namespace Use

/-- The size of a buffer that is checked out. -/
@[simp] def size? : Use → Option Nat
  | acquire size => if size < bufferBound then some size else none
  | _ => none

/-- What is done to the buffer under a number. -/
@[simp] def change? (n : Nat) : Use → Option (Bytes → Bytes)
  | write k f => if k = n then some f else none
  | _ => none

/-- The number of a buffer that is handed back. -/
@[simp] def returned? : Use → Option Nat
  | release n => some n
  | _ => none

/-- How many buffers wait after a use. -/
@[simp] def waiting (maxIdle count : Nat) : Use → Nat
  | acquire _ => count - 1
  | write _ _ => count
  | release _ => min (count + 1) maxIdle

end Use

variable (maxIdle : Nat) (uses : List Use)

/-- The sizes of the buffers that were checked out, each at the place of its number. -/
def sizes : List Nat := uses.filterMap Use.size?

/-- What was written under a number. -/
def changes (n : Nat) : List (Bytes → Bytes) := uses.filterMap (Use.change? n)

/-- The numbers of the buffers that were handed back. -/
def returned : List Nat := uses.filterMap Use.returned?

/-- **What the buffer under a number holds:** zeros, and then what was written under the number.
Nothing once it was handed back. -/
def contents (n : Nat) : Option Bytes :=
  if n ∈ returned uses then none
  else (sizes uses)[n]?.map fun size => (changes uses n).foldl (fun b f => f b) (Bytes.zeros size)

/-- **How many buffers wait:** one less after each that was asked for, and one more after each
that was handed back, from none to the most that the pool keeps. -/
def counted : Nat := uses.foldl (Use.waiting maxIdle) 0

section Append

variable (u : Use)

/-- What a history tells use by use, after one more. -/
theorem filterMap_concat {δ : Type} (f : Use → Option δ) :
    (uses ++ [u]).filterMap f = uses.filterMap f ++ (f u).toList := by
  cases h : f u <;> simp [h]

@[simp] theorem sizes_append : sizes (uses ++ [u]) = sizes uses ++ u.size?.toList :=
  filterMap_concat uses u _

@[simp] theorem changes_append (n : Nat) :
    changes (uses ++ [u]) n = changes uses n ++ (u.change? n).toList :=
  filterMap_concat uses u _

@[simp] theorem returned_append :
    returned (uses ++ [u]) = returned uses ++ u.returned?.toList :=
  filterMap_concat uses u _

@[simp] theorem counted_append :
    counted maxIdle (uses ++ [u]) = u.waiting maxIdle (counted maxIdle uses) := by
  rw [counted, List.foldl_append]
  rfl

end Append

/-- What is written to a buffer is written to what it holds, and no other changes. -/
theorem contents_write (n : Nat) (f : Bytes → Bytes) (k : Nat) :
    contents (uses ++ [.write n f]) k
      = if k = n then (contents uses k).map f else contents uses k := by
  simp only [contents, sizes_append, changes_append, returned_append, Use.size?, Use.change?,
    Use.returned?, Option.toList_none, List.append_nil]
  by_cases hk : k = n
  · subst hk
    simp only [if_true, Option.toList_some, List.foldl_append, List.foldl_cons, List.foldl_nil]
    by_cases hreturned : k ∈ returned uses
    · rw [if_pos hreturned, if_pos hreturned]
      rfl
    · rw [if_neg hreturned, if_neg hreturned, Option.map_map]
      rfl
  · simp only [if_neg hk, if_neg (Ne.symm hk), Option.toList_none, List.append_nil]

/-- Nothing is held under a number that was handed back. -/
theorem contents_release (n k : Nat) :
    contents (uses ++ [.release n]) k = if k = n then none else contents uses k := by
  simp only [contents, sizes_append, changes_append, returned_append, Use.size?, Use.change?,
    Use.returned?, Option.toList_none, Option.toList_some, List.append_nil, List.mem_append,
    List.mem_singleton]
  by_cases hk : k = n
  · rw [if_pos (.inr hk), if_pos hk]
  · simp only [hk, or_false, if_false]

/-! ## 4. One use -/

/-- **What a pool has in common with its history.** -/
structure Kept (l : Lending) : Prop where
  room : l.pool.maxIdle = maxIdle
  bounded : l.pool.waiting ≤ maxIdle
  waiting : l.pool.waiting = counted maxIdle uses
  next : l.next = (sizes uses).length
  holding : ∀ n, l.get? n = contents uses n
  /-- No number is given to two buffers that are out. -/
  distinct : (l.lent.map Prod.fst).Nodup
  lent_lt : ∀ n ∈ l.lent.map Prod.fst, n < l.next
  /-- Under a number that is not given out yet, nothing was written. -/
  unwritten : ∀ n, l.next ≤ n → changes uses n = []
  returned_lt : ∀ n ∈ returned uses, n < l.next
  once : (returned uses).Nodup

theorem kept_new : Kept maxIdle [] (.new maxIdle) where
  room := rfl
  bounded := Nat.zero_le maxIdle
  waiting := rfl
  next := rfl
  holding _ := rfl
  distinct := List.nodup_nil
  lent_lt := nofun
  unwritten _ _ := rfl
  returned_lt := nofun
  once := List.nodup_nil

variable {maxIdle uses} {l : Lending}

namespace Kept

variable (h : Kept maxIdle uses l) {n : Nat} {b : Bytes}

include h

/-- A buffer that is out was not handed back. -/
theorem not_returned (hn : l.get? n = some b) : n ∉ returned uses := by
  intro hmem
  rw [h.holding, contents, if_pos hmem] at hn
  cases hn

/-- It has one of the numbers that were given out. -/
theorem lt_next (hn : l.get? n = some b) : n < l.next :=
  h.lent_lt n (List.mem_map_of_mem (mem_of_lookup hn))

/-- The buffer that is checked out holds zeros, and the others what they held. -/
theorem contents_acquire (size k : Nat) : contents (uses ++ [.acquire size]) k
    = if k = l.next ∧ size < bufferBound then some (Bytes.zeros size) else contents uses k := by
  simp only [contents, sizes_append, changes_append, returned_append, Use.size?, Use.change?,
    Use.returned?, Option.toList_none, List.append_nil]
  by_cases hsize : size < bufferBound
  · simp only [hsize, if_true, and_true, Option.toList_some]
    by_cases hk : k = l.next
    · have hnew : l.next ∉ returned uses := fun hmem => Nat.lt_irrefl _ (h.returned_lt _ hmem)
      have hblank := h.unwritten l.next (Nat.le_refl _)
      rw [if_pos hk, hk, if_neg hnew, hblank, h.next, List.getElem?_concat_length]
      rfl
    · rw [if_neg hk, List.getElem?_append]
      have hnext := h.next
      by_cases hlt : k < (sizes uses).length
      · rw [if_pos hlt]
      · rw [if_neg hlt, List.getElem?_eq_none (by simp; omega), List.getElem?_eq_none (by omega)]
  · simp only [hsize, if_false, and_false, Option.toList_none, List.append_nil]

/-- **A buffer is checked out** under a number that no use before was about. -/
theorem checkOut {size : Nat} (hsize : size < bufferBound) :
    Kept maxIdle (uses ++ [.acquire size]) (l.acquire size).2 where
  room := by
    rw [acquire_of_lt l hsize]
    exact (l.pool.maxIdle_acquire size).trans h.room
  bounded := by
    rw [acquire_of_lt l hsize]
    have hbounded := h.bounded
    rw [ScratchPool.waiting_acquire]
    omega
  waiting := by
    rw [acquire_of_lt l hsize, counted_append, ← h.waiting]
    exact l.pool.waiting_acquire size
  next := by simp [acquire_of_lt l hsize, hsize, h.next]
  holding k := by rw [get?_acquire, h.holding, h.contents_acquire]
  distinct := by
    rw [acquire_of_lt l hsize]
    exact List.nodup_cons.mpr ⟨fun hmem => Nat.lt_irrefl _ (h.lent_lt _ hmem), h.distinct⟩
  lent_lt := by
    rw [acquire_of_lt l hsize]
    intro k hk
    rcases List.mem_cons.mp hk with rfl | hk
    · exact Nat.lt_succ_self _
    · exact Nat.lt_succ_of_lt (h.lent_lt k hk)
  unwritten k hk := by
    rw [acquire_of_lt l hsize] at hk
    rw [changes_append, h.unwritten k (Nat.le_of_succ_le hk)]
    rfl
  returned_lt k hk := by
    rw [acquire_of_lt l hsize]
    exact Nat.lt_succ_of_lt (h.returned_lt k (by simpa using hk))
  once := by simpa using h.once

/-- **A buffer that is too large is not checked out,** and all that changes is how many wait. -/
theorem turnDown {size : Nat} (hsize : bufferBound ≤ size) :
    Kept maxIdle (uses ++ [.acquire size]) (l.acquire size).2 := by
  have hnone : (Use.acquire size).size? = none := if_neg (Nat.not_lt.mpr hsize)
  have hget := fun k => get?_acquire l k size
  rw [acquire_of_le l hsize] at hget ⊢
  exact {
    room := (l.pool.maxIdle_acquire size).trans h.room
    bounded := by
      have hbounded := h.bounded
      rw [ScratchPool.waiting_acquire]
      omega
    waiting := by
      rw [counted_append, ← h.waiting]
      exact l.pool.waiting_acquire size
    next := by
      rw [sizes_append, hnone, Option.toList_none, List.append_nil]
      exact h.next
    holding := fun k => by rw [hget, h.holding, h.contents_acquire]
    distinct := h.distinct
    lent_lt := h.lent_lt
    unwritten := fun k hk => by
      rw [changes_append, h.unwritten k hk]
      rfl
    returned_lt := fun k hk => h.returned_lt k (by simpa using hk)
    once := by simpa using h.once }

/-- **A buffer that is out is written to:** it holds what it is changed to, and the others what they
held. -/
theorem write (f : Bytes → Bytes) (hn : l.get? n = some b) :
    Kept maxIdle (uses ++ [.write n f]) (l.update n f) where
  room := h.room
  bounded := h.bounded
  waiting := by
    rw [counted_append, ← h.waiting]
    rfl
  next := by simp [Lending.update, h.next]
  holding k := by rw [get?_update, h.holding, contents_write]
  distinct := by
    rw [numbers_update]
    exact h.distinct
  lent_lt := by
    rw [numbers_update]
    exact h.lent_lt
  unwritten k hk := by
    have hlt : n < k := Nat.lt_of_lt_of_le (h.lt_next hn) hk
    rw [changes_append, h.unwritten k hk, Use.change?, if_neg (Nat.ne_of_lt hlt)]
    rfl
  returned_lt k hk := h.returned_lt k (by simpa using hk)
  once := by simpa using h.once

/-- **A buffer that is out is handed back,** and with that its number is not used any more. -/
theorem release (hn : l.get? n = some b) : Kept maxIdle (uses ++ [.release n]) (l.release n) := by
  have hroom : l.pool.waiting ≤ l.pool.maxIdle := h.room ▸ h.bounded
  have hwaiting := ScratchPool.waiting_release hroom b
  have hleft := (List.filter_sublist (l := l.lent) (p := fun e => e.1 ≠ n)).map Prod.fst
  rw [l.release_eq n hn]
  exact {
    room := (l.pool.maxIdle_release b).trans h.room
    bounded := by
      show (l.pool.release b).waiting ≤ maxIdle
      rw [hwaiting, h.room]
      exact Nat.min_le_right ..
    waiting := by
      show (l.pool.release b).waiting = _
      rw [hwaiting, h.room, h.waiting, counted_append]
      rfl
    next := by simp [h.next]
    holding := fun k => by
      rw [← l.release_eq n hn, get?_release, h.holding, contents_release]
    distinct := h.distinct.sublist hleft
    lent_lt := fun k hk => h.lent_lt k (hleft.subset hk)
    unwritten := fun k hk => by
      rw [changes_append, h.unwritten k hk]
      rfl
    returned_lt := fun k hk => by
      rcases List.mem_append.mp (returned_append uses _ ▸ hk) with hk | hk
      · exact h.returned_lt k hk
      · rw [List.mem_singleton.mp hk]
        exact h.lt_next hn
    once := by
      rw [returned_append]
      exact h.once.append (List.nodup_singleton n)
        (List.disjoint_singleton.mpr (h.not_returned hn)) }

/-- **Every use keeps a pool and its history in step.** -/
theorem step {u : Use} (hu : l.Allows u) : Kept maxIdle (uses ++ [u]) (l.step u) := by
  cases u with
  | acquire size => exact (Nat.lt_or_ge size bufferBound).elim h.checkOut h.turnDown
  | write n f =>
    obtain ⟨b, hb⟩ := hu
    exact h.write f hb
  | release n =>
    obtain ⟨b, hb⟩ := hu
    exact h.release hb

end Kept

/-- **A pool is what its history tells,** wherever a course has led it. -/
theorem Course.kept (h : Course maxIdle uses l) : Kept maxIdle uses l := by
  induction h with
  | start => exact kept_new maxIdle
  | use h hu ih => exact ih.step hu

/-- Two buffers come back to a pool with room for one. -/
example : counted 1 [.acquire 4, .acquire 4, .release 0, .release 1] = 1 := rfl

end Lending
end RasterWarp
