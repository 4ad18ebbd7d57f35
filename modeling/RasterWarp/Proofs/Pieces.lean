/-
# Buffers cut into pieces

A buffer of samples is a sequence of pieces of one size `k`, and `piece?` is the piece under a
number.  All that later modules need to know of reading and writing buffers is said here through
that view, so that no byte offset is computed anywhere else:

* `piece?_overwrite`: a run of whole pieces written at once is what is read back, and all other
  pieces stay as they were;
* `piece?_slice?`: a run of whole pieces taken out holds the pieces it was taken from;
* `piece?_fill`: a filled buffer holds one encoded value in every piece.

A list of single pieces to write (`storeAll`) then acts like a map from numbers to pieces: if no
number occurs twice, the order does not matter (`storeAll_perm`) and every piece written is found
(`piece?_storeAll_of_mem`, `piece?_storeAll_of_not_mem`).
-/
import RasterWarp.Sample
import Mathlib.Data.List.Perm.Basic
import Mathlib.Data.List.Nodup

namespace RasterWarp

/-- Of equal parts one after the other, each ends before a later one starts. -/
theorem end_le_start {i j : Nat} (h : i < j) (k : Nat) : i * k + k ≤ j * k := by
  rw [← Nat.succ_mul]
  exact Nat.mul_le_mul_right k h

namespace Bytes

/-! ## 1. Bytes of a buffer that was written to -/

/-- Writing byte by byte changes the bytes that are written, where the buffer has them. -/
theorem getElem?_foldl_set : ∀ (piece : List UInt8) (start : Nat) (b : Bytes) (i : Nat),
    ((piece.zipIdx start).foldl (fun b (byte, i) => b.setIfInBounds i byte) b)[i]?
      = if start ≤ i ∧ i < start + piece.length ∧ i < b.size then piece[i - start]? else b[i]?
  | [], start, b, i => by
    rw [if_neg (by simp only [List.length_nil]; omega)]
    rfl
  | byte :: piece, start, b, i => by
    rw [List.zipIdx_cons, List.foldl_cons, getElem?_foldl_set piece (start + 1)]
    simp only [Array.size_setIfInBounds, List.length_cons, Array.getElem?_setIfInBounds]
    by_cases hi : start = i
    · subst hi
      by_cases hb : start < b.size
      · rw [if_neg (by omega), if_pos rfl, if_pos hb, if_pos (by omega)]
        simp
      · rw [if_neg (by omega), if_pos rfl, if_neg hb, if_neg (by omega)]
        rw [Array.getElem?_eq_none (by omega)]
    · rw [if_neg hi]
      by_cases hin : start + 1 ≤ i ∧ i < start + 1 + piece.length ∧ i < b.size
      · rw [if_pos hin, if_pos (by omega)]
        obtain ⟨j, rfl⟩ : ∃ j, i = start + 1 + j := ⟨i - (start + 1), by omega⟩
        rw [show start + 1 + j - (start + 1) = j by omega,
          show start + 1 + j - start = j + 1 by omega, List.getElem?_cons_succ]
      · rw [if_neg hin, if_neg (by omega)]

theorem getElem?_overwrite (b : Bytes) (start : Nat) (piece : Bytes) (i : Nat) :
    (b.overwrite start piece)[i]?
      = if start ≤ i ∧ i < start + piece.size ∧ i < b.size then piece[i - start]? else b[i]? := by
  have h := getElem?_foldl_set piece.toList start b i
  rw [Array.length_toList, Array.getElem?_toList] at h
  rw [overwrite, ← Array.foldl_toList, Array.toList_zipIdx]
  exact h

/-- **Writes to separate places commute.** -/
theorem overwrite_comm (b : Bytes) {p q : Bytes} {i j : Nat}
    (h : i + p.size ≤ j ∨ j + q.size ≤ i) :
    (b.overwrite i p).overwrite j q = (b.overwrite j q).overwrite i p := by
  apply Array.ext_getElem?
  intro n
  simp only [getElem?_overwrite, size_overwrite]
  by_cases hp : i ≤ n ∧ n < i + p.size ∧ n < b.size
  · have hq : ¬ (j ≤ n ∧ n < j + q.size ∧ n < b.size) := by omega
    rw [if_neg hq, if_pos hp, if_pos hp]
  · rw [if_neg hp, if_neg hp]

/-! ## 2. Slices -/

/-- Slices are equal if their bytes are, and if both or neither are inside. -/
theorem slice?_congr {b b' : Bytes} {i j n : Nat} (hin : i + n ≤ b.size ↔ j + n ≤ b'.size)
    (h : ∀ m < n, b[i + m]? = b'[j + m]?) : b.slice? i n = b'.slice? j n := by
  unfold slice?
  by_cases hb : i + n ≤ b.size
  · rw [if_pos hb, if_pos (hin.mp hb)]
    congr 1
    apply Array.ext_getElem?
    intro m
    rw [Array.getElem?_extract, Array.getElem?_extract]
    have hb' := hin.mp hb
    by_cases hm : m < n
    · rw [if_pos (by omega), if_pos (by omega), h m hm]
    · rw [if_neg (by omega), if_neg (by omega)]
  · rw [if_neg hb, if_neg (fun hb' => hb (hin.mpr hb'))]

theorem slice?_eq_some (b : Bytes) {i n : Nat} (h : i + n ≤ b.size) :
    b.slice? i n = some (b.extract i (i + n)) := if_pos h

/-- A slice that exists is inside. -/
theorem le_size_of_slice? {b part : Bytes} {i n : Nat} (h : b.slice? i n = some part) :
    i + n ≤ b.size := by
  unfold slice? at h
  split at h
  · assumption
  · cases h

theorem getElem?_of_slice? {b part : Bytes} {i n m : Nat} (h : b.slice? i n = some part)
    (hm : m < n) : part[m]? = b[i + m]? := by
  have hin := le_size_of_slice? h
  rw [slice?_eq_some b hin, Option.some_inj] at h
  rw [← h, Array.getElem?_extract, if_pos (by omega)]

/-- The whole of a buffer is a slice of it. -/
theorem slice?_self (b : Bytes) : b.slice? 0 b.size = some b := by
  rw [slice?_eq_some b (by omega)]
  simp

/-- **A slice of a slice** is a slice of the whole. -/
theorem slice?_slice? {b part : Bytes} {i n j m : Nat} (h : b.slice? i n = some part)
    (hj : j + m ≤ n) : part.slice? j m = b.slice? (i + j) m := by
  have hb := le_size_of_slice? h
  have hs := size_of_slice? h
  refine slice?_congr (by omega) fun x hx => ?_
  rw [getElem?_of_slice? h (by omega), Nat.add_assoc]

/-- Inside a write stands what was written. -/
theorem slice?_overwrite_inside {b piece : Bytes} {start i n : Nat}
    (fits : start + piece.size ≤ b.size) (h : i + n ≤ piece.size) :
    (b.overwrite start piece).slice? (start + i) n = piece.slice? i n := by
  refine slice?_congr (by rw [size_overwrite]; omega) fun m hm => ?_
  rw [getElem?_overwrite, if_pos (by omega)]
  congr 1
  omega

/-- Outside a write nothing changes. -/
theorem slice?_overwrite_outside {b piece : Bytes} {start i n : Nat}
    (h : i + n ≤ start ∨ start + piece.size ≤ i) :
    (b.overwrite start piece).slice? i n = b.slice? i n := by
  refine slice?_congr (by rw [size_overwrite]) fun m hm => ?_
  rw [getElem?_overwrite, if_neg (by omega)]

/-! ## 3. Pieces -/

/-- **Piece number `i`** of a buffer cut into pieces of `k` bytes. -/
def piece? (b : Bytes) (k i : Nat) : Option Bytes := b.slice? (i * k) k

theorem size_of_piece? {b part : Bytes} {k i : Nat} (h : b.piece? k i = some part) :
    part.size = k := size_of_slice? h

/-- A buffer of one piece is that piece. -/
theorem piece?_zero {b : Bytes} {k : Nat} (h : b.size = k) : b.piece? k 0 = some b := by
  rw [piece?, Nat.zero_mul, ← h, slice?_self]

theorem piece?_isSome {b : Bytes} {k i : Nat} (h : (i + 1) * k ≤ b.size) :
    ∃ part, b.piece? k i = some part := by
  rw [Nat.add_mul, Nat.one_mul] at h
  exact ⟨_, slice?_eq_some b h⟩

/-- A run of pieces taken out holds the pieces it was taken from. -/
theorem piece?_slice? {b part : Bytes} {k j m i : Nat}
    (h : b.slice? (j * k) (m * k) = some part) (hi : i < m) :
    part.piece? k i = b.piece? k (j + i) := by
  rw [piece?, slice?_slice? h (end_le_start hi k), piece?, Nat.add_mul]

/-- **A run of `m` pieces written at piece `j`** is found there, and the other pieces stay. -/
theorem piece?_overwrite {b run : Bytes} {k j m : Nat} (hrun : run.size = m * k)
    (fits : (j + m) * k ≤ b.size) (i : Nat) :
    (b.overwrite (j * k) run).piece? k i
      = if j ≤ i ∧ i < j + m then run.piece? k (i - j) else b.piece? k i := by
  rw [Nat.add_mul] at fits
  unfold piece?
  split
  · rename_i h
    obtain ⟨d, rfl⟩ : ∃ d, i = j + d := ⟨i - j, by omega⟩
    have hd := end_le_start (show d < m by omega) k
    rw [Nat.add_mul, Nat.add_sub_cancel_left,
      slice?_overwrite_inside (by omega) (by omega)]
  · rename_i h
    refine slice?_overwrite_outside ?_
    rcases Nat.lt_or_ge i j with hi | hi
    · exact Or.inl (end_le_start hi k)
    · have := Nat.mul_le_mul_right k (show j + m ≤ i by omega)
      rw [Nat.add_mul] at this
      exact Or.inr (by omega)

/-- **One piece written** is found under its number, and the other pieces stay. -/
theorem piece?_overwrite_one {b part : Bytes} {k i : Nat} (hpart : part.size = k)
    (fits : (i + 1) * k ≤ b.size) (j : Nat) :
    (b.overwrite (i * k) part).piece? k j = if j = i then some part else b.piece? k j := by
  rw [piece?_overwrite (hpart.trans (Nat.one_mul k).symm) fits]
  by_cases h : j = i
  · subst h
    rw [if_pos (by omega), if_pos rfl, Nat.sub_self, piece?_zero hpart]
  · rw [if_neg (by omega), if_neg h]

/-- Pieces put one after the other are found under their numbers. -/
theorem piece?_concat_append {k : Nat} {f : Nat → Bytes} (hf : ∀ i, (f i).size = k) :
    ∀ (n : Nat) (rest : Bytes) (i : Nat), i < n →
      (concat n f ++ rest).piece? k i = some (f i)
  | 0, _, _, hi => absurd hi (by omega)
  | n + 1, rest, i, hi => by
    have hsplit : concat (n + 1) f ++ rest = concat n f ++ (f n ++ rest) := by
      simp only [concat, List.range_succ, List.foldl_append, List.foldl_cons, List.foldl_nil,
        Array.append_assoc]
    rw [hsplit]
    rcases Nat.lt_or_ge i n with h | h
    · exact piece?_concat_append hf n _ i h
    · obtain rfl : i = n := by omega
      have hsize : (concat i f).size = i * k := size_concat hf
      have hpiece : (f i).slice? 0 k = some (f i) := by rw [← hf i, slice?_self]
      rw [piece?, ← hpiece]
      refine slice?_congr (by simp only [Array.size_append, hsize, hf]; omega) fun m hm => ?_
      rw [Array.getElem?_append_right (by omega), hsize, Nat.add_sub_cancel_left, Nat.zero_add,
        Array.getElem?_append_left (by rw [hf]; omega)]

/-! ## 4. Lists of pieces to write -/

/-- **Writes single pieces,** each under its number. -/
def storeAll (k : Nat) (b : Bytes) (writes : List (Nat × Bytes)) : Bytes :=
  writes.foldl (fun b w => b.overwrite (w.1 * k) w.2) b

/-- Writes that a buffer takes: whole pieces, all of them inside, no number twice. -/
structure Storable (k : Nat) (b : Bytes) (writes : List (Nat × Bytes)) : Prop where
  whole : ∀ w ∈ writes, w.2.size = k
  inside : ∀ w ∈ writes, (w.1 + 1) * k ≤ b.size
  distinct : (writes.map Prod.fst).Nodup

@[simp] theorem size_storeAll (k : Nat) : ∀ (writes : List (Nat × Bytes)) (b : Bytes),
    (storeAll k b writes).size = b.size
  | [], _ => rfl
  | w :: writes, b => by
    rw [storeAll, List.foldl_cons, ← storeAll, size_storeAll k writes, size_overwrite]

theorem storeAll_append (k : Nat) (b : Bytes) (l l' : List (Nat × Bytes)) :
    storeAll k b (l ++ l') = storeAll k (storeAll k b l) l' := List.foldl_append

/-- Two pieces under different numbers can be written in either order. -/
theorem overwrite_piece_comm {k i j : Nat} {b p q : Bytes} (hp : p.size = k) (hq : q.size = k)
    (hne : i ≠ j) :
    (b.overwrite (i * k) p).overwrite (j * k) q
      = (b.overwrite (j * k) q).overwrite (i * k) p := by
  refine overwrite_comm b ?_
  rcases Nat.lt_or_gt_of_ne hne with h | h
  · exact Or.inl (hp.symm ▸ end_le_start h k)
  · exact Or.inr (hq.symm ▸ end_le_start h k)

/-- **The order of the writes does not matter.** -/
theorem storeAll_perm {k : Nat} {b : Bytes} {l l' : List (Nat × Bytes)} (h : Storable k b l)
    (hp : l.Perm l') : storeAll k b l = storeAll k b l' := by
  refine hp.foldl_eq' (fun w hw w' hw' b => ?_) b
  by_cases heq : w = w'
  · rw [heq]
  · refine (overwrite_piece_comm (h.whole w hw) (h.whole w' hw') fun hfst => heq ?_)
    exact List.inj_on_of_nodup_map h.distinct hw hw' hfst

/-- A piece that is not written stays. -/
theorem piece?_storeAll_of_not_mem {k i : Nat} : ∀ (writes : List (Nat × Bytes)) (b : Bytes),
    (∀ w ∈ writes, w.2.size = k) → (∀ w ∈ writes, (w.1 + 1) * k ≤ b.size) →
      i ∉ writes.map Prod.fst → (storeAll k b writes).piece? k i = b.piece? k i
  | [], _, _, _, _ => rfl
  | w :: writes, b, hs, hb, hi => by
    rw [List.map_cons, List.mem_cons, not_or] at hi
    rw [storeAll, List.foldl_cons, ← storeAll,
      piece?_storeAll_of_not_mem writes _ (fun w' hw' => hs w' (List.mem_cons_of_mem _ hw'))
        (fun w' hw' => by rw [size_overwrite]; exact hb w' (List.mem_cons_of_mem _ hw')) hi.2]
    rw [piece?_overwrite_one (hs w List.mem_cons_self) (hb w List.mem_cons_self), if_neg hi.1]

/-- **A piece that is written is found.** -/
theorem piece?_storeAll_of_mem {k i : Nat} {b part : Bytes} {writes : List (Nat × Bytes)}
    (h : Storable k b writes) (hw : (i, part) ∈ writes) :
    (storeAll k b writes).piece? k i = some part := by
  obtain ⟨l, l', rfl⟩ := List.append_of_mem hw
  -- the write can be taken last, since no number occurs twice
  have hp : (l ++ (i, part) :: l').Perm ((l ++ l') ++ [(i, part)]) :=
    List.perm_middle.trans (List.perm_append_singleton _ _).symm
  rw [storeAll_perm h hp, storeAll_append]
  have hb : (i + 1) * k ≤ (storeAll k b (l ++ l')).size := by
    rw [size_storeAll]
    exact h.inside _ hw
  rw [storeAll, List.foldl_cons, List.foldl_nil, piece?_overwrite_one (h.whole _ hw) hb,
    if_pos rfl]

end Bytes

namespace SampleType

open Bytes

/-- **A filled buffer** holds the value in every whole sample. -/
theorem piece?_fill {t : SampleType} (ht : 0 < t.size) {b : Bytes} (v : Binary64) {i : Nat}
    (hi : (i + 1) * t.size ≤ b.size) : (t.fill b v).piece? t.size i = some (t.encode v) := by
  rw [fill, if_neg (by omega)]
  exact piece?_concat_append (fun _ => size_encode t v) _ _ i
    ((Nat.le_div_iff_mul_le ht).mpr hi)

@[simp] theorem size_fill (t : SampleType) (b : Bytes) (v : Binary64) :
    (t.fill b v).size = b.size := by
  unfold fill
  split
  · rfl
  · have := Nat.div_mul_le_self b.size t.size
    simp only [Array.size_append, Array.size_extract, size_concat fun _ => size_encode t v]
    omega

end SampleType
end RasterWarp
