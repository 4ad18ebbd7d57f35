/-
# A fill by chunks is a fill by samples

`SampleType.fill` answers with a new buffer: one encoded sample over and over, and then the bytes
behind the last whole one.  A buffer that somebody else owns is filled in place, and there are two
ways to do it.

* By samples (`fillBySamples`): the value is encoded and written under every number.
* By chunks (`fillByChunks`): the value is encoded once, as sample 0, and the bytes that are there
  then are copied over every whole chunk behind it.

Chunks are counted from the end of sample 0 and samples from the start of the buffer, so the two
need not reach equally far.  They do, because both store one piece under the numbers of all whole
samples (`apply_storePieces`), and what comes of that is one closed form (`storeAll_range`).
`filled_alike` says so for every type and every buffer, and what the bytes are then.
-/
import RasterWarp.Proofs.SampleCodec
import RasterWarp.Proofs.SampleCopies

namespace RasterWarp

variable {α : Type}

/-! ## 1. One piece under many numbers -/

namespace Bytes

/-- Stores a piece of `k` bytes under a number, in place. -/
def storePiece (k : Nat) (piece : Bytes) (i : Nat) : InPlace Bytes α Unit := do
  let b ← get
  set (← inRange (α := α) (b.splice? (i * k) piece))

variable {k : Nat} {piece : Bytes} (hpiece : piece.size = k)

include hpiece

/-- A piece is stored wherever there is room for it. -/
theorem apply_storePiece {b : Bytes} {i : Nat} (hi : (i + 1) * k ≤ b.size) :
    (storePiece (α := α) k piece i).apply b = (.ok (), b.overwrite (i * k) piece) := by
  rw [Nat.succ_mul] at hi
  have hsplice : b.splice? (i * k) piece = some (b.overwrite (i * k) piece) := by
    rw [splice?, if_pos (by omega)]
  simp [storePiece, hsplice]

/-- **A piece stored under many numbers,** one after the other. -/
theorem apply_storePieces : ∀ (indices : List Nat) (b : Bytes),
    (∀ i ∈ indices, (i + 1) * k ≤ b.size) →
      (forM indices (storePiece (α := α) k piece)).apply b
        = (.ok (), storeAll k b (indices.map (·, piece)))
  | [], _, _ => rfl
  | i :: indices, b, hroom => by
    have hfirst := apply_storePiece (α := α) hpiece (hroom i List.mem_cons_self)
    have hrest := apply_storePieces indices (b.overwrite (i * k) piece) fun j hj => by
      rw [size_overwrite]
      exact hroom j (List.mem_cons_of_mem i hj)
    rw [List.forM_cons, InPlace.apply_bind, hfirst]
    exact hrest

/-- Under the first numbers, it makes up the beginning of the buffer. -/
theorem storeAll_range (b : Bytes) (n : Nat) :
    storeAll k b ((List.range n).map (·, piece)) = b.overwrite 0 (concat n fun _ => piece) := by
  induction n with
  | zero => rfl
  | succ n ih =>
    have hcarried := b.overwrite_append (concat n fun _ => piece) piece
    rw [size_concat fun _ => hpiece] at hcarried
    rw [List.range_succ, List.map_append, storeAll_append, ih, concat_succ]
    exact hcarried

/-- In whatever order it is stored under them. -/
theorem storeAll_of_perm {b : Bytes} {indices : List Nat} {n : Nat}
    (h : indices.Perm (List.range n)) (hroom : n * k ≤ b.size) :
    storeAll k b (indices.map (·, piece)) = b.overwrite 0 (concat n fun _ => piece) := by
  have hfst : (indices.map (·, piece)).map Prod.fst = indices := by
    rw [List.map_map]
    exact List.map_id indices
  have hstorable : Storable k b (indices.map (·, piece)) := by
    refine ⟨fun w hw => ?_, fun w hw => ?_, ?_⟩
    · obtain ⟨i, -, rfl⟩ := List.mem_map.mp hw
      exact hpiece
    · obtain ⟨i, hi, rfl⟩ := List.mem_map.mp hw
      have hend := end_le_start (List.mem_range.mp (h.mem_iff.mp hi)) k
      rw [Nat.succ_mul]
      exact Nat.le_trans hend hroom
    · rw [hfst]
      exact h.nodup_iff.mpr List.nodup_range
  rw [storeAll_perm hstorable (h.map _), storeAll_range hpiece]

end Bytes

/-! ## 2. Two ways to fill a buffer -/

namespace SampleType

/-- Writes a value as the sample under a number, in place. -/
def writeSample (t : SampleType) (v : Binary64) (i : Nat) : InPlace Bytes α Unit := do
  let b ← get
  set (← inRange (α := α) (t.set? b i v))

/-- **Fills a buffer by samples:** writes a value under every one of some numbers. -/
def fillBySamples (t : SampleType) (v : Binary64) (indices : List Nat) : InPlace Bytes α Unit :=
  forM indices (t.writeSample v)

/-- Copies the first sample over a chunk of what follows it. -/
def copyChunk (size : Nat) (first : Bytes) (chunk : Nat) : InPlace Bytes α Unit := do
  let b ← get
  set (← inRange (α := α) (b.splice? (size + chunk * size) first))

/-- **Fills a buffer by chunks:** writes a value as sample 0, and copies that sample over every
whole chunk behind it. -/
def fillByChunks (t : SampleType) (v : Binary64) : InPlace Bytes α Unit := do
  let b ← get
  if t.size = 0 ∨ b.size < t.size then pure ()
  else do
    t.writeSample v 0
    let written ← get
    let first ← inRange (α := α) (written.slice? 0 t.size)
    forM (List.range ((b.size - t.size) / t.size)) (copyChunk t.size first)

theorem writeSample_eq (t : SampleType) (v : Binary64) :
    t.writeSample (α := α) v = Bytes.storePiece t.size (t.encode v) := rfl

/-- A chunk behind the first sample is the sample with the next number. -/
theorem copyChunk_eq (size : Nat) (first : Bytes) (chunk : Nat) :
    copyChunk (α := α) size first chunk = Bytes.storePiece size first (chunk + 1) := by
  unfold copyChunk Bytes.storePiece
  rw [Nat.succ_mul, Nat.add_comm]

variable (t : SampleType) (b : Bytes) (v : Binary64)

/-- A filled buffer is one that was written to from its start on. -/
theorem fill_eq_overwrite :
    t.fill b v = b.overwrite 0 (Bytes.concat (b.size / t.size) fun _ => t.encode v) := by
  have hsize : (Bytes.concat (b.size / t.size) fun _ => t.encode v).size
      = b.size / t.size * t.size := Bytes.size_concat fun _ => size_encode t v
  rw [Bytes.overwrite_zero (hsize ▸ Nat.div_mul_le_self ..), hsize, fill]
  split
  · rename_i hzero
    rw [hzero, Nat.mul_zero, Nat.div_zero]
    simp [Bytes.concat]
  · rfl

/-- **A fill by samples,** in whatever order. -/
theorem apply_fillBySamples {indices : List Nat}
    (h : indices.Perm (List.range (b.size / t.size))) :
    (t.fillBySamples (α := α) v indices).apply b = (.ok (), t.fill b v) := by
  have hencode := size_encode t v
  have hroom : ∀ i ∈ indices, (i + 1) * t.size ≤ b.size := fun i hi => by
    have hend := end_le_start (List.mem_range.mp (h.mem_iff.mp hi)) t.size
    rw [Nat.succ_mul]
    exact Nat.le_trans hend (Nat.div_mul_le_self ..)
  rw [fillBySamples, writeSample_eq, Bytes.apply_storePieces hencode indices b hroom,
    Bytes.storeAll_of_perm hencode h (Nat.div_mul_le_self ..), fill_eq_overwrite]

/-- Behind the first sample there are as many chunks as there are more samples. -/
theorem chunks_add_one (hpos : 0 < t.size) (hroom : t.size ≤ b.size) :
    (b.size - t.size) / t.size + 1 = b.size / t.size := by
  rw [← Nat.add_div_right _ hpos, Nat.sub_add_cancel hroom]

/-- **A fill by chunks** takes the steps of one by samples: what it copies is what a sample is
encoded as, for it was put there by the first step. -/
theorem apply_fillByChunks_eq : (t.fillByChunks (α := α) v).apply b
    = (t.fillBySamples v (List.range (b.size / t.size))).apply b := by
  by_cases hnone : t.size = 0 ∨ b.size < t.size
  · have hcount : b.size / t.size = 0 :=
      hnone.elim (fun hzero => by rw [hzero, Nat.div_zero]) Nat.div_eq_of_lt
    rw [hcount]
    simp [fillByChunks, fillBySamples, hnone]
  · have hpos : 0 < t.size := by omega
    have hroom : t.size ≤ b.size := by omega
    have hencode := size_encode t v
    have hfirst : (t.writeSample (α := α) v 0).apply b = (.ok (), b.overwrite 0 (t.encode v)) := by
      have happly := Bytes.apply_storePiece (α := α) hencode (b := b) (i := 0) (by omega)
      rwa [Nat.zero_mul] at happly
    have hslice : (b.overwrite 0 (t.encode v)).slice? 0 t.size = some (t.encode v) := by
      have hinside : (b.overwrite 0 (t.encode v)).slice? (0 + 0) t.size
          = (t.encode v).slice? 0 t.size :=
        Bytes.slice?_overwrite_inside (by omega) (by omega)
      rw [Nat.zero_add] at hinside
      rw [hinside, ← hencode, Bytes.slice?_self]
    have hchunks : copyChunk (α := α) t.size (t.encode v)
        = fun chunk => t.writeSample v (chunk + 1) :=
      funext fun chunk => copyChunk_eq t.size (t.encode v) chunk
    rw [← chunks_add_one t b hpos hroom, fillBySamples, List.range_succ_eq_map, List.forM_cons,
      List.forM_map]
    simp [fillByChunks, hnone, hfirst, hslice, hchunks]

/-! ## 3. The bytes of a filled buffer -/

/-- The bytes behind the last whole sample are those of before. -/
theorem getElem?_fill_behind {j : Nat} (hj : b.size / t.size * t.size ≤ j) :
    (t.fill b v)[j]? = b[j]? := by
  have hsize : (Bytes.concat (b.size / t.size) fun _ => t.encode v).size
      = b.size / t.size * t.size := Bytes.size_concat fun _ => size_encode t v
  rw [fill_eq_overwrite, Bytes.getElem?_overwrite, hsize, if_neg (by omega)]

/-- A buffer without a whole sample stays as it is. -/
theorem fill_of_short (h : t = .unknown ∨ b.size < t.size) : t.fill b v = b := by
  have hcount : b.size / t.size = 0 := by
    rcases h with rfl | hshort
    · exact Nat.div_zero _
    · exact Nat.div_eq_of_lt hshort
  rw [fill_eq_overwrite, hcount]
  rfl

/-- **A complex sample** is its number and a zero of the same size. -/
theorem encode_of_isComplex {f : NumberFormat} (hf : t.number? = some f) (h : t.isComplex = true) :
    t.encode v = (Bytes.ofNat f.size (f.encode v)).toArray ++ Bytes.zeros f.size := by
  have hsize : t.size = f.size + f.size := by rw [size_eq hf, if_pos h]
  have hnumber : (Bytes.ofNat f.size (f.encode v)).toArray.size = f.size := by simp
  refine Array.ext_getElem? fun i => ?_
  by_cases hi : i < f.size
  · rw [Array.getElem?_append_left (by omega), encode_eq hf, hsize,
      ← Bytes.take_ofNat f.size f.size, List.getElem?_toArray, List.getElem?_toArray,
      List.getElem?_take_of_lt hi]
  · rw [Array.getElem?_append_right (by omega), hnumber]
    by_cases hin : i < t.size
    · rw [getElem?_encode hf v (by omega) hin, Bytes.zeros, Array.getElem?_replicate,
        if_pos (by omega)]
    · rw [Array.getElem?_eq_none (by rw [size_encode]; omega),
        Array.getElem?_eq_none (by rw [Bytes.size_zeros]; omega)]

/-- **A fill by chunks and one by samples leave the same.**  Take a buffer of any length, samples of
any type and any value.

* Both ways to fill the buffer complete, and leave what the function gives, in whatever order the
  samples are written.
* The buffer keeps its size.  Every whole sample holds the encoded value, which for a complex type
  is the number and a zero; the bytes behind the last whole sample are as before.
* Samples of an unknown type are not filled, nor is a buffer shorter than one sample. -/
theorem filled_alike (α : Type) (t : SampleType) (b : Bytes) (v : Binary64) :
    (t.fillByChunks (α := α) v).apply b = (.ok (), t.fill b v) ∧
      (∀ indices : List Nat, indices.Perm (List.range (b.size / t.size)) →
        (t.fillBySamples (α := α) v indices).apply b = (.ok (), t.fill b v)) ∧
      (t.fill b v).size = b.size ∧
      (∀ i < b.size / t.size, (t.fill b v).piece? t.size i = some (t.encode v)) ∧
      (∀ f, t.number? = some f → t.isComplex = true →
        t.encode v = (Bytes.ofNat f.size (f.encode v)).toArray ++ Bytes.zeros f.size) ∧
      (∀ j, b.size / t.size * t.size ≤ j → (t.fill b v)[j]? = b[j]?) ∧
      (t = .unknown ∨ b.size < t.size → t.fill b v = b) := by
  refine ⟨?_, fun indices h => t.apply_fillBySamples b v h, t.size_fill b v, fun i hi => ?_,
    fun f hf h => t.encode_of_isComplex v hf h, fun j hj => t.getElem?_fill_behind b v hj,
    t.fill_of_short b v⟩
  · rw [apply_fillByChunks_eq]
    exact t.apply_fillBySamples b v (.refl _)
  · have hpos : 0 < t.size := Nat.pos_of_ne_zero fun hzero => by
      rw [hzero, Nat.div_zero] at hi
      exact Nat.not_lt_zero i hi
    exact piece?_fill hpos v ((Nat.le_div_iff_mul_le hpos).mp hi)

/-- Two complex samples, and half of a third. -/
example : SampleType.cint16.fill (Array.replicate 10 9) (.ofInt 3)
    = #[3, 0, 0, 0, 3, 0, 0, 0, 9, 9] := by decide

end SampleType
end RasterWarp
