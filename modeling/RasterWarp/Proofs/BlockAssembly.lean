/-
# Blocks put together again

A layer cuts a block out by rows of its own samples; `Tiling.locate` computes where a pixel lies in
its block.  The two know nothing of each other, and blocks may be cut at the right and lower edge or
be larger than the raster.  Here they are held against each other byte by byte, for a block that is
read into a buffer in place.

* `apply_readInto`: reading in place is `Layer.fetch`, and a read that is refused leaves the buffer
  and the count as they were, for everything that can be refused is looked at before the first byte
  is written.  It is refused with a failure where the numbers that are looked at are words (`Told`).
* `BlockOf`: a buffer that holds a block has the stored sample of every pixel of the block where
  `locate` says, and no other byte in it is set, whatever it held.  `blockOf_copyBlock` says that a
  block read is of this kind.
* `readAll` reads all blocks into one buffer and takes each sample from where `locate` says.
  The raster that comes of it is the one that the layer holds.
-/
import RasterWarp.Proofs.PixelReference
import RasterWarp.Proofs.PartialWrites

namespace RasterWarp

open Numeral (wordBound)

/-! ## 1. Columns and rows of blocks -/

namespace Tiling

variable (g : Tiling) {xb yb : Nat}

/-- A block has a column of the tiling exactly if the raster reaches into it. -/
theorem lt_columns_iff : xb < g.columns ↔ xb * g.blockWidth < g.rasterWidth := by
  have hpos := g.blockWidth_pos
  rw [columns, Nat.lt_iff_add_one_le, Nat.le_div_iff_mul_le hpos, Nat.add_mul]
  omega

theorem lt_rows_iff : yb < g.rows ↔ yb * g.blockHeight < g.rasterHeight := by
  have hpos := g.blockHeight_pos
  rw [rows, Nat.lt_iff_add_one_le, Nat.le_div_iff_mul_le hpos, Nat.add_mul]
  omega

/-- The column and row of a block can be told from its number. -/
theorem position?_index (hx : xb < g.columns) (yb : Nat) :
    g.position? (g.index xb yb) = some (xb, yb) := by
  have hpos : 0 < g.columns := Nat.lt_of_le_of_lt (Nat.zero_le _) hx
  rw [position?, if_neg (by omega), index, Nat.add_mul_mod_self_right, Nat.mod_eq_of_lt hx,
    Nat.add_mul_div_right _ _ hpos, Nat.div_eq_of_lt hx, Nat.zero_add]

/-- A block under a number that the tiling has. -/
theorem position?_of_lt {b : Nat} (h : b < g.blockCount) :
    ∃ xb yb, g.position? b = some (xb, yb) ∧ xb < g.columns ∧ yb < g.rows ∧ g.index xb yb = b := by
  have hpos : 0 < g.columns := by
    refine Nat.pos_of_ne_zero fun hzero => ?_
    rw [blockCount, hzero, Nat.zero_mul] at h
    exact Nat.not_lt_zero _ h
  refine ⟨b % g.columns, b / g.columns, ?_, Nat.mod_lt b hpos, Nat.div_lt_of_lt_mul h, ?_⟩
  · rw [position?, if_neg (by omega)]
  · rw [index, Nat.mul_comm, Nat.mod_add_div]

/-- **The pixel at a place of a block** is located there. -/
theorem locate_of_place {c r : Nat} (hc : c < g.blockWidth) (hr : r < g.blockHeight) (xb yb : Nat) :
    g.locate (xb * g.blockWidth + c) (yb * g.blockHeight + r)
      = (g.index xb yb, c + r * g.blockWidth) := by
  have hx : (xb * g.blockWidth + c) / g.blockWidth = xb := by
    rw [Nat.add_comm, Nat.add_mul_div_right _ _ g.blockWidth_pos, Nat.div_eq_of_lt hc, Nat.zero_add]
  have hy : (yb * g.blockHeight + r) / g.blockHeight = yb := by
    rw [Nat.add_comm, Nat.add_mul_div_right _ _ g.blockHeight_pos, Nat.div_eq_of_lt hr,
      Nat.zero_add]
  have hx' : (xb * g.blockWidth + c) % g.blockWidth = c := by
    rw [Nat.add_comm, Nat.add_mul_mod_self_right, Nat.mod_eq_of_lt hc]
  have hy' : (yb * g.blockHeight + r) % g.blockHeight = r := by
    rw [Nat.add_comm, Nat.add_mul_mod_self_right, Nat.mod_eq_of_lt hr]
  rw [locate, hx, hy, hx', hy']

/-- A pixel that is located in a block has the block's column and row. -/
theorem div_eq_of_locate {x y o : Nat} (hx : x < g.rasterWidth) (hxb : xb < g.columns)
    (h : g.locate x y = (g.index xb yb, o)) : x / g.blockWidth = xb ∧ y / g.blockHeight = yb := by
  have hplace := g.position?_locate hx y
  rw [h, g.position?_index hxb] at hplace
  obtain ⟨rfl, rfl⟩ := Prod.mk.inj (Option.some.inj hplace)
  exact ⟨rfl, rfl⟩

/-- The block of a pixel is one of the tiling's. -/
theorem locate_fst_lt {x y : Nat} (hx : x < g.rasterWidth) (hy : y < g.rasterHeight) :
    (g.locate x y).1 < g.blockCount :=
  add_mul_lt (g.div_lt_columns hx) (g.div_lt_rows hy)

end Tiling

/-! ## 2. Bytes of a block -/

namespace Bytes

/-- **Buffers of the same pieces are equal.** -/
theorem ext_piece? {b b' : Bytes} {n k : Nat} (hb : b.size = n * k) (hb' : b'.size = n * k)
    (h : ∀ i < n, b.piece? k i = b'.piece? k i) : b = b' := by
  refine Array.ext_getElem? fun j => ?_
  by_cases hj : j < n * k
  · have hk : 0 < k := by
      refine Nat.pos_of_ne_zero fun hzero => ?_
      rw [hzero, Nat.mul_zero] at hj
      exact Nat.not_lt_zero j hj
    have hi : j / k < n := (Nat.div_lt_iff_lt_mul hk).mpr hj
    have hend := end_le_start hi k
    obtain ⟨part, hpart⟩ := piece?_isSome (b := b) (k := k) (i := j / k) (by
      rw [hb, Nat.add_mul, Nat.one_mul]
      exact hend)
    have hpart' := (h _ hi).symm.trans hpart
    have hsplit := Nat.div_add_mod' j k
    have hmod := Nat.mod_lt j hk
    rw [← hsplit, ← getElem?_of_slice? hpart hmod, ← getElem?_of_slice? hpart' hmod]
  · rw [Array.getElem?_eq_none (by omega), Array.getElem?_eq_none (by omega)]

end Bytes

namespace Layer

variable (l : Layer) {xb yb : Nat}

/-- **A buffer that holds a block of a layer:** the stored samples where `locate` says, and zeros
everywhere else. -/
structure BlockOf (xb yb : Nat) (block : Bytes) : Prop where
  sample : ∀ x < l.width, ∀ y < l.height, ∀ o, l.grid.locate x y = (l.grid.index xb yb, o) →
    block.piece? l.type.size o = some (l.stored x y)
  blank : ∀ i < block.size, (∀ x < l.width, ∀ y < l.height, ∀ o,
    l.grid.locate x y = (l.grid.index xb yb, o) →
      ¬ (o * l.type.size ≤ i ∧ i < o * l.type.size + l.type.size)) → block[i]? = some 0

/-- A row of a block is copied over the samples that the raster has of it, and no other byte. -/
theorem getElem?_copyRow {buffer copied : Bytes} {row i : Nat}
    (h : l.copyRow xb yb buffer row = some copied)
    (hi : ¬ (row * l.blockWidth * l.type.size ≤ i ∧
      i < row * l.blockWidth * l.type.size + l.blockColumns xb * l.type.size)) :
    copied[i]? = buffer[i]? := by
  obtain ⟨samples, hsamples, hcopied⟩ := Option.bind_eq_some_iff.mp h
  have hsize : samples.size = l.blockColumns xb * l.type.size := Bytes.size_of_slice? hsamples
  unfold Bytes.splice? at hcopied
  split at hcopied
  · obtain rfl := Option.some.inj hcopied
    rw [Bytes.getElem?_overwrite, hsize, if_neg (fun hin => hi ⟨hin.1, hin.2.1⟩)]
  · cases hcopied

/-- The rows of a block leave a byte alone that is in none of them. -/
theorem getElem?_copyRows {buffer copied : Bytes} {i : Nat} (n : Nat)
    (h : (List.range n).foldlM (l.copyRow xb yb) buffer = some copied)
    (hi : ∀ row < n, ¬ (row * l.blockWidth * l.type.size ≤ i ∧
      i < row * l.blockWidth * l.type.size + l.blockColumns xb * l.type.size)) :
    copied[i]? = buffer[i]? := by
  induction n generalizing copied with
  | zero =>
    obtain rfl := Option.some.inj h
    rfl
  | succ n ih =>
    rw [List.range_succ, List.foldlM_append] at h
    obtain ⟨mid, hmid, hlast⟩ := Option.bind_eq_some_iff.mp h
    have hlast : l.copyRow xb yb mid n = some copied := by simpa using hlast
    rw [l.getElem?_copyRow hlast (hi n (Nat.lt_succ_self n))]
    exact ih hmid fun row hrow => hi row (Nat.lt_succ_of_lt hrow)

/-- The samples of a row of a block are those of pixels that `locate` places there. -/
theorem exists_located {row i : Nat} (hrow : row < l.blockRows yb)
    (hi : row * l.blockWidth * l.type.size ≤ i ∧
      i < row * l.blockWidth * l.type.size + l.blockColumns xb * l.type.size) :
    ∃ x < l.width, ∃ y < l.height, ∃ o, l.grid.locate x y = (l.grid.index xb yb, o) ∧
      o * l.type.size ≤ i ∧ i < o * l.type.size + l.type.size := by
  have hk : 0 < l.type.size := by
    refine Nat.pos_of_ne_zero fun hzero => ?_
    rw [hzero, Nat.mul_zero, Nat.mul_zero] at hi
    omega
  -- the column of the sample that the byte belongs to
  obtain ⟨j, rfl⟩ := Nat.exists_eq_add_of_le hi.1
  have hc : j / l.type.size < l.blockColumns xb :=
    (Nat.div_lt_iff_lt_mul hk).mpr (Nat.lt_of_add_lt_add_left hi.2)
  have hsplit := Nat.div_add_mod' j l.type.size
  have hmod := Nat.mod_lt j hk
  generalize j / l.type.size = c at hc hsplit
  unfold blockColumns at hc
  unfold blockRows at hrow
  refine ⟨xb * l.blockWidth + c, by omega, yb * l.blockHeight + row, by omega,
    c + row * l.blockWidth, l.grid.locate_of_place ?_ ?_ xb yb, ?_⟩
  · show c < l.blockWidth
    omega
  · show row < l.blockHeight
    omega
  · rw [Nat.add_mul]
    omega

/-- **A block copied into a blank buffer** is held by it, whatever the size of the buffer. -/
theorem blockOf_copyBlock (yb : Nat) (hx : xb < l.grid.columns) {size : Nat}
    (hsize : l.grid.blockBytes l.type.size ≤ size) :
    ∃ block, l.copyBlock xb yb (Bytes.zeros size) = some block ∧ block.size = size ∧
      l.BlockOf xb yb block := by
  have hx' : xb * l.blockWidth < l.width := l.grid.lt_columns_iff.mp hx
  have hroom : l.grid.blockBytes l.type.size ≤ (Bytes.zeros size).size := by
    rwa [Bytes.size_zeros]
  obtain ⟨block, hblock, hlength, hpieces⟩ := l.copyBlock_spec yb hx' hroom
  rw [Bytes.size_zeros] at hlength
  refine ⟨block, hblock, hlength, ?_, ?_⟩
  · intro x hxw y hyh o hlocate
    obtain ⟨rfl, rfl⟩ : x / l.blockWidth = xb ∧ y / l.blockHeight = yb :=
      l.grid.div_eq_of_locate hxw hx hlocate
    have ho : x % l.blockWidth + y % l.blockHeight * l.blockWidth = o :=
      congrArg Prod.snd hlocate
    have hxb : x / l.blockWidth * l.blockWidth + x % l.blockWidth = x := Nat.div_add_mod' ..
    have hyb : y / l.blockHeight * l.blockHeight + y % l.blockHeight = y := Nat.div_add_mod' ..
    have hxm := Nat.mod_lt x l.blockWidth_pos
    have hym := Nat.mod_lt y l.blockHeight_pos
    have hin : y % l.blockHeight < l.blockRows (y / l.blockHeight)
        ∧ x % l.blockWidth < l.blockColumns (x / l.blockWidth) := by
      unfold blockRows blockColumns
      omega
    have hpiece := hpieces (y % l.blockHeight) (x % l.blockWidth) hxm
    rw [ho] at hpiece
    rw [hpiece, if_pos hin, hxb, hyb, l.piece?_stored hxw hyh]
  · intro i hi hnone
    rw [l.getElem?_copyRows _ hblock]
    · rw [Bytes.zeros, Array.getElem?_replicate, if_pos (by omega)]
    · intro row hrow hin
      obtain ⟨x, hxw, y, hyh, o, hlocate, hbyte⟩ := l.exists_located hrow hin
      exact hnone x hxw y hyh o hlocate hbyte

/-! ## 3. Reading into a buffer in place -/

variable {α : Type}

/-- Copies a row of a block into the buffer. -/
def readRow (xb yb row : Nat) : InPlace (Bytes × Layer) α Unit := do
  let (buffer, l) ← get
  let copied ← inRange (α := α) (l.copyRow xb yb buffer row)
  set (copied, l)

/-- **Reads a block into a buffer in place,** and counts the read. -/
def readInto (xb yb : Nat) : InPlace (Bytes × Layer) α Unit := do
  let (buffer, l) ← get
  if ¬ (xb * l.blockWidth < l.width ∧ yb * l.blockHeight < l.height) then
    throw ((Cause.blockOutside xb yb).refusing (max (xb * l.blockWidth) (yb * l.blockHeight)))
  else
    let size ← inWord (α := α) (l.grid.blockBytes? l.type.size)
    if buffer.size < size then
      Cause.raise (Cause.blockBufferTooSmall (α := α) buffer.size)
    else if l.failing.contains (xb, yb) then
      Cause.raise (Cause.blockUnreadable (α := α) xb yb)
    else
      set (Bytes.zeros buffer.size, l)
      forM (List.range (l.blockRows yb)) (readRow xb yb)
      modify fun (block, l) => (block, l.credit 1)

theorem apply_readRow (buffer : Bytes) (row : Nat) :
    (readRow xb yb row : InPlace (Bytes × Layer) α Unit).apply (buffer, l)
      = match l.copyRow xb yb buffer row with
        | some copied => (.ok (), (copied, l))
        | none => (.error (.fault .outOfRange), (buffer, l)) := by
  unfold readRow
  cases h : l.copyRow xb yb buffer row with
  | none => simp [h, inRange]
  | some copied => simp [h]

/-- Rows that can be copied are copied in place. -/
theorem apply_readRows (rows : List Nat) {buffer copied : Bytes}
    (h : rows.foldlM (l.copyRow xb yb) buffer = some copied) :
    (forM rows (readRow xb yb) : InPlace (Bytes × Layer) α Unit).apply (buffer, l)
      = (.ok (), (copied, l)) := by
  induction rows generalizing buffer with
  | nil =>
    obtain rfl := Option.some.inj h
    rfl
  | cons row rows ih =>
    rw [List.foldlM_cons] at h
    obtain ⟨mid, hmid, hrest⟩ := Option.bind_eq_some_iff.mp h
    simp only [List.forM_cons, InPlace.apply_bind, apply_readRow, hmid]
    exact ih hrest

/-- **Reading in place is reading,** except that a read which fails gives the buffer and the layer
back as they were. -/
theorem apply_readInto (xb yb : Nat) (buffer : Bytes) :
    (readInto xb yb : InPlace (Bytes × Layer) α Unit).apply (buffer, l)
      = match (l.fetch xb yb buffer : Outcome α (Bytes × Layer)) with
        | .ok read => (.ok (), read)
        | .error e => (.error e, (buffer, l)) := by
  unfold readInto fetch
  simp only [InPlace.apply_bind, InPlace.apply_get]
  by_cases hin : xb * l.blockWidth < l.width ∧ yb * l.blockHeight < l.height
  · rw [if_neg (not_not.mpr hin), if_neg (not_not.mpr hin)]
    cases hsize : l.grid.blockBytes? l.type.size with
    | none => rfl
    | some size =>
      simp only [inWord_some, Outcome.ok_bind, InPlace.apply_bind, InPlace.apply_lift]
      split
      · rfl
      · rename_i hroom
        split
        · rfl
        · have hzeros : l.grid.blockBytes l.type.size ≤ (Bytes.zeros buffer.size).size := by
            rw [Bytes.size_zeros, (l.grid.blockBytes?_eq_some_iff.mp hsize).2.2]
            exact Nat.le_of_not_lt hroom
          obtain ⟨block, hblock, -⟩ := l.copyBlock_spec yb hin.1 hzeros
          have hrows := apply_readRows (α := α) l _ hblock
          rw [show min l.blockHeight (l.height - yb * l.blockHeight) = l.blockRows yb from rfl]
            at hrows
          simp only [InPlace.apply_bind, InPlace.apply_set, InPlace.apply_modify, hrows, hblock,
            inRange_some]
          rfl
  · rw [if_pos hin, if_pos hin]
    rfl

/-- A buffer with room for a block, whose size is a word. -/
def HasRoom (buffer : Bytes) : Prop := ∃ size ∈ l.grid.blockBytes? l.type.size, size ≤ buffer.size

theorem HasRoom.blockBytes_le {buffer : Bytes} (h : l.HasRoom buffer) :
    l.grid.blockBytes l.type.size ≤ buffer.size := by
  obtain ⟨size, hsize, hle⟩ := h
  rwa [(l.grid.blockBytes?_eq_some_iff.mp hsize).2.2]

/-- **What a block takes to be read:** a place in the tiling, room in the buffer, and that it is
not marked. -/
structure Readable (xb yb : Nat) (buffer : Bytes) : Prop where
  column : xb < l.grid.columns
  row : yb < l.grid.rows
  room : l.HasRoom buffer
  unmarked : l.failing.contains (xb, yb) = false

/-- **What a read computes before it holds it against anything** can be told in words. -/
structure Told (xb yb : Nat) : Prop where
  left : xb * l.blockWidth < wordBound
  top : yb * l.blockHeight < wordBound
  size : (l.grid.blockBytes? l.type.size).isSome

/-- **A read that can be made** gives the block, and is counted. -/
theorem fetch_of_readable {buffer : Bytes} (h : l.Readable xb yb buffer) :
    ∃ block, l.fetch xb yb buffer = (.ok (block, l.credit 1) : Outcome α (Bytes × Layer)) ∧
      block.size = buffer.size ∧ l.BlockOf xb yb block := by
  obtain ⟨block, hblock, hsize, hholds⟩ := l.blockOf_copyBlock yb h.column h.room.blockBytes_le
  obtain ⟨size, hbytes, hroom⟩ := h.room
  have hin : xb * l.blockWidth < l.width ∧ yb * l.blockHeight < l.height :=
    ⟨l.grid.lt_columns_iff.mp h.column, l.grid.lt_rows_iff.mp h.row⟩
  refine ⟨block, ?_, hsize, hholds⟩
  rw [fetch, if_neg (not_not.mpr hin), show l.grid.blockBytes? l.type.size = some size from hbytes,
    inWord_some, Outcome.ok_bind, if_neg (Nat.not_lt.mpr hroom),
    if_neg (by rw [h.unmarked]; exact Bool.false_ne_true), hblock]
  rfl

/-- **A read that cannot be made** is refused, and fails if all that it computes is in words. -/
theorem fetch_of_not_readable {buffer : Bytes} (h : ¬ l.Readable xb yb buffer) :
    ∃ e, l.fetch xb yb buffer = (.error e : Outcome α (Bytes × Layer)) ∧
      (l.Told xb yb → ∃ f, e = .failure f) := by
  by_cases hin : xb * l.blockWidth < l.width ∧ yb * l.blockHeight < l.height
  · rw [fetch, if_neg (not_not.mpr hin)]
    cases hsize : l.grid.blockBytes? l.type.size with
    | none => exact ⟨_, rfl, fun htold => absurd htold.size (by rw [hsize]; exact nofun)⟩
    | some size =>
      rw [inWord_some, Outcome.ok_bind]
      by_cases hroom : buffer.size < size
      · rw [if_pos hroom]
        exact ⟨_, rfl, fun _ => ⟨_, rfl⟩⟩
      · rw [if_neg hroom]
        by_cases hmarked : l.failing.contains (xb, yb) = true
        · rw [if_pos hmarked]
          exact ⟨_, rfl, fun _ => ⟨_, rfl⟩⟩
        · exact absurd ⟨l.grid.lt_columns_iff.mpr hin.1, l.grid.lt_rows_iff.mpr hin.2,
            ⟨size, hsize, Nat.le_of_not_lt hroom⟩, Bool.eq_false_iff.mpr hmarked⟩ h
  · rw [fetch, if_pos hin]
    exact ⟨_, rfl, fun htold => ⟨_, Cause.refusing_of_lt (max_lt htold.left htold.top)⟩⟩

/-! ## 4. All blocks -/

/-- The block of the pixel with a linear index, and the number of its sample there. -/
def located (i : Nat) : Nat × Nat := l.grid.locate (i % l.width) (i / l.width)

/-- A linear index counts a pixel of the raster. -/
theorem lt_of_lt_area {i : Nat} (h : i < l.width * l.height) :
    i % l.width < l.width ∧ i / l.width < l.height := by
  have hwidth : 0 < l.width := Nat.pos_of_ne_zero fun hzero => by
    rw [hzero, Nat.zero_mul] at h
    exact Nat.not_lt_zero _ h
  exact ⟨Nat.mod_lt _ hwidth, Nat.div_lt_of_lt_mul h⟩

/-- **A sample taken from where `locate` says** is the stored one. -/
theorem BlockOf.piece?_located {block : Bytes} (h : l.BlockOf xb yb block) {i : Nat}
    (hi : i < l.width * l.height) (howner : (l.located i).1 = l.grid.index xb yb) :
    block.piece? l.type.size (l.located i).2 = l.data.piece? l.type.size i := by
  obtain ⟨hx, hy⟩ := l.lt_of_lt_area hi
  have hpiece := h.sample _ hx _ hy (l.located i).2 (Prod.ext howner rfl)
  have hstored := l.piece?_stored hx hy
  rw [Nat.div_add_mod'] at hstored
  rw [hpiece, hstored]

end Layer

/-- **A raster that is read block by block:** the buffer for a block, the layer, and the samples
put together so far. -/
structure Assembly where
  buffer : Bytes
  layer : Layer
  raster : Bytes

namespace Assembly

variable {α : Type}

/-- Takes over the sample of a pixel, if the block in the buffer has it. -/
def place (b i : Nat) : InPlace Assembly α Unit := do
  let a ← get
  if (a.layer.located i).1 = b then
    let sample ← inRange (α := α) (a.buffer.piece? a.layer.type.size (a.layer.located i).2)
    let raster ← inRange (α := α) (a.raster.splice? (i * a.layer.type.size) sample)
    set { a with raster }

/-- Reads a block over the one before, and takes its samples over. -/
def readBlock (b : Nat) : InPlace Assembly α Unit := do
  let a ← get
  match a.layer.grid.position? b with
  | none => throw (.fault .zeroDivisor)
  | some (xb, yb) =>
    (Layer.readInto xb yb).within (fun a => (a.buffer, a.layer))
      fun a s => { a with buffer := s.1, layer := s.2 }
    forM (List.range (a.layer.width * a.layer.height)) (place b)

/-- **Reads all blocks,** each into the same buffer. -/
def readAll : InPlace Assembly α Unit := do
  let a ← get
  forM (List.range a.layer.grid.blockCount) readBlock

variable {l : Layer}

/-- **An assembly after `count` reads** that has the samples of the pixels in `done`. -/
structure Has (l : Layer) (size count : Nat) (done : Nat → Prop) (a : Assembly) : Prop where
  layer_eq : a.layer = l.credit count
  size_buffer : a.buffer.size = size
  size_raster : a.raster.size = l.width * l.height * l.type.size
  placed : ∀ i < l.width * l.height, done i →
    a.raster.piece? l.type.size i = l.data.piece? l.type.size i

/-- What is asked of an assembly can be put in other words. -/
theorem Has.congr {size count : Nat} {done done' : Nat → Prop} {a : Assembly}
    (h : a.Has l size count done) (hdone : ∀ i < l.width * l.height, done' i → done i) :
    a.Has l size count done' :=
  ⟨h.layer_eq, h.size_buffer, h.size_raster, fun i hi hi' => h.placed i hi (hdone i hi hi')⟩

/-- **One pixel:** its sample is taken over if the block has it, and the others stay. -/
theorem place_spec {size count b i xb yb : Nat} {done : Nat → Prop} {a : Assembly}
    (h : a.Has l size count done) (hb : l.grid.index xb yb = b) (hblock : l.BlockOf xb yb a.buffer)
    (hi : i < l.width * l.height) :
    ∃ a', (place b i : InPlace Assembly α Unit).apply a = (.ok (), a') ∧ a'.buffer = a.buffer ∧
      a'.Has l size count fun j => done j ∨ ((l.located j).1 = b ∧ j = i) := by
  have hlayer : ∀ j, a.layer.located j = l.located j := by
    intro j
    rw [h.layer_eq]
    rfl
  have htype : a.layer.type = l.type := by
    rw [h.layer_eq]
    rfl
  by_cases howner : (l.located i).1 = b
  · have hend : (i + 1) * l.type.size ≤ l.width * l.height * l.type.size :=
      Nat.mul_le_mul_right _ hi
    obtain ⟨sample, hsample⟩ := Bytes.piece?_isSome (b := l.data) (k := l.type.size) (i := i) (by
      rw [l.size_data]
      exact hend)
    have hsize := Bytes.size_of_piece? hsample
    have htaken : a.buffer.piece? l.type.size (l.located i).2 = some sample :=
      (hblock.piece?_located l hi (howner.trans hb.symm)).trans hsample
    have hfits : (i + 1) * l.type.size ≤ a.raster.size := by rwa [h.size_raster]
    have hsplice : a.raster.splice? (i * l.type.size) sample
        = some (a.raster.overwrite (i * l.type.size) sample) := by
      rw [Nat.add_mul, Nat.one_mul] at hfits
      rw [Bytes.splice?, if_pos (by omega)]
    refine ⟨{ a with raster := a.raster.overwrite (i * l.type.size) sample }, ?_, rfl, ?_⟩
    · simp [place, hlayer, htype, howner, htaken, hsplice]
    · refine ⟨h.layer_eq, h.size_buffer, (Bytes.size_overwrite ..).trans h.size_raster, ?_⟩
      intro j hj hdone
      rw [Bytes.piece?_overwrite_one hsize hfits]
      by_cases hji : j = i
      · rw [if_pos hji, hji, hsample]
      · rw [if_neg hji]
        exact h.placed j hj (hdone.resolve_right fun hnew => hji hnew.2)
  · refine ⟨a, ?_, rfl, h.congr ?_⟩
    · simp [place, hlayer, howner]
    · rintro j - (hdone | ⟨hj, rfl⟩)
      · exact hdone
      · exact absurd hj howner

/-- **One block:** it is read over the one before, and its pixels are taken over. -/
theorem readBlock_spec {size b : Nat} {a : Assembly}
    (hroom : ∃ bytes ∈ l.grid.blockBytes? l.type.size, bytes ≤ size)
    (hreadable : ∀ xb < l.grid.columns, ∀ yb < l.grid.rows, l.failing.contains (xb, yb) = false)
    (hb : b < l.grid.blockCount) (h : a.Has l size b fun j => (l.located j).1 < b) :
    ∃ a', (readBlock b : InPlace Assembly α Unit).apply a = (.ok (), a') ∧
      a'.Has l size (b + 1) fun j => (l.located j).1 < b + 1 := by
  obtain ⟨xb, yb, hposition, hxb, hyb, hindex⟩ := l.grid.position?_of_lt hb
  obtain ⟨buffer, layer, raster⟩ := a
  obtain rfl : layer = l.credit b := h.layer_eq
  have hposition : (l.credit b).grid.position? b = some (xb, yb) := hposition
  obtain rfl : buffer.size = size := h.size_buffer
  have hxy : (l.credit b).Readable xb yb buffer := ⟨hxb, hyb, hroom, hreadable xb hxb yb hyb⟩
  obtain ⟨block, hfetch, hsize, hblock⟩ := (l.credit b).fetch_of_readable (α := α) hxy
  have hread := (l.credit b).apply_readInto (α := α) xb yb buffer
  rw [hfetch] at hread
  have hblock' : l.BlockOf xb yb block := ⟨hblock.sample, hblock.blank⟩
  -- the pixels before `i` that the block has are taken over
  have hpixels := InPlace.loop_range (α := α) (place b)
    (fun n a' => a'.buffer = block ∧
      a'.Has l buffer.size (b + 1) fun j => (l.located j).1 < b ∨ ((l.located j).1 = b ∧ j < n))
    (l.width * l.height)
    (by
      rintro i hi a' ⟨hbuffer, ha'⟩
      obtain ⟨next, hnext, hkeep, hhas⟩ :=
        place_spec (α := α) ha' hindex (hbuffer ▸ hblock') hi
      refine ⟨next, hnext, hkeep.trans hbuffer, hhas.congr ?_⟩
      intro j _ hj
      rcases hj with hlt | ⟨howner, hj⟩
      · exact .inl (.inl hlt)
      · rcases Nat.lt_succ_iff_lt_or_eq.mp hj with hlt | rfl
        · exact .inl (.inr ⟨howner, hlt⟩)
        · exact .inr ⟨howner, rfl⟩)
    (s := ⟨block, (l.credit b).credit 1, raster⟩)
    (by
      refine ⟨rfl, rfl, hsize.trans h.size_buffer, h.size_raster, ?_⟩
      intro j hj hdone
      exact h.placed j hj (hdone.resolve_right fun hnew => Nat.not_lt_zero _ hnew.2))
  obtain ⟨a', ha', -, hhas⟩ := hpixels
  refine ⟨a', ?_, hhas.congr ?_⟩
  · simp only [readBlock, InPlace.apply_bind, InPlace.apply_get, hposition, InPlace.apply_within,
      hread]
    exact ha'
  · intro j hj hlt
    rcases Nat.lt_succ_iff_lt_or_eq.mp hlt with hlt | heq
    · exact .inl hlt
    · exact .inr ⟨heq, hj⟩

/-- **All blocks together are the raster.** -/
theorem readAll_spec {size : Nat} {buffer raster : Bytes} (hbuffer : buffer.size = size)
    (hroom : ∃ bytes ∈ l.grid.blockBytes? l.type.size, bytes ≤ size)
    (hreadable : ∀ xb < l.grid.columns, ∀ yb < l.grid.rows, l.failing.contains (xb, yb) = false)
    (hraster : raster.size = l.data.size) :
    ∃ left, (readAll : InPlace Assembly α Unit).apply ⟨buffer, l, raster⟩
      = (.ok (), ⟨left, l.credit l.grid.blockCount, l.data⟩) := by
  obtain ⟨a, ha, hhas⟩ := InPlace.loop_range (α := α) readBlock
    (fun n a => a.Has l size n fun j => (l.located j).1 < n) l.grid.blockCount
    (fun b hb a h => readBlock_spec hroom hreadable hb h) (s := ⟨buffer, l, raster⟩)
    ⟨rfl, hbuffer, hraster.trans l.size_data, fun j _ hj => absurd hj (Nat.not_lt_zero _)⟩
  have hdata : a.raster = l.data := by
    refine Bytes.ext_piece? hhas.size_raster l.size_data ?_
    intro i hi
    obtain ⟨hx, hy⟩ := l.lt_of_lt_area hi
    exact hhas.placed i hi (l.grid.locate_fst_lt hx hy)
  refine ⟨a.buffer, ?_⟩
  have hleft : a = ⟨a.buffer, l.credit l.grid.blockCount, l.data⟩ := by
    rw [← hhas.layer_eq, ← hdata]
  rw [← hleft]
  exact ha

end Assembly

/-! ## 5. A layer and its blocks -/

/-- **Tiled reads put the raster together again.**  A block is read exactly if it can be: then the
buffer holds it and nothing else, and the read is counted; a read that is refused changes nothing,
and it fails if what it computes can be told in words.  Reading all blocks and taking each sample
from where `locate` says gives the data of the layer. -/
theorem Layer.tiled_reads (α : Type) (l : Layer) (buffer : Bytes) :
    (∀ xb yb, l.Readable xb yb buffer →
      ∃ block, l.fetch xb yb buffer = (.ok (block, l.credit 1) : Outcome α (Bytes × Layer)) ∧
        (readInto xb yb : InPlace (Bytes × Layer) α Unit).apply (buffer, l)
          = (.ok (), (block, l.credit 1)) ∧
        block.size = buffer.size ∧ l.BlockOf xb yb block) ∧
    (∀ xb yb, ¬ l.Readable xb yb buffer →
      ∃ e, l.fetch xb yb buffer = (.error e : Outcome α (Bytes × Layer)) ∧
        (readInto xb yb : InPlace (Bytes × Layer) α Unit).apply (buffer, l)
          = (.error e, (buffer, l)) ∧
        (l.Told xb yb → ∃ f, e = .failure f)) ∧
    (l.HasRoom buffer →
      (∀ xb < l.grid.columns, ∀ yb < l.grid.rows, l.failing.contains (xb, yb) = false) →
      ∀ raster : Bytes, raster.size = l.data.size →
        ∃ left, (Assembly.readAll : InPlace Assembly α Unit).apply ⟨buffer, l, raster⟩
          = (.ok (), ⟨left, l.credit l.grid.blockCount, l.data⟩)) := by
  refine ⟨?_, ?_, ?_⟩
  · intro xb yb h
    obtain ⟨block, hfetch, hsize, hblock⟩ := l.fetch_of_readable (α := α) h
    have hread := l.apply_readInto (α := α) xb yb buffer
    rw [hfetch] at hread
    exact ⟨block, hfetch, hread, hsize, hblock⟩
  · intro xb yb h
    obtain ⟨e, hfetch, htold⟩ := l.fetch_of_not_readable (α := α) h
    have hread := l.apply_readInto (α := α) xb yb buffer
    rw [hfetch] at hread
    exact ⟨e, hfetch, hread, htold⟩
  · intro hroom hunmarked raster hraster
    exact Assembly.readAll_spec rfl hroom hunmarked hraster

/-- A block in the corner, read into a buffer that has room to spare; one that is marked; and a
layer of two bytes a sample that is put together from six blocks, three of them cut. -/
theorem Layer.tiled_reads_ramp :
    (∃ block, (readInto 2 1 : InPlace (Bytes × Layer) Rat Unit).apply
        (Array.replicate 7 255, Layer.ramp) = (.ok (), (block, Layer.ramp.credit 1)) ∧
        Layer.ramp.BlockOf 2 1 block) ∧
    (∃ f, (readInto 1 0 : InPlace (Bytes × Layer) Rat Unit).apply
        (Array.replicate 7 255, Layer.ramp)
      = (.error (.failure f), (Array.replicate 7 255, Layer.ramp))) ∧
    ∃ left, (Assembly.readAll : InPlace Assembly Rat Unit).apply
        ⟨Array.replicate 8 255,
          (Layer.ofFn 5 3 .uint16 fun x y => .ofInt (10 * y + x : Nat)).setBlocks 2 2,
          Bytes.zeros 30⟩
      = (.ok (), ⟨left,
          ((Layer.ofFn 5 3 .uint16 fun x y => .ofInt (10 * y + x : Nat)).setBlocks 2 2).credit 6,
          (Layer.ofFn 5 3 .uint16 fun x y => .ofInt (10 * y + x : Nat)).data⟩) := by
  have hroom : Layer.ramp.HasRoom (Array.replicate 7 255) := ⟨4, by decide, by simp⟩
  refine ⟨?_, ?_, ?_⟩
  · obtain ⟨block, -, hread, -, hblock⟩ :=
      (Layer.tiled_reads Rat Layer.ramp (Array.replicate 7 255)).1
        2 1 ⟨by decide, by decide, hroom, by decide⟩
    exact ⟨block, hread, hblock⟩
  · obtain ⟨e, -, hread, htold⟩ := (Layer.tiled_reads Rat Layer.ramp (Array.replicate 7 255)).2.1
      1 0 fun h => absurd h.unmarked (by decide)
    obtain ⟨f, rfl⟩ := htold ⟨by decide, by decide, by decide⟩
    exact ⟨f, hread⟩
  · refine (Layer.tiled_reads Rat
      ((Layer.ofFn 5 3 .uint16 fun x y => .ofInt (10 * y + x : Nat)).setBlocks 2 2)
      (Array.replicate 8 255)).2.2 ⟨8, by decide, by simp⟩ (fun _ _ _ _ => rfl)
      (Bytes.zeros 30) ?_
    rw [Layer.size_data]
    exact Bytes.size_zeros 30

/-- **A block far outside is not refused with a failure:** where it would begin is no word. -/
theorem Layer.tiled_reads_far :
    ¬ ((Layer.zeros 4 1 .byte).setBlocks 2 1).Readable (2 ^ 63) 0 (Bytes.zeros 2) ∧
    (((Layer.zeros 4 1 .byte).setBlocks 2 1).fetch (2 ^ 63) 0 (Bytes.zeros 2)
        : Outcome Rat (Bytes × Layer)) = .error (.fault .overflow) :=
  ⟨fun h => absurd h.column (by decide), rfl⟩

end RasterWarp
