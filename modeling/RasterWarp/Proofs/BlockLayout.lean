/-
# Where a pixel lies in its block

A tiling says for a pixel which block owns it and which sample of the block it is (`locate`), and
for a block where it lies (`position?`).  A layer hands a block out by copying rows of its own
samples, each row of the block a whole block width after the one before, also where the raster
ends inside the block.

* `position?_locate`: the block that `locate` names is the one whose column and row are the
  quotients of the pixel's.
* `copyBlock_spec`: after reading block `(xb, yb)`, sample `c + r * blockWidth` of the block is the
  raster's sample at column `c` and row `r` of the block, if the raster has it.
* `fetch_of_contents`, `fetch_of_no_contents`: which reads succeed, and with which bytes.

So the sample that `locate` names in a block just read is the stored sample of the pixel
(`piece?_located`).
-/
import RasterWarp.Raster.Layer
import RasterWarp.Proofs.Pieces

namespace RasterWarp

/-! ## 1. Numbers of blocks and of samples in blocks -/

/-- A position in a row-major arrangement is below the end of the arrangement. -/
theorem add_mul_lt {x y width height : Nat} (hx : x < width) (hy : y < height) :
    x + y * width < width * height := by
  have h := end_le_start hy width
  rw [Nat.mul_comm height] at h
  omega

/-- A position in a row-major arrangement belongs to one row only. -/
theorem row_eq_of_between {c r row width columns : Nat} (hc : c < width) (hcols : columns ≤ width)
    (h : row * width ≤ c + r * width ∧ c + r * width < row * width + columns) :
    r = row ∧ c < columns := by
  rcases Nat.lt_trichotomy r row with hr | rfl | hr
  · have := end_le_start hr width
    omega
  · exact ⟨rfl, by omega⟩
  · have := end_le_start hr width
    omega

namespace Tiling

variable (g : Tiling)

/-- The sample that `locate` names is one of the block. -/
theorem locate_snd_lt (x y : Nat) : (g.locate x y).2 < g.blockArea :=
  add_mul_lt (Nat.mod_lt x g.blockWidth_pos) (Nat.mod_lt y g.blockHeight_pos)

/-- The block column of a pixel of the raster is one of the tiling's. -/
theorem div_lt_columns {x : Nat} (hx : x < g.rasterWidth) : x / g.blockWidth < g.columns := by
  have hpos := g.blockWidth_pos
  rw [columns, Nat.div_lt_iff_lt_mul hpos]
  have h := Nat.div_add_mod (g.rasterWidth + g.blockWidth - 1) g.blockWidth
  have hm := Nat.mod_lt (g.rasterWidth + g.blockWidth - 1) hpos
  rw [Nat.mul_comm] at h
  omega

theorem div_lt_rows {y : Nat} (hy : y < g.rasterHeight) : y / g.blockHeight < g.rows := by
  have hpos := g.blockHeight_pos
  rw [rows, Nat.div_lt_iff_lt_mul hpos]
  have h := Nat.div_add_mod (g.rasterHeight + g.blockHeight - 1) g.blockHeight
  have hm := Nat.mod_lt (g.rasterHeight + g.blockHeight - 1) hpos
  rw [Nat.mul_comm] at h
  omega

/-- **The block of a pixel** lies where the pixel's quotients by the block size say. -/
theorem position?_locate {x : Nat} (hx : x < g.rasterWidth) (y : Nat) :
    g.position? (g.locate x y).1 = some (x / g.blockWidth, y / g.blockHeight) := by
  have hlt := g.div_lt_columns hx
  have hpos : 0 < g.columns := Nat.lt_of_le_of_lt (Nat.zero_le _) hlt
  rw [position?, if_neg (by omega), locate, index, Nat.add_mul_mod_self_right,
    Nat.mod_eq_of_lt hlt, Nat.add_mul_div_right _ _ hpos, Nat.div_eq_of_lt hlt, Nat.zero_add]

end Tiling

/-! ## 2. Reading a block of a layer -/

namespace Layer

variable (l : Layer) {xb yb : Nat}

/-- How many samples of a row of a block the raster has. -/
def blockColumns (xb : Nat) : Nat := min l.blockWidth (l.width - xb * l.blockWidth)

/-- How many rows of a block the raster has. -/
def blockRows (yb : Nat) : Nat := min l.blockHeight (l.height - yb * l.blockHeight)

/-- The samples of a row of the raster, from one column on, are stored. -/
theorem slice?_row {x y columns : Nat} (hx : x + columns ≤ l.width) (hy : y < l.height) :
    ∃ samples, l.data.slice? ((y * l.width + x) * l.type.size) (columns * l.type.size)
      = some samples := by
  refine ⟨_, Bytes.slice?_eq_some _ ?_⟩
  have h := end_le_start hy l.width
  have hs := Nat.mul_le_mul_right l.type.size
    (show y * l.width + x + columns ≤ l.height * l.width by omega)
  rw [Nat.add_mul] at hs
  rw [l.size_data, Nat.mul_comm l.width]
  exact hs

/-- **Copying one row of a block** changes the samples of that row which the raster has, and no
other sample of the block. -/
theorem copyRow_spec {buffer : Bytes} {row : Nat} (hx : xb * l.blockWidth < l.width)
    (hrow : row < l.blockRows yb) (hbuf : l.grid.blockBytes l.type.size ≤ buffer.size) :
    ∃ copied, l.copyRow xb yb buffer row = some copied ∧ copied.size = buffer.size ∧
      ∀ r c, c < l.blockWidth → copied.piece? l.type.size (c + r * l.blockWidth)
        = if r = row ∧ c < l.blockColumns xb
          then l.data.piece? l.type.size ((yb * l.blockHeight + row) * l.width
            + (xb * l.blockWidth + c))
          else buffer.piece? l.type.size (c + r * l.blockWidth) := by
  have hcols : l.blockColumns xb ≤ l.blockWidth := Nat.min_le_left ..
  have hcols' : xb * l.blockWidth + l.blockColumns xb ≤ l.width := by
    unfold blockColumns
    omega
  have hy : yb * l.blockHeight + row < l.height ∧ row < l.blockHeight := by
    unfold blockRows at hrow
    omega
  obtain ⟨samples, hsamples⟩ := l.slice?_row hcols' hy.1
  have hsize := Bytes.size_of_slice? hsamples
  -- the row ends within the block, and so within the buffer
  have hfits : (row * l.blockWidth + l.blockColumns xb) * l.type.size ≤ buffer.size := by
    have h := end_le_start hy.2 l.blockWidth
    rw [Nat.mul_comm l.blockHeight] at h
    refine Nat.le_trans (Nat.mul_le_mul_right _ ?_) hbuf
    simp only [Tiling.blockArea, grid]
    omega
  have hsplice : buffer.splice? (row * l.blockWidth * l.type.size) samples
      = some (buffer.overwrite (row * l.blockWidth * l.type.size) samples) := by
    rw [Bytes.splice?, if_pos]
    rw [Nat.add_mul] at hfits
    omega
  refine ⟨buffer.overwrite (row * l.blockWidth * l.type.size) samples, ?_,
    Bytes.size_overwrite .., fun r c hc => ?_⟩
  · have hcopied : min l.blockWidth (l.width - xb * l.blockWidth) = l.blockColumns xb := rfl
    simp only [copyRow, hcopied, hsamples, Option.bind_eq_bind, Option.bind_some]
    exact hsplice
  · rw [Bytes.piece?_overwrite hsize hfits]
    by_cases h : r = row ∧ c < l.blockColumns xb
    · obtain ⟨rfl, hc'⟩ := h
      rw [if_pos (by omega), if_pos ⟨rfl, hc'⟩, Nat.add_sub_cancel,
        Bytes.piece?_slice? hsamples hc', Nat.add_assoc]
    · rw [if_neg (fun hb => h (row_eq_of_between hc hcols hb)), if_neg h]

/-- The first `n` rows of a block, copied one after the other.  The induction is on `n`: the row
copied last leaves those before it alone. -/
theorem copyRows_spec {buffer : Bytes} (hx : xb * l.blockWidth < l.width)
    (hbuf : l.grid.blockBytes l.type.size ≤ buffer.size) : ∀ n, n ≤ l.blockRows yb →
      ∃ copied, (List.range n).foldlM (l.copyRow xb yb) buffer = some copied ∧
        copied.size = buffer.size ∧
        ∀ r c, c < l.blockWidth → copied.piece? l.type.size (c + r * l.blockWidth)
          = if r < n ∧ c < l.blockColumns xb
            then l.data.piece? l.type.size ((yb * l.blockHeight + r) * l.width
              + (xb * l.blockWidth + c))
            else buffer.piece? l.type.size (c + r * l.blockWidth)
  | 0, _ => ⟨buffer, rfl, rfl, fun r c _ => by rw [if_neg (by omega)]⟩
  | n + 1, hn => by
    obtain ⟨rows, hrows, hsize, hpieces⟩ := copyRows_spec hx hbuf n (by omega)
    obtain ⟨copied, hcopied, hsize', hpieces'⟩ :=
      l.copyRow_spec hx (show n < l.blockRows yb by omega) (hsize ▸ hbuf)
    refine ⟨copied, ?_, hsize'.trans hsize, fun r c hc => ?_⟩
    · rw [List.range_succ, List.foldlM_append, hrows]
      simpa using hcopied
    · rw [hpieces' r c hc, hpieces r c hc]
      by_cases hr : r = n
      · subst hr
        by_cases hcol : c < l.blockColumns xb
        · rw [if_pos ⟨rfl, hcol⟩, if_pos ⟨by omega, hcol⟩]
        · rw [if_neg (by omega), if_neg (by omega), if_neg (by omega)]
      · rw [if_neg (by omega)]
        by_cases hlt : r < n ∧ c < l.blockColumns xb
        · rw [if_pos hlt, if_pos (by omega)]
        · rw [if_neg hlt, if_neg (by omega)]

/-- **A block that was read** holds the samples that the raster has of it, a whole block width
from row to row, and otherwise what the buffer held. -/
theorem copyBlock_spec {buffer : Bytes} (yb : Nat) (hx : xb * l.blockWidth < l.width)
    (hbuf : l.grid.blockBytes l.type.size ≤ buffer.size) :
    ∃ block, l.copyBlock xb yb buffer = some block ∧ block.size = buffer.size ∧
      ∀ r c, c < l.blockWidth → block.piece? l.type.size (c + r * l.blockWidth)
        = if r < l.blockRows yb ∧ c < l.blockColumns xb
          then l.data.piece? l.type.size ((yb * l.blockHeight + r) * l.width
            + (xb * l.blockWidth + c))
          else buffer.piece? l.type.size (c + r * l.blockWidth) :=
  l.copyRows_spec hx hbuf _ (Nat.le_refl _)

/-- The same for a blank buffer of the size of a block. -/
theorem copyBlock_blank (xb yb : Nat) (hx : xb * l.blockWidth < l.width) :
    ∃ block, l.copyBlock xb yb (Bytes.zeros (l.grid.blockBytes l.type.size)) = some block ∧
      block.size = l.grid.blockBytes l.type.size ∧
      ∀ r c, r < l.blockRows yb → c < l.blockColumns xb →
        block.piece? l.type.size (c + r * l.blockWidth)
          = l.data.piece? l.type.size ((yb * l.blockHeight + r) * l.width
            + (xb * l.blockWidth + c)) := by
  have hbuf : l.grid.blockBytes l.type.size
      ≤ (Bytes.zeros (l.grid.blockBytes l.type.size)).size := Nat.le_of_eq (by simp)
  obtain ⟨block, hblock, hsize, hpieces⟩ := l.copyBlock_spec yb hx hbuf
  refine ⟨block, hblock, hsize.trans (Bytes.size_zeros _), fun r c hr hc => ?_⟩
  have hcw : c < l.blockWidth := Nat.lt_of_lt_of_le hc (Nat.min_le_left ..)
  rw [hpieces r c hcw, if_pos ⟨hr, hc⟩]

/-! ## 3. What reading a block comes to -/

/-- What reading a block into a blank buffer of its size gives, if it can be read. -/
def contents (xb yb : Nat) : Option Bytes :=
  if xb * l.blockWidth < l.width ∧ yb * l.blockHeight < l.height
      ∧ l.failing.contains (xb, yb) = false then
    l.copyBlock xb yb (Bytes.zeros (l.grid.blockBytes l.type.size))
  else none

theorem size_of_contents {block : Bytes} (h : l.contents xb yb = some block) :
    block.size = l.grid.blockBytes l.type.size := by
  unfold contents at h
  split at h
  · rename_i hin
    obtain ⟨block', hblock, hsize, -⟩ := l.copyBlock_blank xb yb hin.1
    rw [hblock, Option.some_inj] at h
    rw [← h, hsize]
  · cases h

/-- A block of the raster is read into a blank buffer unless it is marked. -/
theorem fetch_blank {α : Type} (hroom : l.grid.Room l.type.size) (hin : l.grid.Inside xb yb) :
    l.fetch xb yb (Bytes.zeros (l.grid.blockBytes l.type.size))
      = (if l.failing.contains (xb, yb) then Cause.raise (Cause.blockUnreadable (α := α) xb yb)
        else do
          let block ← inRange
            (l.copyBlock xb yb (Bytes.zeros (l.grid.blockBytes l.type.size)))
          return (block, l.credit 1) : Outcome α (Bytes × Layer)) := by
  have hin : xb * l.blockWidth < l.width ∧ yb * l.blockHeight < l.height := hin
  unfold fetch
  simp only
  rw [if_neg (not_not.mpr hin), hroom.blockBytes?_eq, Bytes.size_zeros]
  simp only [inWord_some, Outcome.ok_bind, Nat.lt_irrefl, if_false]
  rfl

/-- **A block that can be read** is read as its contents, and the read is counted. -/
theorem fetch_of_contents {α : Type} (hroom : l.grid.Room l.type.size) {block : Bytes}
    (h : l.contents xb yb = some block) :
    l.fetch xb yb (Bytes.zeros (l.grid.blockBytes l.type.size))
      = (.ok (block, l.credit 1) : Outcome α (Bytes × Layer)) := by
  unfold contents at h
  split at h
  · rename_i hin
    rw [l.fetch_blank hroom ⟨hin.1, hin.2.1⟩, if_neg (Bool.eq_false_iff.mp hin.2.2), h]
    rfl
  · cases h

/-- **A block of the raster without contents** cannot be read, which is a failure and not a
fault. -/
theorem fetch_of_no_contents {α : Type} (hroom : l.grid.Room l.type.size)
    (hin : l.grid.Inside xb yb) (h : l.contents xb yb = none) :
    ∃ f, l.fetch xb yb (Bytes.zeros (l.grid.blockBytes l.type.size))
      = (.error (.failure f) : Outcome α (Bytes × Layer)) := by
  obtain ⟨block, hblock, -⟩ := l.copyBlock_blank xb yb hin.1
  have hfailing : l.failing.contains (xb, yb) = true := by
    by_contra hreadable
    rw [contents, if_pos ⟨hin.1, hin.2, Bool.eq_false_iff.mpr hreadable⟩, hblock] at h
    cases h
  exact ⟨_, by rw [l.fetch_blank hroom hin, if_pos hfailing]; rfl⟩

/-- Whether the block of a pixel of the raster can be read is up to the marked blocks alone. -/
theorem contents_div {x y : Nat} (hx : x < l.width) (hy : y < l.height) :
    l.contents (x / l.blockWidth) (y / l.blockHeight)
      = if l.failing.contains (x / l.blockWidth, y / l.blockHeight) then none
        else l.copyBlock (x / l.blockWidth) (y / l.blockHeight)
          (Bytes.zeros (l.grid.blockBytes l.type.size)) := by
  have hxb := Nat.div_mul_le_self x l.blockWidth
  have hyb := Nat.div_mul_le_self y l.blockHeight
  unfold contents
  by_cases h : l.failing.contains (x / l.blockWidth, y / l.blockHeight)
  · rw [if_pos h, if_neg (fun hin => by rw [h] at hin; exact Bool.noConfusion hin.2.2)]
  · rw [if_neg h, if_pos ⟨by omega, by omega, Bool.eq_false_iff.mpr h⟩]

/-- **The sample that `locate` names** in a block just read is the stored sample of the pixel. -/
theorem piece?_located {x y : Nat} (hx : x < l.width) (hy : y < l.height) {block : Bytes}
    (h : l.contents (x / l.blockWidth) (y / l.blockHeight) = some block) :
    block.piece? l.type.size (l.grid.locate x y).2
      = l.data.piece? l.type.size (y * l.width + x) := by
  have hxb := Nat.div_add_mod' x l.blockWidth
  have hyb := Nat.div_add_mod' y l.blockHeight
  have hxm := Nat.mod_lt x l.blockWidth_pos
  have hym := Nat.mod_lt y l.blockHeight_pos
  rw [l.contents_div hx hy] at h
  split at h
  · cases h
  · obtain ⟨block', hblock, -, hpieces⟩ :=
      l.copyBlock_blank (x / l.blockWidth) (y / l.blockHeight) (by omega)
    rw [hblock, Option.some_inj] at h
    subst h
    have hin : y % l.blockHeight < l.blockRows (y / l.blockHeight)
        ∧ x % l.blockWidth < l.blockColumns (x / l.blockWidth) := by
      unfold blockRows blockColumns
      omega
    have hp := hpieces _ _ hin.1 hin.2
    rw [hxb, hyb] at hp
    exact hp

end Layer
end RasterWarp
