/-
# Every pixel has a place of its own in one block

`Tiling.locate` names for a pixel a block and a sample of the block.  Planning a read goes this way,
and a block that was read is taken apart the same way.  Nothing in it says that no two pixels get
the same sample, and blocks at the right and lower edge have samples that no pixel gets.

The way back is `pixelAt?`: the column and row of the block, each times the size of a block, and the
column and row of the sample in it.

* `pixelAt?_locate`: it finds every pixel of the raster again, so no two are located alike.
* `locate_pixelAt?`: what it finds is located where it was looked for, so every sample of a block
  for which the raster has a pixel is used.
* `pixels_placed_once` puts both together, in words: for the raster and blocks of any size, as long
  as the blocks and the samples of one can be counted.  `pixels_unplaced_wide` is a raster whose
  blocks cannot.
-/
import RasterWarp.Proofs.BlockAssembly
import Mathlib.Data.Set.Function

namespace RasterWarp
namespace Tiling

variable (g : Tiling)

/-! ## 1. Pixels and places -/

/-- **The pixel at a sample of a block.**  It may lie outside of the raster, as the block may. -/
def pixelAt? (b o : Nat) : Option (Nat × Nat) :=
  (g.position? b).map fun (xb, yb) =>
    (xb * g.blockWidth + o % g.blockWidth, yb * g.blockHeight + o / g.blockWidth)

/-- The pixels of the raster. -/
def pixels : Set (Nat × Nat) := {p | p.1 < g.rasterWidth ∧ p.2 < g.rasterHeight}

/-- The blocks of the tiling, each with the samples of it that the raster has a pixel for. -/
def places : Set (Nat × Nat) :=
  {q | q.1 < g.blockCount ∧ q.2 < g.blockArea ∧ ∃ p ∈ g.pixelAt? q.1 q.2, p ∈ g.pixels}

/-! ## 2. There and back -/

/-- The column of a located sample in its block is what is left of the pixel's. -/
theorem locate_snd_mod (x y : Nat) : (g.locate x y).2 % g.blockWidth = x % g.blockWidth := by
  show (x % g.blockWidth + y % g.blockHeight * g.blockWidth) % g.blockWidth = _
  rw [Nat.add_mul_mod_self_right, Nat.mod_mod]

/-- So is its row. -/
theorem locate_snd_div (x y : Nat) : (g.locate x y).2 / g.blockWidth = y % g.blockHeight := by
  show (x % g.blockWidth + y % g.blockHeight * g.blockWidth) / g.blockWidth = _
  rw [Nat.add_mul_div_right _ _ g.blockWidth_pos, Nat.div_eq_of_lt (Nat.mod_lt x g.blockWidth_pos),
    Nat.zero_add]

/-- **A pixel of the raster is found again** where it is located. -/
theorem pixelAt?_locate {x : Nat} (hx : x < g.rasterWidth) (y : Nat) :
    g.pixelAt? (g.locate x y).1 (g.locate x y).2 = some (x, y) := by
  rw [pixelAt?, g.position?_locate hx, Option.map_some, locate_snd_mod, locate_snd_div]
  simp only [Nat.div_add_mod']

/-- **What is found at a sample of a block** is located there. -/
theorem locate_pixelAt? {b o : Nat} (hb : b < g.blockCount) (ho : o < g.blockArea) {p : Nat × Nat}
    (h : g.pixelAt? b o = some p) : g.locate p.1 p.2 = (b, o) := by
  obtain ⟨xb, yb, hposition, -, -, hindex⟩ := g.position?_of_lt hb
  rw [pixelAt?, hposition, Option.map_some, Option.some_inj] at h
  subst h
  rw [g.locate_of_place (Nat.mod_lt o g.blockWidth_pos) (Nat.div_lt_of_lt_mul ho), hindex,
    Nat.mul_comm, Nat.mod_add_div]

/-- **Pixels and places correspond,** one to one. -/
theorem bijOn_locate : Set.BijOn (fun p => g.locate p.1 p.2) g.pixels g.places := by
  refine ⟨fun p hp => ?_, fun p hp q hq heq => ?_, fun q hq => ?_⟩
  · exact ⟨g.locate_fst_lt hp.1 hp.2, g.locate_snd_lt p.1 p.2, p, g.pixelAt?_locate hp.1 p.2, hp⟩
  · -- both pixels are found at the one place
    have hfound := g.pixelAt?_locate hp.1 p.2
    have heq' : g.locate p.1 p.2 = g.locate q.1 q.2 := heq
    rw [heq', g.pixelAt?_locate hq.1 q.2] at hfound
    exact (Option.some.inj hfound).symm
  · obtain ⟨hb, ho, p, hp, hin⟩ := hq
    exact ⟨p, hin, g.locate_pixelAt? hb ho hp⟩

/-- **No block is empty:** the first sample of each belongs to a pixel. -/
theorem exists_pixel_of_lt {b : Nat} (hb : b < g.blockCount) :
    ∃ x < g.rasterWidth, ∃ y < g.rasterHeight, g.locate x y = (b, 0) := by
  obtain ⟨xb, yb, -, hxb, hyb, hindex⟩ := g.position?_of_lt hb
  have hfirst := g.locate_of_place g.blockWidth_pos g.blockHeight_pos xb yb
  rw [Nat.add_zero, Nat.add_zero, Nat.zero_mul, Nat.add_zero, hindex] at hfirst
  exact ⟨_, g.lt_columns_iff.mp hxb, _, g.lt_rows_iff.mp hyb, hfirst⟩

/-- A block in a column and a row of the tiling has one of its numbers. -/
theorem index_lt {xb yb : Nat} (hxb : xb < g.columns) (hyb : yb < g.rows) :
    g.index xb yb < g.blockCount := add_mul_lt hxb hyb

/-! ## 3. Places in words -/

open Numeral (wordBound)

variable {g} in
/-- Where the blocks can be counted in words, and the samples of one, pixels are located in
words. -/
theorem locate?_eq_locate {x y : Nat} (hcount : g.blockCount < wordBound)
    (harea : g.blockArea < wordBound) (hx : x < g.rasterWidth) (hy : y < g.rasterHeight) :
    g.locate? x y = some (g.locate x y) :=
  g.locate?_eq_some_iff.mpr ⟨(g.locate_fst_lt hx hy).trans hcount,
    (g.locate_snd_lt x y).trans harea, rfl⟩

variable {g} in
/-- So are blocks numbered. -/
theorem index?_eq_index {xb yb : Nat} (hcount : g.blockCount < wordBound) (hxb : xb < g.columns)
    (hyb : yb < g.rows) : g.index? xb yb = some (g.index xb yb) :=
  g.index?_eq_some_iff.mpr ⟨(g.index_lt hxb hyb).trans hcount, rfl⟩

variable {g} in
/-- **Pixels and places correspond in words,** one to one. -/
theorem bijOn_locate? (hcount : g.blockCount < wordBound) (harea : g.blockArea < wordBound) :
    Set.BijOn (fun p => g.locate? p.1 p.2) g.pixels (some '' g.places) := by
  have hsome : Set.BijOn some g.places (some '' g.places) :=
    (Option.some_injective _).injOn.bijOn_image
  refine (hsome.comp g.bijOn_locate).congr fun p hp => ?_
  exact (locate?_eq_locate hcount harea hp.1 hp.2).symm

/-- **Pixels are placed once.**  Cut a raster of any size into blocks of any positive size, as long
as the number of blocks is a word, and the number of samples in one.

* Every pixel is located in a block of the tiling, at one of its samples.  The column and row of
  the block are those of the pixel divided by the size of a block, and the pixel is found again
  behind that many blocks, at the column and row that the sample has in its own.
* No two pixels are located alike, and every sample of a block for which the raster has a pixel is
  that of one.
* Every block owns a pixel.
* Numbers of blocks and their columns and rows say the same. -/
theorem pixels_placed_once (raster block : Nat × Nat) (hblock : 0 < block.1 ∧ 0 < block.2) :
    ∃ g, Tiling.new? raster block = some g ∧
      ∀ count area, g.blockCount? = some count → g.blockArea? = some area →
        (∀ x < raster.1, ∀ y < raster.2, ∃ b o, g.locate? x y = some (b, o) ∧
          b < count ∧ o < block.1 * block.2 ∧
          g.position? b = some (x / block.1, y / block.2) ∧
          x / block.1 < g.columns ∧ y / block.2 < g.rows ∧
          x = x / block.1 * block.1 + o % block.1 ∧ y = y / block.2 * block.2 + o / block.1) ∧
        Set.BijOn (fun p => g.locate? p.1 p.2)
          {p : Nat × Nat | p.1 < raster.1 ∧ p.2 < raster.2} (some '' g.places) ∧
        (∀ b < count, ∃ x < raster.1, ∃ y < raster.2, ∃ o, g.locate? x y = some (b, o)) ∧
        (∀ b < count, ∃ xb < g.columns, ∃ yb < g.rows,
          g.position? b = some (xb, yb) ∧ g.index? xb yb = some b) ∧
        ∀ xb < g.columns, ∀ yb < g.rows, ∃ b < count,
          g.index? xb yb = some b ∧ g.position? b = some (xb, yb) := by
  let g : Tiling := ⟨raster.1, raster.2, block.1, block.2, hblock.1, hblock.2⟩
  refine ⟨g, dif_pos hblock, fun count area hcounted hsampled => ?_⟩
  obtain ⟨hcount, rfl⟩ := g.blockCount?_eq_some_iff.mp hcounted
  obtain ⟨harea, -⟩ := g.blockArea?_eq_some_iff.mp hsampled
  refine ⟨fun x hx y hy => ?_, bijOn_locate? hcount harea, fun b hb => ?_, fun b hb => ?_,
    fun xb hxb yb hyb => ?_⟩
  · have hcolumn : x / block.1 * block.1 + (g.locate x y).2 % block.1 = x := by
      rw [g.locate_snd_mod, Nat.div_add_mod']
    have hrow : y / block.2 * block.2 + (g.locate x y).2 / block.1 = y := by
      rw [g.locate_snd_div, Nat.div_add_mod']
    exact ⟨_, _, locate?_eq_locate hcount harea hx hy, g.locate_fst_lt hx hy, g.locate_snd_lt x y,
      g.position?_locate hx y, g.div_lt_columns hx, g.div_lt_rows hy, hcolumn.symm, hrow.symm⟩
  · obtain ⟨x, hx, y, hy, hlocate⟩ := g.exists_pixel_of_lt hb
    exact ⟨x, hx, y, hy, 0, by rw [locate?_eq_locate hcount harea hx hy, hlocate]⟩
  · obtain ⟨xb, yb, hposition, hxb, hyb, rfl⟩ := g.position?_of_lt hb
    exact ⟨xb, hxb, yb, hyb, hposition, index?_eq_index hcount hxb hyb⟩
  · exact ⟨_, g.index_lt hxb hyb, index?_eq_index hcount hxb hyb, g.position?_index hxb yb⟩

/-- Blocks that are cut at the right and higher than the raster. -/
theorem pixels_placed_once_cut : (0 < 4 ∧ 0 < 8) ∧ ∃ g, Tiling.new? (10, 5) (4, 8) = some g ∧
    g.blockCount? = some 3 ∧ g.blockArea? = some 32 ∧
    Set.BijOn (fun p => g.locate? p.1 p.2) {p : Nat × Nat | p.1 < 10 ∧ p.2 < 5}
      (some '' g.places) ∧
    ∀ b < 3, ∃ x < 10, ∃ y < 5, ∃ o, g.locate? x y = some (b, o) := by
  obtain ⟨g, hg, hplaced⟩ := pixels_placed_once (10, 5) (4, 8) (by decide)
  obtain rfl : (⟨10, 5, 4, 8, by decide, by decide⟩ : Tiling) = g := Option.some.inj hg
  obtain ⟨-, hbij, howned, -⟩ := hplaced 3 32 (by decide) (by decide)
  exact ⟨by decide, _, hg, by decide, by decide, hbij, howned⟩

/-- A raster of more blocks than words can count has pixels that are not located. -/
theorem pixels_unplaced_wide : ∃ g, Tiling.new? (8589934592, 4294967296) (1, 1) = some g ∧
    0 < g.rasterWidth ∧ 2147483648 < g.rasterHeight ∧ g.blockCount? = none ∧
    g.locate? 0 2147483648 = none :=
  ⟨⟨8589934592, 4294967296, 1, 1, by decide, by decide⟩, rfl, by decide, by decide, by decide,
    by decide⟩

/-- The last pixel of a raster in blocks that are cut on both sides. -/
example : (Tiling.new? (10, 5) (4, 4)).bind (·.locate? 9 4) = some (5, 1) := by decide

end Tiling
end RasterWarp
