/-
# Block tilings

A raster band is stored in blocks of one size, row by row; those at the right and lower edge are
cut off by the raster.  `locate` names the block of a pixel and the place of its sample there.

How many blocks there are, how large one is and where a pixel lies are numbers of any size.  What
a program gets of them are words: `blockCount?`, `index?`, `locate?` and the others give the number
if it is a word and if all on the way to it are.
-/
import RasterWarp.Word

namespace RasterWarp

/-- **A raster cut into blocks of a positive size.** -/
structure Tiling where
  rasterWidth : Nat
  rasterHeight : Nat
  blockWidth : Nat
  blockHeight : Nat
  blockWidth_pos : 0 < blockWidth
  blockHeight_pos : 0 < blockHeight

namespace Tiling

/-- The tiling of a raster, given as `(width, height)`, unless the blocks are empty. -/
def new? (raster block : Nat × Nat) : Option Tiling :=
  if h : 0 < block.1 ∧ 0 < block.2 then
    some ⟨raster.1, raster.2, block.1, block.2, h.1, h.2⟩
  else none

variable (g : Tiling)

/-- Blocks side by side, the last one possibly cut. -/
def columns : Nat := (g.rasterWidth + g.blockWidth - 1) / g.blockWidth

def rows : Nat := (g.rasterHeight + g.blockHeight - 1) / g.blockHeight

def blockCount : Nat := g.columns * g.rows

/-- Samples of one whole block. -/
def blockArea : Nat := g.blockWidth * g.blockHeight

def blockBytes (sampleSize : Nat) : Nat := g.blockArea * sampleSize

/-- The number of a block, counted row by row. -/
def index (xBlock yBlock : Nat) : Nat := xBlock + yBlock * g.columns

/-- The column and row of a block, in a grid that has any. -/
def position? (index : Nat) : Option (Nat × Nat) :=
  if g.columns = 0 then none else some (index % g.columns, index / g.columns)

/-- The raster reaches into the block in a column and a row. -/
def Inside (xBlock yBlock : Nat) : Prop :=
  xBlock * g.blockWidth < g.rasterWidth ∧ yBlock * g.blockHeight < g.rasterHeight

/-- The block that owns a pixel, and the number of its sample in the block. -/
def locate (x y : Nat) : Nat × Nat :=
  (g.index (x / g.blockWidth) (y / g.blockHeight),
    x % g.blockWidth + y % g.blockHeight * g.blockWidth)

/-! ## In words -/

def blockCount? : Option Nat := word? g.blockCount

def blockArea? : Option Nat := word? g.blockArea

def blockBytes? (sampleSize : Nat) : Option Nat := do
  let area ← g.blockArea?
  word? (area * sampleSize)

/-- The bytes of a number of blocks. -/
def bytesOf? (sampleSize blocks : Nat) : Option Nat := do
  let size ← g.blockBytes? sampleSize
  word? (blocks * size)

def index? (xBlock yBlock : Nat) : Option Nat := do
  let before ← word? (yBlock * g.columns)
  word? (xBlock + before)

def locate? (x y : Nat) : Option (Nat × Nat) := do
  let index ← g.index? (x / g.blockWidth) (y / g.blockHeight)
  let above ← word? (y % g.blockHeight * g.blockWidth)
  let offset ← word? (x % g.blockWidth + above)
  return (index, offset)

open Numeral (wordBound)

theorem blockCount?_eq_some_iff {n : Nat} :
    g.blockCount? = some n ↔ g.blockCount < wordBound ∧ g.blockCount = n := word?_eq_some_iff

theorem blockArea?_eq_some_iff {n : Nat} :
    g.blockArea? = some n ↔ g.blockArea < wordBound ∧ g.blockArea = n := word?_eq_some_iff

theorem blockBytes?_eq_some_iff {sampleSize n : Nat} : g.blockBytes? sampleSize = some n ↔
    g.blockArea < wordBound ∧ g.blockBytes sampleSize < wordBound ∧
      g.blockBytes sampleSize = n := by
  simp only [blockBytes?, Option.bind_eq_bind, Option.bind_eq_some_iff, blockArea?_eq_some_iff,
    word?_eq_some_iff]
  constructor
  · rintro ⟨_, ⟨harea, rfl⟩, hn⟩
    exact ⟨harea, hn⟩
  · rintro ⟨harea, hn⟩
    exact ⟨_, ⟨harea, rfl⟩, hn⟩

theorem bytesOf?_eq_some_iff {sampleSize blocks n : Nat} : g.bytesOf? sampleSize blocks = some n ↔
    g.blockArea < wordBound ∧ g.blockBytes sampleSize < wordBound ∧
      blocks * g.blockBytes sampleSize < wordBound ∧ blocks * g.blockBytes sampleSize = n := by
  simp only [bytesOf?, Option.bind_eq_bind, Option.bind_eq_some_iff, blockBytes?_eq_some_iff,
    word?_eq_some_iff]
  constructor
  · rintro ⟨_, ⟨harea, hbytes, rfl⟩, hn⟩
    exact ⟨harea, hbytes, hn⟩
  · rintro ⟨harea, hbytes, hn⟩
    exact ⟨_, ⟨harea, hbytes, rfl⟩, hn⟩

/-- **Room for a block,** whose size can be told in words and is one that buffers have. -/
structure Room (sampleSize : Nat) : Prop where
  area : g.blockArea < wordBound
  bytes : g.blockBytes sampleSize < bufferBound

theorem Room.blockBytes?_eq {g : Tiling} {sampleSize : Nat} (h : g.Room sampleSize) :
    g.blockBytes? sampleSize = some (g.blockBytes sampleSize) :=
  g.blockBytes?_eq_some_iff.mpr
    ⟨h.area, Nat.lt_of_lt_of_le h.bytes bufferBound_le_wordBound, rfl⟩

/-- The number of a block is a word only if that of the first block in its row is. -/
theorem index?_eq_some_iff {xBlock yBlock n : Nat} : g.index? xBlock yBlock = some n ↔
    g.index xBlock yBlock < wordBound ∧ g.index xBlock yBlock = n := by
  simp only [index?, Option.bind_eq_bind, Option.bind_eq_some_iff, word?_eq_some_iff]
  constructor
  · rintro ⟨_, ⟨-, rfl⟩, hn⟩
    exact hn
  · rintro ⟨hlt, rfl⟩
    exact ⟨_, ⟨Nat.lt_of_le_of_lt (Nat.le_add_left _ _) hlt, rfl⟩, hlt, rfl⟩

theorem locate?_eq_some_iff {x y : Nat} {p : Nat × Nat} : g.locate? x y = some p ↔
    (g.locate x y).1 < wordBound ∧ (g.locate x y).2 < wordBound ∧ g.locate x y = p := by
  simp only [locate?, Option.bind_eq_bind, Option.bind_eq_some_iff, index?_eq_some_iff,
    word?_eq_some_iff, Option.pure_def, Option.some_inj]
  constructor
  · rintro ⟨_, ⟨hindex, rfl⟩, _, ⟨-, rfl⟩, _, ⟨hoffset, rfl⟩, rfl⟩
    exact ⟨hindex, hoffset, rfl⟩
  · rintro ⟨hindex, hoffset, rfl⟩
    exact ⟨_, ⟨hindex, rfl⟩, _, ⟨Nat.lt_of_le_of_lt (Nat.le_add_left _ _) hoffset, rfl⟩, _,
      ⟨hoffset, rfl⟩, rfl⟩

def description : String :=
  s!"BlockGrid(raster {g.rasterWidth}x{g.rasterHeight}, block {g.blockWidth}x{g.blockHeight}, "
    ++ s!"{g.columns}x{g.rows} blocks)"

end Tiling
end RasterWarp
