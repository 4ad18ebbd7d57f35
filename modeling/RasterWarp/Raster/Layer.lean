/-
# One level of a band

A `Layer` holds the samples of one resolution of a band row by row and hands them out in blocks.
A block is always read whole: where the raster ends inside it, the rest is zero.  Blocks can be
marked as unreadable, and every block that was read is counted.
-/
import RasterWarp.Tiling
import RasterWarp.Failure
import RasterWarp.Sample

namespace RasterWarp

/-- **The samples of one resolution,** with the tiling in which they are read. -/
structure Layer where
  width : Nat
  height : Nat
  blockWidth : Nat
  blockHeight : Nat
  type : SampleType
  data : Bytes
  noData : Option Binary64
  /-- Values by domain and key; of two under one key the first counts. -/
  metadata : List ((String × String) × String)
  /-- The blocks that cannot be read. -/
  failing : List (Nat × Nat)
  /-- Blocks read so far: a word that no run can count through, taken as a number without bound. -/
  reads : Nat
  blockWidth_pos : 0 < blockWidth
  blockHeight_pos : 0 < blockHeight
  size_data : data.size = width * height * type.size

namespace Layer

/-- A layer by the value of each sample, tiled in rows. -/
def ofFn (width height : Nat) (type : SampleType) (f : Nat → Nat → Binary64) : Layer where
  width
  height
  blockWidth := max width 1
  blockHeight := 1
  type
  data := Bytes.concat (width * height) fun i => type.encode (f (i % width) (i / width))
  noData := none
  metadata := []
  failing := []
  reads := 0
  blockWidth_pos := by omega
  blockHeight_pos := by omega
  size_data := Bytes.size_concat fun _ => SampleType.size_encode ..

/-- A layer of zeros. -/
def zeros (width height : Nat) (type : SampleType) : Layer :=
  ofFn width height type fun _ _ => .zero

/-- The layer in other blocks; an empty side counts as one sample. -/
def setBlocks (l : Layer) (width height : Nat) : Layer :=
  { l with
    blockWidth := max width 1
    blockHeight := max height 1
    blockWidth_pos := by omega
    blockHeight_pos := by omega }

def setNoData (l : Layer) (v : Binary64) : Layer := { l with noData := some v }

def addMetadata (l : Layer) (key domain value : String) : Layer :=
  { l with metadata := ((domain, key), value) :: l.metadata }

def addFailing (l : Layer) (xBlock yBlock : Nat) : Layer :=
  { l with failing := (xBlock, yBlock) :: l.failing }

def metadataValue? (l : Layer) (key domain : String) : Option String :=
  l.metadata.lookup (domain, key)

/-- The stored sample number `index`. -/
def sample? (l : Layer) (index : Nat) : Option Binary64 := l.type.get? l.data index

/-- The value at a pixel, counted along rows; a column past the end reaches into the next row. -/
def value? (l : Layer) (x y : Nat) : Option Binary64 := l.sample? (y * l.width + x)

/-- The tiling of the layer. -/
def grid (l : Layer) : Tiling :=
  ⟨l.width, l.height, l.blockWidth, l.blockHeight, l.blockWidth_pos, l.blockHeight_pos⟩

/-- Copies row `row` of a block into a buffer for the whole block: the samples that the raster has
of it. -/
def copyRow (l : Layer) (xBlock yBlock : Nat) (buffer : Bytes) (row : Nat) : Option Bytes := do
  let x := xBlock * l.blockWidth
  let y := yBlock * l.blockHeight + row
  let columns := min l.blockWidth (l.width - x)
  let samples ← l.data.slice? ((y * l.width + x) * l.type.size) (columns * l.type.size)
  buffer.splice? (row * l.blockWidth * l.type.size) samples

/-- Copies the rows that the raster has of a block. -/
def copyBlock (l : Layer) (xBlock yBlock : Nat) (buffer : Bytes) : Option Bytes :=
  (List.range (min l.blockHeight (l.height - yBlock * l.blockHeight))).foldlM
    (l.copyRow xBlock yBlock) buffer

/-- **Reads a block over a buffer** that has room for it.  What the raster does not have becomes
zero, as does what the buffer has beyond the block.  Where a block begins is a word in the raster,
as the raster's size is; only outside it can be more. -/
def fetch {α : Type} (l : Layer) (xBlock yBlock : Nat) (buffer : Bytes) :
    Outcome α (Bytes × Layer) :=
  let x := xBlock * l.blockWidth
  let y := yBlock * l.blockHeight
  if ¬ (x < l.width ∧ y < l.height) then
    .error ((Cause.blockOutside xBlock yBlock).refusing (max x y))
  else do
    let size ← inWord (l.grid.blockBytes? l.type.size)
    if buffer.size < size then
      Cause.raise (Cause.blockBufferTooSmall (α := α) buffer.size)
    else if l.failing.contains (xBlock, yBlock) then
      Cause.raise (Cause.blockUnreadable (α := α) xBlock yBlock)
    else
      let block ← inRange (l.copyBlock xBlock yBlock (Bytes.zeros buffer.size))
      return (block, { l with reads := l.reads + 1 })

/-- The layer with more reads counted. -/
def credit (l : Layer) (n : Nat) : Layer := { l with reads := l.reads + n }

end Layer
end RasterWarp
