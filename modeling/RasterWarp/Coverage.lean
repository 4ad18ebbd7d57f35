/-
# What part of the destination is covered

`coveredWindow` shrinks the nominal grid to the part that a source covers; `pixelOn` says on
which pixel of an axis a coordinate falls.  `measure` gives the size of a box in pixels of a
source's own resolution.
-/
import RasterWarp.Window
import RasterWarp.Failure

namespace RasterWarp

variable {α : Type} [Scalar α]

/-- The pixel of an axis of `extent` pixels on which a coordinate falls: the first one for what
lies before it, the last one for what lies past it.  A coordinate just short of a pixel counts as
on it. -/
def pixelOn (coord : α) (extent : Nat) : Nat :=
  if 0 ≤ coord then min (Scalar.trunc (coord + 1e-10)) (extent - 1) else 0

/-- **The window of the pixels that an extent touches,** or the whole grid if none is known.  The
far side of the extent is taken half a pixel further. -/
def coveredWindow (extent : Option (Bounds α)) (width height : Nat) : Window :=
  match extent with
  | none => .full width height
  | some e =>
    let x0 := pixelOn e.minX width
    let y0 := pixelOn e.minY height
    let x1 := max (pixelOn (e.maxX + 0.5) width) x0
    let y1 := max (pixelOn (e.maxY + 0.5) height) y0
    ⟨x0, y0, x1 - x0 + 1, y1 - y0 + 1⟩

/-- A pixel of the axis, whatever the coordinate is. -/
theorem pixelOn_lt (coord : α) {extent : Nat} (h : 0 < extent) : pixelOn coord extent < extent := by
  unfold pixelOn
  split
  · exact Nat.lt_of_le_of_lt (Nat.min_le_right _ _) (Nat.sub_lt h Nat.one_pos)
  · exact h

/-- The far end of an axis is a pixel of it too. -/
theorem max_pixelOn_lt (low high : α) {extent : Nat} (h : 0 < extent) :
    max (pixelOn high extent) (pixelOn low extent) < extent :=
  Nat.max_lt.mpr ⟨pixelOn_lt high h, pixelOn_lt low h⟩

/-- **A window that has a pixel and ends within a grid.** -/
structure Window.FitsIn (w : Window) (width height : Nat) : Prop where
  columns : 1 ≤ w.width
  rows : 1 ≤ w.height
  right : w.xOffset + w.width ≤ width
  bottom : w.yOffset + w.height ≤ height

/-- **The window of any extent fits the grid.** -/
theorem coveredWindow_fits (extent : Option (Bounds α)) {width height : Nat} (hw : 0 < width)
    (hh : 0 < height) : (coveredWindow extent width height).FitsIn width height := by
  cases extent with
  | none =>
    constructor
    · exact hw
    · exact hh
    · exact Nat.le_of_eq (Nat.zero_add width)
    · exact Nat.le_of_eq (Nat.zero_add height)
  | some e =>
    have hx := max_pixelOn_lt e.minX (e.maxX + 0.5) hw
    have hy := max_pixelOn_lt e.minY (e.maxY + 0.5) hh
    simp only [coveredWindow]
    constructor <;> simp only <;> omega

/-- **The size of a box in pixels,** and the size of one pixel. -/
structure Measure (α : Type) where
  pixels : Nat
  lines : Nat
  xResolution : α
  yResolution : α

/-- The number of pixels that a side comes nearest to. -/
def pixelsAcross (low high resolution : α) : Nat :=
  Scalar.trunc ((high - low + resolution / 2.0) / resolution)

/-- **The size of a box at the resolution of a geotransform.** -/
def measure (g : GeoTransform α) (box : Bounds α) : Except (Failure α) (Measure α) :=
  let x := g.pixelWidth
  let y := Scalar.abs g.pixelHeight
  if !(0 < x && 0 < y) then .error (Cause.failure (.noResolution g))
  else if !(box.minX ≤ box.maxX && box.minY ≤ box.maxY) then
    .error (Cause.failure (.unorderedBounds box))
  else .ok ⟨pixelsAcross box.minX box.maxX x, pixelsAcross box.minY box.maxY y, x, y⟩

end RasterWarp
