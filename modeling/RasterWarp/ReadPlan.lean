/-
# Destination pixels by source block

`planReads` takes the center of every pixel of a window back to the source, row by row, and sorts
the pixels that have a source pixel by the block it lies in.  A row whose transform fails as a
whole is dropped with a notice; a pixel without a source pixel is dropped.

Each group keeps its pixels in the order of the window, and the groups are in the order of their
blocks.  Indices and counts are words: a raster, a window or a block for which they are not cannot
be planned for.
-/
import RasterWarp.Tiling
import RasterWarp.Notice
import RasterWarp.Point

namespace RasterWarp

/-- **The pixels served by one block:** linear source indices beside linear window indices. -/
structure PixelGroup where
  source : Array Nat
  destination : Array Nat
deriving DecidableEq

namespace PixelGroup

def empty : PixelGroup := ⟨#[], #[]⟩

def size (p : PixelGroup) : Nat := p.source.size

def isEmpty (p : PixelGroup) : Bool := p.source.isEmpty

def push (p : PixelGroup) (source destination : Nat) : PixelGroup :=
  ⟨p.source.push source, p.destination.push destination⟩

/-- The source and window index of each pixel. -/
def pairs (p : PixelGroup) : List (Nat × Nat) := (p.source.zip p.destination).toList

end PixelGroup

/-- Pixels by the number of their block, in ascending order. -/
abbrev PixelGroups := List (Nat × PixelGroup)

/-- The groups with one more pixel. -/
def PixelGroups.add (block source destination : Nat) : PixelGroups → PixelGroups
  | [] => [(block, PixelGroup.empty.push source destination)]
  | (b, pixels) :: rest =>
    if block < b then (block, PixelGroup.empty.push source destination) :: (b, pixels) :: rest
    else if block = b then (b, pixels.push source destination) :: rest
    else (b, pixels) :: add block source destination rest

/-- The groups with the one of a block put in its place. -/
def PixelGroups.insert (block : Nat) (pixels : PixelGroup) : PixelGroups → PixelGroups
  | [] => [(block, pixels)]
  | (b, old) :: rest =>
    if block < b then (block, pixels) :: (b, old) :: rest
    else if block = b then (block, pixels) :: rest
    else (b, old) :: insert block pixels rest

/-- Groups in the order of their blocks; of several for one block the last counts. -/
def PixelGroups.ofList (groups : List (Nat × PixelGroup)) : PixelGroups :=
  groups.foldl (fun sorted (block, pixels) => PixelGroups.insert block pixels sorted) []

/-- **The pixels of a window by source block,** and how many have no source pixel. -/
structure ReadPlan where
  groups : PixelGroups
  mapped : Nat
  dropped : Nat

namespace ReadPlan

def empty : ReadPlan := ⟨[], 0, 0⟩

def blockCount (plan : ReadPlan) : Nat := plan.groups.length

end ReadPlan

variable {α : Type} [Scalar α]

/-- The source pixel on which a transformed point falls.  A coordinate just short of a pixel
counts as on it. -/
def pixelUnder? (g : Tiling) (p : Point α) : Option (Nat × Nat) :=
  if p.ok && (0 ≤ p.x && 0 ≤ p.y) then
    let x := Scalar.trunc (p.x + 1e-10)
    let y := Scalar.trunc (p.y + 1e-10)
    if x < g.rasterWidth && y < g.rasterHeight then some (x, y) else none
  else none

/-- Adds the pixel in a row and a column of a window `width` pixels wide, whose center went to
`p`. -/
def ReadPlan.place? (plan : ReadPlan) (g : Tiling) (width row col : Nat) (p : Point α) :
    Option ReadPlan :=
  match pixelUnder? g p with
  | none => do
    let dropped ← word? (plan.dropped + 1)
    return { plan with dropped }
  | some (x, y) => do
    let (block, _) ← g.locate? x y
    let before ← word? (y * g.rasterWidth)
    let source ← word? (before + x)
    let above ← word? (row * width)
    let destination ← word? (above + col)
    let mapped ← word? (plan.mapped + 1)
    return { plan with groups := plan.groups.add block source destination, mapped }

/-- Adds the pixels of a row. -/
def ReadPlan.placeRow? (plan : ReadPlan) (g : Tiling) {width : Nat} (row : Nat)
    (points : Batch α width) : Option ReadPlan :=
  points.toArray.zipIdx.foldlM (fun plan (p, col) => plan.place? g width row col p) plan

/-- The centers of one row of a window, before they are transformed. -/
def Window.rowCenters (w : Window) (row : Nat) : Batch α w.width :=
  Vector.ofFn fun col =>
    let (x, y) := w.center col row
    ⟨x, y, 0, false⟩

/-- The same, if the nominal columns and the row are words. -/
def Window.rowCenters? (w : Window) (row : Nat) : Option (Batch α w.width) := do
  let _ ← word? (w.xOffset + (w.width - 1))
  let _ ← word? (w.yOffset + row)
  return w.rowCenters row

/-- Adds one row of a window, or drops it. -/
def planRow (transform : {n : Nat} → Batch α n → Outcome α (Batch α n)) (w : Window) (g : Tiling)
    (plan : ReadPlan) (row : Nat) : Outcome α (ReadPlan × List (Notice α)) := do
  let centers ← inWord (w.rowCenters? row)
  match transform centers with
  | .ok points =>
    let placed ← inWord (plan.placeRow? g row points)
    return (placed, [])
  | .error (.failure f) =>
    let dropped ← inWord (word? (plan.dropped + w.width))
    return ({ plan with dropped }, [.rowFailed row f])
  | .error (.fault f) => throw (.fault f)

/-- **Takes every pixel of a window back to the source,** with a notice for each row dropped.  The
coordinates of a row take eight bytes each. -/
def planReads (transform : {n : Nat} → Batch α n → Outcome α (Batch α n)) (w : Window)
    (g : Tiling) : Outcome α (ReadPlan × List (Notice α)) := do
  if w.isEmpty then Cause.raise (Cause.emptyWindow (α := α) w)
  allocate (8 * w.width)
  (List.range w.height).foldlM (fun (plan, notices) row => do
    let (plan, more) ← planRow transform w g plan row
    return (plan, notices ++ more)) (.empty, [])

end RasterWarp
