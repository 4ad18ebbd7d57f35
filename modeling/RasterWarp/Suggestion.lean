/-
# The destination grid that a raster covers

`ofRaster` takes points along the edge of a source raster through a context and measures the box
they cover in destination pixels; where an edge point cannot be transformed, points of the
interior are taken as well.  The suggested grid covers that box with as many pixels along the
diagonal as the source has.

Only points that were transformed enter the box.
-/
import RasterWarp.Context

namespace RasterWarp

/-- **A grid that covers a whole source raster** in destination pixel space. -/
structure Suggestion (α : Type) where
  geoTransform : GeoTransform α
  pixels : Nat
  lines : Nat
  extent : Bounds α

namespace Suggestion

variable {α : Type} [Scalar α]

omit [Scalar α] in
/-- The size of a suggested pixel, in destination pixels. -/
def pixelSize (s : Suggestion α) : α := s.geoTransform.pixelWidth

/-- Points sampled along one side. -/
def samples : Nat := 21

/-- The distance between two samples, as a part of the side. -/
def step : α := 1 / Scalar.ofNat (samples - 1)

/-- Samples of the four edges of a raster. -/
def edgeSamples (width height : α) : List (α × α) :=
  (List.range samples).flatMap fun i =>
    let t : α := Scalar.ofNat i * step
    [(t * width, 0), (t * width, height), (0, t * height), (width, t * height)]

/-- Samples of the whole raster, edges included. -/
def interiorSamples (width height : α) : List (α × α) :=
  (List.range samples).flatMap fun row =>
    (List.range samples).map fun col =>
      (Scalar.ofNat col * step * width, Scalar.ofNat row * step * height)

/-- Points at height zero. -/
def batchOf (points : List (α × α)) : Batch α points.length :=
  ⟨(points.map fun (x, y) => (⟨x, y, 0, false⟩ : Point α)).toArray, by simp⟩

variable {m : Type → Type} [Monad m]

/-- The box of the images of those points that are transformed, and whether all are. -/
def cover (c : Context m α) (points : List (α × α)) : m (Option (Bounds α) × Bool) := do
  let images ← c.transform .sourceToDestination (batchOf points)
  let placed := images.toList.filter (·.ok)
  return (Bounds.ofPoints? (placed.map fun p => (p.x, p.y)), images.all (·.ok))

/-- The box around two sets of points, either of which may be empty. -/
def joined : Option (Bounds α) → Option (Bounds α) → Option (Bounds α)
  | some a, some b => some (a.join b)
  | some a, none => some a
  | none, b => b

/-- The grid with the source's number of pixels along the diagonal of an extent. -/
def ofExtent? (width height : α) (extent : Bounds α) : Option (Suggestion α) :=
  let dx := extent.maxX - extent.minX
  let dy := extent.maxY - extent.minY
  let resolution := Scalar.sqrt (dx * dx + dy * dy) / Scalar.sqrt (width * width + height * height)
  if 0 < resolution && Scalar.isFinite resolution then
    some
      { geoTransform := ⟨extent.minX, resolution, 0, extent.maxY, 0, -resolution⟩
        pixels := Scalar.trunc (dx / resolution + 0.5)
        lines := Scalar.trunc (dy / resolution + 0.5)
        extent }
  else none

/-- **The grid covering a raster of the given size.** -/
def ofRaster [MonadExceptOf (Interrupt (Failure α)) m] (raster : Nat × Nat) (c : Context m α) :
    m (Suggestion α) := do
  let width : α := Scalar.ofNat raster.1
  let height : α := Scalar.ofNat raster.2
  if !(0 < width && 0 < height) then
    Cause.raise (Cause.emptyRaster (α := α))
  else
    let (edges, complete) ← cover c (edgeSamples width height)
    let inside ← if complete then pure none
      else Prod.fst <$> cover c (interiorSamples width height)
    match joined edges inside with
    | none => Cause.raise (Cause.nothingTransformed (α := α))
    | some extent =>
      match ofExtent? width height extent with
      | some s => return s
      | none => Cause.raise (Cause.degenerateExtent extent)

end Suggestion
end RasterWarp
