/-
# Transform contexts

A context takes destination pixels to source pixels and back, along the chain

    source pixel <-> source coordinates <-> destination coordinates <-> destination pixel

The source end is a geotransform or a geolocation transform, the step between the coordinate
systems is optional, and the destination end is a geotransform.  A context holds both
geotransforms with their inverses; it is built and updated only through functions that compute
the inverse anew and leave the context alone where there is none.

A point is flagged at the end if every step of the chain accepted it and both coordinates are
finite: a flag that has been lost is never regained.
-/
import RasterWarp.GeoTransform.Inverse
import RasterWarp.Point

namespace RasterWarp

/-- **How source pixels are georeferenced.** -/
inductive Georeference (m : Type → Type) (α : Type) where
  | affine (map inverse : GeoTransform α)
  | geolocation (t : BatchTransform m α)

/-- **The chain between source and destination pixels.** -/
structure Context (m : Type → Type) (α : Type) where
  source : Georeference m α
  reprojection : Option (BatchTransform m α)
  destination : GeoTransform α
  destinationInverse : GeoTransform α

/-- Moves the points of a batch along an affine map. -/
def GeoTransform.moveBatch {α : Type} [Scalar α] {n : Nat} (g : GeoTransform α) (b : Batch α n) :
    Batch α n :=
  b.map fun p => let (x, y) := g.apply p.x p.y; { p with x, y }

/-- **One step of a chain:** the transform sees only points in good order, and its flags are added
to those of the steps before. -/
def BatchTransform.step {m : Type → Type} {α : Type} [Monad m] {n : Nat} (t : BatchTransform m α)
    (d : Direction) (b : Batch α n) : m (Batch α n) := do
  let moved ← t.run d (b.map fun p => { p with ok := true })
  return b.zipWith (fun before after => { after with ok := before.ok && after.ok }) moved

namespace Context

variable {m : Type → Type} {α : Type} [Scalar α]

/-- A context of a source with a geotransform. -/
def affine (source : GeoTransform α) (reprojection : Option (BatchTransform m α))
    (destination : GeoTransform α) : Except (Failure α) (Context m α) := do
  let inverse ← source.inverseFor .invertingSource
  let destinationInverse ← destination.inverseFor .invertingDestination
  return ⟨.affine source inverse, reprojection, destination, destinationInverse⟩

/-- A context of a source with geolocation arrays. -/
def geolocated (source : BatchTransform m α) (reprojection : Option (BatchTransform m α))
    (destination : GeoTransform α) : Except (Failure α) (Context m α) := do
  let destinationInverse ← destination.inverseFor .invertingDestination
  return ⟨.geolocation source, reprojection, destination, destinationInverse⟩

omit [Scalar α] in
def hasGeolocation (c : Context m α) : Bool :=
  match c.source with
  | .affine .. => false
  | .geolocation _ => true

omit [Scalar α] in
def changesCrs (c : Context m α) : Bool := c.reprojection.isSome

omit [Scalar α] in
/-- The geotransform of the source, if it has one. -/
def sourceMap? (c : Context m α) : Option (GeoTransform α) :=
  match c.source with
  | .affine map _ => some map
  | .geolocation _ => none

/-- The context of a source with another geotransform. -/
def setSource (c : Context m α) (g : GeoTransform α) : Except (Failure α) (Context m α) :=
  match c.source with
  | .geolocation _ => .error (Cause.failure .geolocatedSource)
  | .affine .. => do
    let inverse ← g.inverseFor .invertingSource
    return { c with source := .affine g inverse }

/-- The context of another destination grid. -/
def setDestination (c : Context m α) (g : GeoTransform α) : Except (Failure α) (Context m α) := do
  let inverse ← g.inverseFor .invertingDestination
  return { c with destination := g, destinationInverse := inverse }

/-- **The context for other geotransforms,** with the step between the coordinate systems kept. -/
def boundTo (c : Context m α) (source destination : GeoTransform α) :
    Except (Failure α) (Context m α) := do
  (← c.setSource source).setDestination destination

/-- The source end of the chain. -/
def sourceStep [Monad m] (c : Context m α) (d : Direction) {n : Nat} (b : Batch α n) :
    m (Batch α n) :=
  match c.source, d with
  | .affine map _, .sourceToDestination => pure (map.moveBatch b)
  | .affine _ inverse, .destinationToSource => pure (inverse.moveBatch b)
  | .geolocation t, d => t.step d b

omit [Scalar α] in
/-- The step between the coordinate systems. -/
def reprojectionStep [Monad m] (c : Context m α) (d : Direction) {n : Nat} (b : Batch α n) :
    m (Batch α n) :=
  match c.reprojection with
  | none => pure b
  | some t => t.step d b

/-- The steps in the order of a direction. -/
def chain [Monad m] (c : Context m α) (d : Direction) {n : Nat} (b : Batch α n) :
    m (Batch α n) :=
  match d with
  | .destinationToSource => do
    c.sourceStep d (← c.reprojectionStep d (c.destination.moveBatch b))
  | .sourceToDestination => do
    return c.destinationInverse.moveBatch (← c.reprojectionStep d (← c.sourceStep d b))

/-- A point at an infinite or undefined place is not transformed. -/
def checkFinite {n : Nat} (b : Batch α n) : Batch α n :=
  b.map fun p => { p with ok := p.ok && Scalar.isFinite p.x && Scalar.isFinite p.y }

/-- **Takes points along the chain,** whatever their flags were. -/
def transform [Monad m] (c : Context m α) (d : Direction) {n : Nat} (b : Batch α n) :
    m (Batch α n) := do
  return checkFinite (← c.chain d (b.map fun p => { p with ok := true }))

/-- How messages show a context. -/
def description {m : Type → Type} {α : Type} [DecimalText α] (c : Context m α) : String :=
  let source := match c.source with
    | .affine map inverse => Text.record "Affine"
        [("geo_transform", map.description), ("inverse", inverse.description)] false
    | .geolocation _ => "GeoLocation(PointTransform)"
  let reprojection := if c.reprojection.isSome then "Some(PointTransform)" else "None"
  Text.record "TransformContext" [("source", source), ("reprojection", reprojection),
    ("dst_geo_transform", c.destination.description),
    ("dst_inverse", c.destinationInverse.description)] false

end Context
end RasterWarp
