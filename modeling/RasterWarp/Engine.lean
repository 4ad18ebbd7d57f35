/-
# Engines

An engine makes the steps that contexts are built from, and gets every context back when it is no
longer needed.  `Engine` is what a warp asks of one; `AffineEngine` knows affine maps between
registered pairs of coordinate systems and counts what it made and what it got back.

A call may fail and still have changed the engine, so each answers with the engine after it.
-/
import RasterWarp.Context
import RasterWarp.CrsMap

namespace RasterWarp

/-- A transform as a warp uses it. -/
abbrev Transform (α : Type) := BatchTransform (Outcome α) α

/-- A context as a warp uses it. -/
abbrev WarpContext (α : Type) := Context (Outcome α) α

/-- **What makes the steps of contexts.** -/
class Engine (ε : Type) (α : outParam Type) where
  /-- The step between two coordinate systems, or nothing if none is needed. -/
  crsStep : ε → (source destination : String) → Outcome α (Option (Transform α)) × ε
  /-- The step from source pixels to the system of geolocation arrays. -/
  geolocation : ε → (options : List String) → Outcome α (Transform α) × ε
  /-- Takes a context back. -/
  release : ε → WarpContext α → ε

namespace Engine

variable {ε α : Type} [Scalar α] [Engine ε α]

omit [Scalar α] in
/-- The step to an optional destination system. -/
def stepTo (e : ε) (source : String) : Option String → Outcome α (Option (Transform α)) × ε
  | none => (.ok none, e)
  | some destination => crsStep e source destination

/-- **A context of a source with a geotransform.** -/
def affineContext (e : ε) (sourceCrs : String) (source : GeoTransform α)
    (destinationCrs : Option String) (destination : GeoTransform α) :
    Outcome α (WarpContext α) × ε :=
  let (step, e) := stepTo e sourceCrs destinationCrs
  (step.bind fun step => attempt (Context.affine source step destination), e)

/-- **A context of a source with geolocation arrays.** -/
def geolocatedContext (e : ε) (sourceCrs : String) (options : List String)
    (destinationCrs : Option String) (destination : GeoTransform α) :
    Outcome α (WarpContext α) × ε :=
  match geolocation e options with
  | (.error i, e) => (.error i, e)
  | (.ok source, e) =>
    let (step, e) := stepTo e sourceCrs destinationCrs
    (step.bind fun step => attempt (Context.geolocated source step destination), e)

omit [Scalar α] in
/-- Takes several contexts back. -/
def releaseAll (e : ε) (contexts : List (WarpContext α)) : ε := contexts.foldl release e

end Engine

/-- **Affine maps between registered pairs,** each of which serves both ways.  What was made and
what came back is counted in words, which no run can count through: the counts are taken as numbers
without a bound. -/
structure AffineEngine (α : Type) where
  /-- The maps by their pair; of two under one pair the first counts. -/
  pairs : List ((String × String) × CrsMap α)
  /-- The map that stands for any geolocation arrays. -/
  geolocation : Option (CrsMap α)
  created : Nat
  destroyed : Nat

namespace AffineEngine

variable {α : Type} [Scalar α]

omit [Scalar α] in
def empty : AffineEngine α := ⟨[], none, 0, 0⟩

omit [Scalar α] in
/-- Registers a map, in place of an earlier one of the same pair. -/
def register (e : AffineEngine α) (source destination : String) (t : CrsMap α) :
    AffineEngine α :=
  { e with pairs := ((source, destination), t) :: e.pairs }

/-- The map from one system to another, registered for this direction or for the other. -/
def find? (e : AffineEngine α) (source destination : String) : Option (CrsMap α) :=
  match e.pairs.lookup (source, destination) with
  | some t => some t
  | none => (e.pairs.lookup (destination, source)).map (·.reversed)

/-- The step between two systems: none if they have one name, else the registered map. -/
def crsStep (e : AffineEngine α) (source destination : String) :
    Outcome α (Option (Transform α)) × AffineEngine α :=
  if source.isEmpty ∨ destination.isEmpty then (Cause.raise (Cause.emptyCrs (α := α)), e)
  else if source = destination then (.ok none, e)
  else match e.find? source destination with
    | some t => (.ok (some t.toBatchTransform), { e with created := e.created + 1 })
    | none => (Cause.raise (Cause.noTransformation (α := α) source destination), e)

def geolocationStep (e : AffineEngine α) (options : List String) :
    Outcome α (Transform α) × AffineEngine α :=
  if options.isEmpty then (Cause.raise (Cause.noGeolocationOptions (α := α)), e)
  else match e.geolocation with
    | some t => (.ok t.toBatchTransform, e)
    | none => (Cause.raise (Cause.noGeolocation (α := α) options), e)

instance : Engine (AffineEngine α) α where
  crsStep := crsStep
  geolocation := geolocationStep
  release e _ := { e with destroyed := e.destroyed + 1 }

end AffineEngine
end RasterWarp
