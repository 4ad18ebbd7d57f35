/-
# The size of a box at a source's resolution

Measuring a box has the same two owners of contexts as a warp: the engine that makes one and the
invocation that hands it back.  It never touches the cache.
-/
import RasterWarp.Warp.Invocation

namespace RasterWarp

/-- **A box to be measured in a destination system.** -/
structure ExtentRequest (α : Type) where
  path : String
  crs : String
  box : Bounds α

/-- **Where a measurement stands.** -/
inductive ExtentPhase (α : Type) where
  | requested (r : ExtentRequest α)
  | holding (r : ExtentRequest α) (raster : Nat × Nat) (context : WarpContext α)
  | finished (result : Staged α (Measure α))

namespace ExtentPhase

variable {ε α : Type} [Scalar α] [Engine ε α]

/-- The number of steps to the end, at most. -/
def rank : ExtentPhase α → Nat
  | requested _ => 2
  | holding .. => 1
  | finished _ => 0

/-- Opens the source and has a context made for it. -/
def start (c : Config α) (s : Shared ε α) (r : ExtentRequest α) : Shared ε α × ExtentPhase α :=
  if r.crs.isEmpty then
    (s, finished (.error (.failure ⟨.invalidRequest, Cause.failure .missingDestinationCrs⟩)))
  else
    let (view, rasters) := s.rasters.openView (.ofPath r.path)
    let s := { s with rasters }
    match Outcome.stage .openFailure (Outcome.during (.opening r.path) (attempt view)) with
    | .error e => (s, finished (.error e))
    | .ok view =>
      let d := view.dataset
      let crs := (d.projection.filter (!·.isEmpty)).getD c.fallbackProjection
      let (context, engine) := Engine.affineContext s.engine crs (d.geoTransform.getD .identity)
        (some r.crs) .identity
      let s := { s with engine }
      match Outcome.stage .transformFailure
          (Outcome.during (.creatingTransformTo r.path r.crs) context) with
      | .error e => (s, finished (.error e))
      | .ok context => (s, holding r (d.width, d.height) context)

/-- The size of the box. -/
def measured (r : ExtentRequest α) (raster : Nat × Nat) (context : WarpContext α) :
    Staged α (Measure α) := do
  let suggested ← Outcome.stage .transformFailure
    (Outcome.during (.estimatingResolution r.path r.crs) (Suggestion.ofRaster raster context))
  Outcome.stage .invalidRequest (attempt (measure suggested.geoTransform r.box))

/-- **One step of a measurement.** -/
def step (c : Config α) (s : Shared ε α) : ExtentPhase α → Shared ε α × ExtentPhase α
  | requested r => start c s r
  | holding r raster context =>
    ({ s with engine := Engine.release s.engine context }, finished (measured r raster context))
  | finished result => (s, finished result)

/-- **All steps of a measurement.** -/
def run (c : Config α) (s : Shared ε α) (p : ExtentPhase α) : Shared ε α × ExtentPhase α :=
  (List.range p.rank).foldl (fun (s, p) _ => p.step c s) (s, p)

omit [Scalar α] in
/-- The result of a finished measurement. -/
def result? : ExtentPhase α → Option (Staged α (Measure α))
  | finished r => some r
  | _ => none

end ExtentPhase
end RasterWarp
