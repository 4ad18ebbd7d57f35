/-
# Inverses that are needed

Where a singular map is fatal, its inverse is asked for here and the map is named in the failure.
-/
import RasterWarp.Failure

namespace RasterWarp

/-- The map back, where having none is a failure. -/
def GeoTransform.inverse {α : Type} [Scalar α] (g : GeoTransform α) :
    Except (Failure α) (GeoTransform α) :=
  match g.invert? with
  | some i => .ok i
  | none => .error (Cause.failure (.singular g))

/-- The map back, needed for a task. -/
def GeoTransform.inverseFor {α : Type} [Scalar α] (g : GeoTransform α) (t : Task α) :
    Except (Failure α) (GeoTransform α) :=
  g.inverse.mapError (·.during t)

end RasterWarp
