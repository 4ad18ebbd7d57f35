/-
# Rows by interpolation

Along a row of the destination a transform is nearly linear.  `Approximation.bisect` takes three
points of a row through the context (the first, the middle and the last) and, if the line through
the outer two passes the middle one within the tolerance, places all points of the row on it;
otherwise it treats both halves the same way.  What is short, degenerate or not wholly
transformable goes through the context point by point.
-/
import RasterWarp.Context

namespace RasterWarp

/-- **A context, and how far off its rows may be** (in output pixels). -/
structure Approximation (m : Type → Type) (α : Type) where
  context : Context m α
  tolerance : α

/-- **A straight line in the parameter `x`,** from a first point on. -/
structure Chord (α : Type) where
  start : α
  origin : Point α
  dx : α
  dy : α
  dz : α

namespace Chord

variable {α : Type} [Scalar α]

/-- The line from the image of the first point of a span to the image of its last. -/
def through (first last : Point α) (start span : α) : Chord α where
  start
  origin := first
  dx := (last.x - first.x) / span
  dy := (last.y - first.y) / span
  dz := (last.z - first.z) / span

/-- The point of the line at a parameter. -/
def place (c : Chord α) (x : α) : Point α :=
  let t := x - c.start
  ⟨c.origin.x + c.dx * t, c.origin.y + c.dy * t, c.origin.z + c.dz * t, true⟩

/-- Whether the line passes a point, reached at parameter `x`, by more than the tolerance. -/
def misses (c : Chord α) (tolerance x : α) (p : Point α) : Bool :=
  let q := c.place x
  tolerance < Scalar.abs (q.x - p.x) || tolerance < Scalar.abs (q.y - p.y)

end Chord

/-- **The images of the three points that decide about a stretch.** -/
structure Probes (α : Type) where
  first : Point α
  middle : Point α
  last : Point α

/-- The images in the order in which they are asked for. -/
def Probes.ofBatch {α : Type} (b : Batch α 3) : Probes α := ⟨b.get 0, b.get 1, b.get 2⟩

namespace Approximation

variable {m : Type → Type} {α : Type} [Scalar α] [Monad m]

/-- Rows of up to this many points are not approximated. -/
def shortRow : Nat := 5

/-- **A row with one `y` and one `z`,** by interpolation where that is close enough. -/
def bisect (a : Approximation m α) (d : Direction) {n : Nat} (row : Batch α n) :
    m (Batch α n) :=
  if h : n ≤ shortRow then a.context.transform d row
  else
    have : shortRow < n := by omega
    have : 6 ≤ n := this
    let mid := (n - 1) / 2
    have : mid < n := by omega
    let first := row[0]
    let middle := row[mid]
    let last := row[n - 1]
    let span := last.x - first.x
    if span == 0 then a.context.transform d row
    else do
      let probes ← a.context.transform d
        #v[first, { first with x := middle.x }, { first with x := last.x }]
      if !probes.all (·.ok) then a.context.transform d row
      else
        let p := Probes.ofBatch probes
        let chord := Chord.through p.first p.last first.x span
        if chord.misses a.tolerance middle.x p.middle then
          let left ← a.bisect d (row.take mid)
          let right ← a.bisect d (row.drop mid)
          return (left ++ right).cast (by omega)
        else return row.map fun p => chord.place p.x
termination_by n
decreasing_by all_goals omega

/-- Whether all points of a batch have the same `y` and the same `z`. -/
def isLevel {n : Nat} (row : Batch α n) (first : Point α) : Bool :=
  row.all fun p => p.y == first.y && p.z == first.z

/-- **Transforms a batch,** by interpolation if it is a row of some length. -/
def transform (a : Approximation m α) (d : Direction) {n : Nat} (row : Batch α n) :
    m (Batch α n) :=
  if h : 0 < n then
    if n ≤ shortRow || !isLevel row row[0] then a.context.transform d row
    else a.bisect d row
  else pure row

end Approximation
end RasterWarp
