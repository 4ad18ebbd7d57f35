/-
# Affine maps between coordinate systems

A `CrsMap` maps the coordinates of one system to those of another and back, and may be
valid on a box of source coordinates only.  Points outside the box move like all others and are
flagged.

`reversed` exchanges the two systems.  The box of the exchanged map is the box around the images
of the four corners.
-/
import RasterWarp.GeoTransform.Inverse
import RasterWarp.Point

namespace RasterWarp

/-- **An affine map, its inverse, and where it is valid.** -/
structure CrsMap (α : Type) where
  forward : GeoTransform α
  inverse : GeoTransform α
  domain : Option (Bounds α)

namespace CrsMap

variable {α : Type} [Scalar α]

/-- A map that is valid everywhere. -/
def new (forward : GeoTransform α) : Except (Failure α) (CrsMap α) :=
  forward.inverse.map fun inverse => ⟨forward, inverse, none⟩

def identity : CrsMap α := ⟨.identity, .identity, none⟩

omit [Scalar α] in
/-- The map, valid for source coordinates in a box only. -/
def validOn (t : CrsMap α) (b : Bounds α) : CrsMap α :=
  { t with domain := some b }

/-- The box around the images of a box's corners. -/
def imageBox (g : GeoTransform α) (b : Bounds α) : Bounds α :=
  let p := g.apply b.minX b.minY
  let q := g.apply b.minX b.maxY
  let r := g.apply b.maxX b.minY
  let s := g.apply b.maxX b.maxY
  { minX := Scalar.least p.1 [q.1, r.1, s.1]
    minY := Scalar.least p.2 [q.2, r.2, s.2]
    maxX := Scalar.greatest p.1 [q.1, r.1, s.1]
    maxY := Scalar.greatest p.2 [q.2, r.2, s.2] }

/-- The same map with its two systems exchanged. -/
def reversed (t : CrsMap α) : CrsMap α where
  forward := t.inverse
  inverse := t.forward
  domain := t.domain.map (imageBox t.forward)

/-- Whether source coordinates are valid. -/
def accepts (t : CrsMap α) (x y : α) : Bool :=
  match t.domain with
  | some b => b.contains x y
  | none => true

/-- One point: the flag is decided on the source side, whichever way the map is taken. -/
def move (t : CrsMap α) (d : Direction) (p : Point α) : Point α :=
  match d with
  | .sourceToDestination =>
    let (x, y) := t.forward.apply p.x p.y
    { p with x, y, ok := t.accepts p.x p.y }
  | .destinationToSource =>
    let (x, y) := t.inverse.apply p.x p.y
    { p with x, y, ok := t.accepts x y }

/-- **The map as a transform of batches,** which never fails as a whole. -/
def toBatchTransform {m : Type → Type} [Monad m] (t : CrsMap α) : BatchTransform m α where
  run d _ b := pure (b.map (t.move d))

end CrsMap
end RasterWarp
