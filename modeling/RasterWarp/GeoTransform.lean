/-
# Geotransforms

An affine map between pixel/line space and georeferenced coordinates,

    x = originX + pixel * pixelWidth + line * rotationX
    y = originY + pixel * rotationY  + line * pixelHeight

`invert?` gives the map back, or nothing for a singular matrix: a zero pixel size of a north-up
raster, or a determinant that vanishes against the largest term.
-/
import RasterWarp.Scalar
import RasterWarp.Decimal.Layout
import RasterWarp.Text.Quoted

namespace RasterWarp

/-- **The six coefficients of an affine map.** -/
structure GeoTransform (α : Type) where
  originX : α
  pixelWidth : α
  rotationX : α
  originY : α
  rotationY : α
  pixelHeight : α
deriving DecidableEq

namespace GeoTransform

variable {α : Type} [Scalar α]

/-- Pixel/line space as its own coordinates. -/
def identity : GeoTransform α := ⟨0, 1, 0, 0, 0, 1⟩

/-- The coordinates of a pixel/line position. -/
def apply (g : GeoTransform α) (pixel line : α) : α × α :=
  (g.originX + pixel * g.pixelWidth + line * g.rotationX,
    g.originY + pixel * g.rotationY + line * g.pixelHeight)

/-- No rotation and no shear. -/
def isUnrotated (g : GeoTransform α) : Bool := g.rotationX == 0 && g.rotationY == 0

def determinant (g : GeoTransform α) : α :=
  g.pixelWidth * g.pixelHeight - g.rotationX * g.rotationY

/-- The largest of the four linear terms, by distance from zero. -/
def scale (g : GeoTransform α) : α :=
  Scalar.max (Scalar.max (Scalar.max (Scalar.abs g.pixelWidth) (Scalar.abs g.rotationX))
    (Scalar.abs g.rotationY)) (Scalar.abs g.pixelHeight)

/-- The linear terms divided out axis by axis, which is exact for a north-up raster. -/
def invertUnrotated (g : GeoTransform α) : GeoTransform α where
  originX := -g.originX / g.pixelWidth
  pixelWidth := 1 / g.pixelWidth
  rotationX := 0
  originY := -g.originY / g.pixelHeight
  rotationY := 0
  pixelHeight := 1 / g.pixelHeight

/-- The inverse by cofactors. -/
def invertRotated (g : GeoTransform α) : GeoTransform α :=
  let inverse := 1 / g.determinant
  { originX := (g.rotationX * g.originY - g.originX * g.pixelHeight) * inverse
    pixelWidth := g.pixelHeight * inverse
    rotationX := -g.rotationX * inverse
    originY := (-g.pixelWidth * g.originY + g.originX * g.rotationY) * inverse
    rotationY := -g.rotationY * inverse
    pixelHeight := g.pixelWidth * inverse }

/-- **The map back,** or nothing for a singular matrix. -/
def invert? (g : GeoTransform α) : Option (GeoTransform α) :=
  if g.isUnrotated then
    if g.pixelWidth == 0 || g.pixelHeight == 0 then none else some g.invertUnrotated
  else if Scalar.abs g.determinant ≤ 1e-10 * g.scale * g.scale
      || !Scalar.isFinite g.determinant then none
  else some g.invertRotated

/-- The map of a raster whose pixels cover `x` by `y` pixels of this one. -/
def scaled (g : GeoTransform α) (x y : α) : GeoTransform α where
  originX := g.originX
  pixelWidth := g.pixelWidth * x
  rotationX := g.rotationX * y
  originY := g.originY
  rotationY := g.rotationY * x
  pixelHeight := g.pixelHeight * y

/-- Equality of the coefficients as numbers. -/
instance : BEq (GeoTransform α) where
  beq g h := g.originX == h.originX && g.pixelWidth == h.pixelWidth
    && g.rotationX == h.rotationX && g.originY == h.originY
    && g.rotationY == h.rotationY && g.pixelHeight == h.pixelHeight

omit [Scalar α] in
def toList (g : GeoTransform α) : List α :=
  [g.originX, g.pixelWidth, g.rotationX, g.originY, g.rotationY, g.pixelHeight]

/-- How messages show a geotransform. -/
def description {α : Type} [DecimalText α] (g : GeoTransform α) : String :=
  "GeoTransform" ++ Text.bracketed (g.toList.map exact)

end GeoTransform
end RasterWarp
