/-
# Boxes

A box is given by its least and greatest coordinates.  `Bounds.join` of what a set of points
covers is the box of the set, whatever the order of the points.
-/
import RasterWarp.Scalar
import RasterWarp.Decimal.Layout
import RasterWarp.Text.Quoted

namespace RasterWarp

/-- **The least and greatest coordinates on both axes.** -/
structure Bounds (α : Type) where
  minX : α
  minY : α
  maxX : α
  maxY : α
deriving DecidableEq

namespace Bounds

variable {α : Type} [Scalar α]

/-- Both ends count. -/
def contains (b : Bounds α) (x y : α) : Bool :=
  b.minX ≤ x && x ≤ b.maxX && b.minY ≤ y && y ≤ b.maxY

/-- The box of one point. -/
def ofPoint (x y : α) : Bounds α := ⟨x, y, x, y⟩

/-- The least box around two. -/
def join (a b : Bounds α) : Bounds α where
  minX := Scalar.min a.minX b.minX
  minY := Scalar.min a.minY b.minY
  maxX := Scalar.max a.maxX b.maxX
  maxY := Scalar.max a.maxY b.maxY

/-- The box of a list of points, if it has any. -/
def ofPoints? : List (α × α) → Option (Bounds α)
  | [] => none
  | (x, y) :: rest => some (rest.foldl (fun b (x, y) => b.join (ofPoint x y)) (ofPoint x y))

omit [Scalar α] in
def toList (b : Bounds α) : List α := [b.minX, b.minY, b.maxX, b.maxY]

/-- How messages show a box. -/
def description {α : Type} [DecimalText α] (b : Bounds α) : String :=
  Text.bracketed (b.toList.map exact)

end Bounds
end RasterWarp
