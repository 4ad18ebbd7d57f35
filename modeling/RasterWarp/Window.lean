/-
# Windows of the destination grid

The destination of a warp is a nominal grid; only the pixels of a window of it are computed.
-/
import RasterWarp.Scalar

namespace RasterWarp

/-- **A rectangle of the nominal grid.** -/
structure Window where
  xOffset : Nat
  yOffset : Nat
  width : Nat
  height : Nat
deriving DecidableEq, Repr

namespace Window

/-- The whole nominal grid. -/
def full (width height : Nat) : Window := ⟨0, 0, width, height⟩

def area (w : Window) : Nat := w.width * w.height

def isEmpty (w : Window) : Bool := w.width == 0 || w.height == 0

/-- The center of the window's own pixel `(x, y)`, in nominal coordinates. -/
def center {α : Type} [Scalar α] (w : Window) (x y : Nat) : α × α :=
  (Scalar.ofNat (w.xOffset + x) + 0.5, Scalar.ofNat (w.yOffset + y) + 0.5)

def description (w : Window) : String :=
  s!"DestinationWindow({w.xOffset}, {w.yOffset}, {w.width}x{w.height})"

end Window
end RasterWarp
