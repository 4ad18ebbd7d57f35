/-
# Which overview to read

A destination pixel that covers several source pixels is served from an overview.  The ratio of a
level is the number of full-resolution columns to one of its own.  `levelFor` goes through
the levels from full resolution on and stops where the ratio aimed at lies between a level's and
the next one's, or within the tolerance of a level's.
-/
import RasterWarp.Suggestion

namespace RasterWarp

variable {α : Type} [Scalar α]

/-- The ratio to aim at, if a destination pixel covers more than one source pixel. -/
def reductionRatio? (pixelSize : α) : Option α :=
  let ratio := 1 / pixelSize
  if 1 < ratio && Scalar.isFinite ratio then some ratio else none

/-- The ratio of a level of some width. -/
def levelRatio (fullWidth width : Nat) : α := Scalar.ofNat fullWidth / Scalar.ofNat width

/-- Goes on from a level with ratio `current`, whose next finer levels are `next` in number, to
the widths that follow. -/
def scanLevels (fullWidth : Nat) (target tolerance : α) (level : Option Nat) (current : α)
    (next : Nat) : List Nat → Option Nat
  | [] => level
  | width :: widths =>
    let ratio := levelRatio fullWidth width
    if current < target && target < ratio then level
    else if Scalar.abs (current - target) < tolerance then level
    else scanLevels fullWidth target tolerance (some next) ratio (next + 1) widths

/-- **The overview to read,** or none for full resolution. -/
def levelFor (fullWidth : Nat) (widths : List Nat) (target tolerance : α) : Option Nat :=
  scanLevels fullWidth target tolerance none 1 0 widths

/-- **Binds a context to an overview,** whose pixels cover more of the source each. -/
def atOverview {m : Type → Type} (c : Context m α) (source : GeoTransform α)
    (full level : Nat × Nat) : Except (Failure α) (GeoTransform α × Context m α) :=
  let scaled := source.scaled (levelRatio full.1 level.1) (levelRatio full.2 level.2)
  match c.setSource scaled with
  | .ok c => .ok (scaled, c)
  | .error f => .error (f.during (.bindingOverview scaled))

end RasterWarp
