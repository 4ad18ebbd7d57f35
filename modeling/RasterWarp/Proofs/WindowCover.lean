/-
# The covered window follows the extent

`coveredWindow` rounds the four sides of an extent with two different rules and clamps them to the
grid.  Two things are held of the result.

* **It fits** (`coveredWindow_fits`): of any extent whatever, one with undefined, infinite or
  crossed sides included, the window has a column and a row and ends within the grid.  Nothing is
  asked of the numbers, for each side is clamped by a `Nat.min` and the far one raised to the near.
* **It follows the extent** (`follows`), for numbers that compute exactly: no pixel that the extent
  enters is left out, and no row or column lies beside it, except the one that a window always has.

An axis is treated once, by `Follows`, and the two axes of a window are two cases of it.
-/
import RasterWarp.Proofs.CoveredPixels

namespace RasterWarp

open ExactScalar

variable {α : Type} [Scalar α]

/-! ## 1. Along one axis -/

section Axis

variable [ExactScalar α] {coord low high : α} {extent i : Nat}

/-- A coordinate short of the end of a pixel, by more than the bias, is rounded to that pixel or
one before it. -/
theorem pixelOn_le_of_lt (h : value coord + 1e-10 < i + 1) : pixelOn coord extent ≤ i := by
  unfold pixelOn
  split
  · refine (Nat.min_le_left _ _).trans (Nat.le_of_lt_succ ?_)
    rw [trunc_eq, Nat.floor_lt' (Nat.succ_ne_zero i), value_add, value_ofScientific]
    exact_mod_cast h
  · exact Nat.zero_le i

/-- The first pixel past zero starts no later than the coordinate and its bias. -/
theorem cast_pixelOn_le (h : 0 < pixelOn coord extent) :
    (pixelOn coord extent : ℝ) ≤ value coord + 1e-10 := by
  unfold pixelOn at h ⊢
  split at h
  · rename_i hcoord
    rw [if_pos hcoord]
    have hnonneg : 0 ≤ value coord := by simpa using (le_iff _ _).mp hcoord
    have htrunc : ((Scalar.trunc (coord + 1e-10) : Nat) : ℝ) ≤ value coord + 1e-10 := by
      rw [trunc_eq, value_add, value_ofScientific]
      refine Nat.floor_le ?_
      norm_num
      linarith
    exact (Nat.cast_le.mpr (Nat.min_le_left _ _)).trans htrunc
  · omega

/-- **A coordinate that is not clamped to the last pixel lies before the end of its pixel.** -/
theorem lt_cast_pixelOn_add_one (h : pixelOn coord extent < extent - 1) :
    value coord < pixelOn coord extent + 1 := by
  unfold pixelOn at h ⊢
  split at h
  · rename_i hcoord
    rw [if_pos hcoord]
    have hmin : min (Scalar.trunc (coord + 1e-10)) (extent - 1) = Scalar.trunc (coord + 1e-10) := by
      omega
    have hfloor := Nat.lt_floor_add_one (value (coord + 1e-10))
    rw [hmin, trunc_eq]
    rw [value_add, value_ofScientific] at hfloor ⊢
    norm_num at hfloor ⊢
    linarith
  · rename_i hcoord
    rw [if_neg hcoord]
    have hneg : value coord < 0 := by
      by_contra hle
      exact hcoord ((le_iff _ _).mpr (by simpa using not_lt.mp hle))
    norm_num
    linarith

/-- **A run of `count` pixels from `first` on follows the stretch from `low` to `high`** of an axis
of `extent` pixels.  A pixel counts as entered by a stretch that reaches into it by more than the
bias of `pixelOn`; a run of one pixel may lie anywhere, for a window is never empty. -/
structure Follows (low high : ℝ) (extent first count : Nat) : Prop where
  holds : ∀ i < extent, (∃ c : ℝ, low ≤ c ∧ c ≤ high ∧ i ≤ c ∧ c + 1e-10 < i + 1) →
    first ≤ i ∧ i < first + count
  beside : 1 < count → ∀ i, first ≤ i → i < first + count →
    low < i + 1 ∧ (i : ℝ) ≤ high + 0.5 + 1e-10

/-- The run starts no later than a pixel that the stretch enters, -/
theorem first_le {c : ℝ} (hlow : value low ≤ c) (hc : c + 1e-10 < i + 1) :
    pixelOn low extent ≤ i :=
  pixelOn_le_of_lt (by linarith)

/-- and ends no earlier. -/
theorem le_last {c : ℝ} (hi : i < extent) (hhigh : c ≤ value high) (hc : (i : ℝ) ≤ c) :
    i ≤ pixelOn (high + 0.5) extent := by
  refine le_pixelOn ?_ hi
  rw [value_add, value_ofScientific]
  norm_num
  linarith

/-- **The pixels between the two ends follow the stretch.**  A run of more than one pixel has its
first pixel before the last of the axis, so neither end of it was clamped there. -/
theorem follows (low high : α) {extent : Nat} (h : 0 < extent) :
    Follows (value low) (value high) extent (pixelOn low extent)
      (max (pixelOn (high + 0.5) extent) (pixelOn low extent) - pixelOn low extent + 1) := by
  constructor
  · rintro i hi ⟨c, hlow, hhigh, hic, hci⟩
    have hfirst : pixelOn low extent ≤ i := first_le hlow hci
    have hlast : i ≤ pixelOn (high + 0.5) extent := le_last hi hhigh hic
    omega
  · intro hcount i hfirst hlast
    have hlt : pixelOn low extent < pixelOn (high + 0.5) extent := by omega
    have hend : pixelOn (high + 0.5) extent < extent := pixelOn_lt _ h
    have hlow : value low < pixelOn low extent + 1 := lt_cast_pixelOn_add_one (by omega)
    have hhigh : (pixelOn (high + 0.5) extent : ℝ) ≤ value (high + 0.5) + 1e-10 :=
      cast_pixelOn_le (by omega)
    have hi : (pixelOn low extent : ℝ) ≤ i := Nat.cast_le.mpr hfirst
    have hi' : (i : ℝ) ≤ pixelOn (high + 0.5) extent := by
      refine Nat.cast_le.mpr ?_
      omega
    rw [value_add, value_ofScientific] at hhigh
    constructor
    · linarith
    · linarith

end Axis

/-! ## 2. The window -/

/-- **A window fits its grid whatever the extent is, and follows an extent whose sides are in
order** along both axes. -/
theorem coveredWindow_fits_and_follows (extent : Option (Bounds α)) {width height : Nat}
    (hw : 0 < width) (hh : 0 < height) :
    (coveredWindow extent width height).FitsIn width height ∧
      ∀ [ExactScalar α], ∀ e ∈ extent,
        (value e.minX ≤ value e.maxX → Follows (value e.minX) (value e.maxX) width
          (coveredWindow extent width height).xOffset (coveredWindow extent width height).width) ∧
        (value e.minY ≤ value e.maxY → Follows (value e.minY) (value e.maxY) height
          (coveredWindow extent width height).yOffset
          (coveredWindow extent width height).height) := by
  refine ⟨coveredWindow_fits extent hw hh, ?_⟩
  intro _ e he
  obtain rfl := Option.mem_def.mp he
  constructor
  · intro _
    exact follows e.minX e.maxX hw
  · intro _
    exact follows e.minY e.maxY hh

/-- An extent of exact numbers inside a grid of a hundred columns and rows. -/
theorem coveredWindow_follows_extent :
    (coveredWindow (some (⟨10.2, 20.7, 49.6, 60.1⟩ : Bounds ℚ)) 100 100).FitsIn 100 100 ∧
      Follows 10.2 49.6 100 10 41 ∧ Follows 20.7 60.1 100 20 41 := by
  have hwindow : coveredWindow (some (⟨10.2, 20.7, 49.6, 60.1⟩ : Bounds ℚ)) 100 100
      = ⟨10, 20, 41, 41⟩ := by
    decide +kernel
  have h := coveredWindow_fits_and_follows (some (⟨10.2, 20.7, 49.6, 60.1⟩ : Bounds ℚ))
    (show 0 < 100 by decide) (show 0 < 100 by decide)
  rw [hwindow] at h ⊢
  obtain ⟨hx, hy⟩ := h.2 _ rfl
  simp only [value_ofScientific] at hx hy
  refine ⟨h.1, hx ?_, hy ?_⟩
  · norm_num
  · norm_num

end RasterWarp
