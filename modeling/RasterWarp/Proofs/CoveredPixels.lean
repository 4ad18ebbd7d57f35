/-
# Clipping loses nothing

The window of a warp is cut to an extent that is measured from a few points along the edge of the
source.  For numbers that compute exactly this is enough: the map from the source to the
destination is affine, the four corners are among the points, and so the extent holds the image of
the whole source (`Suggestion.extent_contains`).  A pixel whose center lies in the extent lies in
the window (`coveredWindow_contains`), for the near side of the extent is rounded down and the far
side is taken half a pixel further.
-/
import RasterWarp.Proofs.ExactMaps
import RasterWarp.Proofs.Rendering

namespace RasterWarp

open ExactScalar

variable {α : Type} [Scalar α] [ExactScalar α]

/-! ## 1. Boxes of points -/

namespace Bounds

theorem contains_iff {b : Bounds α} {x y : α} : b.contains x y = true ↔
    (value b.minX ≤ value x ∧ value x ≤ value b.maxX) ∧
      value b.minY ≤ value y ∧ value y ≤ value b.maxY := by
  simp only [contains, Bool.and_eq_true, decide_eq_true_eq, le_iff, and_assoc]

theorem contains_ofPoint (x y : α) : (ofPoint x y).contains x y = true :=
  contains_iff.mpr ⟨⟨le_refl _, le_refl _⟩, le_refl _, le_refl _⟩

/-- A box around two holds what either of them holds. -/
theorem contains_join {a b : Bounds α} {x y : α} (h : a.contains x y = true ∨ b.contains x y = true) :
    (a.join b).contains x y = true := by
  simp only [contains_iff, join, value_min, value_max] at h ⊢
  rcases h with ⟨⟨h₁, h₂⟩, h₃, h₄⟩ | ⟨⟨h₁, h₂⟩, h₃, h₄⟩
  · exact ⟨⟨min_le_of_left_le h₁, le_max_of_le_left h₂⟩, min_le_of_left_le h₃, le_max_of_le_left h₄⟩
  · exact ⟨⟨min_le_of_right_le h₁, le_max_of_le_right h₂⟩, min_le_of_right_le h₃,
      le_max_of_le_right h₄⟩

/-- Joining more points keeps what a box holds, and adds the points. -/
theorem contains_foldl : ∀ (points : List (α × α)) {b : Bounds α} {x y : α},
    (b.contains x y = true ∨ (x, y) ∈ points) →
      (points.foldl (fun b (x, y) => b.join (ofPoint x y)) b).contains x y = true
  | [], _, _, _, h => h.resolve_right (by simp)
  | (x', y') :: points, b, x, y, h => by
    refine contains_foldl points ?_
    rcases h with h | h
    · exact .inl (contains_join (.inl h))
    · rcases List.mem_cons.mp h with heq | h
      · obtain ⟨rfl, rfl⟩ := Prod.mk.inj heq
        exact .inl (contains_join (.inr (contains_ofPoint x y)))
      · exact .inr h

/-- **The box of a list of points holds them all.** -/
theorem contains_of_mem {points : List (α × α)} {b : Bounds α} (h : ofPoints? points = some b)
    {x y : α} (hmem : (x, y) ∈ points) : b.contains x y = true := by
  cases points with
  | nil => cases hmem
  | cons p rest =>
    obtain rfl := Option.some.inj h
    refine contains_foldl rest ?_
    rcases List.mem_cons.mp hmem with rfl | hmem
    · exact .inl (contains_ofPoint x y)
    · exact .inr hmem

end Bounds

/-! ## 2. The image of a rectangle -/

/-- **An affine function is greatest at a corner** of a rectangle, -/
theorem affine_le_of_corners {a b c m width height x y : ℝ} (hx : 0 ≤ x) (hx' : x ≤ width)
    (hy : 0 ≤ y) (hy' : y ≤ height) (h₀₀ : a ≤ m) (h₁₀ : a + width * b ≤ m)
    (h₀₁ : a + height * c ≤ m) (h₁₁ : a + width * b + height * c ≤ m) :
    a + x * b + y * c ≤ m := by
  rcases le_total 0 b with hb | hb
  · have hxb : x * b ≤ width * b := mul_le_mul_of_nonneg_right hx' hb
    rcases le_total 0 c with hc | hc
    · have hyc : y * c ≤ height * c := mul_le_mul_of_nonneg_right hy' hc
      linarith
    · have hyc : y * c ≤ 0 := mul_nonpos_of_nonneg_of_nonpos hy hc
      linarith
  · have hxb : x * b ≤ 0 := mul_nonpos_of_nonneg_of_nonpos hx hb
    rcases le_total 0 c with hc | hc
    · have hyc : y * c ≤ height * c := mul_le_mul_of_nonneg_right hy' hc
      linarith
    · have hyc : y * c ≤ 0 := mul_nonpos_of_nonneg_of_nonpos hy hc
      linarith

/-- and least at a corner. -/
theorem le_affine_of_corners {a b c m width height x y : ℝ} (hx : 0 ≤ x) (hx' : x ≤ width)
    (hy : 0 ≤ y) (hy' : y ≤ height) (h₀₀ : m ≤ a) (h₁₀ : m ≤ a + width * b)
    (h₀₁ : m ≤ a + height * c) (h₁₁ : m ≤ a + width * b + height * c) :
    m ≤ a + x * b + y * c := by
  have hneg := affine_le_of_corners (a := -a) (b := -b) (c := -c) (m := -m) hx hx' hy hy'
    (by linarith) (by linarith) (by linarith) (by linarith)
  linarith

/-! ## 3. The extent of a suggestion -/

section Extent

variable {map inverse destination destinationInverse : GeoTransform α}

/-- Where a source point goes. -/
def image (map destinationInverse : GeoTransform α) (x y : α) : α × α :=
  let p := map.apply x y
  destinationInverse.apply p.1 p.2

/-- **The samples of a raster cover the box of their images,** and none of them is lost. -/
theorem cover_eq (points : List (α × α)) :
    Suggestion.cover (⟨.affine map inverse, none, destination, destinationInverse⟩ : WarpContext α)
        points
      = .ok (Bounds.ofPoints? (points.map fun (x, y) => image map destinationInverse x y), true) := by
  have hmoved : ((Suggestion.batchOf points).map fun p => p.movedBy map destinationInverse).toList
      = points.map fun (x, y) => (⟨x, y, 0, false⟩ : Point α).movedBy map destinationInverse := by
    simp [Suggestion.batchOf, Function.comp_def]
  have hall : ((Suggestion.batchOf points).map fun p => p.movedBy map destinationInverse).all (·.ok)
      = true := by
    simp [Vector.all_map, Point.movedBy]
  unfold Suggestion.cover
  rw [Context.transform_forward, Outcome.ok_bind]
  have hplaced : ((points.map fun (x, y) =>
        (⟨x, y, 0, false⟩ : Point α).movedBy map destinationInverse).filter (·.ok)).map
          (fun p => (p.x, p.y))
      = points.map fun (x, y) => image map destinationInverse x y := by
    have hkeep : ∀ q ∈ points.map fun (x, y) =>
        (⟨x, y, 0, false⟩ : Point α).movedBy map destinationInverse, q.ok = true := by
      intro q hq
      obtain ⟨p, -, rfl⟩ := List.mem_map.mp hq
      rfl
    rw [List.filter_eq_self.mpr hkeep, List.map_map]
    rfl
  simp only [hmoved, hall, hplaced]
  rfl

omit [ExactScalar α] in
/-- The extent of a suggestion is the box that it was made for. -/
theorem Suggestion.extent_of_ofBoxes {width height : α} {edges : Option (Bounds α)}
    {s : Suggestion α} (h : Suggestion.ofBoxes width height edges none = .ok s) :
    edges = some s.extent := by
  unfold ofBoxes at h
  cases edges with
  | none => cases h
  | some e =>
    simp only [joined] at h
    cases hs : ofExtent? width height e with
    | none =>
      rw [hs] at h
      cases h
    | some s' =>
      rw [hs] at h
      obtain rfl := Except.ok.inj h
      unfold ofExtent? at hs
      simp only at hs
      split at hs
      · obtain rfl := Option.some.inj hs
        rfl
      · cases hs

/-- **Two affine maps one after the other are one.** -/
theorem value_image (g h : GeoTransform α) : ∃ a b c a' b' c' : ℝ, ∀ x y : α,
    value (image g h x y).1 = a + value x * b + value y * c ∧
      value (image g h x y).2 = a' + value x * b' + value y * c' := by
  refine ⟨value h.originX + value g.originX * value h.pixelWidth + value g.originY * value h.rotationX,
    value g.pixelWidth * value h.pixelWidth + value g.rotationY * value h.rotationX,
    value g.rotationX * value h.pixelWidth + value g.pixelHeight * value h.rotationX,
    value h.originY + value g.originX * value h.rotationY + value g.originY * value h.pixelHeight,
    value g.pixelWidth * value h.rotationY + value g.rotationY * value h.pixelHeight,
    value g.rotationX * value h.rotationY + value g.pixelHeight * value h.pixelHeight,
    fun x y => ⟨?_, ?_⟩⟩
  all_goals
    simp only [image, GeoTransform.value_apply_fst, GeoTransform.value_apply_snd]
    ring

/-- The samples at the ends of a side are corners. -/
theorem corner_mem_edgeSamples {width height x y : α} (hx : x = 0 ∨ x = width)
    (hy : y = 0 ∨ y = height) : (x, y) ∈ Suggestion.edgeSamples width height := by
  obtain ⟨i, hi, hxi⟩ : ∃ i < Suggestion.samples,
      x = Scalar.ofNat i * (Suggestion.step : α) * width := by
    rcases hx with rfl | rfl
    · refine ⟨0, by decide, value_injective ?_⟩
      simp
    · refine ⟨20, by decide, value_injective ?_⟩
      simp [Suggestion.step, Suggestion.samples]
  refine List.mem_flatMap.mpr ⟨i, List.mem_range.mpr hi, ?_⟩
  rcases hy with rfl | rfl
  · simp [hxi]
  · simp [hxi]

/-- **The extent of a suggestion holds the image of the whole raster.** -/
theorem Suggestion.extent_contains {raster : Nat × Nat} (hw : 0 < raster.1) (hh : 0 < raster.2)
    {s : Suggestion α}
    (hs : Suggestion.ofRaster raster
      (⟨.affine map inverse, none, destination, destinationInverse⟩ : WarpContext α) = .ok s)
    {x y : α} (hx : 0 ≤ value x) (hx' : value x ≤ raster.1) (hy : 0 ≤ value y)
    (hy' : value y ≤ raster.2) :
    s.extent.contains (image map destinationInverse x y).1
      (image map destinationInverse x y).2 = true := by
  have hraster : ((0 : α) < Scalar.ofNat raster.1 && (0 : α) < Scalar.ofNat raster.2) = true := by
    simp [lt_iff, hw, hh]
  -- no sample of the edge is lost, so none inside is asked for
  rw [Suggestion.ofRaster_complete hraster (cover_eq _)] at hs
  have hbox := Suggestion.extent_of_ofBoxes hs
  have hcorner : ∀ u v : α, (u = 0 ∨ u = Scalar.ofNat raster.1) →
      (v = 0 ∨ v = Scalar.ofNat raster.2) → s.extent.contains (image map destinationInverse u v).1
        (image map destinationInverse u v).2 = true := by
    intro u v hu hv
    refine Bounds.contains_of_mem hbox (List.mem_map.mpr ⟨(u, v), ?_, rfl⟩)
    exact corner_mem_edgeSamples hu hv
  obtain ⟨a, b, c, a', b', c', himage⟩ := value_image map destinationInverse
  simp only [Bounds.contains_iff, himage] at hcorner ⊢
  obtain ⟨⟨l₀₀, r₀₀⟩, b₀₀, t₀₀⟩ := hcorner 0 0 (.inl rfl) (.inl rfl)
  obtain ⟨⟨l₁₀, r₁₀⟩, b₁₀, t₁₀⟩ := hcorner _ 0 (.inr rfl) (.inl rfl)
  obtain ⟨⟨l₀₁, r₀₁⟩, b₀₁, t₀₁⟩ := hcorner 0 _ (.inl rfl) (.inr rfl)
  obtain ⟨⟨l₁₁, r₁₁⟩, b₁₁, t₁₁⟩ := hcorner _ _ (.inr rfl) (.inr rfl)
  simp only [value_zero, value_ofNat, zero_mul, add_zero] at *
  exact ⟨⟨le_affine_of_corners hx hx' hy hy' l₀₀ l₁₀ l₀₁ l₁₁,
      affine_le_of_corners hx hx' hy hy' r₀₀ r₁₀ r₀₁ r₁₁⟩,
    le_affine_of_corners hx hx' hy hy' b₀₀ b₁₀ b₀₁ b₁₁,
    affine_le_of_corners hx hx' hy hy' t₀₀ t₁₀ t₀₁ t₁₁⟩

end Extent

/-! ## 4. The window -/

section Window

variable {coord : α} {i extent : Nat}

/-- The near side of a box that holds a center is rounded to the pixel or before it, -/
theorem pixelOn_le (h : value coord ≤ i + 1 / 2) : pixelOn coord extent ≤ i := by
  unfold pixelOn
  split
  · refine (Nat.min_le_left _ _).trans (Nat.le_of_lt_succ ?_)
    rw [trunc_eq, Nat.floor_lt' (Nat.succ_ne_zero i), value_add, value_ofScientific]
    push_cast
    norm_num
    linarith
  · exact Nat.zero_le i

/-- and the far side to the pixel or past it. -/
theorem le_pixelOn (h : (i : ℝ) ≤ value coord) (hi : i < extent) : i ≤ pixelOn coord extent := by
  have hpos : 0 ≤ coord := (le_iff _ _).mpr (by
    rw [value_zero]
    exact (Nat.cast_nonneg i).trans h)
  unfold pixelOn
  rw [if_pos hpos]
  refine Nat.le_min.mpr ⟨?_, by omega⟩
  rw [trunc_eq]
  refine Nat.le_floor ?_
  rw [value_add, value_ofScientific]
  norm_num
  linarith

/-- **A rectangle of pixels,** of the nominal grid. -/
def Window.Holds (w : Window) (i j : Nat) : Prop :=
  w.xOffset ≤ i ∧ i < w.xOffset + w.width ∧ w.yOffset ≤ j ∧ j < w.yOffset + w.height

/-- **A pixel whose center lies in the extent lies in the window.** -/
theorem coveredWindow_contains {extent : Option (Bounds α)} {width height i j : Nat}
    (hi : i < width) (hj : j < height)
    (hcenter : ∀ e ∈ extent, e.contains (Scalar.ofNat i + 0.5) (Scalar.ofNat j + 0.5) = true) :
    (coveredWindow extent width height).Holds i j := by
  unfold coveredWindow Window.Holds
  cases extent with
  | none =>
    simp only [Window.full]
    omega
  | some e =>
    obtain ⟨⟨hx, hx'⟩, hy, hy'⟩ := Bounds.contains_iff.mp (hcenter e rfl)
    simp only [value_add, value_ofNat, value_ofScientific] at hx hx' hy hy'
    norm_num at hx hx' hy hy'
    have hx₀ : pixelOn e.minX width ≤ i := pixelOn_le hx
    have hy₀ : pixelOn e.minY height ≤ j := pixelOn_le hy
    have hx₁ : i ≤ pixelOn (e.maxX + 0.5) width := by
      refine le_pixelOn ?_ hi
      rw [value_add, value_ofScientific]
      norm_num
      linarith
    have hy₁ : j ≤ pixelOn (e.maxY + 0.5) height := by
      refine le_pixelOn ?_ hj
      rw [value_add, value_ofScientific]
      norm_num
      linarith
    simp only
    omega

end Window
end RasterWarp
