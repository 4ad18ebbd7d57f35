/-
# Maps with their systems exchanged

A map between two systems is registered for one direction and serves both.  For the other direction
its geotransform and the inverse change places, and the box of valid coordinates is replaced by the
box around the images of its corners.

With numbers that compute exactly, each side of that box is what the image of the whole old box
reaches on its axis (`mem_columns_imageBox`).  So nothing valid is lost.  But the two axes are
looked at apart, and where the old box is turned, the new one holds corners that are the image of
nothing in the old one.  `CrsMap.Upright` says which maps leave their box a box, and
`pair_serves_both_ways` that they are exactly the maps for which both ways flag the same points.
-/
import RasterWarp.Proofs.CoveredPixels
import RasterWarp.Proofs.RoundTrips
import Mathlib.Algebra.Order.Group.Pointwise.Interval

namespace RasterWarp

open ExactScalar Set

variable {α : Type} [Scalar α] [ExactScalar α]

/-! ## 1. A linear form on a rectangle -/

section Reals

variable {x₀ x₁ y₀ y₁ o p r : ℝ}

/-- Four sums at the corners of a rectangle: the least part of each goes into the least sum, -/
theorem min_corners (o u u' v v' : ℝ) :
    min (min (min (o + u + v) (o + u + v')) (o + u' + v)) (o + u' + v')
      = o + min u u' + min v v' := by
  rw [min_assoc, min_add_add_left, min_add_add_left, min_add_add_right, min_add_add_left]

/-- and the greatest part into the greatest. -/
theorem max_corners (o u u' v v' : ℝ) :
    max (max (max (o + u + v) (o + u + v')) (o + u' + v)) (o + u' + v')
      = o + max u u' + max v v' := by
  rw [max_assoc, max_add_add_left, max_add_add_left, max_add_add_right, max_add_add_left]

/-- The multiples of the numbers of an interval are those between the multiples of its ends. -/
theorem Icc_ends_eq_image (h : x₀ ≤ x₁) (p : ℝ) :
    Icc (min (x₀ * p) (x₁ * p)) (max (x₀ * p) (x₁ * p)) = (fun x => x * p) '' Icc x₀ x₁ := by
  rw [← uIcc_of_le h, image_mul_const_uIcc]
  rfl

/-- **A linear form takes every value between its extremes at the corners, and no other.** -/
theorem mem_Icc_corners_iff (hx : x₀ ≤ x₁) (hy : y₀ ≤ y₁) {c : ℝ} :
    c ∈ Icc (o + min (x₀ * p) (x₁ * p) + min (y₀ * r) (y₁ * r))
        (o + max (x₀ * p) (x₁ * p) + max (y₀ * r) (y₁ * r))
      ↔ ∃ x ∈ Icc x₀ x₁, ∃ y ∈ Icc y₀ y₁, o + x * p + y * r = c := by
  have hsum := Icc_add_Icc (min_le_max (a := x₀ * p) (b := x₁ * p))
    (min_le_max (a := y₀ * r) (b := y₁ * r))
  rw [Icc_ends_eq_image hx p, Icc_ends_eq_image hy r] at hsum
  have hshift : c ∈ Icc (o + min (x₀ * p) (x₁ * p) + min (y₀ * r) (y₁ * r))
        (o + max (x₀ * p) (x₁ * p) + max (y₀ * r) (y₁ * r))
      ↔ c - o ∈ Icc (min (x₀ * p) (x₁ * p) + min (y₀ * r) (y₁ * r))
        (max (x₀ * p) (x₁ * p) + max (y₀ * r) (y₁ * r)) := by
    simp only [mem_Icc, add_assoc, le_sub_iff_add_le', sub_le_iff_le_add']
  rw [hshift, ← hsum]
  constructor
  · rintro ⟨-, ⟨x, hx, rfl⟩, -, ⟨y, hy, rfl⟩, hc⟩
    have hc : x * p + y * r = c - o := hc
    exact ⟨x, hx, y, hy, by linarith⟩
  · rintro ⟨x, hx, y, hy, rfl⟩
    have hc : x * p + y * r = o + x * p + y * r - o := by ring
    exact ⟨x * p, ⟨x, hx, rfl⟩, y * r, ⟨y, hy, rfl⟩, hc⟩

/-- Two steps that do not work against each other and cancel: the first of them is none. -/
theorem eq_zero_of_aligned {e f : ℝ} (hp : p ≠ 0) (he : 0 ≤ e) (hf : 0 ≤ f * (p * r))
    (h : e * p + f * r = 0) : e = 0 := by
  have hsquare : 0 < p * p := mul_self_pos.mpr hp
  have hsum : e * (p * p) + f * (p * r) = 0 := by linear_combination p * h
  have hfirst : e * (p * p) = 0 := by
    have hnonneg : 0 ≤ e * (p * p) := mul_nonneg he hsquare.le
    linarith
  exact (mul_eq_zero.mp hfirst).resolve_right hsquare.ne'

/-- **No place is at both ends of a side,** if each end is extreme for one of two linear forms. -/
theorem eq_of_both_ends {c d last first p' r' : ℝ} (hp : p ≠ 0) (hp' : p' ≠ 0) (hc : c ∈ Icc x₀ x₁)
    (hlast : 0 ≤ (last - d) * (p * r)) (hfirst : 0 ≤ (first - d) * -(p' * r'))
    (h : c * p + d * r = x₁ * p + last * r) (h' : c * p' + d * r' = x₀ * p' + first * r') :
    x₀ = x₁ := by
  have hend : x₁ - c = 0 :=
    eq_zero_of_aligned hp (sub_nonneg.mpr hc.2) hlast (by linear_combination -h)
  have hsign : 0 ≤ (d - first) * (p' * r') := by linarith
  have hstart : c - x₀ = 0 :=
    eq_zero_of_aligned hp' (sub_nonneg.mpr hc.1) hsign (by linear_combination h')
  linarith

end Reals

variable {lo hi lo' hi' p p' : α}

/-- One number stands for two under two factors, if there is but one or a factor is zero. -/
theorem exists_common {x x' : ℝ} (hx : x ∈ Icc (value lo) (value hi))
    (hx' : x' ∈ Icc (value lo) (value hi)) (h : lo = hi ∨ p = 0 ∨ p' = 0) :
    ∃ c ∈ Icc (value lo) (value hi), c * value p = x * value p ∧ c * value p' = x' * value p' := by
  rcases h with rfl | rfl | rfl
  · rw [Icc_self, mem_singleton_iff] at hx hx'
    exact ⟨x, by simp [hx], rfl, by rw [hx, hx']⟩
  · exact ⟨x', hx', by simp, rfl⟩
  · exact ⟨x, hx, rfl, by simp⟩

/-- The end of an interval from which a step back has the sign of a number. -/
theorem exists_extreme (h : lo ≤ hi) (k : ℝ) :
    ∃ e : α, value e ∈ Icc (value lo) (value hi) ∧
      ∀ c ∈ Icc (value lo) (value hi), 0 ≤ (value e - c) * k := by
  have hle := (le_iff _ _).mp h
  rcases le_total 0 k with hk | hk
  · exact ⟨hi, right_mem_Icc.mpr hle, fun c hc => mul_nonneg (sub_nonneg.mpr hc.2) hk⟩
  · exact ⟨lo, left_mem_Icc.mpr hle,
      fun c hc => mul_nonneg_of_nonpos_of_nonpos (sub_nonpos.mpr hc.1) hk⟩

/-- **A side of a rectangle does not slant** if any two values that two linear forms take on the
rectangle are taken at one place.  The last end of a slanting side is extreme for one form and the
first end for the other, and no place is at both. -/
theorem side_of_common (h : lo ≤ hi) (h' : lo' ≤ hi') (r r' : α)
    (hcommon : ∀ x y x' y' : α, value x ∈ Icc (value lo) (value hi) →
      value y ∈ Icc (value lo') (value hi') → value x' ∈ Icc (value lo) (value hi) →
      value y' ∈ Icc (value lo') (value hi') →
      ∃ c ∈ Icc (value lo) (value hi), ∃ d ∈ Icc (value lo') (value hi'),
        c * value p + d * value r = value x * value p + value y * value r ∧
          c * value p' + d * value r' = value x' * value p' + value y' * value r') :
    lo = hi ∨ p = 0 ∨ p' = 0 := by
  by_contra hslant
  simp only [not_or, ← value_eq_zero_iff] at hslant
  obtain ⟨hlong, hp, hp'⟩ := hslant
  have hle := (le_iff _ _).mp h
  obtain ⟨last, hlast, hfurther⟩ := exists_extreme h' (value p * value r)
  obtain ⟨first, hfirst, hnearer⟩ := exists_extreme h' (-(value p' * value r'))
  obtain ⟨c, hc, d, hd, hlast, hfirst⟩ :=
    hcommon hi last lo first (right_mem_Icc.mpr hle) hlast (left_mem_Icc.mpr hle) hfirst
  exact hlong (value_injective
    (eq_of_both_ends hp hp' hc (hfurther d hd) (hnearer d hd) hlast hfirst))

/-! ## 2. Maps of real positions -/

namespace GeoTransform

/-- The first coordinate of a real position, -/
noncomputable def realX (g : GeoTransform α) (x y : ℝ) : ℝ :=
  value g.originX + x * value g.pixelWidth + y * value g.rotationX

/-- and the second. -/
noncomputable def realY (g : GeoTransform α) (x y : ℝ) : ℝ :=
  value g.originY + x * value g.rotationY + y * value g.pixelHeight

variable {g i : GeoTransform α}

/-- **A map that has an inverse is regular.**  The determinants of the two undo each other. -/
theorem Inverse.determinant_ne (h : g.Inverse i) : value g.determinant ≠ 0 := by
  have hback : ∀ x y : α,
      i.realX (g.realX (value x) (value y)) (g.realY (value x) (value y)) = value x ∧
        i.realY (g.realX (value x) (value y)) (g.realY (value x) (value y)) = value y := by
    intro x y
    have hsame := h.left x y
    have hx := congrArg (fun q => value q.1) hsame
    have hy := congrArg (fun q => value q.2) hsame
    simp only [value_apply_fst, value_apply_snd] at hx hy
    exact ⟨hx, hy⟩
  obtain ⟨hx₀, hy₀⟩ := hback 0 0
  obtain ⟨hx₁, hy₁⟩ := hback 1 0
  obtain ⟨hx₂, hy₂⟩ := hback 0 1
  simp only [realX, realY, value_zero, value_one] at hx₀ hy₀ hx₁ hy₁ hx₂ hy₂
  intro hzero
  rw [value_determinant] at hzero
  -- the product of the matrices is that of the identity
  have hxx :
      value g.pixelWidth * value i.pixelWidth + value g.rotationY * value i.rotationX = 1 := by
    linear_combination hx₁ - hx₀
  have hxy :
      value g.pixelWidth * value i.rotationY + value g.rotationY * value i.pixelHeight = 0 := by
    linear_combination hy₁ - hy₀
  have hyx :
      value g.rotationX * value i.pixelWidth + value g.pixelHeight * value i.rotationX = 0 := by
    linear_combination hx₂ - hx₀
  have hyy :
      value g.rotationX * value i.rotationY + value g.pixelHeight * value i.pixelHeight = 1 := by
    linear_combination hy₂ - hy₀
  have hone : (value g.pixelWidth * value g.pixelHeight - value g.rotationX * value g.rotationY)
      * (value i.pixelWidth * value i.pixelHeight - value i.rotationX * value i.rotationY) = 1 := by
    linear_combination
      (value g.rotationX * value i.rotationY + value g.pixelHeight * value i.pixelHeight) * hxx
        + hyy
        - (value g.rotationX * value i.pixelWidth + value g.pixelHeight * value i.rotationX) * hxy
  rw [hzero, zero_mul] at hone
  exact zero_ne_one hone

/-- Such a map takes different real positions to different ones. -/
theorem Inverse.real_injective (h : g.Inverse i) {x y x' y' : ℝ}
    (hx : g.realX x y = g.realX x' y') (hy : g.realY x y = g.realY x' y') : x = x' ∧ y = y' := by
  have hdet := h.determinant_ne
  rw [value_determinant] at hdet
  unfold realX at hx
  unfold realY at hy
  constructor
  · refine mul_left_cancel₀ hdet ?_
    linear_combination value g.pixelHeight * hx - value g.rotationX * hy
  · refine mul_left_cancel₀ hdet ?_
    linear_combination value g.pixelWidth * hy - value g.rotationY * hx

end GeoTransform

/-! ## 3. The box around an image -/

namespace Bounds

/-- The first coordinates between the sides of a box, -/
def columns (b : Bounds α) : Set ℝ := Icc (value b.minX) (value b.maxX)

/-- and the second ones. -/
def lines (b : Bounds α) : Set ℝ := Icc (value b.minY) (value b.maxY)

theorem contains_iff_mem {b : Bounds α} {x y : α} :
    b.contains x y = true ↔ value x ∈ b.columns ∧ value y ∈ b.lines :=
  contains_iff

/-- **Boxes with their sides in order.** -/
structure Ordered (b : Bounds α) : Prop where
  columns : b.minX ≤ b.maxX
  lines : b.minY ≤ b.maxY

omit [ExactScalar α] in
theorem ordered_iff {b : Bounds α} : b.Ordered ↔ b.minX ≤ b.maxX ∧ b.minY ≤ b.maxY :=
  ⟨fun h => ⟨h.columns, h.lines⟩, fun h => ⟨h.1, h.2⟩⟩

instance (b : Bounds α) : Decidable b.Ordered := decidable_of_iff' _ ordered_iff

end Bounds

section ImageBox

variable (htop : Scalar.top? (α := α) = none)

include htop

theorem value_least_four (a b c d : α) :
    value (Scalar.least a [b, c, d])
      = min (min (min (value a) (value b)) (value c)) (value d) := by
  unfold Scalar.least
  rw [htop]
  simp only [List.foldl_cons, List.foldl_nil, value_min]

theorem value_greatest_four (a b c d : α) :
    value (Scalar.greatest a [b, c, d])
      = max (max (max (value a) (value b)) (value c)) (value d) := by
  unfold Scalar.greatest
  rw [htop]
  simp only [List.foldl_cons, List.foldl_nil, value_max]

variable {b : Bounds α} (hb : b.Ordered) (g : GeoTransform α) {c : ℝ}

include hb

/-- **The columns of the box around an image** are those that the image of the whole box reaches, -/
theorem mem_columns_imageBox :
    c ∈ (CrsMap.imageBox g b).columns ↔ ∃ x ∈ b.columns, ∃ y ∈ b.lines, g.realX x y = c := by
  have hx := (le_iff _ _).mp hb.columns
  have hy := (le_iff _ _).mp hb.lines
  refine Iff.trans ?_ (mem_Icc_corners_iff hx hy)
  simp only [Bounds.columns, CrsMap.imageBox, value_least_four htop, value_greatest_four htop,
    GeoTransform.value_apply_fst, min_corners, max_corners]

/-- and so are its lines. -/
theorem mem_lines_imageBox :
    c ∈ (CrsMap.imageBox g b).lines ↔ ∃ x ∈ b.columns, ∃ y ∈ b.lines, g.realY x y = c := by
  have hx := (le_iff _ _).mp hb.columns
  have hy := (le_iff _ _).mp hb.lines
  refine Iff.trans ?_ (mem_Icc_corners_iff hx hy)
  simp only [Bounds.lines, CrsMap.imageBox, value_least_four htop, value_greatest_four htop,
    GeoTransform.value_apply_snd, min_corners, max_corners]

end ImageBox

/-! ## 4. Which points are valid -/

namespace CrsMap

/-- **Maps that leave their box a box:** the sides of it stay upright or lie down, unless they have
no length. -/
structure Upright (t : CrsMap α) : Prop where
  columns : ∀ b ∈ t.domain, b.minX = b.maxX ∨ t.forward.pixelWidth = 0 ∨ t.forward.rotationY = 0
  lines : ∀ b ∈ t.domain, b.minY = b.maxY ∨ t.forward.rotationX = 0 ∨ t.forward.pixelHeight = 0

variable {t : CrsMap α}

theorem accepts_iff {x y : α} :
    t.accepts x y = true ↔ ∀ b ∈ t.domain, value x ∈ b.columns ∧ value y ∈ b.lines := by
  unfold accepts
  cases t.domain with
  | none => simp
  | some b => simp only [Bounds.contains_iff_mem, Option.mem_some_iff, forall_eq']

variable (htop : Scalar.top? (α := α) = none) (hbox : ∀ b ∈ t.domain, b.Ordered)

include htop hbox

/-- The exchanged map takes a point if the old box reaches each of its coordinates. -/
theorem accepts_reversed_iff {x y : α} : t.reversed.accepts x y = true ↔
    ∀ b ∈ t.domain, (∃ p ∈ b.columns, ∃ q ∈ b.lines, t.forward.realX p q = value x) ∧
      ∃ p ∈ b.columns, ∃ q ∈ b.lines, t.forward.realY p q = value y := by
  rw [accepts_iff]
  constructor
  · intro h b hb
    obtain ⟨hx, hy⟩ := h (imageBox t.forward b) (Option.mem_map_of_mem _ hb)
    exact ⟨(mem_columns_imageBox htop (hbox b hb) _).mp hx,
      (mem_lines_imageBox htop (hbox b hb) _).mp hy⟩
  · intro h b' hb'
    obtain ⟨b, hb, rfl⟩ := Option.mem_map.mp hb'
    obtain ⟨hx, hy⟩ := h b hb
    exact ⟨(mem_columns_imageBox htop (hbox b hb) _).mpr hx,
      (mem_lines_imageBox htop (hbox b hb) _).mpr hy⟩

/-- **What the map takes, the exchanged map takes back.** -/
theorem accepts_reversed_of_accepts {x y : α} (h : t.accepts x y = true) :
    t.reversed.accepts (t.forward.apply x y).1 (t.forward.apply x y).2 = true := by
  refine (accepts_reversed_iff htop hbox).mpr fun b hb => ?_
  obtain ⟨hx, hy⟩ := accepts_iff.mp h b hb
  exact ⟨⟨value x, hx, value y, hy, (t.forward.value_apply_fst x y).symm⟩,
    ⟨value x, hx, value y, hy, (t.forward.value_apply_snd x y).symm⟩⟩

/-- **An upright map is exchanged without loss or gain.**  Of a place that the box reaches on either
axis, the column can be had together with the line. -/
theorem Upright.accepts_of_reversed (hinverse : t.forward.Inverse t.inverse) (hup : t.Upright)
    {x y : α}
    (h : t.reversed.accepts (t.forward.apply x y).1 (t.forward.apply x y).2 = true) :
    t.accepts x y = true := by
  refine accepts_iff.mpr fun b hb => ?_
  obtain ⟨⟨p, hp, q, hq, hfirst⟩, p', hp', q', hq', hsecond⟩ :=
    (accepts_reversed_iff htop hbox).mp h b hb
  obtain ⟨column, hcolumn, hcolumn₁, hcolumn₂⟩ := exists_common hp hp' (hup.columns b hb)
  obtain ⟨line, hline, hline₁, hline₂⟩ := exists_common hq hq' (hup.lines b hb)
  rw [GeoTransform.value_apply_fst] at hfirst
  rw [GeoTransform.value_apply_snd] at hsecond
  obtain ⟨rfl, rfl⟩ : column = value x ∧ line = value y := by
    refine hinverse.real_injective ?_ ?_
    · exact Eq.trans (by simp only [GeoTransform.realX, hcolumn₁, hline₁]) hfirst
    · exact Eq.trans (by simp only [GeoTransform.realY, hcolumn₂, hline₂]) hsecond
  exact ⟨hcolumn, hline⟩

/-- If an exchanged map takes no more than the map, then the box holds a position for every two
coordinates that it reaches. -/
theorem exists_of_reached (hinverse : t.forward.Inverse t.inverse)
    (h : ∀ x y, t.reversed.accepts (t.forward.apply x y).1 (t.forward.apply x y).2 = true →
      t.accepts x y = true) {b : Bounds α} (hb : b ∈ t.domain) {x y x' y' : α}
    (hx : value x ∈ b.columns) (hy : value y ∈ b.lines) (hx' : value x' ∈ b.columns)
    (hy' : value y' ∈ b.lines) : ∃ p ∈ b.columns, ∃ q ∈ b.lines,
      t.forward.realX p q = t.forward.realX (value x) (value y) ∧
        t.forward.realY p q = t.forward.realY (value x') (value y') := by
  obtain ⟨place, hplace⟩ :
      ∃ place, place = t.inverse.apply (t.forward.apply x y).1 (t.forward.apply x' y').2 := ⟨_, rfl⟩
  have hforth : t.forward.apply place.1 place.2
      = ((t.forward.apply x y).1, (t.forward.apply x' y').2) := by
    rw [hplace]
    exact hinverse.right _ _
  have hreached : t.reversed.accepts (t.forward.apply place.1 place.2).1
      (t.forward.apply place.1 place.2).2 = true := by
    rw [hforth]
    refine (accepts_reversed_iff htop hbox).mpr fun b' hb' => ?_
    obtain rfl := Option.mem_unique hb hb'
    exact ⟨⟨value x, hx, value y, hy, (t.forward.value_apply_fst x y).symm⟩,
      ⟨value x', hx', value y', hy', (t.forward.value_apply_snd x' y').symm⟩⟩
  obtain ⟨hcolumn, hline⟩ := accepts_iff.mp (h _ _ hreached) b hb
  refine ⟨value place.1, hcolumn, value place.2, hline, ?_, ?_⟩
  · exact (t.forward.value_apply_fst _ _).symm.trans
      ((congrArg (fun q => value q.1) hforth).trans (t.forward.value_apply_fst _ _))
  · exact (t.forward.value_apply_snd _ _).symm.trans
      ((congrArg (fun q => value q.2) hforth).trans (t.forward.value_apply_snd _ _))

/-- **An exchanged map that takes no more than the map is upright.** -/
theorem upright_of_accepts (hinverse : t.forward.Inverse t.inverse)
    (h : ∀ x y, t.reversed.accepts (t.forward.apply x y).1 (t.forward.apply x y).2 = true →
      t.accepts x y = true) : t.Upright where
  columns b hb := by
    refine side_of_common (hbox b hb).columns (hbox b hb).lines t.forward.rotationX
      t.forward.pixelHeight fun x y x' y' hx hy hx' hy' => ?_
    obtain ⟨c, hc, d, hd, hX, hY⟩ := exists_of_reached htop hbox hinverse h hb hx hy hx' hy'
    unfold GeoTransform.realX at hX
    unfold GeoTransform.realY at hY
    exact ⟨c, hc, d, hd, by linear_combination hX, by linear_combination hY⟩
  lines b hb := by
    refine side_of_common (hbox b hb).lines (hbox b hb).columns t.forward.pixelWidth
      t.forward.rotationY fun y x y' x' hy hx hy' hx' => ?_
    obtain ⟨c, hc, d, hd, hX, hY⟩ := exists_of_reached htop hbox hinverse h hb hx hy hx' hy'
    unfold GeoTransform.realX at hX
    unfold GeoTransform.realY at hY
    exact ⟨d, hd, c, hc, by linear_combination hX, by linear_combination hY⟩

/-- **The maps for which both ways agree.** -/
theorem accepts_reversed_eq_iff (hinverse : t.forward.Inverse t.inverse) :
    (∀ x y, t.reversed.accepts (t.forward.apply x y).1 (t.forward.apply x y).2 = t.accepts x y)
      ↔ t.Upright := by
  constructor
  · intro h
    exact upright_of_accepts htop hbox hinverse fun x y hxy => (h x y).symm.trans hxy
  · intro hup x y
    exact Bool.eq_iff_iff.mpr ⟨hup.accepts_of_reversed htop hbox hinverse,
      accepts_reversed_of_accepts htop hbox⟩

end CrsMap

/-! ## 5. Both ways -/

namespace CrsMap

variable {t : CrsMap α}

/-- The place of a point on the source side of a map. -/
def sourcePlace (t : CrsMap α) (d : Direction) (p : Point α) : α × α :=
  match d with
  | .sourceToDestination => (p.x, p.y)
  | .destinationToSource => t.inverse.apply p.x p.y

omit [ExactScalar α] in
theorem move_ok (t : CrsMap α) (d : Direction) (p : Point α) :
    (t.move d p).ok = t.accepts (t.sourcePlace d p).1 (t.sourcePlace d p).2 := by
  cases d <;> rfl

omit [ExactScalar α] in
/-- **The exchanged map taken the other way** moves a point to the same place.  It asks its own box
about the image of the place on the source side. -/
theorem move_reversed (hinverse : t.forward.Inverse t.inverse) (d : Direction) (p : Point α) :
    t.reversed.move d.opposite p = (t.move d p).flagged
      (t.reversed.accepts (t.forward.apply (t.sourcePlace d p).1 (t.sourcePlace d p).2).1
        (t.forward.apply (t.sourcePlace d p).1 (t.sourcePlace d p).2).2) := by
  cases d with
  | sourceToDestination => rfl
  | destinationToSource =>
    simp only [sourcePlace, hinverse.right]
    rfl

end CrsMap

omit [ExactScalar α] in
/-- The step between two systems of different names is the map that is found for them. -/
theorem AffineEngine.crsStep_of_find? {e : AffineEngine α} {source destination : String}
    {t : CrsMap α} (hs : source ≠ "") (hd : destination ≠ "") (hne : source ≠ destination)
    (hfind : e.find? source destination = some t) :
    (e.crsStep source destination).1 = .ok (some t.toBatchTransform) := by
  have hnamed : ¬ (source.isEmpty = true ∨ destination.isEmpty = true) := by simp [hs, hd]
  unfold crsStep
  rw [if_neg hnamed, if_neg hne, hfind]

/-- **A pair of systems serves both ways.**  For numbers that compute exactly and have no greatest
among them, take a map that was made, with the sides of its box in order, and the same map with its
systems exchanged.  Then

* the exchanged map takes a batch in the other direction to the same positions, and loses no valid
  point;
* it flags the same points, in all batches and both directions, exactly if the map is upright;
* an engine that knows the map for a pair of systems, and none for the exchanged pair, takes the map
  for the one and the exchanged map for the other. -/
theorem pair_serves_both_ways (htop : Scalar.top? (α := α) = none) {t : CrsMap α} (ht : t.Made)
    (hbox : ∀ b ∈ t.domain, b.Ordered) :
    (∀ (d : Direction) {n : Nat} (b : Batch α n), ∃ out back,
      (t.toBatchTransform : Transform α).run d b = .ok out ∧
      (t.reversed.toBatchTransform : Transform α).run d.opposite b = .ok back ∧
      ∀ k (_ : k < n), back[k].x = out[k].x ∧ back[k].y = out[k].y ∧ back[k].z = out[k].z ∧
        (out[k].ok = true → back[k].ok = true)) ∧
    ((∀ (d : Direction) {n : Nat} (b : Batch α n),
      (t.reversed.toBatchTransform : Transform α).run d.opposite b
        = (t.toBatchTransform : Transform α).run d b) ↔ t.Upright) ∧
    ∀ (e : AffineEngine α) (source destination : String), source ≠ "" → destination ≠ "" →
      source ≠ destination → e.pairs.lookup (source, destination) = some t →
      e.pairs.lookup (destination, source) = none →
        (e.crsStep source destination).1 = .ok (some t.toBatchTransform) ∧
        (e.crsStep destination source).1 = .ok (some t.reversed.toBatchTransform) := by
  have hinverse := ht.inverse
  refine ⟨fun d n b => ⟨_, _, rfl, rfl, fun k hk => ?_⟩, ⟨fun h => ?_, fun hup d n b => ?_⟩, ?_⟩
  · simp only [Vector.getElem_map, CrsMap.move_reversed hinverse]
    refine ⟨rfl, rfl, rfl, fun hok => ?_⟩
    rw [CrsMap.move_ok] at hok
    exact CrsMap.accepts_reversed_of_accepts htop hbox hok
  · refine (CrsMap.accepts_reversed_eq_iff htop hbox hinverse).mp fun x y => ?_
    -- a batch of one point shows the flag of that point
    have hone := Except.ok.inj (h .sourceToDestination #v[⟨x, y, 0, true⟩])
    have hpoint := congrArg (fun b : Batch α 1 => b[0].ok) hone
    simpa [CrsMap.move, CrsMap.reversed, Direction.opposite] using hpoint
  · refine congrArg Except.ok (Vector.ext fun k hk => ?_)
    have haccepts := (CrsMap.accepts_reversed_eq_iff htop hbox hinverse).mpr hup
    simp only [Vector.getElem_map, CrsMap.move_reversed hinverse, haccepts, ← CrsMap.move_ok]
    rfl
  · intro e source destination hs hd hne hforth hback
    have hfind : e.find? source destination = some t := by
      unfold AffineEngine.find?
      rw [hforth]
    have hfind' : e.find? destination source = some t.reversed := by
      unfold AffineEngine.find?
      rw [hback, hforth]
      rfl
    exact ⟨AffineEngine.crsStep_of_find? hs hd hne hfind,
      AffineEngine.crsStep_of_find? hd hs hne.symm hfind'⟩

/-- A quarter of a turn with two enlargements, of a rectangle. -/
def CrsMap.quarter : CrsMap ℚ where
  forward := ⟨100, 0, -2, 50, 3, 0⟩
  inverse := ⟨-50 / 3, 0, 1 / 3, 50, -1 / 2, 0⟩
  domain := some ⟨0, 0, 10, 20⟩

theorem CrsMap.made_quarter : CrsMap.quarter.Made := by
  have hinverse : (⟨100, 0, -2, 50, 3, 0⟩ : GeoTransform ℚ).invert?
      = some ⟨-50 / 3, 0, 1 / 3, 50, -1 / 2, 0⟩ := by
    decide +kernel
  exact (Made.new (new_eq_ok hinverse)).validOn ⟨0, 0, 10, 20⟩

/-- **A point inside the rectangle and one outside it,** the same for both ways of the pair. -/
theorem pair_serves_both_ways_quarter :
    let t := CrsMap.quarter
    let e := (AffineEngine.empty : AffineEngine ℚ).register "A" "B" t
    let b : Batch ℚ 2 := #v[⟨90, 65, 0, false⟩, ⟨90, 95, 0, false⟩]
    (e.crsStep "B" "A").1 = .ok (some t.reversed.toBatchTransform) ∧
      (t.reversed.toBatchTransform : Transform ℚ).run .sourceToDestination b
        = .ok #v[⟨5, 5, 0, true⟩, ⟨15, 5, 0, false⟩] := by
  intro t e b
  have hbox : ∀ b ∈ t.domain, b.Ordered := by decide +kernel
  have hup : t.Upright := ⟨fun _ _ => .inr (.inl rfl), fun _ _ => .inr (.inr rfl)⟩
  obtain ⟨-, hsame, hengine⟩ := pair_serves_both_ways rfl CrsMap.made_quarter hbox
  have hrun := hsame.mpr hup .destinationToSource b
  exact ⟨(hengine e "A" "B" (by decide) (by decide) (by decide) rfl rfl).2,
    hrun.trans (congrArg Except.ok (by decide +kernel))⟩

/-- **A square that is turned:** the point in a corner of the box around it is taken by the
exchanged map only. -/
theorem pair_flags_differ_slanted :
    let t := CrsMap.slanted
    let b : Batch ℚ 1 := #v[⟨-9, 1, 0, false⟩]
    t.Made ∧ (∀ b ∈ t.domain, b.Ordered) ∧
      (t.toBatchTransform : Transform ℚ).run .destinationToSource b
        = .ok #v[⟨-4, 5, 0, false⟩] ∧
      (t.reversed.toBatchTransform : Transform ℚ).run .sourceToDestination b
        = .ok #v[⟨-4, 5, 0, true⟩] := by
  intro t b
  have hbox : ∀ b ∈ t.domain, b.Ordered := by decide +kernel
  exact ⟨CrsMap.made_slanted, hbox, congrArg Except.ok (by decide +kernel),
    congrArg Except.ok (by decide +kernel)⟩

end RasterWarp
