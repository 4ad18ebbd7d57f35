/-
# Maps without rounding

For numbers that compute exactly, `invert?` gives an inverse (`GeoTransform.Inverse`), and the map
of an overview is undone by the inverse of the full map and a division (`inverse_scaled`).  A
context without a step between coordinate systems moves every point by itself
(`transform_backward`, `transform_forward`), and since it does so along straight lines, a row that
is interpolated is the row that would be computed point by point, whatever the tolerance is
(`Approximation.transform_eq`).
-/
import RasterWarp.Proofs.ExactArithmetic
import RasterWarp.Proofs.MadeContexts
import Mathlib.Tactic.FieldSimp
import Mathlib.Tactic.LinearCombination
import Mathlib.Tactic.Positivity

namespace RasterWarp

open ExactScalar

variable {α : Type} [Scalar α] [ExactScalar α]

/-! ## 1. Inverses -/

namespace GeoTransform

variable {g i : GeoTransform α}

@[simp] theorem value_apply_fst (g : GeoTransform α) (x y : α) : value (g.apply x y).1
    = value g.originX + value x * value g.pixelWidth + value y * value g.rotationX := by
  simp only [apply, value_add, value_mul]

@[simp] theorem value_apply_snd (g : GeoTransform α) (x y : α) : value (g.apply x y).2
    = value g.originY + value x * value g.rotationY + value y * value g.pixelHeight := by
  simp only [apply, value_add, value_mul]

/-- Points with the same values are the same. -/
theorem ext_value {p q : α × α} (h₁ : value p.1 = value q.1) (h₂ : value p.2 = value q.2) : p = q :=
  Prod.ext (value_injective h₁) (value_injective h₂)

/-- **Two maps that undo each other.** -/
structure Inverse (g i : GeoTransform α) : Prop where
  left : ∀ x y, i.apply (g.apply x y).1 (g.apply x y).2 = (x, y)
  right : ∀ x y, g.apply (i.apply x y).1 (i.apply x y).2 = (x, y)

theorem inverse_unrotated (hx : value g.rotationX = 0) (hy : value g.rotationY = 0)
    (hw : value g.pixelWidth ≠ 0) (hh : value g.pixelHeight ≠ 0) :
    g.Inverse g.invertUnrotated where
  left x y := by
    refine ext_value ?_ ?_
    all_goals
      simp only [value_apply_fst, value_apply_snd, invertUnrotated, value_div, value_neg,
        value_one, value_zero, hx, hy]
      field_simp
      ring
  right x y := by
    refine ext_value ?_ ?_
    all_goals
      simp only [value_apply_fst, value_apply_snd, invertUnrotated, value_div, value_neg,
        value_one, value_zero, hx, hy]
      field_simp
      ring

theorem value_determinant (g : GeoTransform α) : value g.determinant
    = value g.pixelWidth * value g.pixelHeight - value g.rotationX * value g.rotationY := by
  simp only [determinant, value_sub, value_mul]

/-- The inverse by cofactors divides by the determinant. -/
theorem inverse_rotated (h : value g.determinant ≠ 0) : g.Inverse g.invertRotated where
  left x y := by
    have hdet := g.value_determinant
    refine ext_value ?_ ?_
    all_goals
      simp only [value_apply_fst, value_apply_snd, invertRotated, value_div, value_neg, value_mul,
        value_sub, value_add, value_one]
      field_simp
      rw [hdet]
      ring
  right x y := by
    have hdet := g.value_determinant
    refine ext_value ?_ ?_
    all_goals
      simp only [value_apply_fst, value_apply_snd, invertRotated, value_div, value_neg, value_mul,
        value_sub, value_add, value_one]
      field_simp
      rw [hdet]
      ring

/-- A determinant that is not negligible is not zero. -/
theorem value_determinant_ne (h : ¬ Scalar.abs g.determinant ≤ 1e-10 * g.scale * g.scale) :
    value g.determinant ≠ 0 := by
  intro hzero
  refine h ((le_iff _ _).mpr ?_)
  simp only [value_abs, value_mul, value_ofScientific, hzero, abs_zero]
  have hsquare := mul_self_nonneg (value g.scale)
  norm_num
  linarith [mul_nonneg (by norm_num : (0 : ℝ) ≤ 1 / 10000000000) hsquare]

/-- **The map back is a map back.** -/
theorem inverse_of_invert? (h : g.invert? = some i) : g.Inverse i := by
  unfold invert? at h
  split at h
  · rename_i hunrotated
    unfold isUnrotated at hunrotated
    obtain ⟨hx, hy⟩ := (Bool.and_eq_true _ _).mp hunrotated
    rw [beq_iff, value_zero] at hx hy
    split at h
    · cases h
    · rename_i hsize
      obtain rfl := Option.some.inj h
      simp only [Bool.or_eq_true, beq_iff, value_zero, not_or] at hsize
      exact inverse_unrotated hx hy hsize.1 hsize.2
  · split at h
    · cases h
    · rename_i hregular
      obtain rfl := Option.some.inj h
      refine inverse_rotated (value_determinant_ne fun hle => hregular ?_)
      simp only [hle, decide_true, Bool.true_or]

/-- **The map of a coarser level is undone by dividing** what the inverse of the full map gives. -/
theorem inverse_scaled {j : GeoTransform α} {rx ry : α} (hx : value rx ≠ 0) (hy : value ry ≠ 0)
    (hi : g.Inverse i) (hj : (g.scaled rx ry).Inverse j) (x y : α) :
    j.apply x y = ((i.apply x y).1 / rx, (i.apply x y).2 / ry) := by
  have hscaled : (g.scaled rx ry).apply ((i.apply x y).1 / rx) ((i.apply x y).2 / ry)
      = g.apply (i.apply x y).1 (i.apply x y).2 := by
    refine ext_value ?_ ?_
    all_goals
      simp only [value_apply_fst, value_apply_snd, scaled, value_mul, value_div]
      field_simp
  have hback := hj.left ((i.apply x y).1 / rx) ((i.apply x y).2 / ry)
  rw [hscaled, hi.right] at hback
  exact hback

end GeoTransform

/-! ## 2. Contexts without a step between systems -/

/-- The place of a point after two maps. -/
def Point.movedBy (p : Point α) (first second : GeoTransform α) : Point α :=
  let q := first.apply p.x p.y
  let s := second.apply q.1 q.2
  ⟨s.1, s.2, p.z, true⟩

namespace Context

variable {map inverse destination destinationInverse : GeoTransform α} {n : Nat}

/-- No point gets out of range. -/
theorem checkFinite_eq (b : Batch α n) : checkFinite b = b := by simp [checkFinite]

/-- Moving a row by two maps moves each of its points, and none gets out of range. -/
theorem moveBatch_moveBatch (first second : GeoTransform α) (b : Batch α n) :
    checkFinite (second.moveBatch (first.moveBatch (b.map fun p => { p with ok := true })))
      = b.map fun p => p.movedBy first second := by
  simp only [checkFinite, GeoTransform.moveBatch, Vector.map_map]
  refine congrArg (b.map ·) (funext fun p => ?_)
  simp [Point.movedBy]

/-- **Destination pixels go to the source by two maps,** every one by itself and none is lost. -/
theorem transform_backward (b : Batch α n) :
    (⟨.affine map inverse, none, destination, destinationInverse⟩ : WarpContext α).transform
        .destinationToSource b
      = .ok (b.map fun p => p.movedBy destination inverse) :=
  congrArg Except.ok (moveBatch_moveBatch destination inverse b)

/-- **Source pixels go to the destination likewise.** -/
theorem transform_forward (b : Batch α n) :
    (⟨.affine map inverse, none, destination, destinationInverse⟩ : WarpContext α).transform
        .sourceToDestination b
      = .ok (b.map fun p => p.movedBy map destinationInverse) :=
  congrArg Except.ok (moveBatch_moveBatch map destinationInverse b)

end Context

/-! ## 3. Interpolated rows -/

/-- **A line through the images of two points passes the image of every point between them,** and
beyond, as long as all of them are on one row. -/
theorem Chord.place_movedBy {first p : Point α} (lastX : α) (second third : GeoTransform α)
    (hy : p.y = first.y) (hz : p.z = first.z) (hspan : value (lastX - first.x) ≠ 0) :
    (Chord.through (first.movedBy second third) ({ first with x := lastX }.movedBy second third)
      first.x (lastX - first.x)).place p.x = p.movedBy second third := by
  obtain ⟨x, y, z, ok⟩ := p
  obtain rfl : y = first.y := hy
  obtain rfl : z = first.z := hz
  rw [value_sub] at hspan
  simp only [Chord.through, place, Point.movedBy]
  congr 1
  all_goals
    refine value_injective ?_
    simp only [value_add, value_sub, value_mul, value_div, GeoTransform.value_apply_fst,
      GeoTransform.value_apply_snd]
    field_simp
    ring

omit [Scalar α] [ExactScalar α] in
/-- Two parts of a row that are moved one after the other are the row moved as a whole. -/
theorem Batch.map_parts (f : Point α → Point α) {n : Nat} (row : Batch α n) (m : Nat)
    (h : min m n + (n - m) = n) :
    ((row.take m).map f ++ (row.drop m).map f).cast h = row.map f := by
  refine Vector.ext fun k hk => ?_
  simp only [Vector.getElem_cast, Vector.getElem_append, Vector.getElem_map, Vector.getElem_take,
    Vector.getElem_drop]
  split
  · rfl
  · have hindex : m + (k - min m n) = k := by omega
    simp only [hindex]

namespace Approximation

variable {map inverse destination destinationInverse : GeoTransform α} {a : Approximation (Outcome α) α}
  (ha : a.context = ⟨.affine map inverse, none, destination, destinationInverse⟩)

include ha

/-- **A row by interpolation is the row point by point,** by induction on its length. -/
theorem bisect_eq {n : Nat} (row : Batch α n) (hrow : ∀ k (h : k < n) l (h' : l < n),
    row[k].y = row[l].y ∧ row[k].z = row[l].z) :
    a.bisect .destinationToSource row
      = .ok (row.map fun p => p.movedBy destination inverse) := by
  have htransform : ∀ {m : Nat} (b : Batch α m), a.context.transform .destinationToSource b
      = .ok (b.map fun p => p.movedBy destination inverse) := by
    intro m b
    rw [ha]
    exact Context.transform_backward b
  induction n using Nat.strong_induction_on with
  | _ n ih =>
    unfold bisect
    split
    · exact htransform row
    · rename_i hlong
      have hn : 5 < n := Nat.lt_of_not_le hlong
      simp only
      split
      · exact htransform row
      · rename_i hspan
        have hspan : value (row[n - 1].x - row[0].x) ≠ 0 := by
          intro hzero
          exact hspan ((beq_iff _ _).mpr (hzero.trans value_zero.symm))
        -- the halves are rows of the same height, whatever the tolerance splits
        have hleft := ih _ (by omega) (row.take ((n - 1) / 2)) fun k hk l hl => by
          simp only [Vector.getElem_take]
          exact hrow k (by omega) l (by omega)
        have hright := ih _ (by omega) (row.drop ((n - 1) / 2)) fun k hk l hl => by
          simp only [Vector.getElem_drop]
          exact hrow _ (by omega) _ (by omega)
        rw [htransform, Outcome.ok_bind]
        split
        · exact htransform row
        · split
          · rw [hleft, hright]
            exact congrArg Except.ok (Batch.map_parts _ row ((n - 1) / 2) (by omega))
          · refine congrArg Except.ok (Vector.ext fun k hk => ?_)
            simp only [Vector.getElem_map]
            show (Chord.through (Vector.map _ _)[0] (Vector.map _ _)[2] _ _).place _ = _
            rw [Vector.getElem_map, Vector.getElem_map]
            exact Chord.place_movedBy _ destination inverse (hrow k hk 0 (by omega)).1
              (hrow k hk 0 (by omega)).2 hspan

/-- **A row of one height is taken back point by point,** however it is computed. -/
theorem transform_eq {n : Nat} (row : Batch α n) :
    a.transform .destinationToSource row
      = .ok (row.map fun p => p.movedBy destination inverse) := by
  have htransform : a.context.transform .destinationToSource row
      = .ok (row.map fun p => p.movedBy destination inverse) := by
    rw [ha]
    exact Context.transform_backward row
  unfold transform
  split
  · rename_i hn
    split
    · exact htransform
    · rename_i hlevel
      simp only [Bool.or_eq_true, not_or, Bool.not_eq_true', Bool.not_eq_false] at hlevel
      have hall : ∀ k (h : k < n), row[k].y = row[0].y ∧ row[k].z = row[0].z := by
        intro k hk
        have hpoint := Vector.all_eq_true.mp hlevel.2 k hk
        obtain ⟨hy, hz⟩ := (Bool.and_eq_true _ _).mp hpoint
        exact ⟨eq_of_beq hy, eq_of_beq hz⟩
      refine bisect_eq ha row fun k hk l hl => ?_
      exact ⟨(hall k hk).1.trans (hall l hl).1.symm, (hall k hk).2.trans (hall l hl).2.symm⟩
  · rename_i hn
    obtain rfl : n = 0 := Nat.eq_zero_of_not_pos hn
    exact congrArg Except.ok (Vector.ext fun k hk => absurd hk (Nat.not_lt_zero k))

end Approximation
end RasterWarp
