/-
# The geometry of an overview

An overview shows the same ground with fewer pixels.  Binding a context to one rescales the linear
terms of the source's geotransform, column terms by the ratio of the widths and line terms by that
of the heights, and computes the inverse anew.

The rescaled map is the full one after an enlargement of the pixel position (`apply_scaled`), and so
its inverse is the full one with a reduction after it.  Nothing else of the context changes.
`overview_keeps_geometry` says what follows for whole batches in both directions, whatever the step
between the coordinate systems is, and that a point lies on the level exactly when it lies on the
full raster.
-/
import RasterWarp.Proofs.ContextUpdates
import RasterWarp.Proofs.NearestNeighbour
import RasterWarp.Proofs.PointByPoint

namespace RasterWarp

open ExactScalar

variable {α : Type} [Scalar α]

/-! ## 1. Positions on a level -/

namespace Point

/-- The position on a level with so many times fewer columns and lines. -/
def reduced (p : Point α) (rx ry : α) : Point α := { p with x := p.x / rx, y := p.y / ry }

/-- The position on the full raster of a position on such a level. -/
def enlarged (p : Point α) (rx ry : α) : Point α := { p with x := p.x * rx, y := p.y * ry }

/-- **Positions that lie in a pixel of a raster.** -/
structure Within (p : Point α) (size : Nat × Nat) : Prop where
  left : 0 ≤ p.x
  right : p.x < Scalar.ofNat size.1
  top : 0 ≤ p.y
  bottom : p.y < Scalar.ofNat size.2

instance (p : Point α) (size : Nat × Nat) : Decidable (p.Within size) :=
  decidable_of_iff (0 ≤ p.x ∧ p.x < Scalar.ofNat size.1 ∧ 0 ≤ p.y ∧ p.y < Scalar.ofNat size.2)
    ⟨fun ⟨hl, hr, ht, hb⟩ => ⟨hl, hr, ht, hb⟩, fun ⟨hl, hr, ht, hb⟩ => ⟨hl, hr, ht, hb⟩⟩

end Point

section Exact

variable [ExactScalar α] {full level : Nat}

theorem nonneg_div_levelRatio_iff (hfull : 0 < full) (hlevel : 0 < level) (q : α) :
    0 ≤ q / levelRatio full level ↔ 0 ≤ q := by
  have hratio := value_levelRatio_pos (α := α) hfull hlevel
  rw [le_iff, le_iff, value_zero, value_div, le_div_iff₀ hratio, zero_mul]

theorem div_levelRatio_lt_iff (hfull : 0 < full) (hlevel : 0 < level) (q : α) :
    q / levelRatio full level < Scalar.ofNat level ↔ q < Scalar.ofNat full := by
  have hratio := value_levelRatio_pos (α := α) hfull hlevel
  have hne : (level : ℝ) ≠ 0 := Nat.cast_ne_zero.mpr hlevel.ne'
  rw [lt_iff, lt_iff, value_ofNat, value_ofNat, value_div, div_lt_iff₀ hratio, value_levelRatio,
    mul_div_cancel₀ _ hne]

/-- **A level covers what the full raster covers.** -/
theorem Point.within_reduced_iff {full level : Nat × Nat} (hfull : 0 < full.1 ∧ 0 < full.2)
    (hlevel : 0 < level.1 ∧ 0 < level.2) (p : Point α) :
    (p.reduced (levelRatio full.1 level.1) (levelRatio full.2 level.2)).Within level
      ↔ p.Within full := by
  have hleft := nonneg_div_levelRatio_iff hfull.1 hlevel.1 p.x
  have hright := div_levelRatio_lt_iff hfull.1 hlevel.1 p.x
  have htop := nonneg_div_levelRatio_iff hfull.2 hlevel.2 p.y
  have hbottom := div_levelRatio_lt_iff hfull.2 hlevel.2 p.y
  constructor
  · rintro ⟨hl, hr, ht, hb⟩
    exact ⟨hleft.mp hl, hright.mp hr, htop.mp ht, hbottom.mp hb⟩
  · rintro ⟨hl, hr, ht, hb⟩
    exact ⟨hleft.mpr hl, hright.mpr hr, htop.mpr ht, hbottom.mpr hb⟩

end Exact

/-! ## 2. The rescaled map -/

namespace GeoTransform

variable [ExactScalar α] {g i j : GeoTransform α} {rx ry : α} {n : Nat}

/-- **The rescaled map is the map after an enlargement.** -/
theorem apply_scaled (g : GeoTransform α) (rx ry x y : α) :
    (g.scaled rx ry).apply x y = g.apply (x * rx) (y * ry) := by
  refine ext_value ?_ ?_
  all_goals
    simp only [value_apply_fst, value_apply_snd, scaled, value_mul]
    ring

theorem moveBatch_scaled (g : GeoTransform α) (rx ry : α) (b : Batch α n) :
    (g.scaled rx ry).moveBatch b = g.moveBatch (b.map (·.enlarged rx ry)) := by
  simp only [moveBatch, Vector.map_map]
  refine congrArg (b.map ·) (funext fun p => ?_)
  simp only [Function.comp, Point.enlarged, apply_scaled]

/-- Its inverse reduces what the inverse of the map gives. -/
theorem moveBatch_inverse_scaled (hx : value rx ≠ 0) (hy : value ry ≠ 0) (hi : g.Inverse i)
    (hj : (g.scaled rx ry).Inverse j) (b : Batch α n) :
    j.moveBatch b = (i.moveBatch b).map (·.reduced rx ry) := by
  simp only [moveBatch, Vector.map_map]
  refine congrArg (b.map ·) (funext fun p => ?_)
  simp only [Function.comp, Point.reduced, inverse_scaled hx hy hi hj]

end GeoTransform

/-! ## 3. Contexts at an overview -/

namespace Context

variable [ExactScalar α] {c : WarpContext α} {g i j : GeoTransform α} {n : Nat}

/-- A context with a geotransform for its source goes back by its inverse, after the step between
the systems, -/
theorem transform_back (hsource : c.source = .affine g i) (b : Batch α n) :
    c.transform .destinationToSource b
      = (c.reprojectionStep .destinationToSource
          (c.destination.moveBatch (b.map fun p => { p with ok := true }))).map i.moveBatch := by
  unfold transform chain sourceStep
  simp only [hsource, checkFinite_eq]
  cases c.reprojectionStep .destinationToSource
    (c.destination.moveBatch (b.map fun p => { p with ok := true })) <;> rfl

/-- and forth by the geotransform, before it. -/
theorem transform_forth (hsource : c.source = .affine g i) (b : Batch α n) :
    c.transform .sourceToDestination b
      = (c.reprojectionStep .sourceToDestination
          (g.moveBatch (b.map fun p => { p with ok := true }))).map
            c.destinationInverse.moveBatch := by
  unfold transform chain sourceStep
  simp only [hsource, checkFinite_eq, pure_bind]
  cases c.reprojectionStep .sourceToDestination
    (g.moveBatch (b.map fun p => { p with ok := true })) <;> rfl

variable {rx ry : α}

theorem transform_back_scaled (hsource : c.source = .affine g i) (hx : value rx ≠ 0)
    (hy : value ry ≠ 0) (hi : g.Inverse i) (hj : (g.scaled rx ry).Inverse j) (b : Batch α n) :
    ({ c with source := .affine (g.scaled rx ry) j } : WarpContext α).transform
        .destinationToSource b
      = (c.transform .destinationToSource b).map (·.map (·.reduced rx ry)) := by
  rw [transform_back rfl, transform_back hsource]
  show (c.reprojectionStep _ _).map _ = _
  cases c.reprojectionStep .destinationToSource
    (c.destination.moveBatch (b.map fun p => { p with ok := true })) with
  | error f => rfl
  | ok moved => exact congrArg Except.ok (GeoTransform.moveBatch_inverse_scaled hx hy hi hj moved)

theorem transform_forth_scaled (hsource : c.source = .affine g i) (b : Batch α n) :
    ({ c with source := .affine (g.scaled rx ry) j } : WarpContext α).transform
        .sourceToDestination b
      = c.transform .sourceToDestination (b.map (·.enlarged rx ry)) := by
  have hflags : (b.map (·.enlarged rx ry)).map (fun p => { p with ok := true })
      = (b.map fun p => { p with ok := true }).map (·.enlarged rx ry) := by
    simp only [Vector.map_map]
    rfl
  rw [transform_forth rfl, transform_forth hsource, hflags, GeoTransform.moveBatch_scaled]
  rfl

end Context

/-- **An overview keeps the geometry.**  For numbers that compute exactly, take a context that holds
the inverse of its source's geotransform and that could be bound to an overview.  Then the context
of the overview

* takes a batch back like the context of the full raster, with the same flags, and reduces the
  positions by the ratios of the widths and of the heights;
* takes a batch forth like the context of the full raster takes the enlarged positions;
* puts a point within the level exactly when the other one puts it within the full raster. -/
theorem overview_keeps_geometry [ExactScalar α] {c c' : WarpContext α}
    {source scaled : GeoTransform α} {full level : Nat × Nat} (hc : c.Matched)
    (hsource : c.sourceMap? = some source) (hfull : 0 < full.1 ∧ 0 < full.2)
    (hlevel : 0 < level.1 ∧ 0 < level.2) (h : atOverview c source full level = .ok (scaled, c'))
    {n : Nat} (b : Batch α n) :
    let rx : α := levelRatio full.1 level.1
    let ry : α := levelRatio full.2 level.2
    c'.transform .destinationToSource b
        = (c.transform .destinationToSource b).map (·.map (·.reduced rx ry)) ∧
      c'.transform .sourceToDestination b
        = c.transform .sourceToDestination (b.map (·.enlarged rx ry)) ∧
      ∀ out, c.transform .destinationToSource b = .ok out →
        ∃ out', c'.transform .destinationToSource b = .ok out' ∧
          ∀ k (_ : k < n), out'[k].ok = out[k].ok ∧
            (out'[k].Within level ↔ out[k].Within full) := by
  intro rx ry
  obtain ⟨i, hi⟩ : ∃ i, c.source = .affine source i := by
    unfold Context.sourceMap? at hsource
    cases hgeoreference : c.source with
    | affine map inverse =>
      rw [hgeoreference] at hsource
      obtain rfl := Option.some.inj hsource
      exact ⟨inverse, rfl⟩
    | geolocation t =>
      rw [hgeoreference] at hsource
      cases hsource
  have hinverse := GeoTransform.inverse_of_invert? (hc.source source i hi)
  obtain ⟨rfl, hset⟩ := Context.setSource_of_atOverview h
  obtain ⟨j, -, hj, rfl⟩ := Context.exists_of_setSource hset
  have hx : value rx ≠ 0 := (value_levelRatio_pos hfull.1 hlevel.1).ne'
  have hy : value ry ≠ 0 := (value_levelRatio_pos hfull.2 hlevel.2).ne'
  have hback := Context.transform_back_scaled hi hx hy hinverse
    (GeoTransform.inverse_of_invert? hj) b
  refine ⟨hback, Context.transform_forth_scaled hi b, fun out hout => ?_⟩
  rw [hout] at hback
  refine ⟨_, hback, fun k hk => ?_⟩
  simp only [Vector.getElem_map]
  exact ⟨rfl, out[k].within_reduced_iff hfull hlevel⟩

/-- A turned source behind a step that is valid on a square only. -/
def Context.turned : WarpContext ℚ where
  source := .affine .turned ⟨-1 / 2, 1 / 2, -1 / 2, -5 / 2, 1 / 2, 1 / 2⟩
  reprojection := some (CrsMap.identity.validOn ⟨0, 0, 5, 5⟩).toBatchTransform
  destination := .identity
  destinationInverse := .identity

theorem Context.matched_turned : Context.turned.Matched := by
  have hsource : GeoTransform.turned.invert?
      = some ⟨-1 / 2, 1 / 2, -1 / 2, -5 / 2, 1 / 2, 1 / 2⟩ := by
    decide +kernel
  have hdestination : (.identity : GeoTransform ℚ).invert? = some .identity := by decide +kernel
  refine ⟨fun map inverse hmap => ?_, hdestination⟩
  obtain ⟨rfl, rfl⟩ := Georeference.affine.inj hmap
  exact hsource

/-- **Two points on the level with half of the columns and a third of the lines.**  The second is
off the square and off the raster. -/
theorem overview_keeps_geometry_turned :
    let b : Batch ℚ 2 := #v[⟨5, 2, 0, false⟩, ⟨20, 4, 0, false⟩]
    Context.turned.Matched ∧ ∃ c' out,
      atOverview Context.turned .turned (8, 6) (4, 2) = .ok (⟨3, 2, 3, 2, -2, 3⟩, c') ∧
      c'.transform .destinationToSource b = .ok out ∧
      out[0].x = 1 / 2 ∧ out[0].y = 1 / 3 ∧ out[0].ok = true ∧ out[0].Within (4, 2) ∧
      out[1].ok = false ∧ ¬ out[1].Within (4, 2) := by
  intro b
  have hmap : (atOverview Context.turned .turned (8, 6) (4, 2)).toOption.map (·.1)
      = some ⟨3, 2, 3, 2, -2, 3⟩ := by
    decide +kernel
  obtain ⟨⟨scaled, c'⟩, hanswer, hscaled⟩ := Option.map_eq_some_iff.mp hmap
  obtain rfl : scaled = ⟨3, 2, 3, 2, -2, 3⟩ := hscaled
  have h : atOverview Context.turned .turned (8, 6) (4, 2) = .ok (⟨3, 2, 3, 2, -2, 3⟩, c') := by
    cases hlevel : atOverview Context.turned .turned (8, 6) (4, 2) with
    | error f =>
      rw [hlevel] at hanswer
      cases hanswer
    | ok r =>
      rw [hlevel] at hanswer
      exact congrArg Except.ok (Option.some.inj hanswer)
  have hfull : Context.turned.transform .destinationToSource b
      = .ok #v[⟨1, 1, 0, true⟩, ⟨15 / 2, 19 / 2, 0, false⟩] :=
    Outcome.eq_ok_of_toOption (by decide +kernel)
  obtain ⟨hback, -, hwithin⟩ := overview_keeps_geometry Context.matched_turned rfl
    (by decide) (by decide) h b
  obtain ⟨out, hout, hpoints⟩ := hwithin _ hfull
  rw [hfull, hout] at hback
  obtain rfl := Except.ok.inj hback
  obtain ⟨hok, hlies⟩ := hpoints 0 (by decide)
  obtain ⟨hok', hlies'⟩ := hpoints 1 (by decide)
  exact ⟨Context.matched_turned, c', _, h, hout, by decide +kernel, by decide +kernel, hok,
    hlies.mpr (by decide +kernel), hok', fun hin => absurd (hlies'.mp hin) (by decide +kernel)⟩

end RasterWarp
