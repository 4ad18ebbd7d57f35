/-
# There and back

A context takes points along a chain of maps: those of the source, of the step between the
coordinate systems and of the destination, in this order in one direction and in the other order in
the other direction.  Where the step and the geolocation arrays are affine maps, all of the chain
consists of maps that hold their own inverses (`CrsMap.Made.inverse`), and a context is a walk along
a list of them (`Context.Along.transform`).

With numbers that compute exactly, walking a list of such maps in one direction and then in the
other leads back to where one came from (`travel_opposite`).  The flags are those of the way out: a
map decides them on its source side in both directions, and so both ways ask the same maps about
the same positions.  `transform_there_and_back` says this of every context that can be built.
-/
import RasterWarp.Proofs.ExactMaps

namespace RasterWarp

open ExactScalar

/-- The other way. -/
def Direction.opposite : Direction → Direction
  | .sourceToDestination => .destinationToSource
  | .destinationToSource => .sourceToDestination

variable {α : Type}

/-! ## 1. Points and their flags -/

/-- A point with another flag. -/
def Point.flagged (p : Point α) (ok : Bool) : Point α := { p with ok }

namespace Point

variable (p : Point α) (a b : Bool)

@[simp] theorem flagged_ok : (p.flagged a).ok = a := rfl

@[simp] theorem flagged_flagged : (p.flagged a).flagged b = p.flagged b := rfl

@[simp] theorem flagged_self : p.flagged p.ok = p := rfl

end Point

variable [Scalar α]

/-! ## 2. Maps that can be made -/

/-- **The maps that can be made:** from a geotransform that has an inverse, or as they are given,
with boxes put on them and their systems exchanged any number of times. -/
inductive CrsMap.Made : CrsMap α → Prop
  | new {g : GeoTransform α} {t : CrsMap α} (h : CrsMap.new g = .ok t) : Made t
  | identity : Made .identity
  | validOn {t : CrsMap α} (h : Made t) (b : Bounds α) : Made (t.validOn b)
  | reversed {t : CrsMap α} (h : Made t) : Made t.reversed

namespace CrsMap

theorem exists_of_new {g : GeoTransform α} {t : CrsMap α} (h : new g = .ok t) :
    ∃ i, g.invert? = some i ∧ t = ⟨g, i, none⟩ := by
  unfold new GeoTransform.inverse at h
  cases hi : g.invert? with
  | none =>
    rw [hi] at h
    cases h
  | some i =>
    rw [hi] at h
    exact ⟨i, rfl, (Except.ok.inj h).symm⟩

theorem new_eq_ok {g i : GeoTransform α} (h : g.invert? = some i) : new g = .ok ⟨g, i, none⟩ := by
  unfold new GeoTransform.inverse
  rw [h]
  rfl

end CrsMap

section Exact

variable [ExactScalar α]

omit [ExactScalar α] in
theorem GeoTransform.Inverse.symm {g i : GeoTransform α} (h : g.Inverse i) : i.Inverse g :=
  ⟨h.right, h.left⟩

theorem GeoTransform.inverse_identity : (identity : GeoTransform α).Inverse identity := by
  have hsame : ∀ x y : α, (identity : GeoTransform α).apply x y = (x, y) := by
    intro x y
    refine ext_value ?_ ?_
    all_goals simp [identity]
  constructor
  all_goals
    intro x y
    simp only [hsame]

/-- **A map that was made holds its own inverse.** -/
theorem CrsMap.Made.inverse {t : CrsMap α} (h : t.Made) : t.forward.Inverse t.inverse := by
  induction h with
  | new h =>
    obtain ⟨i, hi, rfl⟩ := exists_of_new h
    exact GeoTransform.inverse_of_invert? hi
  | identity => exact GeoTransform.inverse_identity
  | validOn _ _ ih => exact ih
  | reversed _ ih => exact ih.symm

end Exact

/-! ## 3. Walks along maps -/

namespace CrsMap

/-- **One map of a walk:** its flag is added to those of the maps before. -/
def leg (t : CrsMap α) (d : Direction) (p : Point α) : Point α :=
  (t.move d p).flagged (p.ok && (t.move d p).ok)

/-- **A walk along a list of maps,** the last of them first on the way back. -/
def travel (d : Direction) (chain : List (CrsMap α)) (p : Point α) : Point α :=
  match d with
  | .sourceToDestination => chain.foldl (fun p t => t.leg d p) p
  | .destinationToSource => chain.foldr (fun t p => t.leg d p) p

/-- A map does not look at flags. -/
theorem leg_flagged (t : CrsMap α) (d : Direction) (p : Point α) (b : Bool) :
    t.leg d (p.flagged b)
      = (t.leg d (p.flagged true)).flagged (b && (t.leg d (p.flagged true)).ok) := by
  cases d <;> simp [leg, move, Point.flagged]

theorem travel_forth (t : CrsMap α) (chain : List (CrsMap α)) (p : Point α) :
    travel .sourceToDestination (t :: chain) p
      = travel .sourceToDestination chain (t.leg .sourceToDestination p) := rfl

theorem travel_back (t : CrsMap α) (chain : List (CrsMap α)) (p : Point α) :
    travel .destinationToSource (t :: chain) p
      = t.leg .destinationToSource (travel .destinationToSource chain p) := rfl

/-- **A flag that is lost on a walk is lost for good,** and nothing else of the walk depends on the
flag that it began with. -/
theorem travel_flagged (d : Direction) (chain : List (CrsMap α)) (p : Point α) (b : Bool) :
    travel d chain (p.flagged b)
      = (travel d chain (p.flagged true)).flagged (b && (travel d chain (p.flagged true)).ok) := by
  cases d with
  | sourceToDestination =>
    induction chain generalizing p b with
    | nil => simp [travel]
    | cons t chain ih =>
      have hrest := ih (t.leg .sourceToDestination (p.flagged true))
        (t.leg .sourceToDestination (p.flagged true)).ok
      rw [Point.flagged_self] at hrest
      rw [travel_forth, travel_forth, leg_flagged, ih, hrest]
      simp [Bool.and_assoc]
  | destinationToSource =>
    induction chain with
    | nil => simp [travel]
    | cons t chain ih =>
      have hrest := leg_flagged t .destinationToSource
        (travel .destinationToSource chain (p.flagged true))
        (travel .destinationToSource chain (p.flagged true)).ok
      rw [Point.flagged_self] at hrest
      rw [travel_back, travel_back, ih, leg_flagged, hrest]
      simp [Bool.and_assoc]

/-- One map there and back: the position is as before, and the flag says whether it was valid. -/
theorem leg_opposite {t : CrsMap α} (h : t.forward.Inverse t.inverse) (d : Direction) (p : Point α)
    (b : Bool) :
    t.leg d.opposite ((t.leg d (p.flagged true)).flagged b)
      = p.flagged (b && (t.leg d (p.flagged true)).ok) := by
  cases d with
  | sourceToDestination =>
    have hback := h.left p.x p.y
    simp [leg, move, Direction.opposite, Point.flagged, hback]
  | destinationToSource =>
    have hforth := h.right p.x p.y
    simp [leg, move, Direction.opposite, Point.flagged, hforth]

/-- **A walk there and back ends where it began,** with the flag of the way out.  By induction on
the maps: on the way out the first map comes first, and on the way back last. -/
theorem travel_opposite {chain : List (CrsMap α)} (h : ∀ t ∈ chain, t.forward.Inverse t.inverse)
    (d : Direction) (p : Point α) (b : Bool) :
    travel d.opposite chain ((travel d chain (p.flagged true)).flagged b)
      = p.flagged (b && (travel d chain (p.flagged true)).ok) := by
  induction chain generalizing p b with
  | nil => cases d <;> simp [travel, Direction.opposite]
  | cons t chain ih =>
    have ht := h t List.mem_cons_self
    have hchain := ih fun t' ht' => h t' (List.mem_cons_of_mem t ht')
    cases d with
    | sourceToDestination =>
      obtain ⟨q, hq⟩ : ∃ q, t.leg .sourceToDestination (p.flagged true) = q := ⟨_, rfl⟩
      have hout := travel_flagged .sourceToDestination chain q q.ok
      have hback := hchain q b
      have hleg := leg_opposite ht .sourceToDestination p
      simp only [Direction.opposite, hq] at hback hleg ⊢
      rw [Point.flagged_self] at hout
      rw [travel_forth, hq, hout, Point.flagged_flagged, travel_back, hback, hleg]
      simp only [Point.flagged_ok, Bool.and_comm, Bool.and_left_comm]
    | destinationToSource =>
      obtain ⟨r, hr⟩ : ∃ r, travel .destinationToSource chain (p.flagged true) = r := ⟨_, rfl⟩
      have hout := leg_flagged t .destinationToSource r r.ok
      have hback := hchain p
      have hleg := leg_opposite ht .destinationToSource r b
      simp only [Direction.opposite, hr] at hback hleg ⊢
      rw [Point.flagged_self] at hout
      rw [travel_back, hr, hout, Point.flagged_flagged, travel_forth, hleg, hback]
      simp only [Point.flagged_ok, Bool.and_comm, Bool.and_left_comm]

end CrsMap

/-! ## 4. Contexts as walks -/

/-- A transform that is a map takes one map of the walk. -/
theorem CrsMap.step_eq (t : CrsMap α) (d : Direction) {n : Nat} (b : Batch α n) :
    (t.toBatchTransform : Transform α).step d b = .ok (b.map (t.leg d)) := by
  refine congrArg Except.ok (Vector.ext fun i hi => ?_)
  simp only [Vector.getElem_zipWith, Vector.getElem_map]
  cases d <;> rfl

/-- So does a geotransform in its direction, and its inverse in the other. -/
theorem GeoTransform.moveBatch_forth (g i : GeoTransform α) {n : Nat} (b : Batch α n) :
    g.moveBatch b = b.map ((⟨g, i, none⟩ : CrsMap α).leg .sourceToDestination) := by
  refine Vector.ext fun k hk => ?_
  simp [moveBatch, CrsMap.leg, CrsMap.move, CrsMap.accepts, Point.flagged]

theorem GeoTransform.moveBatch_back (g i : GeoTransform α) {n : Nat} (b : Batch α n) :
    i.moveBatch b = b.map ((⟨g, i, none⟩ : CrsMap α).leg .destinationToSource) := by
  refine Vector.ext fun k hk => ?_
  simp [moveBatch, CrsMap.leg, CrsMap.move, CrsMap.accepts, Point.flagged]

namespace Context

/-- **A context that is put together from maps:** one for the source, and one between the coordinate
systems, if any. -/
structure Along (c : WarpContext α) (source : CrsMap α) (step : Option (CrsMap α)) : Prop where
  source : ∀ (d : Direction) {n : Nat} (b : Batch α n),
    c.sourceStep d b = .ok (b.map (source.leg d))
  reprojection : c.reprojection = step.map (·.toBatchTransform)

/-- The maps of such a context.  The last one is that of the destination, whose pixels are on the
far side of it. -/
def maps (c : WarpContext α) (source : CrsMap α) (step : Option (CrsMap α)) : List (CrsMap α) :=
  source :: (step.toList ++ [⟨c.destinationInverse, c.destination, none⟩])

theorem reprojectionStep_along {c : WarpContext α} {step : Option (CrsMap α)}
    (h : c.reprojection = step.map (·.toBatchTransform)) (d : Direction) {n : Nat} (b : Batch α n) :
    c.reprojectionStep d b = .ok (b.map (CrsMap.travel d step.toList)) := by
  unfold reprojectionStep
  rw [h]
  cases step with
  | none =>
    have hstay : CrsMap.travel d (none : Option (CrsMap α)).toList = id := by cases d <;> rfl
    rw [hstay, Vector.map_id]
    rfl
  | some t =>
    simp only [Option.map_some, CrsMap.step_eq]
    cases d <;> rfl

section Exact

variable [ExactScalar α]

/-- **Such a context walks its maps,** and no call of it fails. -/
theorem Along.transform {c : WarpContext α} {source : CrsMap α} {step : Option (CrsMap α)}
    (h : c.Along source step) (d : Direction) {n : Nat} (b : Batch α n) :
    c.transform d b
      = .ok (b.map fun p => CrsMap.travel d (c.maps source step) (p.flagged true)) := by
  unfold Context.transform
  cases d with
  | sourceToDestination =>
    simp only [chain, h.source, reprojectionStep_along h.reprojection, Outcome.ok_bind,
      checkFinite_eq, GeoTransform.moveBatch_forth _ c.destination]
    refine congrArg Except.ok (Vector.ext fun i hi => ?_)
    simp [maps, CrsMap.travel, Point.flagged]
  | destinationToSource =>
    simp only [chain, h.source, reprojectionStep_along h.reprojection, Outcome.ok_bind,
      checkFinite_eq, GeoTransform.moveBatch_back c.destinationInverse]
    refine congrArg Except.ok (Vector.ext fun i hi => ?_)
    simp [maps, CrsMap.travel, Point.flagged]

end Exact
end Context

/-! ## 5. There and back -/

namespace Context

/-- **The contexts that are built from maps:** of a source with a geotransform or with a map for its
geolocation arrays, and with a map between the coordinate systems or none. -/
inductive OfMaps : WarpContext α → Prop
  | affine {source destination : GeoTransform α} {step : Option (CrsMap α)} {c : WarpContext α}
      (hstep : ∀ t ∈ step, t.Made)
      (h : Context.affine source (step.map (·.toBatchTransform)) destination = .ok c) : OfMaps c
  | geolocated {source : CrsMap α} {destination : GeoTransform α} {step : Option (CrsMap α)}
      {c : WarpContext α} (hsource : source.Made) (hstep : ∀ t ∈ step, t.Made)
      (h : Context.geolocated source.toBatchTransform (step.map (·.toBatchTransform)) destination
        = .ok c) : OfMaps c

variable [ExactScalar α] {c : WarpContext α}

/-- **They are walks along maps that hold their own inverses.** -/
theorem OfMaps.exists_along (h : c.OfMaps) : ∃ source step, c.Along source step ∧
    ∀ t ∈ c.maps source step, t.forward.Inverse t.inverse := by
  have hmaps : ∀ {c : WarpContext α} {source : CrsMap α} {step : Option (CrsMap α)},
      source.forward.Inverse source.inverse → (∀ t ∈ step, t.Made) →
      c.destination.invert? = some c.destinationInverse →
        ∀ t ∈ c.maps source step, t.forward.Inverse t.inverse := by
    intro c source step hsource hstep hdestination t ht
    unfold maps at ht
    rcases List.mem_cons.mp ht with rfl | ht
    · exact hsource
    rcases List.mem_append.mp ht with ht | ht
    · exact (hstep t (Option.mem_toList.mp ht)).inverse
    · obtain rfl := List.mem_singleton.mp ht
      exact (GeoTransform.inverse_of_invert? hdestination).symm
  cases h with
  | @affine source destination step c hstep h =>
    obtain ⟨i, j, hi, hj, rfl⟩ := inverses_of_affine h
    refine ⟨⟨source, i, none⟩, step, ⟨fun d n b => ?_, rfl⟩,
      hmaps (GeoTransform.inverse_of_invert? hi) hstep hj⟩
    cases d with
    | sourceToDestination => exact congrArg Except.ok (source.moveBatch_forth i b)
    | destinationToSource => exact congrArg Except.ok (source.moveBatch_back i b)
  | @geolocated source destination step c hsource hstep h =>
    cases hj : destination.invert? with
    | none =>
      obtain ⟨f, hf⟩ := geolocated_eq_error (m := Outcome α) hj source.toBatchTransform
        (step.map (·.toBatchTransform))
      rw [hf] at h
      cases h
    | some j =>
      rw [geolocated_eq_ok hj] at h
      obtain rfl := Except.ok.inj h
      exact ⟨source, step, ⟨fun d n b => source.step_eq d b, rfl⟩, hmaps hsource.inverse hstep hj⟩

end Context

/-- **The two directions of a context undo each other.**  For numbers that compute exactly, a
context that was built from maps takes every batch in either direction and back again: all positions
are as before, and the flags of the way back are those of the way out. -/
theorem transform_there_and_back [ExactScalar α] {c : WarpContext α} (hc : c.OfMaps) (d : Direction)
    {n : Nat} (b : Batch α n) :
    ∃ out back, c.transform d b = .ok out ∧ c.transform d.opposite out = .ok back ∧
      ∀ i (_ : i < n), back[i].x = b[i].x ∧ back[i].y = b[i].y ∧ back[i].z = b[i].z ∧
        back[i].ok = out[i].ok := by
  obtain ⟨source, step, halong, hinverse⟩ := hc.exists_along
  refine ⟨_, _, halong.transform d b, halong.transform d.opposite _, fun i hi => ?_⟩
  have hround := CrsMap.travel_opposite hinverse d b[i] true
  simp only [Vector.getElem_map, hround]
  exact ⟨rfl, rfl, rfl, rfl⟩

/-- An eighth of a turn with an enlargement, of a square. -/
def CrsMap.slanted : CrsMap ℚ where
  forward := ⟨0, 1, -1, 0, 1, 1⟩
  inverse := ⟨0, 1 / 2, 1 / 2, 0, -1 / 2, 1 / 2⟩
  domain := some ⟨0, 0, 10, 10⟩

theorem CrsMap.made_slanted : CrsMap.slanted.Made := by
  have hinverse : (⟨0, 1, -1, 0, 1, 1⟩ : GeoTransform ℚ).invert?
      = some ⟨0, 1 / 2, 1 / 2, 0, -1 / 2, 1 / 2⟩ := by
    decide +kernel
  exact (Made.new (new_eq_ok hinverse)).validOn ⟨0, 0, 10, 10⟩

/-- Through the map and the exchanged map to a grid that is not turned. -/
def Context.slanted : WarpContext ℚ where
  source := .geolocation CrsMap.slanted.toBatchTransform
  reprojection := some CrsMap.slanted.reversed.toBatchTransform
  destination := ⟨10, 2, 0, 5, 0, -2⟩
  destinationInverse := ⟨-5, 1 / 2, 0, 5 / 2, 0, -1 / 2⟩

theorem Context.ofMaps_slanted : Context.slanted.OfMaps := by
  have hinverse : (⟨10, 2, 0, 5, 0, -2⟩ : GeoTransform ℚ).invert?
      = some ⟨-5, 1 / 2, 0, 5 / 2, 0, -1 / 2⟩ := by
    decide +kernel
  have hstep : ∀ t ∈ some CrsMap.slanted.reversed, t.Made := by
    intro t ht
    obtain rfl := Option.some.inj ht
    exact CrsMap.made_slanted.reversed
  exact .geolocated CrsMap.made_slanted hstep (geolocated_eq_ok hinverse _ _)

/-- **A point inside the square and one outside it** come back, and only the first is valid. -/
theorem transform_there_and_back_slanted :
    let c := Context.slanted
    let b : Batch ℚ 2 := #v[⟨5, 5, 0, false⟩, ⟨-4, 5, 0, false⟩]
    c.OfMaps ∧ ∃ out back, c.transform .sourceToDestination b = .ok out ∧
      c.transform .destinationToSource out = .ok back ∧ (out.get 1).x = -7 ∧
      (back.get 1).x = -4 ∧ (back.get 1).y = 5 ∧ (back.get 0).ok = true ∧
      (back.get 1).ok = false := by
  intro c b
  obtain ⟨out, back, hout, hback, hsame⟩ :=
    transform_there_and_back Context.ofMaps_slanted .sourceToDestination b
  have hseen : (c.transform .sourceToDestination b).toOption.map
      (fun out => (out[0].ok, out[1].ok, out[1].x)) = some (true, false, -7) := by
    decide +kernel
  rw [hout] at hseen
  obtain ⟨hfirst, hsecond, hplace⟩ := by
    simpa only [Except.toOption, Option.map_some, Option.some.injEq, Prod.mk.injEq] using hseen
  obtain ⟨-, -, -, hflag⟩ := hsame 0 (by decide)
  obtain ⟨hx, hy, -, hflag'⟩ := hsame 1 (by decide)
  exact ⟨Context.ofMaps_slanted, out, back, hout, hback, hplace, hx, hy, hflag.trans hfirst,
    hflag'.trans hsecond⟩

end RasterWarp
