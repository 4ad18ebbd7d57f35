/-
# The extent that samples of a raster cover

A suggested grid covers a box, and the box comes of one or two calls of a context.  The first takes
the edge of the raster along; the second takes a grid of the interior, and is made only if a point
of the edge was not transformed (`Suggestion.Sampled`).  `Suggestion.ofRaster_tight` says what comes
of them:

* the extent is the tight box of the images of those points that were transformed, and it is finite;
* there is no suggestion if a transform fails as a whole, if nothing was transformed, or if the
  pixels of the grid would have no size or an infinite one, and for no other reason;
* points that were not transformed count for nothing: two rasters whose images are the same are
  given the same suggestion.

The context is any, and its calls may read and change a state (`Execution`), so that a call which is
not made leaves no trace in it.  The numbers are any that can be put in order (`OrderedScalar`),
doubles among them.
-/
import RasterWarp.Proofs.Doubles
import RasterWarp.Proofs.Rendering
import RasterWarp.Proofs.SegmentedRows

namespace RasterWarp

/-! ## 1. Calls that succeed and calls that fail -/

section Calls

variable {α β γ : Type}

/-- Of two calls one after the other the first fails, or the second. -/
theorem Outcome.bind_eq_error_iff {x : Outcome α β} {k : β → Outcome α γ}
    {i : Interrupt (Failure α)} :
    x >>= k = .error i ↔ x = .error i ∨ ∃ b, x = .ok b ∧ k b = .error i := by
  cases x with
  | ok b => simp
  | error j => simp

namespace Execution

variable {m : Type → Type} [Monad m] {σ : Type} (e : Execution m σ α)

/-- **What is raised is what a run ends with.** -/
def Raises [MonadExceptOf (Interrupt (Failure α)) m] : Prop :=
  ∀ {β : Type} (c : Cause α) (s : σ), e.run (c.raise : m β) s = .error (.failure c.failure)

variable {e} {x : m β} {k : β → m γ} {b : β} {s s' : σ} {i : Interrupt (Failure α)}

theorem run_bind_ok (h : e.run x s = .ok (b, s')) : e.run (x >>= k) s = e.run (k b) s' := by
  rw [e.run_bind, h]
  rfl

theorem run_bind_error (h : e.run x s = .error i) : e.run (x >>= k) s = .error i := by
  rw [e.run_bind, h]
  rfl

theorem run_map_ok [LawfulMonad m] (f : β → γ) (h : e.run x s = .ok (b, s')) :
    e.run (f <$> x) s = .ok (f b, s') := by
  rw [map_eq_pure_bind, run_bind_ok h, e.run_pure]

theorem run_map_error [LawfulMonad m] (f : β → γ) (h : e.run x s = .error i) :
    e.run (f <$> x) s = .error i := by
  rw [map_eq_pure_bind, run_bind_error h]

/-- A run of two calls succeeds only if both do, one after the other. -/
theorem exists_of_run_bind {c : γ} (h : e.run (x >>= k) s = .ok (c, s')) :
    ∃ b t, e.run x s = .ok (b, t) ∧ e.run (k b) t = .ok (c, s') := by
  rw [e.run_bind] at h
  obtain ⟨⟨b, t⟩, hx, hk⟩ := Outcome.exists_of_bind h
  exact ⟨b, t, hx, hk⟩

theorem run_bind_eq_error_iff : e.run (x >>= k) s = .error i ↔
    e.run x s = .error i ∨ ∃ b t, e.run x s = .ok (b, t) ∧ e.run (k b) t = .error i := by
  rw [e.run_bind, Outcome.bind_eq_error_iff, Prod.exists]

theorem run_pure_ne_error : e.run (pure b) s ≠ .error i := by
  rw [e.run_pure]
  exact fun h => nomatch h

end Execution

end Calls

/-! ## 2. Calls of a context -/

variable {m : Type → Type} [Monad m] {σ α : Type} [Scalar α]

/-- **The places of those points of a batch that were transformed.** -/
def Batch.placed {n : Nat} (b : Batch α n) : List (α × α) :=
  (b.toList.filter (·.ok)).map fun p => (p.x, p.y)

omit [Scalar α] in
theorem Batch.all_ok_iff {n : Nat} {b : Batch α n} :
    b.all (·.ok) = true ↔ ∀ p ∈ b.toList, p.ok = true := by
  rw [← Vector.all_toList, List.all_eq_true]

namespace Context

/-- **A call from source to destination that fails as a whole,** since a transform of the chain
does: the one at the source end, or the one between the coordinate systems after it. -/
inductive Fails (e : Execution m σ α) (c : Context m α) {n : Nat} (b : Batch α n) (s : σ)
    (i : Interrupt (Failure α)) : Prop
  | source {t : BatchTransform m α} (hsource : c.source = .geolocation t)
      (h : e.run (t.run .sourceToDestination b.fresh) s = .error i)
  | between {t : BatchTransform m α} (hstep : c.reprojection = some t) {moved : Batch α n} {s' : σ}
      (hmoved : e.run (c.sourceStep .sourceToDestination b.fresh) s = .ok (moved, s'))
      (h : e.run (t.run .sourceToDestination moved.fresh) s' = .error i)

variable {e : Execution m σ α} {c : Context m α} {n : Nat} {b : Batch α n} {s s' : σ}
  {i : Interrupt (Failure α)}

omit [Scalar α] in
/-- A step fails as a whole if its transform does. -/
theorem run_step_eq_error_iff {t : BatchTransform m α} {d : Direction} :
    e.run (t.step d b) s = .error i ↔ e.run (t.run d b.fresh) s = .error i := by
  unfold BatchTransform.step
  rw [Execution.run_bind_eq_error_iff]
  constructor
  · rintro (h | ⟨_, _, _, h⟩)
    · exact h
    · exact (Execution.run_pure_ne_error h).elim
  · exact .inl

theorem run_sourceStep_eq_error_iff : e.run (c.sourceStep .sourceToDestination b) s = .error i ↔
    ∃ t, c.source = .geolocation t ∧ e.run (t.run .sourceToDestination b.fresh) s = .error i := by
  unfold sourceStep
  cases c.source with
  | affine map inverse =>
    exact iff_of_false Execution.run_pure_ne_error fun ⟨_, h, _⟩ => nomatch h
  | geolocation t =>
    rw [run_step_eq_error_iff]
    exact ⟨fun h => ⟨t, rfl, h⟩, fun ⟨_, ht, h⟩ => (Georeference.geolocation.inj ht) ▸ h⟩

omit [Scalar α] in
theorem run_reprojectionStep_eq_error_iff :
    e.run (c.reprojectionStep .sourceToDestination b) s = .error i ↔
      ∃ t, c.reprojection = some t ∧ e.run (t.run .sourceToDestination b.fresh) s = .error i := by
  unfold reprojectionStep
  cases c.reprojection with
  | none => exact iff_of_false Execution.run_pure_ne_error fun ⟨_, h, _⟩ => nomatch h
  | some t =>
    rw [run_step_eq_error_iff]
    exact ⟨fun h => ⟨t, rfl, h⟩, fun ⟨_, ht, h⟩ => (Option.some.inj ht) ▸ h⟩

/-- **A call fails as a whole exactly if a transform of its chain does.** -/
theorem run_transform_eq_error_iff :
    e.run (c.transform .sourceToDestination b) s = .error i ↔ c.Fails e b s i := by
  have htransform : c.transform .sourceToDestination b =
      c.chain .sourceToDestination b.fresh >>= fun ends => pure (checkFinite ends) := rfl
  rw [htransform]
  unfold chain
  simp only [Execution.run_bind_eq_error_iff, Execution.run_pure_ne_error, and_false, exists_false,
    or_false, run_reprojectionStep_eq_error_iff, run_sourceStep_eq_error_iff, Batch.fresh_fresh]
  constructor
  · rintro (⟨t, hsource, h⟩ | ⟨moved, s', hmoved, t, hstep, h⟩)
    · exact .source hsource h
    · exact .between hstep hmoved h
  · rintro (⟨hsource, h⟩ | ⟨hstep, hmoved, h⟩)
    · exact .inl ⟨_, hsource, h⟩
    · exact .inr ⟨_, _, hmoved, _, hstep, h⟩

/-- **What was transformed is at a finite place.** -/
theorem finitePoints_placed {d : Direction} {images : Batch α n}
    (h : e.run (c.transform d b) s = .ok (images, s')) : Bounds.FinitePoints images.placed := by
  obtain ⟨ends, t, -, hpure⟩ := Execution.exists_of_run_bind h
  rw [e.run_pure] at hpure
  obtain ⟨rfl, -⟩ := Prod.mk.inj (Except.ok.inj hpure)
  intro p hp
  obtain ⟨q, hq, rfl⟩ := List.mem_map.mp hp
  obtain ⟨hq, hok⟩ := List.mem_filter.mp hq
  obtain ⟨q', -, rfl⟩ := Vector.mem_map.mp (Vector.mem_toList_iff.mp hq)
  simp only [Bool.and_eq_true] at hok
  exact ⟨hok.1.2, hok.2⟩

end Context

/-! ## 3. The box of two lists of points -/

namespace Suggestion

section Boxes

theorem joined_none (box : Option (Bounds α)) : joined box none = box := by
  cases box <;> rfl

variable [OrderedScalar α] {A B : List (α × α)}

/-- **The box around two boxes is that of all their points,** also where one of them has none. -/
theorem joined_ofPoints? (hA : Bounds.FinitePoints A) (hB : Bounds.FinitePoints B) :
    joined (Bounds.ofPoints? A) (Bounds.ofPoints? B) = Bounds.ofPoints? (A ++ B) := by
  cases A with
  | nil => rfl
  | cons p A =>
    cases B with
    | nil => rw [List.append_nil]; rfl
    | cons q B =>
      obtain ⟨hq, hB⟩ := List.forall_mem_cons.mp hB
      show some (_ : Bounds α) = some ((A ++ q :: B).foldl _ _)
      rw [List.foldl_append]
      exact congrArg some (Bounds.foldl_join hB ⟨hq.1, hq.2, hq.1, hq.2⟩).symm

end Boxes

/-! ## 4. Grids without a pixel size -/

/-- The size of pixels of which an extent has as many along the diagonal as the raster. -/
def resolution (raster : Nat × Nat) (extent : Bounds α) : α :=
  let width : α := Scalar.ofNat raster.1
  let height : α := Scalar.ofNat raster.2
  Scalar.sqrt ((extent.maxX - extent.minX) * (extent.maxX - extent.minX) +
    (extent.maxY - extent.minY) * (extent.maxY - extent.minY)) /
  Scalar.sqrt (width * width + height * height)

/-- **An extent whose pixels have no size, or an infinite or undefined one.** -/
def Degenerate (raster : Nat × Nat) (extent : Bounds α) : Prop :=
  (resolution raster extent == 0) = true ∨ Scalar.isFinite (resolution raster extent) = false

/-- The grid around what was transformed. -/
def around (raster : Nat × Nat) (placed : List (α × α)) : Outcome α (Suggestion α) :=
  ofBoxes (Scalar.ofNat raster.1) (Scalar.ofNat raster.2) (Bounds.ofPoints? placed) none

theorem extent_of_ofExtent? {width height : α} {extent : Bounds α} {g : Suggestion α}
    (h : ofExtent? width height extent = some g) : g.extent = extent := by
  unfold ofExtent? at h
  dsimp only at h
  split at h
  · obtain rfl := Option.some.inj h
    rfl
  · cases h

section Degenerate

variable [OrderedScalar α] {raster : Nat × Nat}

theorem ofExtent?_eq_none_iff {extent : Bounds α} :
    ofExtent? (Scalar.ofNat raster.1) (Scalar.ofNat raster.2) extent = none ↔
      Degenerate raster extent := by
  show (if (decide (0 < resolution raster extent) && Scalar.isFinite (resolution raster extent))
    = true then some _ else none) = none ↔ _
  unfold Degenerate
  cases hfin : Scalar.isFinite (resolution raster extent) with
  | false => simp
  | true =>
    have hneg : ¬resolution raster extent < 0 :=
      OrderedScalar.div_not_neg hfin (OrderedScalar.sqrt_not_neg _) (OrderedScalar.sqrt_not_neg _)
    simp [OrderedScalar.pos_iff hfin hneg]

/-- **What a grid comes to:** there is nothing to go around, the extent is degenerate, or the grid
has the extent. -/
theorem around_cases (raster : Nat × Nat) (placed : List (α × α)) :
    (placed = [] ∧ around raster placed = .error (.failure Cause.nothingTransformed.failure)) ∨
    (∃ extent, Bounds.ofPoints? placed = some extent ∧ Degenerate raster extent ∧
      around raster placed = .error (.failure (Cause.degenerateExtent extent).failure)) ∨
    ∃ g, Bounds.ofPoints? placed = some g.extent ∧ around raster placed = .ok g := by
  unfold around ofBoxes
  rw [joined_none]
  cases hbox : Bounds.ofPoints? placed with
  | none =>
    cases placed with
    | nil => exact .inl ⟨rfl, rfl⟩
    | cons p rest => cases hbox
  | some extent =>
    dsimp only
    cases hextent : ofExtent? (Scalar.ofNat raster.1) (Scalar.ofNat raster.2) extent with
    | none => exact .inr (.inl ⟨extent, rfl, ofExtent?_eq_none_iff.mp hextent, rfl⟩)
    | some g => exact .inr (.inr ⟨g, congrArg some (extent_of_ofExtent? hextent).symm, rfl⟩)

theorem around_degenerate {placed : List (α × α)} {extent : Bounds α}
    (hextent : Bounds.ofPoints? placed = some extent) (h : Degenerate raster extent) :
    around raster placed = .error (.failure (Cause.degenerateExtent extent).failure) := by
  unfold around ofBoxes
  rw [joined_none, hextent]
  dsimp only
  rw [ofExtent?_eq_none_iff.mpr h]
  rfl

end Degenerate

/-! ## 5. Samples -/

@[simp] theorem length_edgeSamples (width height : α) : (edgeSamples width height).length = 84 := by
  simp [edgeSamples, samples, List.length_flatMap]

@[simp] theorem length_interiorSamples (width height : α) :
    (interiorSamples width height).length = 21 * 21 := by
  simp [interiorSamples, samples, List.length_flatMap]

/-- In stretches of one length, what stands at a place of a stretch. -/
theorem getElem?_flatMap {β γ : Type} {f : β → List γ} {n : Nat} (hlength : ∀ b, (f b).length = n)
    {j : Nat} (hj : j < n) : ∀ (l : List β) (i : Nat),
    (l.flatMap f)[n * i + j]? = l[i]?.bind fun b => (f b)[j]?
  | [], i => by simp
  | b :: l, 0 => by
    rw [List.flatMap_cons, Nat.mul_zero, Nat.zero_add,
      List.getElem?_append_left (by rw [hlength]; exact hj), List.getElem?_cons_zero]
    rfl
  | b :: l, i + 1 => by
    have hplace : n * (i + 1) + j - (f b).length = n * i + j := by
      rw [hlength, Nat.mul_succ]
      omega
    have hbeyond : (f b).length ≤ n * (i + 1) + j := by
      rw [hlength, Nat.mul_succ]
      omega
    rw [List.flatMap_cons, List.getElem?_append_right hbeyond, hplace, getElem?_flatMap hlength hj,
      List.getElem?_cons_succ]

/-- **Where the samples of a raster are.**  Along each side of its edge there are 21, from corner to
corner, which makes 84 with the corners taken from both sides; and over the whole raster there are
21 rows of 21. -/
structure SamplesOf (width height : α) (edge interior : List (α × α)) : Prop where
  length_edge : edge.length = 84
  edge_at : ∀ i < 21,
    let x := Scalar.ofNat i * (1 / Scalar.ofNat 20) * width
    let y := Scalar.ofNat i * (1 / Scalar.ofNat 20) * height
    edge[4 * i]? = some (x, 0) ∧ edge[4 * i + 1]? = some (x, height) ∧
      edge[4 * i + 2]? = some (0, y) ∧ edge[4 * i + 3]? = some (width, y)
  length_interior : interior.length = 21 * 21
  interior_at : ∀ row < 21, ∀ col < 21, interior[21 * row + col]?
    = some (Scalar.ofNat col * (1 / Scalar.ofNat 20) * width,
        Scalar.ofNat row * (1 / Scalar.ofNat 20) * height)

theorem samplesOf (width height : α) :
    SamplesOf width height (edgeSamples width height) (interiorSamples width height) where
  length_edge := length_edgeSamples ..
  edge_at i hi := by
    have hat (j : Nat) (hj : j < 4) : (edgeSamples width height)[4 * i + j]?
        = (List.range samples)[i]?.bind fun i =>
          (let t : α := Scalar.ofNat i * step
          [(t * width, 0), (t * width, height), (0, t * height), (width, t * height)])[j]? := by
      unfold edgeSamples
      exact getElem?_flatMap (n := 4) (fun _ => rfl) hj _ _
    rw [samples, List.getElem?_range hi] at hat
    exact ⟨hat 0 (by decide), hat 1 (by decide), hat 2 (by decide), hat 3 (by decide)⟩
  length_interior := length_interiorSamples ..
  interior_at row hrow col hcol := by
    unfold interiorSamples samples
    rw [getElem?_flatMap (fun _ => by rw [List.length_map, List.length_range]) hcol,
      List.getElem?_range hrow, Option.bind_some, List.getElem?_map, List.getElem?_range hcol]
    rfl

/-- The samples of the edge of a raster, -/
def edge (raster : Nat × Nat) : List (α × α) :=
  edgeSamples (Scalar.ofNat raster.1) (Scalar.ofNat raster.2)

/-- and those of its interior. -/
def interior (raster : Nat × Nat) : List (α × α) :=
  interiorSamples (Scalar.ofNat raster.1) (Scalar.ofNat raster.2)

section Sampling

variable (e : Execution m σ α) (c : Context m α) (raster : Nat × Nat)

/-- A run of the call that takes points along. -/
def Taken (points : List (α × α)) (s : σ) (images : Batch α points.length) (s' : σ) : Prop :=
  e.run (c.transform .sourceToDestination (batchOf points)) s = .ok (images, s')

/-- **The images that a suggestion rests on,** and the state after the calls that they come from:
those of the edge, and those of the interior if a sample of the edge was not transformed. -/
inductive Sampled (s : σ) : List (α × α) → σ → Prop
  | edge {images : Batch α _} {s' : σ} (h : Taken e c (edge raster) s images s')
      (hall : ∀ p ∈ images.toList, p.ok = true) : Sampled s images.placed s'
  | interior {images : Batch α _} {t : σ} (h : Taken e c (edge raster) s images t)
      (hsome : ∃ p ∈ images.toList, p.ok = false) {inside : Batch α _} {s' : σ}
      (hinside : Taken e c (interior raster) t inside s') :
      Sampled s (images.placed ++ inside.placed) s'

/-- **Samples that cannot be taken along,** since a call fails as a whole. -/
inductive Unsampled (s : σ) (i : Interrupt (Failure α)) : Prop
  | edge (h : c.Fails e (batchOf (edge raster)) s i)
  | interior {images : Batch α _} {t : σ} (h : Taken e c (edge raster) s images t)
      (hsome : ∃ p ∈ images.toList, p.ok = false)
      (hinside : c.Fails e (batchOf (interior raster)) t i)

/-- **Why there is no suggestion:** the samples cannot be taken along, none of them is transformed,
or the extent is degenerate. -/
inductive Refused (s : σ) : Interrupt (Failure α) → Prop
  | unsampled {i : Interrupt (Failure α)} (h : Unsampled e c raster s i) : Refused s i
  | nowhere {s' : σ} (h : Sampled e c raster s [] s') :
      Refused s (.failure Cause.nothingTransformed.failure)
  | degenerate {placed : List (α × α)} {s' : σ} {extent : Bounds α}
      (h : Sampled e c raster s placed s') (hextent : Bounds.ofPoints? placed = some extent)
      (hsize : Degenerate raster extent) :
      Refused s (.failure (Cause.degenerateExtent extent).failure)

variable {e c raster} {s s' : σ}

/-- What was transformed is at finite places, wherever it comes from. -/
theorem Sampled.finitePoints {placed : List (α × α)} (h : Sampled e c raster s placed s') :
    Bounds.FinitePoints placed := by
  cases h with
  | edge h _ => exact Context.finitePoints_placed h
  | interior h _ hinside =>
    exact Bounds.finitePoints_append.mpr
      ⟨Context.finitePoints_placed h, Context.finitePoints_placed hinside⟩

/-- **Either the samples are taken along or a call fails.** -/
theorem sampled_or_unsampled (e : Execution m σ α) (c : Context m α) (raster : Nat × Nat) (s : σ) :
    (∃ placed s', Sampled e c raster s placed s') ∨ ∃ i, Unsampled e c raster s i := by
  cases hedge : e.run (c.transform .sourceToDestination (batchOf (edge raster))) s with
  | error i => exact .inr ⟨i, .edge (Context.run_transform_eq_error_iff.mp hedge)⟩
  | ok result =>
  obtain ⟨images, t⟩ := result
  by_cases hall : ∀ p ∈ images.toList, p.ok = true
  · exact .inl ⟨_, t, .edge hedge hall⟩
  · have hsome : ∃ p ∈ images.toList, p.ok = false := by simpa using hall
    cases hinside : e.run (c.transform .sourceToDestination (batchOf (interior raster))) t with
    | error i =>
      exact .inr ⟨i, .interior hedge hsome (Context.run_transform_eq_error_iff.mp hinside)⟩
    | ok result => exact .inl ⟨_, _, .interior hedge hsome hinside⟩

end Sampling

/-! ## 6. The runs of a suggestion -/

section Runs

variable {e : Execution m σ α} {c : Context m α} {s s' : σ}

/-- The box of what is transformed, and whether all is. -/
theorem run_cover {points : List (α × α)} {images : Batch α points.length}
    (h : Taken e c points s images s') :
    e.run (cover c points) s = .ok ((Bounds.ofPoints? images.placed, images.all (·.ok)), s') := by
  unfold cover
  rw [Execution.run_bind_ok h, e.run_pure]
  rfl

theorem run_cover_error {points : List (α × α)} {i : Interrupt (Failure α)}
    (h : c.Fails e (batchOf points) s i) : e.run (cover c points) s = .error i :=
  Execution.run_bind_error (Context.run_transform_eq_error_iff.mpr h)

variable [MonadExceptOf (Interrupt (Failure α)) m]

/-- The grid around two boxes, as a step of a run. -/
def close (raster : Nat × Nat) (edges inside : Option (Bounds α)) : m (Suggestion α) :=
  match joined edges inside with
  | none => Cause.raise (Cause.nothingTransformed (α := α))
  | some extent =>
    match ofExtent? (Scalar.ofNat raster.1) (Scalar.ofNat raster.2) extent with
    | some g => return g
    | none => Cause.raise (Cause.degenerateExtent extent)

theorem run_close (he : e.Raises) (raster : Nat × Nat) {edges inside : Option (Bounds α)}
    {placed : List (α × α)} (h : joined edges inside = Bounds.ofPoints? placed) (s : σ) :
    e.run (close raster edges inside) s = (around raster placed).map (·, s) := by
  unfold close around ofBoxes
  rw [joined_none, h]
  cases Bounds.ofPoints? placed with
  | none => exact he _ s
  | some extent =>
    dsimp only
    cases ofExtent? (Scalar.ofNat raster.1) (Scalar.ofNat raster.2) extent with
    | none => exact he _ s
    | some g => exact e.run_pure g s

variable [OrderedScalar α] {raster : Nat × Nat} (hwidth : 0 < raster.1) (hheight : 0 < raster.2)

include hwidth hheight

/-- A raster with both sides is judged by its edge, and by its interior where that is called for. -/
theorem ofRaster_eq : ofRaster raster c = cover c (edge raster) >>= fun (edges, complete) =>
    if complete then pure none >>= close raster edges
    else Prod.fst <$> cover c (interior raster) >>= close raster edges := by
  have hw : (0 : α) < Scalar.ofNat raster.1 := OrderedScalar.ofNat_pos hwidth
  have hh : (0 : α) < Scalar.ofNat raster.2 := OrderedScalar.ofNat_pos hheight
  unfold ofRaster
  simp only [hw, hh]
  rfl

variable [LawfulMonad m]

/-- **What is suggested rests on the images that were transformed,** and on nothing else. -/
theorem run_of_sampled (he : e.Raises) {placed : List (α × α)}
    (h : Sampled e c raster s placed s') :
    e.run (ofRaster raster c) s = (around raster placed).map (·, s') := by
  rw [ofRaster_eq hwidth hheight]
  cases h with
  | edge hedge hall =>
    rw [Execution.run_bind_ok (run_cover hedge)]
    dsimp only
    rw [if_pos (Batch.all_ok_iff.mpr hall), Execution.run_bind_ok (e.run_pure ..)]
    exact run_close he raster (joined_none _) s'
  | interior hedge hsome hinside =>
    have hboxes := joined_ofPoints? (Context.finitePoints_placed hedge)
      (Context.finitePoints_placed hinside)
    rw [Execution.run_bind_ok (run_cover hedge)]
    dsimp only
    rw [if_neg (Batch.all_ok_iff.not.mpr (by simpa using hsome)),
      Execution.run_bind_ok (Execution.run_map_ok _ (run_cover hinside))]
    exact run_close he raster hboxes s'

/-- **Where the samples cannot be taken along, there is no suggestion.** -/
theorem run_of_unsampled {i : Interrupt (Failure α)} (h : Unsampled e c raster s i) :
    e.run (ofRaster raster c) s = .error i := by
  rw [ofRaster_eq hwidth hheight]
  cases h with
  | edge hedge => exact Execution.run_bind_error (run_cover_error hedge)
  | interior hedge hsome hinside =>
    rw [Execution.run_bind_ok (run_cover hedge)]
    dsimp only
    rw [if_neg (Batch.all_ok_iff.not.mpr (by simpa using hsome))]
    exact Execution.run_bind_error (Execution.run_map_error _ (run_cover_error hinside))

/-- A suggestion that is made is around the images that were transformed. -/
theorem sampled_of_run_ok (he : e.Raises) {g : Suggestion α}
    (h : e.run (ofRaster raster c) s = .ok (g, s')) :
    ∃ placed, Sampled e c raster s placed s' ∧ Bounds.ofPoints? placed = some g.extent := by
  rcases sampled_or_unsampled e c raster s with ⟨placed, t, hsampled⟩ | ⟨i, hunsampled⟩
  · rw [run_of_sampled hwidth hheight he hsampled] at h
    rcases around_cases raster placed with ⟨-, hnone⟩ | ⟨_, -, -, hnone⟩ | ⟨g', hbox, hsome⟩
    · rw [hnone] at h
      cases h
    · rw [hnone] at h
      cases h
    · rw [hsome] at h
      obtain ⟨rfl, rfl⟩ := Prod.mk.inj (Except.ok.inj h)
      exact ⟨placed, hsampled, hbox⟩
  · rw [run_of_unsampled hwidth hheight hunsampled] at h
    cases h

/-- **There is no suggestion exactly where one is refused.** -/
theorem run_eq_error_iff (he : e.Raises) {i : Interrupt (Failure α)} :
    e.run (ofRaster raster c) s = .error i ↔ Refused e c raster s i := by
  constructor
  · intro h
    rcases sampled_or_unsampled e c raster s with ⟨placed, t, hsampled⟩ | ⟨j, hunsampled⟩
    · rw [run_of_sampled hwidth hheight he hsampled] at h
      rcases around_cases raster placed with ⟨rfl, hnone⟩ | ⟨extent, hbox, hsize, hnone⟩ |
        ⟨g, -, hsome⟩
      · rw [hnone] at h
        exact Except.error.inj h ▸ .nowhere hsampled
      · rw [hnone] at h
        exact Except.error.inj h ▸ .degenerate hsampled hbox hsize
      · rw [hsome] at h
        cases h
    · rw [run_of_unsampled hwidth hheight hunsampled] at h
      exact Except.error.inj h ▸ .unsampled hunsampled
  · rintro (h | h | ⟨h, hbox, hsize⟩)
    · exact run_of_unsampled hwidth hheight h
    · rw [run_of_sampled hwidth hheight he h]
      rfl
    · rw [run_of_sampled hwidth hheight he h, around_degenerate hbox hsize]
      rfl

/-- **The suggestion for a raster is around the tight box of what was transformed.**

The samples are 84 of the edge and 21 rows of 21 of the whole raster (`SamplesOf`).  A suggestion
that is made has the tight box of their images for its extent.  It is missing exactly for one of
three reasons.  And it is the same, or missing for the same reason, with another
context and from another state, if what is transformed of the samples comes to the same places: it
does not matter which samples are not transformed, nor what becomes of them. -/
theorem ofRaster_tight (he : e.Raises) :
    SamplesOf (Scalar.ofNat raster.1 : α) (Scalar.ofNat raster.2) (edge raster) (interior raster) ∧
    (∀ g s', e.run (ofRaster raster c) s = .ok (g, s') →
      ∃ placed, Sampled e c raster s placed s' ∧ g.extent.Tight placed ∧ g.extent.Finite ∧
        g.extent.minX ≤ g.extent.maxX ∧ g.extent.minY ≤ g.extent.maxY) ∧
    (∀ i, e.run (ofRaster raster c) s = .error i ↔ Refused e c raster s i) ∧
    ∀ (c' : Context m α) (placed : List (α × α)) (s' t t' : σ),
      Sampled e c raster s placed s' → Sampled e c' raster t placed t' →
      (e.run (ofRaster raster c) s).map Prod.fst = (e.run (ofRaster raster c') t).map Prod.fst := by
  refine ⟨samplesOf .., fun g s' h => ?_, fun i => run_eq_error_iff hwidth hheight he,
    fun c' placed s' t t' h h' => ?_⟩
  · obtain ⟨placed, hsampled, hbox⟩ := sampled_of_run_ok hwidth hheight he h
    have htight := Bounds.tight_ofPoints? hsampled.finitePoints hbox
    exact ⟨placed, hsampled, htight, htight.finite hsampled.finitePoints, htight.ordered⟩
  · rw [run_of_sampled hwidth hheight he h, run_of_sampled hwidth hheight he h']
    cases around raster placed <;> rfl

end Runs

end Suggestion

/-- Whatever is raised in calls with a state is what they end with. -/
theorem Execution.raises_stateful {σ α : Type} : (Execution.stateful (σ := σ) (α := α)).Raises :=
  fun _ _ => rfl

/-- The identity, with a step that counts its calls. -/
def Context.counting : Context (StateT Nat (Outcome ℚ)) ℚ where
  source := .affine .identity .identity
  reprojection := some ⟨fun _ _ b => do
    modify (· + 1)
    return b⟩
  destination := .identity
  destinationInverse := .identity

/-- A raster that is taken along as it is has the box of its corners, for one call. -/
theorem Suggestion.ofRaster_tight_identity : 0 < 100 ∧ 0 < 50 ∧ ∃ g placed,
    Execution.stateful.run (ofRaster (100, 50) Context.counting) 0 = .ok (g, 1) ∧
      g.extent = ⟨0, 0, 100, 50⟩ ∧ Sampled .stateful .counting (100, 50) 0 placed 1 ∧
      g.extent.Tight placed := by
  have hrun : (Execution.stateful.run (ofRaster (100, 50) Context.counting) 0).toOption.map
      (fun (g, calls) => (g.extent, calls)) = some (⟨0, 0, 100, 50⟩, 1) := by decide +kernel
  obtain ⟨⟨g, calls⟩, hg, heq⟩ := Option.map_eq_some_iff.mp hrun
  obtain ⟨hextent, rfl⟩ := Prod.mk.inj heq
  have hok := Outcome.eq_ok_of_toOption hg
  obtain ⟨placed, hsampled, htight, -⟩ :=
    (ofRaster_tight (by decide) (by decide) Execution.raises_stateful).2.1 g _ hok
  exact ⟨by decide, by decide, g, placed, hok, hextent, hsampled, htight⟩

end RasterWarp
