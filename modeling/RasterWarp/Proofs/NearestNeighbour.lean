/-
# A warp between geotransforms is exact

Without geolocation arrays and without a destination system, a warp is a walk over the nominal grid:
take the center of a pixel to the source (`levelPosition`) and copy the pixel that lies there
(`Layer.under?`).  `warp_nearest` says that for numbers that compute exactly the output is that
walk, clipped to a window: every pixel of the grid that has a source pixel is in the window, and
the window holds nothing else than source pixels and no-data.

Three shortcuts have to be seen through: rows are interpolated, the window is cut to an extent that
a few points of the edge gave, and where an overview is read the geotransform is that of the
overview.
-/
import RasterWarp.Proofs.CoveredPixels
import RasterWarp.Proofs.Opening

namespace RasterWarp

open ExactScalar

variable {α : Type} [Scalar α]

/-! ## 1. The walk over the grid -/

/-- **Where the center of a pixel of the nominal grid lies on a level** of the source: the
destination's geotransform, then the inverse of the source's, then the reduction of the level. -/
def levelPosition (destination inverse : GeoTransform α) (full level : Nat × Nat) (i j : Nat) :
    α × α :=
  let p := destination.apply (Scalar.ofNat i + 0.5) (Scalar.ofNat j + 0.5)
  let q := inverse.apply p.1 p.2
  (q.1 / levelRatio full.1 level.1, q.2 / levelRatio full.2 level.2)

/-- **The pixel of a layer on which a position falls,** if it has one there. -/
def Layer.under? (l : Layer) (p : α × α) : Option (Nat × Nat) :=
  if 0 ≤ p.1 ∧ 0 ≤ p.2 ∧ Scalar.trunc (p.1 + 1e-10) < l.width ∧
      Scalar.trunc (p.2 + 1e-10) < l.height then
    some (Scalar.trunc (p.1 + 1e-10), Scalar.trunc (p.2 + 1e-10))
  else none

/-- The pixel under a point in good order is the one under its position. -/
theorem pixelUnder?_eq (l : Layer) {p : Point α} (hp : p.ok = true) :
    pixelUnder? l.grid p = l.under? (p.x, p.y) := by
  unfold pixelUnder? Layer.under?
  simp only [hp, Bool.true_and, Bool.and_eq_true, decide_eq_true_eq]
  by_cases hx : (0 : α) ≤ p.x
  · by_cases hy : (0 : α) ≤ p.y
    · simp only [hx, hy, true_and, and_self, if_true]
      rfl
    · simp only [hy, and_false, false_and, if_false]
  · simp only [hx, false_and, if_false]

/-- The sample of a window of an output at a pixel of the nominal grid. -/
def Output.sample? (o : Output) (i j : Nat) : Option Bytes :=
  o.data.piece? o.type.storage.size ((j - o.window.yOffset) * o.window.width
    + (i - o.window.xOffset))

/-- What belongs at a position: the pixel there in another type, or no data. -/
def Layer.nearest (l : Layer) (target : SampleType) (noData : Binary64) (p : α × α) : Bytes :=
  match l.under? p with
  | some (x, y) => convertSample l.type target (l.stored x y)
  | none => target.encode noData

/-! ## 2. The samples of a window -/

section Samples

variable [ExactScalar α]

variable {map inverse destination destinationInverse : GeoTransform α}

/-- **The reference sample of a pixel is the nearest one** of a layer whose blocks can all be
read. -/
theorem referenceSample_eq (l : Layer) (hl : l.failing = []) (tolerance : α) (w : Window)
    (target : SampleType) (noData : Binary64) {row col : Nat} (hcol : col < w.width) :
    referenceSample ((⟨⟨.affine map inverse, none, destination, destinationInverse⟩, tolerance⟩ :
        Approximation (Outcome α) α).transform .destinationToSource) w l target noData row col
      = l.nearest target noData (image destination inverse
          (Scalar.ofNat (w.xOffset + col) + 0.5) (Scalar.ofNat (w.yOffset + row) + 0.5)) := by
  have hrow := Approximation.transform_eq (a := ⟨⟨.affine map inverse, none, destination,
    destinationInverse⟩, tolerance⟩) rfl (w.rowCenters row)
  have hcenter : (w.rowCenters row : Batch α w.width)[col] = ⟨Scalar.ofNat (w.xOffset + col) + 0.5,
      Scalar.ofNat (w.yOffset + row) + 0.5, 0, false⟩ := by
    simp [Window.rowCenters, Window.center]
  have hsource : sourceUnder? ((⟨⟨.affine map inverse, none, destination, destinationInverse⟩,
      tolerance⟩ : Approximation (Outcome α) α).transform .destinationToSource) w l.grid row col
      = l.under? (image destination inverse (Scalar.ofNat (w.xOffset + col) + 0.5)
          (Scalar.ofNat (w.yOffset + row) + 0.5)) := by
    unfold sourceUnder?
    simp only [hrow]
    rw [Vector.getElem?_eq_getElem hcol, Option.bind_some, Vector.getElem_map, hcenter]
    exact pixelUnder?_eq l rfl
  unfold referenceSample Layer.nearest
  rw [hsource, hl]
  generalize l.under? (image destination inverse (Scalar.ofNat (w.xOffset + col) + 0.5)
    (Scalar.ofNat (w.yOffset + row) + 0.5)) = under
  cases under with
  | none => rfl
  | some xy => rfl

end Samples

/-! ## 3. Levels -/

section Levels

variable [ExactScalar α] {full level : Nat}

theorem value_levelRatio (full level : Nat) :
    value (levelRatio full level : α) = (full : ℝ) / level := by
  simp only [levelRatio, value_div, value_ofNat]

theorem value_levelRatio_pos (hfull : 0 < full) (hlevel : 0 < level) :
    0 < value (levelRatio full level : α) := by
  rw [value_levelRatio]
  exact div_pos (Nat.cast_pos.mpr hfull) (Nat.cast_pos.mpr hlevel)

/-- A source coordinate whose position on a level has a pixel lies inside the source. -/
theorem inside_of_position {q : α} (hfull : 0 < full) (hlevel : 0 < level)
    (hpos : 0 ≤ q / levelRatio full level)
    (hunder : Scalar.trunc (q / levelRatio full level + 1e-10) < level) :
    0 ≤ value q ∧ value q ≤ full := by
  have hratio := value_levelRatio_pos (α := α) hfull hlevel
  have hlevel' : (0 : ℝ) < level := Nat.cast_pos.mpr hlevel
  rw [le_iff, value_zero, value_div] at hpos
  rw [trunc_eq, Nat.floor_lt' hlevel.ne', value_add, value_div, value_ofScientific] at hunder
  norm_num at hunder
  have hnonneg : 0 ≤ value q := by
    rwa [le_div_iff₀ hratio, zero_mul] at hpos
  refine ⟨hnonneg, ?_⟩
  have hlt : value q / value (levelRatio full level : α) < level := by linarith
  rw [div_lt_iff₀ hratio, value_levelRatio, mul_div_cancel₀ _ hlevel'.ne'] at hlt
  exact hlt.le

/-- The full resolution is not reduced. -/
theorem div_levelRatio_self (hfull : 0 < full) (q : α) : q / levelRatio full full = q := by
  have hne : (full : ℝ) ≠ 0 := Nat.cast_ne_zero.mpr hfull.ne'
  refine value_injective ?_
  rw [value_div, value_levelRatio, div_self hne, div_one]

end Levels

/-! ## 4. What an affine source comes to -/

section Source

variable [ExactScalar α] {c : Config α} {o : Opened α} {inverse destinationInverse : GeoTransform α}
  (hsource : o.source.Inverse inverse) (hdestination : o.request.destination.Inverse destinationInverse)
  (hwidth : 0 < o.dataset.width) (hheight : 0 < o.dataset.height)

/-- The context of a source with a geotransform and without a step between systems. -/
def Opened.plainContext (o : Opened α) (inverse destinationInverse : GeoTransform α) :
    WarpContext α :=
  ⟨.affine o.source inverse, none, o.request.destination, destinationInverse⟩

/-- Where a pixel of the nominal grid lies on a level of an opened source. -/
def Opened.place (o : Opened α) (inverse : GeoTransform α) (layer : Layer) (i j : Nat) : α × α :=
  levelPosition o.request.destination inverse (o.dataset.width, o.dataset.height)
    (layer.width, layer.height) i j

include hsource hdestination hwidth hheight

/-- **A pixel that has a source pixel on some level is in the window:** its center is the image of a
place inside the source. -/
theorem window_holds {layer : Layer} (hlayer : 0 < layer.width ∧ 0 < layer.height) {i j : Nat}
    (hi : i < o.request.width) (hj : j < o.request.height)
    (hunder : (layer.under? (o.place inverse layer i j)).isSome) :
    (coveredWindow ((o.suggested (o.plainContext inverse destinationInverse)).map (·.extent))
      o.request.width o.request.height).Holds i j := by
  refine coveredWindow_contains hi hj fun e he => ?_
  obtain ⟨s, hs, rfl⟩ := Option.map_eq_some_iff.mp he
  have hof := Opened.ofRaster_of_suggested hs
  unfold Layer.under? at hunder
  split at hunder
  · rename_i hplace
    obtain ⟨hx, hy, hx', hy'⟩ := hplace
    obtain ⟨hq, hq'⟩ := inside_of_position hwidth hlayer.1 hx hx'
    obtain ⟨hr, hr'⟩ := inside_of_position hheight hlayer.2 hy hy'
    have hcontains := Suggestion.extent_contains hwidth hheight hof hq hq' hr hr'
    -- the way to the source and back ends at the center again
    have hcenter : ∀ x y, image o.source destinationInverse
        (image o.request.destination inverse x y).1 (image o.request.destination inverse x y).2
          = (x, y) := by
      intro x y
      unfold image
      simp only [hsource.right, hdestination.left]
    exact (congrArg (fun p => s.extent.contains p.1 p.2) (hcenter _ _)).symm.trans hcontains
  · cases hunder

omit hwidth hheight in
omit hsource hdestination in
/-- **The samples of a rendering are the nearest ones,** for a level whose inverse is that of the
source up to the reduction. -/
theorem Rendering.MadeOf.nearest {map levelInverse : GeoTransform α} {r : Rendering α}
    (hr : r.MadeOf c o
      ⟨.affine map levelInverse, none, o.request.destination, destinationInverse⟩)
    (hreadable : r.layer.failing = [])
    (hinverse : ∀ x y, levelInverse.apply x y
      = ((inverse.apply x y).1 / levelRatio o.dataset.width r.layer.width,
        (inverse.apply x y).2 / levelRatio o.dataset.height r.layer.height))
    {i j : Nat} (h : r.window.Holds i j) :
    r.scattered.output.piece? r.layer.type.warpedType.size
        ((j - r.window.yOffset) * r.window.width + (i - r.window.xOffset))
      = some (r.layer.nearest r.layer.type.warpedType r.noData (o.place inverse r.layer i j)) := by
  obtain ⟨hx, hx', hy, hy'⟩ := h
  have hi : r.window.xOffset + (i - r.window.xOffset) = i := by omega
  have hj : r.window.yOffset + (j - r.window.yOffset) = j := by omega
  rw [hr.piece?_output (show j - r.window.yOffset < _ by omega)
      (show i - r.window.xOffset < _ by omega),
    referenceSample_eq r.layer hreadable _ _ _ _ (by omega), hi, hj]
  unfold image
  rw [hinverse]
  rfl

end Source

/-! ## 5. The warp of a request -/

/-- **The walk over a grid, clipped to a window.**  Every pixel of the grid that has a source pixel
is in the window, and every pixel of the window holds its source pixel or no data. -/
structure Output.Nearest (output : Output) (layer : Layer) (place : Nat → Nat → α × α)
    (width height : Nat) : Prop where
  covered : ∀ i < width, ∀ j < height, (layer.under? (place i j)).isSome → output.window.Holds i j
  sample : ∀ i j, output.window.Holds i j →
    output.sample? i j = some (layer.nearest output.type.storage output.noData (place i j))

omit [Scalar α] in
/-- The samples of an output are of the type that the level is warped to. -/
theorem storage_output (r : Rendering α) (o : Opened α) (cached : Bool) :
    (r.output o cached).type.storage = r.layer.type.warpedType := by
  unfold Rendering.output
  simp only
  split
  · rename_i hsigned
    exact hsigned.1.symm
  · rfl

section Warp

variable {ε : Type} [Engine ε α] (c : Config α) (s : Shared ε α)

/-- **A warp without geolocation and without a destination system** has its context made at once,
and computes its output with it. -/
theorem Phase.result_plain {r : Request α} (hg : r.geolocation = none)
    (hcrs : r.destinationCrs? = none) {o : Opened α}
    (ho : (openSource c s.rasters r).1 = .ok o) (hr : o.request = r) {output : Output}
    (h : ((Phase.requested r).run c s).2.result? = some (.ok output)) :
    ∃ context rendering, Context.affine o.source none r.destination = .ok context ∧
      ((render c o context).run.run []).1 = .ok rendering ∧ output = rendering.output o false := by
  subst hr
  have hstep : Phase.step c s (.requested o.request)
      = ({ s with rasters := (openSource c s.rasters o.request).2 },
        Phase.acquire o false (attempt (Context.affine o.source none o.request.destination))) := by
    cases hopen : openSource c s.rasters o.request with
    | mk opening rasters =>
      rw [hopen] at ho
      obtain rfl : opening = .ok o := ho
      simp only [Phase.step, hopen, Phase.start, hg, hcrs]
      rfl
  cases hmade : Context.affine (m := Outcome α) o.source none o.request.destination with
  | error f =>
    rw [hmade] at hstep
    rw [Phase.run_of_finished hstep] at h
    cases h
  | ok context =>
    rw [hmade] at hstep
    rw [Phase.run_of_holding hstep, Phase.result_finish] at h
    cases hrendered : ((render c o context).run.run []).1 with
    | error e =>
      rw [hrendered] at h
      cases h
    | ok rendering =>
      rw [hrendered] at h
      cases h
      exact ⟨context, rendering, rfl, hrendered, rfl⟩

end Warp

section Levels

variable [ExactScalar α] {o : Opened α} {inverse destinationInverse : GeoTransform α}

/-- **A level of an opened source** that can be walked over: its pixels can all be read, and its
inverse is that of the source up to the reduction. -/
structure Opened.Walkable (o : Opened α) (inverse : GeoTransform α) (layer : Layer)
    (levelInverse : GeoTransform α) : Prop where
  sized : 0 < layer.width ∧ 0 < layer.height
  readable : layer.failing = []
  reduced : ∀ x y, levelInverse.apply x y
    = ((inverse.apply x y).1 / levelRatio o.dataset.width layer.width,
      (inverse.apply x y).2 / levelRatio o.dataset.height layer.height)

variable (destinationInverse) in
/-- **Every level that is read can be walked over,** if the band is as large as its dataset and its
levels have pixels that can be read. -/
theorem selects_walkable (hsource : o.source.Inverse inverse) (hwidth : 0 < o.dataset.width)
    (hheight : 0 < o.dataset.height)
    (hsame : o.band.full.width = o.dataset.width ∧ o.band.full.height = o.dataset.height)
    (hsized : ∀ b ∈ o.band.overviews, 0 < b.full.width ∧ 0 < b.full.height)
    (hfull : o.band.full.failing = []) (hoverviews : ∀ b ∈ o.band.overviews, b.full.failing = [])
    (c : Config α) :
    let context := o.plainContext inverse destinationInverse
    Fails (selectLevel o context (o.chosen c context)) .transformFailure ∨
      ∃ layer map levelInverse, o.band.level? (o.chosen c context) = some layer ∧
        Yields (selectLevel o context (o.chosen c context)) (layer,
          ⟨.affine map levelInverse, none, o.request.destination, destinationInverse⟩) ∧
        o.Walkable inverse layer levelInverse := by
  intro context
  cases hk : o.chosen c context with
  | none =>
    refine .inr ⟨o.band.full, o.source, inverse, rfl, selectLevel_full o context, ?_, hfull, ?_⟩
    · rw [hsame.1, hsame.2]
      exact ⟨hwidth, hheight⟩
    · intro x y
      rw [hsame.1, hsame.2, div_levelRatio_self hwidth, div_levelRatio_self hheight]
  | some k =>
    obtain ⟨-, b, hb⟩ := overviewFor_some hk
    have hmem : b ∈ o.band.overviews := List.mem_of_getElem? hb
    obtain ⟨hw, hh⟩ := hsized b hmem
    cases hinvert : (o.levelMap b.full).invert? with
    | none => exact .inl (selectLevel_singular hb hinvert)
    | some levelInverse =>
      have hbound := Context.setSource_eq_ok (c := context) rfl hinvert
      refine .inr ⟨b.full, _, levelInverse, ?_, selectLevel_overview hb hbound, ⟨hw, hh⟩,
        hoverviews b hmem, ?_⟩
      · unfold Band.level?
        simp only [hb, Option.map_some]
      · intro x y
        exact GeoTransform.inverse_scaled (value_levelRatio_pos hwidth hw).ne'
          (value_levelRatio_pos hheight hh).ne' hsource (GeoTransform.inverse_of_invert? hinvert) x y

end Levels

/-- **A warp between geotransforms is exact nearest neighbour, and clipping loses nothing.**  Take a
dataset with pixels, of the size of the band that is asked for, with overviews that have pixels and
without a block that cannot be read.  If a warp of a request without geolocation and without a
destination system has an output, then the output is the walk over the whole nominal grid: the
center of each pixel goes through the destination's geotransform and the inverse of the source's to
the level that was read, and where a pixel lies there, it is copied.  The samples are of the type to
which that level is warped, which is known; and what is not copied has the value that stands for no
data in the level, else in the band, else in the settings. -/
theorem warp_nearest [ExactScalar α] {ε : Type} [Engine ε α] (c : Config α) (s : Shared ε α)
    {r : Request α} (hband : r.band < Numeral.wordBound) (hgeolocation : r.geolocation = none)
    (hcrs : r.destinationCrs? = none) {d : Dataset α} (hd : s.rasters.find? r.path = some d)
    {b : Band} (hb : d.bands[r.band - 1]? = some b) (hwidth : 0 < d.width) (hheight : 0 < d.height)
    (hsame : b.full.width = d.width ∧ b.full.height = d.height)
    (hsized : ∀ o ∈ b.overviews, 0 < o.full.width ∧ 0 < o.full.height)
    (hfull : b.full.failing = []) (hoverviews : ∀ o ∈ b.overviews, o.full.failing = [])
    {output : Output}
    (houtput : ((Phase.requested r).run c s).2.result? = some (.ok output)) :
    ∃ layer inverse, b.level? output.metrics.overview = some layer ∧
      ((r.source <|> d.geoTransform).getD .identity).invert? = some inverse ∧
      ((r.source <|> d.geoTransform).getD .identity).Inverse inverse ∧
      layer.type ≠ .unknown ∧ output.type.storage = layer.type.warpedType ∧
      output.noData = (layer.noData <|> b.full.noData).getD c.fallbackNoData ∧
      output.Nearest layer (levelPosition r.destination inverse (d.width, d.height)
        (layer.width, layer.height)) r.width r.height := by
  obtain ⟨o, ho⟩ := Phase.exists_opened c s houtput
  obtain ⟨hserved, rfl⟩ := opened_of_ok c s.rasters hband hd hb ho
  obtain ⟨context, rendering, hmade, hrun, rfl⟩ := Phase.result_plain c s hgeolocation hcrs ho rfl
    houtput
  obtain ⟨inverse, destinationInverse, hinverse, hdestination, rfl⟩ :=
    Context.inverses_of_affine hmade
  have hsource := GeoTransform.inverse_of_invert? hinverse
  have hback := GeoTransform.inverse_of_invert? hdestination
  have htotal : ∀ m i : GeoTransform α, Context.Total
      ⟨.affine m i, none, r.destination, destinationInverse⟩ := fun m i =>
    Context.total_plain m i r.destination destinationInverse
  obtain ⟨hw, hh, -⟩ := Request.ne_zero_of_served hserved
  rcases selects_walkable destinationInverse hsource hwidth hheight hsame hsized hfull hoverviews c
    with hfails | ⟨layer, map, levelInverse, hlayer, hlevel, hwalkable⟩
  · exact absurd hrun (render_unselected (htotal _ _) hfails).not_ok
  · obtain ⟨log, hrendered⟩ := exists_log hrun
    obtain ⟨level, mid, hchosen, hmadeOf, hof⟩ := exists_chosen hrendered
    obtain rfl := (chooseLevel_yields (htotal _ _) hlevel).eq (congrArg Prod.fst hchosen)
    obtain rfl : rendering.layer = layer := hof.layer_eq
    have hstorage := storage_output rendering (r.opened c d b) false
    refine ⟨rendering.layer, inverse, hmadeOf.level_eq, hinverse, hsource, hmadeOf.known, hstorage,
      hmadeOf.noData_eq, fun i hi j hj hunder => ?_, fun i j h => ?_⟩
    · have hholds := window_holds hsource hback hwidth hheight hwalkable.sized hi hj hunder
      show rendering.window.Holds i j
      rw [hof.window_eq]
      exact hholds
    · have hsample := hmadeOf.nearest hwalkable.readable hwalkable.reduced h
      unfold Output.sample?
      rw [hstorage]
      exact hsample

/-- Samples that grow along the rows of a square. -/
def Layer.steps (n : Nat) : Layer := .ofFn n n .byte fun x y => .ofInt (n * y + x : Nat)

/-- A square with an overview. -/
def Band.terrace : Band := ⟨.steps 4, [⟨.steps 2, []⟩]⟩

/-- The square by itself. -/
def Registry.terrace : Registry ℚ :=
  Registry.empty.insert "terrace" (Dataset.ofBand .terrace)

/-- The square at half its resolution, turned by a right angle, on a grid that is larger. -/
def Request.turned : Request ℚ where
  path := "terrace"
  sourceCrs := none
  source := none
  geolocation := none
  destinationCrs := none
  destination := ⟨0, 0, 2, 4, -2, 0⟩
  width := 5
  height := 4
  band := 1
  srsCf := false

/-- The overview is read, and the pixels that are clipped off have no source pixel. -/
theorem warp_nearest_turned :
    let s : Shared (AffineEngine ℚ) ℚ := (System.start .terrace AffineEngine.empty 4 []).shared
    ∃ output, ((Phase.requested Request.turned).run .default s).2.result? = some (.ok output) ∧
      (output.metrics.overview, output.window) = (some 0, ⟨0, 0, 3, 3⟩) ∧
      ∃ layer inverse, Band.level? .terrace (some 0) = some layer ∧
        output.Nearest layer (levelPosition Request.turned.destination inverse (4, 4)
          (layer.width, layer.height)) 5 4 := by
  intro s
  have hevaluated : (((Phase.requested Request.turned).run .default s).2.result?.bind
      Except.toOption).map (fun o => (o.metrics.overview, o.window))
        = some (some 0, ⟨0, 0, 3, 3⟩) := by decide +kernel
  obtain ⟨output, hvalue, houtput⟩ := Option.map_eq_some_iff.mp hevaluated
  obtain ⟨result, hresult, hresult'⟩ := Option.bind_eq_some_iff.mp hvalue
  cases result with
  | error e => cases hresult'
  | ok output' =>
    obtain rfl : output' = output := Option.some.inj hresult'
    refine ⟨output', hresult, houtput, ?_⟩
    obtain ⟨layer, inverse, hlevel, -, -, -, -, -, hnearest⟩ :=
      warp_nearest .default s (r := .turned) (by decide) rfl rfl (d := Dataset.ofBand .terrace)
        rfl rfl (by decide) (by decide) (by decide) (by decide) (by decide) (by decide) hresult
    exact ⟨layer, inverse, (congrArg _ (congrArg Prod.fst houtput).symm).trans hlevel, hnearest⟩

end RasterWarp
