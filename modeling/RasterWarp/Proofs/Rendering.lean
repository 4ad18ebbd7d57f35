/-
# What rendering comes to

Rendering is a sequence of stages.  With a context none of whose calls fails, two of them are
certain: a suggestion never ends a warp, and the window is never empty.  What is left is whether the
level that was selected has a map with an inverse and a sample type that is known, and whether sizes
fit (`Layer.Fits`): if they do not, rendering may end in a fault, but only in one of a size
(`render_comesTo`, `render_unselected`).
-/
import RasterWarp.Proofs.BlockReads
import RasterWarp.Proofs.MadeContexts
import RasterWarp.Proofs.RenderedParts

namespace RasterWarp

/-! ## 1. The suggestion -/

section Suggestion

variable {α : Type} [Scalar α]

/-- The grid around what the samples of a raster cover. -/
def Suggestion.ofBoxes (width height : α) (edges inside : Option (Bounds α)) :
    Outcome α (Suggestion α) :=
  match joined edges inside with
  | none => Cause.raise (Cause.nothingTransformed (α := α))
  | some extent =>
    match ofExtent? width height extent with
    | some s => return s
    | none => Cause.raise (Cause.degenerateExtent extent)

theorem Suggestion.ofBoxes_cases (width height : α) (edges inside : Option (Bounds α)) :
    (∃ s, Suggestion.ofBoxes width height edges inside = .ok s) ∨
      ∃ f, Suggestion.ofBoxes width height edges inside = .error (.failure f) := by
  unfold ofBoxes
  split
  · exact .inr ⟨_, rfl⟩
  · split
    · exact .inl ⟨_, rfl⟩
    · exact .inr ⟨_, rfl⟩

variable {context : WarpContext α}

/-- A raster whose whole edge is transformed is judged by its edge, -/
theorem Suggestion.ofRaster_complete {raster : Nat × Nat}
    (hraster : ((0 : α) < Scalar.ofNat raster.1 && (0 : α) < Scalar.ofNat raster.2) = true)
    {edges : Option (Bounds α)}
    (hedges : Suggestion.cover context (edgeSamples (Scalar.ofNat raster.1) (Scalar.ofNat raster.2))
      = .ok (edges, true)) :
    Suggestion.ofRaster raster context
      = Suggestion.ofBoxes (Scalar.ofNat raster.1) (Scalar.ofNat raster.2) edges none := by
  unfold ofRaster
  simp only [hraster, hedges]
  rfl

/-- and any other one by points of its interior as well. -/
theorem Suggestion.ofRaster_partial {raster : Nat × Nat}
    (hraster : ((0 : α) < Scalar.ofNat raster.1 && (0 : α) < Scalar.ofNat raster.2) = true)
    {edges inside : Option (Bounds α)} {complete : Bool}
    (hedges : Suggestion.cover context (edgeSamples (Scalar.ofNat raster.1) (Scalar.ofNat raster.2))
      = .ok (edges, false))
    (hinside : Suggestion.cover context
      (interiorSamples (Scalar.ofNat raster.1) (Scalar.ofNat raster.2)) = .ok (inside, complete)) :
    Suggestion.ofRaster raster context
      = Suggestion.ofBoxes (Scalar.ofNat raster.1) (Scalar.ofNat raster.2) edges inside := by
  unfold ofRaster
  simp only [hraster, hedges, hinside]
  rfl

variable (h : context.Total)

include h

theorem Suggestion.cover_total (points : List (α × α)) :
    ∃ box complete, Suggestion.cover context points = .ok (box, complete) := by
  obtain ⟨images, himages⟩ := h .sourceToDestination (Suggestion.batchOf points)
  unfold Suggestion.cover
  rw [himages]
  exact ⟨_, _, rfl⟩

/-- **A suggestion may be wanting, but nothing goes out of place on the way.** -/
theorem Suggestion.ofRaster_cases (raster : Nat × Nat) :
    (∃ s, (Suggestion.ofRaster raster context : Outcome α (Suggestion α)) = .ok s) ∨
      ∃ f, (Suggestion.ofRaster raster context : Outcome α (Suggestion α))
        = .error (.failure f) := by
  obtain ⟨edges, complete, hedges⟩ := cover_total h
    (edgeSamples (Scalar.ofNat raster.1) (Scalar.ofNat raster.2))
  obtain ⟨inside, all, hinside⟩ := cover_total h
    (interiorSamples (Scalar.ofNat raster.1) (Scalar.ofNat raster.2))
  cases hraster : ((0 : α) < Scalar.ofNat raster.1 && (0 : α) < Scalar.ofNat raster.2) with
  | false =>
    unfold ofRaster
    simp only [hraster]
    exact .inr ⟨_, rfl⟩
  | true =>
    cases complete with
    | true =>
      rw [ofRaster_complete hraster hedges]
      exact ofBoxes_cases ..
    | false =>
      rw [ofRaster_partial hraster hedges hinside]
      exact ofBoxes_cases ..

/-- The grid that a source covers with a context, if it can be told. -/
def Opened.suggested (o : Opened α) (context : WarpContext α) : Option (Suggestion α) :=
  (Suggestion.ofRaster o.rasterSize context : Outcome α (Suggestion α)).toOption

omit h in
theorem Opened.ofRaster_of_suggested {o : Opened α} {s : Suggestion α}
    (hs : o.suggested context = some s) :
    Suggestion.ofRaster o.rasterSize context = (.ok s : Outcome α (Suggestion α)) := by
  unfold Opened.suggested at hs
  cases hcall : (Suggestion.ofRaster o.rasterSize context : Outcome α (Suggestion α)) with
  | error f =>
    rw [hcall] at hs
    cases hs
  | ok s' =>
    rw [hcall] at hs
    exact congrArg Except.ok (Option.some.inj hs)

/-- **A suggestion never ends a warp.** -/
theorem suggestion_yields (o : Opened α) :
    Yields (suggestion o context) (o.suggested context) := by
  unfold suggestion Opened.suggested
  rcases Suggestion.ofRaster_cases h o.rasterSize with ⟨s, hs⟩ | ⟨f, hf⟩
  · rw [hs]
    exact .pure _
  · rw [hf]
    exact (yields_note _).bind (.pure _)

end Suggestion

/-! ## 2. The level to read -/

section Levels

variable {α : Type} [Scalar α]

/-- Going through the levels ends at the one it started from or at a later one. -/
theorem scanLevels_lt {fullWidth : Nat} {target tolerance : α} :
    ∀ (widths : List Nat) {level : Option Nat} {current : α} {next k : Nat},
      scanLevels fullWidth target tolerance level current next widths = some k →
        level = some k ∨ (next ≤ k ∧ k < next + widths.length)
  | [], _, _, _, _, h => .inl h
  | width :: widths, level, current, next, k, h => by
    unfold scanLevels at h
    simp only at h
    split at h
    · exact .inl h
    · split at h
      · exact .inl h
      · rw [List.length_cons]
        rcases scanLevels_lt widths h with hnext | ⟨hle, hlt⟩
        · obtain rfl := Option.some.inj hnext
          exact .inr ⟨Nat.le_refl _, by omega⟩
        · exact .inr ⟨by omega, by omega⟩

/-- **The level that is chosen exists,** and the source it is read from has a geotransform. -/
theorem overviewFor_some {c : Config α} {o : Opened α} {context : WarpContext α}
    {suggested : Option (Suggestion α)} {k : Nat}
    (h : overviewFor c o context suggested = some k) :
    (∃ map inverse, context.source = .affine map inverse) ∧ ∃ b, o.band.overviews[k]? = some b := by
  unfold overviewFor at h
  split at h
  · cases h
  · rename_i hgeolocation
    refine ⟨?_, ?_⟩
    · unfold Context.hasGeolocation at hgeolocation
      cases hsource : context.source with
      | affine map inverse => exact ⟨map, inverse, rfl⟩
      | geolocation t => exact absurd (by rw [hsource]) hgeolocation
    · split at h
      · cases h
      · rcases scanLevels_lt _ h with hnone | ⟨-, hlt⟩
        · cases hnone
        · rw [Nat.zero_add, List.length_map] at hlt
          exact ⟨_, List.getElem?_eq_getElem hlt⟩

/-- The map of the source at one of its levels. -/
def Opened.levelMap (o : Opened α) (layer : Layer) : GeoTransform α :=
  o.source.scaled (levelRatio o.dataset.width layer.width)
    (levelRatio o.dataset.height layer.height)

theorem selectLevel_full (o : Opened α) (context : WarpContext α) :
    Yields (selectLevel o context none) (o.band.full, context) := .pure _

variable {o : Opened α} {context : WarpContext α} {k : Nat} {b : Band}
  (hb : o.band.overviews[k]? = some b)

include hb

omit [Scalar α] in
theorem Opened.overview_eq_ok : o.band.overview (α := α) k = .ok b := by
  unfold Band.overview
  rw [hb]

/-- **An overview is read with the source's map at that level,** -/
theorem selectLevel_overview {bound : WarpContext α}
    (hbound : context.setSource (o.levelMap b.full) = .ok bound) :
    Yields (selectLevel o context (some k)) (b.full, bound) := by
  have hat : atOverview context o.source o.rasterSize (b.full.width, b.full.height)
      = .ok (o.levelMap b.full, bound) := by
    unfold atOverview
    simp only [Opened.rasterSize]
    unfold Opened.levelMap at hbound
    rw [hbound]
    rfl
  unfold selectLevel
  simp only [Opened.overview_eq_ok hb]
  refine (yields_stage _ _).bind ?_
  simp only [hat]
  exact (yields_stage _ _).bind ((yields_note _).bind (.pure _))

/-- and not at all if that map has no inverse. -/
theorem selectLevel_singular (hsingular : (o.levelMap b.full).invert? = none) :
    Fails (selectLevel o context (some k)) .transformFailure := by
  obtain ⟨f, hf⟩ := context.setSource_eq_error hsingular
  have hat : ∃ f', atOverview context o.source o.rasterSize (b.full.width, b.full.height)
      = .error f' := by
    unfold atOverview
    simp only [Opened.rasterSize]
    unfold Opened.levelMap at hf
    rw [hf]
    exact ⟨_, rfl⟩
  obtain ⟨f', hat⟩ := hat
  unfold selectLevel
  simp only [Opened.overview_eq_ok hb]
  refine (yields_stage _ _).bind_fails ?_
  simp only [hat]
  exact (fails_stage _ _).bind _

end Levels

/-! ## 3. The window -/

section Sizes

/-- **Sizes for which a level can be warped** to a grid of some width and height. -/
structure Layer.Fits (l : Layer) (width height : Nat) : Prop where
  /-- The pixels of the level have numbers, -/
  raster : l.width * l.height ≤ Numeral.wordBound
  /-- and so have the samples of a block. -/
  block : l.grid.blockArea ≤ Numeral.wordBound
  /-- There are buffers of the size of a block, -/
  bytes : l.grid.blockBytes l.type.size < bufferBound
  /-- and the bytes of all blocks can be counted. -/
  blocks : l.grid.blockCount * l.grid.blockBytes l.type.size < Numeral.wordBound
  /-- There are buffers for the coordinates of a row of the grid, -/
  row : 8 * width < bufferBound
  /-- and one for its samples. -/
  output : width * height * l.type.warpedType.size < bufferBound

instance (l : Layer) (width height : Nat) : Decidable (l.Fits width height) :=
  decidable_of_iff (l.width * l.height ≤ Numeral.wordBound ∧
      l.grid.blockArea ≤ Numeral.wordBound ∧ l.grid.blockBytes l.type.size < bufferBound ∧
      l.grid.blockCount * l.grid.blockBytes l.type.size < Numeral.wordBound ∧
      8 * width < bufferBound ∧ width * height * l.type.warpedType.size < bufferBound)
    ⟨fun ⟨h₁, h₂, h₃, h₄, h₅, h₆⟩ => ⟨h₁, h₂, h₃, h₄, h₅, h₆⟩,
      fun h => ⟨h.raster, h.block, h.bytes, h.blocks, h.row, h.output⟩⟩

variable {l : Layer} {w : Window} {width height : Nat} (h : l.Fits width height)
  (hw : w.FitsIn width height)

theorem Window.FitsIn.isEmpty (hw : w.FitsIn width height) : w.isEmpty = false := by
  have hcolumns := hw.columns
  have hrows := hw.rows
  simp only [Window.isEmpty, Bool.or_eq_false_iff, beq_eq_false_iff_ne]
  omega

/-- A window is not larger than the grid that it is in. -/
theorem Window.FitsIn.area_le (hw : w.FitsIn width height) : w.area ≤ width * height :=
  Nat.mul_le_mul (Nat.le_trans (Nat.le_add_left ..) hw.right)
    (Nat.le_trans (Nat.le_add_left ..) hw.bottom)

include h in
/-- The bytes of blocks can be counted, -/
theorem Layer.Fits.exists_bytes (hknown : l.type ≠ .unknown) {n : Nat}
    (hn : n ≤ l.grid.blockCount) : ∃ bytes, l.grid.bytesOf? l.type.size n = some bytes := by
  have hroom := Tiling.room_of_lt hknown h.bytes
  have hblocks := Nat.mul_le_mul_right (l.grid.blockBytes l.type.size) hn
  exact ⟨_, l.grid.bytesOf?_eq_some_iff.mpr ⟨hroom.area,
    Nat.lt_of_lt_of_le hroom.bytes bufferBound_le_wordBound,
    Nat.lt_of_le_of_lt hblocks h.blocks, rfl⟩⟩

include h hw

/-- there is an output for the window, -/
theorem Layer.Fits.window :
    w.area < Numeral.wordBound ∧ w.area * l.type.warpedType.size < bufferBound := by
  have hsize := SampleType.size_pos l.type.warpedType_ne_unknown
  have houtput : w.area * l.type.warpedType.size < bufferBound :=
    Nat.lt_of_le_of_lt (Nat.mul_le_mul_right _ hw.area_le) h.output
  exact ⟨Nat.lt_of_le_of_lt (Nat.le_mul_of_pos_right _ hsize)
    (Nat.lt_of_lt_of_le houtput bufferBound_le_wordBound), houtput⟩

/-- and a plan. -/
theorem Layer.Fits.planFits : PlanFits w l.grid := by
  have hword := bufferBound_le_wordBound
  have hrow := h.row
  have hright := hw.right
  have hsize := SampleType.size_pos l.type.warpedType_ne_unknown
  have hheight : height ≤ width * height * l.type.warpedType.size :=
    Nat.le_trans (Nat.le_mul_of_pos_left height (by have := hw.columns; omega))
      (Nat.le_mul_of_pos_right _ hsize)
  have houtput := h.output
  have hbottom := hw.bottom
  constructor
  · omega
  · omega
  · omega
  · exact (h.window hw).1
  · exact h.raster
  · exact h.block

end Sizes

section Window

variable {α : Type} [Scalar α] {context : WarpContext α} (hcontext : context.Total)

include hcontext

/-- A row is taken back to the source without a fault. -/
theorem rows_in_place (tolerance : α) (w : Window) (row : Nat) (f : Fault) :
    (⟨context, tolerance⟩ : Approximation (Outcome α) α).transform .destinationToSource
      (w.rowCenters row) ≠ .error (.fault f) := by
  intro hfault
  obtain ⟨points, hpoints⟩ := Approximation.transform_total (a := ⟨context, tolerance⟩) hcontext
    .destinationToSource (w.rowCenters row)
  rw [hpoints] at hfault
  cases hfault

/-- **Every window with pixels has a plan,** if sizes fit. -/
theorem exists_plan (tolerance : α) {w : Window} (hw : w.isEmpty = false) {g : Tiling}
    (hfits : PlanFits w g) :
    ∃ plan notices, planReads ((⟨context, tolerance⟩ : Approximation (Outcome α) α).transform
        .destinationToSource) w g = .ok (plan, notices) :=
  (exists_planReads _ hw hfits).resolve_right fun ⟨row, _, f, hfault, _⟩ =>
    rows_in_place hcontext tolerance w row f hfault

variable {w : Window} {l : Layer} {width height : Nat}

/-- A window that has no plan, or -/
theorem plan_error {tolerance : α} {e : Interrupt (Failure α)} (hwindow : w.FitsIn width height)
    (hplan : planReads ((⟨context, tolerance⟩ : Approximation (Outcome α) α).transform
      .destinationToSource) w l.grid = .error e) :
    ∃ f : Fault, f.OfSize ∧ e = .fault f ∧ ¬ l.Fits width height := by
  obtain ⟨f, hf, rfl⟩ := planReads_upToSize hwindow.isEmpty
    (fun row _ => rows_in_place hcontext tolerance w row) e hplan
  refine ⟨f, hf, rfl, fun hfits => ?_⟩
  obtain ⟨plan, notices, hplanned⟩ :=
    exists_plan hcontext tolerance hwindow.isEmpty (hfits.planFits hwindow)
  rw [hplanned] at hplan
  cases hplan

omit hcontext [Scalar α] in
/-- no output, is of a size that does not fit; -/
theorem unreadOutput_error {noData : Binary64} {e : Interrupt (Failure α)}
    (hwindow : w.FitsIn width height)
    (hunread : unreadOutput w l.type.warpedType noData = .error e) :
    ∃ f : Fault, f.OfSize ∧ e = .fault f ∧ ¬ l.Fits width height := by
  obtain ⟨f, hf, rfl⟩ := unreadOutput_upToSize w _ _ e hunread
  refine ⟨f, hf, rfl, fun hfits => ?_⟩
  obtain ⟨harea, houtput⟩ := hfits.window hwindow
  rw [unreadOutput_eq_ok_iff.mpr ⟨harea, houtput, rfl⟩] at hunread
  cases hunread

omit hcontext in
/-- and where sizes fit the bytes of the blocks that were read are counted. -/
theorem exists_bytesRead {transform : {n : Nat} → Batch α n → Outcome α (Batch α n)}
    {plan : ReadPlan} (hp : plan.Partitions transform w l.grid) (hknown : l.type ≠ .unknown)
    {target : SampleType} {output : Bytes} {s : Scattering Layer α}
    (hs : scatterBlocks l l.grid plan.groups target output = .ok s) (hfits : l.Fits width height) :
    ∃ bytes, l.grid.bytesOf? l.type.size s.tally.read = some bytes := by
  have hcounted := (hp.reads hs).bounded
  exact hfits.exists_bytes hknown (by omega)

omit hcontext in
/-- **Blocks of known samples are scattered,** if there is room for one, and blocks of unknown
samples are refused. -/
theorem scatterBlocks_cases {transform : {n : Nat} → Batch α n → Outcome α (Batch α n)}
    {plan : ReadPlan} (hp : plan.Partitions transform w l.grid)
    {output : Bytes} (hlarge : w.area * l.type.warpedType.size ≤ output.size) :
    (l.type ≠ .unknown ∧ ∃ s : Scattering Layer α,
      scatterBlocks l l.grid plan.groups l.type.warpedType output = .ok s) ∨
    (l.type = .unknown ∧ ∃ f : Failure α,
      scatterBlocks l l.grid plan.groups l.type.warpedType output = .error (.failure f)) ∨
    (bufferBound ≤ l.grid.blockBytes l.type.size ∧ ∃ f : Fault, f.OfSize ∧
      scatterBlocks (α := α) l l.grid plan.groups l.type.warpedType output
        = .error (.fault f)) := by
  by_cases hknown : l.type = .unknown
  · have hsize : (BlockSource.type l).size = 0 := congrArg SampleType.size hknown
    refine .inr (.inl ⟨hknown, Cause.failure .unknownBandType, ?_⟩)
    unfold scatterBlocks scatterRefusal?
    simp only [if_pos hsize]
  · by_cases hroom : l.grid.RoomFor l.type.size plan.groups
    · obtain ⟨s, hs, -⟩ := scatterBlocks_eq hp hlarge (layer_steady α l) hroom hknown
        l.type.warpedType_ne_unknown
      exact .inl ⟨hknown, s, hs⟩
    · refine .inr (.inr ⟨Nat.le_of_not_lt fun hbytes => hroom ?_, ?_⟩)
      · exact (Tiling.room_of_lt hknown hbytes).roomFor plan.groups
      · exact scatterBlocks_of_not_roomFor l
          (hp.not_refused hlarge hknown l.type.warpedType_ne_unknown)
          (fun q hq => (hp.placed hq).2) hroom

variable (c : Config α) {o : Opened α} (hw : o.request.width ≠ 0) (hh : o.request.height ≠ 0)

include hw hh

/-- **What rendering a level comes to:** a level of known samples is read and one of unknown samples
fails, unless its sizes do not fit. -/
theorem renderLevel_comesTo (suggested : Option (Suggestion α)) (overview : Option Nat)
    (layer : Layer) :
    ComesTo (layer.type ≠ .unknown) (layer.Fits o.request.width o.request.height) .readFailure
      (renderLevel c o ⟨suggested, overview, layer, context⟩) := by
  have hwindow := coveredWindow_fits (suggested.map (·.extent)) (Nat.pos_of_ne_zero hw)
    (Nat.pos_of_ne_zero hh)
  unfold renderLevel
  simp only
  generalize coveredWindow (suggested.map (·.extent)) o.request.width o.request.height = w
    at hwindow ⊢
  cases hplan : planReads ((⟨context, c.approxTolerance⟩ : Approximation (Outcome α) α).transform
      .destinationToSource) w layer.grid with
  | error e =>
    obtain ⟨f, hf, rfl, hsizes⟩ := plan_error hcontext hwindow hplan
    exact comesTo_of_fault hf rfl hsizes _
  | ok planned =>
    obtain ⟨plan, notices⟩ := planned
    have hp := partitions_of_planReads hplan
    refine (yields_stage _ _).bind_comesTo ((yields_note _).bind_comesTo ?_)
    simp only
    cases hunread : (unreadOutput w layer.type.warpedType (noDataOf c o layer) :
        Outcome α Bytes) with
    | error e =>
      obtain ⟨f, hf, rfl, hsizes⟩ := unreadOutput_error hwindow hunread
      exact comesTo_of_fault hf rfl hsizes _
    | ok unread =>
      have hlarge : w.area * layer.type.warpedType.size ≤ unread.size := by
        obtain ⟨-, -, rfl⟩ := unreadOutput_eq_ok_iff.mp hunread
        rw [SampleType.size_fill, Bytes.size_zeros]
      refine (yields_stage _ _).bind_comesTo ?_
      rcases scatterBlocks_cases hp hlarge with
        ⟨hknown, s, hs⟩ | ⟨hunknown, f, hs⟩ | ⟨hbytes, f, hf, hs⟩
      · simp only [hs]
        refine (yields_stage _ _).bind_comesTo ((yields_note _).bind_comesTo ?_)
        cases hread : layer.grid.bytesOf? layer.type.size s.tally.read with
        | some n => exact .inl ⟨hknown, _, (yields_stage _ _).bind (.pure _)⟩
        | none =>
          refine comesTo_of_fault (.inl rfl) rfl (fun hfits => ?_) _
          obtain ⟨bytes, hbytes⟩ := exists_bytesRead hp hknown hs hfits
          rw [hbytes] at hread
          cases hread
      · simp only [hs]
        exact .inr (.inl ⟨not_not.mpr hunknown, (fails_stage _ _).bind _⟩)
      · simp only [hs]
        exact comesTo_of_fault hf rfl (fun hfits => Nat.not_lt.mpr hbytes hfits.bytes) _

omit hcontext hw hh in
/-- A plan for a level of known samples can be rendered, if sizes fit. -/
theorem exists_rendering {bound : WarpContext α} {overview : Option Nat} {layer : Layer}
    {plan : ReadPlan} {notices : List (Notice α)}
    (hlevel : o.band.level? overview = some layer) (hknown : layer.type ≠ .unknown)
    (hfits : layer.Fits width height) (hwindow : w.FitsIn width height) (hplan : planReads
      ((⟨bound, c.approxTolerance⟩ : Approximation (Outcome α) α).transform .destinationToSource)
      w layer.grid = .ok (plan, notices)) :
    ∃ r : Rendering α, r.MadeOf c o bound ∧ r.window = w ∧ r.layer = layer := by
  have hp := partitions_of_planReads hplan
  obtain ⟨harea, houtput⟩ := hfits.window hwindow
  have hsize : (layer.type.warpedType.fill (Bytes.zeros (w.area * layer.type.warpedType.size))
      (noDataOf c o layer)).size = w.area * layer.type.warpedType.size := by
    rw [SampleType.size_fill, Bytes.size_zeros]
  obtain ⟨s, hs, -⟩ := scatterBlocks_eq hp (Nat.le_of_eq hsize.symm) (layer_steady α layer)
    ((Tiling.room_of_lt hknown hfits.bytes).roomFor plan.groups) hknown
    layer.type.warpedType_ne_unknown
  obtain ⟨bytes, hbytes⟩ := exists_bytesRead hp hknown hs hfits
  exact ⟨⟨overview, layer, w, plan, noDataOf c o layer, s, bytes⟩,
    ⟨hlevel, rfl, ⟨notices, hplan⟩, unreadOutput_eq_ok_iff.mpr ⟨harea, houtput, rfl⟩, hs, hbytes⟩,
    rfl, rfl⟩

end Window

/-! ## 4. Rendering as a whole -/

section Whole

variable {α : Type} [Scalar α] {c : Config α} {o : Opened α} {context bound : WarpContext α}
  {layer : Layer} (hcontext : context.Total)

/-- The overview that is read with a context, if any. -/
def Opened.chosen (o : Opened α) (c : Config α) (context : WarpContext α) : Option Nat :=
  overviewFor c o context (o.suggested context)

include hcontext

/-- A level that is selected is the one chosen for what the source covers, -/
theorem chooseLevel_yields
    (hlevel : Yields (selectLevel o context (o.chosen c context)) (layer, bound)) :
    Yields (chooseLevel c o context)
      ⟨o.suggested context, o.chosen c context, layer, bound⟩ :=
  (suggestion_yields hcontext o).bind (hlevel.bind (.pure _))

/-- **and rendering comes to what rendering that level does.** -/
theorem render_comesTo (hw : o.request.width ≠ 0) (hh : o.request.height ≠ 0)
    (hlevel : Yields (selectLevel o context (o.chosen c context)) (layer, bound))
    (hbound : bound.Total) :
    ComesTo (layer.type ≠ .unknown) (layer.Fits o.request.width o.request.height) .readFailure
      (render c o context) :=
  (chooseLevel_yields hcontext hlevel).bind_comesTo (renderLevel_comesTo hbound c hw hh ..)

/-- No window is computed if no level could be selected. -/
theorem render_unselected {s : Status}
    (hlevel : Fails (selectLevel o context (o.chosen c context)) s) :
    Fails (render c o context) s := by
  rw [render_eq]
  exact (suggestion_yields hcontext o).bind_fails (hlevel.bind _)

end Whole
end RasterWarp
