/-
# Counts of reads do not matter

A layer counts the blocks that were read from it, and warps that follow each other find other
counts there.  Nothing else of a warp depends on them: scattering from a layer with more reads
counted is scattering from the layer and counting more reads (`scatterBlocks_credit`), and so an
opened source and the same source with its counts at zero give the same output
(`output_unread`).
-/
import RasterWarp.Proofs.Entries
import RasterWarp.Warp.Stages

namespace RasterWarp

/-! ## 1. Layers with other counts -/

namespace Layer

variable {α : Type} (l : Layer) (n : Nat)

/-- The layer as if nothing had been read from it. -/
def unread : Layer := { l with reads := 0 }

/-- Every layer is the unread one with its reads counted. -/
theorem credit_unread : l.unread.credit l.reads = l := by
  unfold unread credit
  rw [Nat.zero_add]

/-- Reading a block of a layer with more reads counted. -/
theorem credit_fetch (x y : Nat) (buffer : Bytes) :
    (l.credit n).fetch (α := α) x y buffer
      = (l.fetch x y buffer).map fun (block, l') => (block, l'.credit n) := by
  unfold fetch
  simp only [show (l.credit n).copyBlock x y (Bytes.zeros buffer.size)
    = l.copyBlock x y (Bytes.zeros buffer.size) from rfl, show (l.credit n).grid = l.grid from rfl]
  unfold credit
  simp only
  split
  · rfl
  · cases l.grid.blockBytes? l.type.size with
    | none => rfl
    | some size =>
      simp only [inWord_some, Outcome.ok_bind]
      split
      · rfl
      · split
        · rfl
        · cases l.copyBlock x y (Bytes.zeros buffer.size) with
          | none => rfl
          | some block =>
            rw [inRange_some, Outcome.ok_bind, Outcome.ok_bind, Nat.add_right_comm]
            rfl

end Layer

/-! ## 2. Scattering -/

section Scattering

variable {α : Type}

/-- The same blocks written, from a layer with more reads counted. -/
def Scattering.credit (n : Nat) (s : Scattering Layer α) : Scattering Layer α :=
  { s with source := s.source.credit n }

theorem scatterBlock_credit (g : Tiling) (target : SampleType) (n : Nat)
    (s : Scattering Layer α) (index : Nat) (pixels : PixelGroup) :
    scatterBlock g target (s.credit n) index pixels
      = (scatterBlock g target s index pixels).map (·.credit n) := by
  unfold scatterBlock
  cases g.position? index with
  | none => rfl
  | some xy =>
    have htype : BlockSource.type (s.credit n).source = BlockSource.type s.source := rfl
    simp only [htype]
    cases blank (α := α) (g.blockBytes (BlockSource.type s.source).size) with
    | error e => rfl
    | ok buffer =>
      have hfetch : BlockSource.fetch (α := α) (s.credit n).source xy.1 xy.2 buffer
          = (BlockSource.fetch s.source xy.1 xy.2 buffer).map
            fun (block, l) => (block, l.credit n) := s.source.credit_fetch ..
      simp only [Outcome.ok_bind, hfetch]
      cases BlockSource.fetch (α := α) s.source xy.1 xy.2 buffer with
      | error e => cases e <;> rfl
      | ok read =>
        have hwritten : transferBlock (α := α) g (BlockSource.type s.source) target read.1
            pixels (s.credit n).output
          = transferBlock g (BlockSource.type s.source) target read.1 pixels s.output := rfl
        simp only [Except.map, hwritten]
        cases transferBlock (α := α) g (BlockSource.type s.source) target read.1 pixels
          s.output <;> rfl

theorem scatterGroups_credit (g : Tiling) (target : SampleType) (n : Nat) :
    ∀ (groups : PixelGroups) (s : Scattering Layer α),
      groups.foldlM (fun s (index, pixels) => scatterBlock g target s index pixels) (s.credit n)
        = (groups.foldlM (fun s (index, pixels) => scatterBlock g target s index pixels) s).map
          (Scattering.credit n)
  | [], _ => rfl
  | (index, pixels) :: groups, s => by
    rw [List.foldlM_cons, List.foldlM_cons]
    simp only [scatterBlock_credit]
    cases scatterBlock g target s index pixels with
    | error e => rfl
    | ok next => exact scatterGroups_credit g target n groups next

/-- **Scattering from a layer with more reads counted** writes the same, and counts more reads. -/
theorem scatterBlocks_credit (l : Layer) (n : Nat) (g : Tiling) (groups : PixelGroups)
    (target : SampleType) (output : Bytes) :
    scatterBlocks (α := α) (l.credit n) g groups target output
      = (scatterBlocks l g groups target output).map (·.credit n) := by
  unfold scatterBlocks
  have htype : BlockSource.type (l.credit n) = BlockSource.type l := rfl
  simp only [htype]
  cases scatterRefusal? (α := α) (BlockSource.type l) target groups output.size with
  | some e => rfl
  | none =>
    cases g.blockBytes? (BlockSource.type l).size with
    | none => rfl
    | some size =>
      simp only [inWord_some, Outcome.ok_bind]
      exact scatterGroups_credit g target n groups ⟨l, output, []⟩

end Scattering

/-! ## 3. Rendering -/

/-- The band with the counts of all levels that a warp can read at zero. -/
def Band.unread (b : Band) : Band :=
  ⟨b.full.unread, b.overviews.map fun o => { o with full := o.full.unread }⟩

namespace Dataset

variable {α : Type}

def unread (d : Dataset α) : Dataset α := { d with bands := d.bands.map Band.unread }

end Dataset

/-- An opened source with its counts at zero. -/
def Opened.unread {α : Type} (o : Opened α) : Opened α :=
  { o with dataset := o.dataset.unread, band := o.band.unread }

section Render

variable {α : Type} [Scalar α]

/-- A rendering chooses a level and computes the window from it. -/
theorem render_eq (c : Config α) (o : Opened α) (context : WarpContext α) :
    render c o context = suggestion o context >>= fun suggested =>
      selectLevel o context (overviewFor c o context suggested) >>= fun level =>
        renderLevel c o ⟨suggested, overviewFor c o context suggested, level.1, level.2⟩ := by
  simp only [render, chooseLevel, bind_assoc, pure_bind]

/-- The same window, read from a level with more reads counted. -/
def Rendering.credit (n : Nat) (r : Rendering α) : Rendering α :=
  { r with layer := r.layer.credit n, scattered := r.scattered.credit n }

omit [Scalar α] in
theorem stage_map {β γ : Type} (s : Status) (f : β → γ) (x : Outcome α β) :
    stage s (x.map f) = f <$> stage s x := by
  cases x <;> rfl

omit [Scalar α] in
theorem during_map {β γ : Type} (t : Task α) (f : β → γ) (x : Outcome α β) :
    Outcome.during t (x.map f) = (Outcome.during t x).map f := by
  cases x <;> rfl

theorem renderLevel_credit (c : Config α) (o : Opened α) (level : ChosenLevel α) (n : Nat) :
    renderLevel c o { level with layer := level.layer.credit n }
      = Rendering.credit n <$> renderLevel c o.unread level := by
  unfold renderLevel
  simp only [map_bind, scatterBlocks_credit, during_map, stage_map, map_pure]
  simp only [bind_map_left]
  rfl

theorem overviewFor_unread (c : Config α) (o : Opened α) (context : WarpContext α)
    (suggested : Option (Suggestion α)) :
    overviewFor c o.unread context suggested = overviewFor c o context suggested := by
  have hwidths : o.unread.band.overviews.map (·.full.width)
      = o.band.overviews.map (·.full.width) := List.map_map ..
  unfold overviewFor
  rw [hwidths]
  rfl

/-- The level selected from a source is the one selected from the unread source, with the reads
that the source has counted for it. -/
theorem selectLevel_unread (o : Opened α) (context : WarpContext α) (overview : Option Nat) :
    ∃ n, selectLevel o context overview
      = (fun level => (level.1.credit n, level.2)) <$> selectLevel o.unread context overview := by
  cases overview with
  | none =>
    refine ⟨o.band.full.reads, ?_⟩
    show pure (o.band.full, context) = pure (o.band.full.unread.credit o.band.full.reads, context)
    rw [Layer.credit_unread]
  | some i =>
    unfold selectLevel Band.overview
    have hget : o.unread.band.overviews[i]?
        = o.band.overviews[i]?.map fun b => { b with full := b.full.unread } := List.getElem?_map
    have hlength : o.unread.band.overviews.length = o.band.overviews.length :=
      List.length_map ..
    simp only [hget, hlength]
    cases o.band.overviews[i]? with
    | none => exact ⟨0, rfl⟩
    | some b =>
      refine ⟨b.full.reads, ?_⟩
      have hfound : ∀ b : Band, stage .bandNotFound (Outcome.during .selectingOverview
          (attempt (.ok b))) = (pure b : Noting α Band) := fun _ => rfl
      simp only [Option.map_some, hfound, pure_bind, map_bind, map_pure]
      rw [Layer.credit_unread]
      rfl

/-- **Counts of reads do not show in an output.** -/
theorem output_unread (c : Config α) (o : Opened α) (context : WarpContext α) (cached : Bool) :
    (fun r => r.output o.unread cached) <$> render c o.unread context
      = (fun r => r.output o cached) <$> render c o context := by
  simp only [render_eq, map_bind, overviewFor_unread]
  refine bind_congr fun suggested => ?_
  obtain ⟨n, hn⟩ := selectLevel_unread o context (overviewFor c o context suggested)
  rw [hn, bind_map_left]
  refine bind_congr fun level => ?_
  rw [renderLevel_credit c o ⟨suggested, _, level.1, level.2⟩ n, Functor.map_map]
  rfl

end Render

/-! ## 4. Opening -/

theorem map_modify {β γ : Type} {f : β → γ} {g : β → β} (h : ∀ b, f (g b) = f b) (l : List β)
    (i : Nat) : (l.modify i g).map f = l.map f := by
  refine List.ext_getElem? fun j => ?_
  rw [List.getElem?_map, List.getElem?_map, List.getElem?_modify]
  cases l[j]? with
  | none => rfl
  | some b =>
    simp only [Option.map_some, Option.map_eq_map]
    split
    · rw [h]
    · rfl

theorem Band.unread_credit (b : Band) (level : Option Nat) (n : Nat) :
    (b.credit level n).unread = b.unread := by
  cases level with
  | none => rfl
  | some i =>
    have hlevels := map_modify (f := fun o : Band => ({ o with full := o.full.unread } : Band))
      (g := fun o => { o with full := o.full.credit n }) (fun _ => rfl) b.overviews i
    exact congrArg (Band.mk b.full.unread) hlevels

section Opening

variable {α : Type}

/-- What is seen under a path, up to counts of reads. -/
def Registry.showing (rasters : Registry α) (path : String) : Option (Dataset α) :=
  (rasters.find? path).map Dataset.unread

/-- Counting reads finds the dataset under each path again, with its bands counted anew if it is
the path in question. -/
theorem Registry.find?_credit (rasters : Registry α) (path path' : String) (position : Nat)
    (level : Option Nat) (n : Nat) : (rasters.credit path position level n).find? path'
      = (rasters.find? path').map fun d =>
          if path' = path then
            { d with bands := d.bands.modify (position - 1) (·.credit level n) }
          else d :=
  lookup_map_entry path
    (fun d : Dataset α => { d with bands := d.bands.modify (position - 1) (·.credit level n) })
    rasters.datasets path'

theorem Registry.showing_credit (rasters : Registry α) (path path' : String) (position : Nat)
    (level : Option Nat) (n : Nat) :
    (rasters.credit path' position level n).showing path = rasters.showing path := by
  unfold showing
  rw [find?_credit, Option.map_map]
  congr 1
  funext d
  rw [Function.comp_apply]
  split
  · exact congrArg (fun bands => ({ d with bands } : Dataset α))
      (map_modify (fun b => b.unread_credit level n) d.bands (position - 1))
  · rfl

/-- Registering a dataset changes what is found under its own path only. -/
theorem Registry.find?_insert (rasters : Registry α) (path path' : String) (d : Dataset α) :
    (rasters.insert path' d).find? path = if path = path' then some d else rasters.find? path := by
  unfold insert find?
  rw [lookup_entry, lookup_filter]
  by_cases h : path = path'
  · rw [if_pos h, if_pos h]
  · rw [if_neg h, if_neg h, if_neg h]

theorem Registry.showing_insert (rasters : Registry α) {path path' : String} (h : path ≠ path')
    (d : Dataset α) : (rasters.insert path' d).showing path = rasters.showing path := by
  unfold showing
  rw [find?_insert, if_neg h]

/-- A view of a dataset with its counts at zero. -/
def DatasetView.unread (v : DatasetView α) : DatasetView α := { v with dataset := v.dataset.unread }

/-- What a request finds depends on what is seen under its path. -/
theorem Registry.view_congr {rasters rasters' : Registry α} {q : DatasetQuery}
    (h : rasters.showing q.path = rasters'.showing q.path) :
    (rasters.view q).map DatasetView.unread = (rasters'.view q).map DatasetView.unread := by
  unfold showing at h
  unfold view
  cases hd : rasters.find? q.path with
  | none =>
    cases hd' : rasters'.find? q.path with
    | none => rfl
    | some d' => rw [hd, hd'] at h; cases h
  | some d =>
    cases hd' : rasters'.find? q.path with
    | none => rw [hd, hd'] at h; cases h
    | some d' =>
      rw [hd, hd', Option.map_some, Option.map_some, Option.some_inj] at h
      have hdriver : d.unread.driver = d'.unread.driver := by rw [h]
      change d.driver = d'.driver at hdriver
      simp only [hdriver]
      split
      · rfl
      · cases q.onlyBand (α := α) with
        | error f => rfl
        | ok only =>
          show Except.ok (⟨d.unread, only⟩ : DatasetView α) = Except.ok ⟨d'.unread, only⟩
          rw [h]

theorem selectBand_unread (v : DatasetView α) (index : Nat) :
    selectBand v.unread index
      = (selectBand v index).map fun (position, band) => (position, band.unread) := by
  have hposition : v.unread.position index = v.position index := rfl
  have hvisible : v.unread.visibleBands = v.visibleBands := by
    unfold DatasetView.visibleBands
    have hlength : v.unread.dataset.bands.length = v.dataset.bands.length := List.length_map ..
    rw [hlength]
    rfl
  unfold selectBand DatasetView.band
  rw [hposition, hvisible]
  cases v.position index with
  | error f => rfl
  | ok position =>
    have hband : (if position = 0 then none else v.unread.dataset.bands[position - 1]?)
        = (if position = 0 then none else v.dataset.bands[position - 1]?).map Band.unread := by
      split
      · rfl
      · exact List.getElem?_map
    simp only [bind, Except.bind, hband]
    cases if position = 0 then none else v.dataset.bands[position - 1]? <;> rfl

theorem fillIn_unread [Scalar α] (c : Config α) (r : Request α) (v : DatasetView α) (index : Nat) :
    fillIn c r v.unread index = (fillIn c r v index).map Opened.unread := by
  unfold fillIn
  rw [selectBand_unread]
  cases selectBand v index <;> rfl

/-- **Opening depends on what is seen under the path,** and not on counts of reads. -/
theorem openSource_congr [Scalar α] (c : Config α) {rasters rasters' : Registry α} {r : Request α}
    (h : rasters.showing r.path = rasters'.showing r.path) :
    (openSource c rasters r).1.map Opened.unread
      = (openSource c rasters' r).1.map Opened.unread := by
  have hpath : (r.query c.subdataset).1.path = r.path := by
    unfold Request.query
    split <;> rfl
  have hview := Registry.view_congr (q := (r.query c.subdataset).1) (hpath.symm ▸ h)
  unfold openSource
  cases checkRequest r with
  | error e => rfl
  | ok _ =>
    simp only [Registry.openView]
    cases hv : rasters.view (r.query c.subdataset).1 with
    | error f =>
      cases hv' : rasters'.view (r.query c.subdataset).1 with
      | error f' => rw [hv, hv'] at hview; cases hview; rfl
      | ok v' => rw [hv, hv'] at hview; cases hview
    | ok v =>
      cases hv' : rasters'.view (r.query c.subdataset).1 with
      | error f' => rw [hv, hv'] at hview; cases hview
      | ok v' =>
        have hunread : v.unread = v'.unread := by
          rw [hv, hv'] at hview
          exact Except.ok.inj hview
        show (fillIn c r v (r.query c.subdataset).2).map Opened.unread
          = (fillIn c r v' (r.query c.subdataset).2).map Opened.unread
        rw [← fillIn_unread, ← fillIn_unread, hunread]

end Opening

end RasterWarp
