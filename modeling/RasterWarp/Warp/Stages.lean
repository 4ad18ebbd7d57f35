/-
# The stages of a warp

Opening finds the band and fills in what the request left open (`openSource`); rendering computes
the window with a context (`render`).  Every stage fails with a status of its own, and what it
meets without failing is noted in order.
-/
import RasterWarp.Approximation
import RasterWarp.Coverage
import RasterWarp.Engine
import RasterWarp.Pyramid
import RasterWarp.Scatter
import RasterWarp.Warp.Request

namespace RasterWarp

variable {α : Type} [Scalar α]

/-- A result, or the stage that failed. -/
abbrev Staged (α : Type) : Type → Type := Except (Interrupt (StageError α))

/-- A stage that may note events, and keeps them when it fails. -/
abbrev Noting (α : Type) : Type → Type :=
  ExceptT (Interrupt (StageError α)) (StateM (List (Notice α)))

/-- The outcome of a stage that is named by its status. -/
def stage {β : Type} (s : Status) (o : Outcome α β) : Noting α β := liftExcept (Outcome.stage s o)
where
  /-- A result without notices. -/
  liftExcept {β : Type} (o : Staged α β) : Noting α β :=
    match o with
    | .ok b => pure b
    | .error e => throw e

def note (n : List (Notice α)) : Noting α Unit := modify (· ++ n)

/-! ## 1. Opening -/

omit [Scalar α] in
/-- The request as it stands, or why none like it is served. -/
def checkRequest (r : Request α) : Staged α Unit :=
  match r.refusal? with
  | none => .ok ()
  | some cause =>
    .error (.failure ⟨.invalidRequest, cause.failure.during (.checkingRequest r.path)⟩)

omit [Scalar α] in
/-- The band of an opened dataset, and its place there. -/
def selectBand (v : DatasetView α) (index : Nat) : Except (Failure α) (Nat × Band) := do
  let band ← v.band index
  let position ← v.position index
  return (position, band)

/-- The band that a request is about, with what the request left open filled in. -/
def fillIn (c : Config α) (r : Request α) (v : DatasetView α) (index : Nat) :
    Staged α (Opened α) := do
  let (position, band) ← Outcome.stage .bandNotFound
    (Outcome.during (.selectingBand r.band r.path) (attempt (selectBand v index)))
  pure
    { request := r
      dataset := v.dataset
      position
      band
      crs := r.crsIn v.dataset c.fallbackProjection
      source := (r.source <|> v.dataset.geoTransform).getD .identity }

/-- **Opens the source of a request.**  A request that is refused opens nothing. -/
def openSource (c : Config α) (rasters : Registry α) (r : Request α) :
    Staged α (Opened α) × Registry α :=
  match checkRequest r with
  | .error e => (.error e, rasters)
  | .ok () =>
    let (query, index) := r.query c.subdataset
    let (view, rasters) := rasters.openView query
    let opened := do
      let view ← Outcome.stage .openFailure (Outcome.during (.opening r.path) (attempt view))
      fillIn c r view index
    (opened, rasters)

/-! ## 2. Rendering -/

/-- The grid that the source covers, if it can be told. -/
def suggestion (o : Opened α) (context : WarpContext α) : Noting α (Option (Suggestion α)) := do
  match (Suggestion.ofRaster o.rasterSize context : Outcome α (Suggestion α)) with
  | .ok s => return some s
  | .error (.failure f) =>
    note [.noSuggestion o.request.path f]
    return none
  | .error (.fault f) => throw (.fault f)

/-- The overview to read, for a source with a geotransform that is reduced in size. -/
def overviewFor (c : Config α) (o : Opened α) (context : WarpContext α)
    (suggested : Option (Suggestion α)) : Option Nat :=
  if context.hasGeolocation then none else
    match suggested.bind fun s => reductionRatio? s.pixelSize with
    | none => none
    | some ratio =>
      levelFor o.dataset.width (o.band.overviews.map (·.full.width)) ratio
        c.overviewTolerance

/-- The layer to read, and the context that belongs to it. -/
def selectLevel (o : Opened α) (context : WarpContext α) :
    Option Nat → Noting α (Layer × WarpContext α)
  | none => return (o.band.full, context)
  | some level => do
    let overview ← stage .bandNotFound
      (Outcome.during .selectingOverview (attempt (o.band.overview level)))
    let layer := overview.full
    let (_, context) ← stage .transformFailure
      (attempt (atOverview context o.source o.rasterSize (layer.width, layer.height)))
    note [.overviewChosen level layer.width layer.height o.request.path]
    return (layer, context)

omit [Scalar α] in
/-- What pixels without a source hold: the level's value, the band's, or that of the settings. -/
def noDataOf (c : Config α) (o : Opened α) (layer : Layer) : Binary64 :=
  (layer.noData <|> o.band.full.noData).getD c.fallbackNoData

omit [Scalar α] in
/-- Whether the band is marked as holding signed bytes, by the level or as a whole. -/
def isMarkedSigned (o : Opened α) (layer : Layer) : Bool :=
  let mark := layer.metadataValue? "PIXELTYPE" "IMAGE_STRUCTURE"
    <|> o.band.full.metadataValue? "PIXELTYPE" "IMAGE_STRUCTURE"
  mark.any (sameIgnoringCase · "SIGNEDBYTE")

/-- **The level that a warp reads.** -/
structure ChosenLevel (α : Type) where
  /-- What the source covers, if it can be told. -/
  suggested : Option (Suggestion α)
  /-- The overview that was chosen, if not full resolution. -/
  overview : Option Nat
  layer : Layer
  context : WarpContext α

/-- Chooses the level to read by what the source covers. -/
def chooseLevel (c : Config α) (o : Opened α) (context : WarpContext α) :
    Noting α (ChosenLevel α) := do
  let suggested ← suggestion o context
  let overview := overviewFor c o context suggested
  let (layer, context) ← selectLevel o context overview
  return { suggested, overview, layer, context }

/-- **A window of a request as it was read** from one level of its band. -/
structure Rendering (α : Type) where
  /-- The overview that was read, if not full resolution. -/
  overview : Option Nat
  /-- The level before it was read. -/
  layer : Layer
  window : Window
  plan : ReadPlan
  noData : Binary64
  scattered : Scattering Layer α
  bytesRead : Nat

/-- A new output for a window, without any samples from the source. -/
def unreadOutput (window : Window) (type : SampleType) (noData : Binary64) : Outcome α Bytes := do
  let area ← inWord (word? window.area)
  let size ← inWord (word? (area * type.size))
  let zeros ← blank size
  return type.fill zeros noData

/-- The window of a request from the level that was chosen for it. -/
def renderLevel (c : Config α) (o : Opened α) (level : ChosenLevel α) :
    Noting α (Rendering α) := do
  let layer := level.layer
  let window := coveredWindow (level.suggested.map (·.extent)) o.request.width o.request.height
  let approximation : Approximation (Outcome α) α := ⟨level.context, c.approxTolerance⟩
  let (plan, notices) ← stage .transformFailure
    (Outcome.during .mapping
      (planReads (approximation.transform .destinationToSource) window layer.grid))
  note notices
  let warpedType := layer.type.warpedType
  let noData := noDataOf c o layer
  let unread ← stage .readFailure (unreadOutput window warpedType noData)
  let scattered ← stage .readFailure
    (Outcome.during (.readingBlocks o.request.path)
      (scatterBlocks layer layer.grid plan.groups warpedType unread))
  note scattered.notices
  let bytesRead ← stage .readFailure
    (inWord (layer.grid.bytesOf? layer.type.size scattered.tally.read))
  return { overview := level.overview, layer, window, plan, noData, scattered, bytesRead }

/-- **Computes the window of a request with a context.** -/
def render (c : Config α) (o : Opened α) (context : WarpContext α) : Noting α (Rendering α) := do
  let level ← chooseLevel c o context
  renderLevel c o level

/-- The context that a rendering ends with: that of the level it read, or the one that it began with
if it came to none. -/
def contextAfter (c : Config α) (o : Opened α) (context : WarpContext α) : WarpContext α :=
  match ((chooseLevel c o context).run.run []).1 with
  | .ok level => level.context
  | .error _ => context

omit [Scalar α] in
/-- What a request is answered with, given the window that was read for it. -/
def Rendering.output (r : Rendering α) (o : Opened α) (cached : Bool) : Output :=
  let warpedType := r.layer.type.warpedType
  let tally := r.scattered.tally
  { data := r.scattered.output
    window := r.window
    noData := r.noData
    type := if warpedType = .byte ∧ isMarkedSigned o r.layer then .signedByte else .data warpedType
    metrics :=
      { bytesRead := r.bytesRead
        blocksRead := tally.read
        blocksFailed := tally.failed
        mapped := r.plan.mapped
        dropped := r.plan.dropped
        overview := r.overview
        cached } }

end RasterWarp
