/-
# What can go wrong, and how it is told

A `Failure` is a cause and the tasks during which it arose, the outermost first.  Both are data;
their wording is in `Cause.message` and `Task.message` and nowhere else.  `Failure.chain` lists
the messages from the outermost task to the cause, and a `Report` is such a chain under the
status of the stage that failed.

A `Fault` is not a failure: it is an access or a division that the operation was not entitled to,
or a size beyond those of the machine, and it ends the whole computation.  `Interrupt` is either,
and only failures are ever recovered from.
-/
import RasterWarp.GeoTransform
import RasterWarp.Bounds
import RasterWarp.Window
import RasterWarp.Bytes
import RasterWarp.SampleType
import RasterWarp.Word

namespace RasterWarp

/-! ## 1. Causes and tasks -/

/-- **Why something failed.** -/
inductive Cause (α : Type) where
  /-- A failure reported by a transform from outside, in its own words. -/
  | reported (message : String)
  | singular (map : GeoTransform α)
  | unknownTypeCode (code : Nat)
  | emptyBlocks (width height : Nat)
  | unknownSamples
  | shortSource (held count : Nat) (type : SampleType)
  | shortDestination (held count : Nat) (type : SampleType)
  | zeroCacheCapacity
  | negativeApproxTolerance (tolerance : α)
  | negativeOverviewTolerance (tolerance : α)
  | zeroBlockWorkers
  | noOverview (index count : Nat)
  | blockOutside (xBlock yBlock : Nat)
  | blockBufferTooSmall (size : Nat)
  | blockUnreadable (xBlock yBlock : Nat)
  | noBand (index count : Nat)
  | notTheQueriedBand (index : Nat)
  | notRegistered (path : String)
  | driverRefused (driver path : String) (allowed : List String)
  | badNumeral (fault : Numeral.Fault)
  | emptyCrs
  | noTransformation (source destination : String)
  | noGeolocationOptions
  | noGeolocation (options : List String)
  | geolocatedSource
  | unequalBuffers
  | emptyRaster
  | nothingTransformed
  | degenerateExtent (extent : Bounds α)
  | emptySourceCrs
  | emptyDestinationCrs
  | noResolution (map : GeoTransform α)
  | unorderedBounds (bounds : Bounds α)
  | emptyWindow (window : Window)
  | unknownBandType
  | unknownOutputType
  | outputTooSmall (size lastPixel : Nat)
  | emptyDestination (width height : Nat)
  | bandZero
  | emptyPath
  | missingDestinationCrs

/-- **What was being done when something failed.** -/
inductive Task (α : Type) where
  | invertingSource
  | invertingDestination
  | parsingBandQuery
  | bindingOverview (map : GeoTransform α)
  | validatingConfig
  | checkingRequest (path : String)
  | opening (path : String)
  | selectingBand (band : Nat) (path : String)
  | creatingTransform (path : String)
  | rebinding
  | selectingOverview
  | mapping
  | readingBlocks (path : String)
  | creatingTransformTo (path crs : String)
  | estimatingResolution (path crs : String)

/-- **A cause under the tasks that it ended,** the outermost task first. -/
structure Failure (α : Type) where
  tasks : List (Task α)
  cause : Cause α

/-- The failure of a cause by itself. -/
def Cause.failure {α : Type} (c : Cause α) : Failure α := ⟨[], c⟩

/-- The failure as seen from a task around it. -/
def Failure.during {α : Type} (f : Failure α) (t : Task α) : Failure α :=
  { f with tasks := t :: f.tasks }

/-! ## 2. Wording -/

section Wording

variable {α : Type} [DecimalText α]

open Text (quoted quotedList)

def Cause.message : Cause α → String
  | reported m => m
  | singular g => s!"geotransform {g.description} is not invertible"
  | unknownTypeCode code => s!"unknown raster data type code {code}"
  | emptyBlocks w h => s!"block size must be positive, got {w}x{h}"
  | unknownSamples => "cannot convert samples of unknown data type"
  | shortSource held count type =>
    s!"source buffer holds {held} bytes, {count} {type.name} samples need {count * type.size}"
  | shortDestination held count type =>
    s!"destination buffer holds {held} bytes, {count} {type.name} samples need {count * type.size}"
  | zeroCacheCapacity => "cache_capacity must be positive"
  | negativeApproxTolerance t => s!"approx_tolerance must not be negative, got {plain t}"
  | negativeOverviewTolerance t => s!"overview_tolerance must not be negative, got {plain t}"
  | zeroBlockWorkers => "block_workers must be positive"
  | noOverview index count => s!"overview {index} does not exist, band has {count}"
  | blockOutside x y => s!"block ({x}, {y}) is outside the raster"
  | blockBufferTooSmall size => s!"block buffer of {size} bytes is too small"
  | blockUnreadable x y => s!"simulated read failure of block ({x}, {y})"
  | noBand index count => s!"band {index} does not exist, dataset has {count} bands"
  | notTheQueriedBand index => s!"band {index} does not exist, dataset has 1 band"
  | notRegistered path => s!"no dataset registered at {quoted path}"
  | driverRefused driver path allowed =>
    s!"driver {quoted driver} of {quoted path} is not among {quotedList allowed}"
  | badNumeral fault => fault.message
  | emptyCrs => "CRS definitions must not be empty"
  | noTransformation s d => s!"no transformation from {quoted s} to {quoted d}"
  | noGeolocationOptions => "geolocation options are empty"
  | noGeolocation options => s!"no geolocation arrays for {quotedList options}"
  | geolocatedSource => "a geolocated source has no geotransform"
  | unequalBuffers => "point buffers differ in length"
  | emptyRaster => "raster is empty"
  | nothingTransformed => "no sample point of the source raster could be transformed"
  | degenerateExtent e => s!"degenerate output extent {e.description}"
  | emptySourceCrs => "source CRS must not be empty"
  | emptyDestinationCrs => "destination CRS must not be empty"
  | noResolution g => s!"suggested output has no resolution: {g.description}"
  | unorderedBounds b =>
    s!"bounding box {b.description} is not ordered as [min_x, min_y, max_x, max_y]"
  | emptyWindow w => s!"destination window {w.description} is empty"
  | unknownBandType => "band has unknown data type"
  | unknownOutputType => "output has unknown data type"
  | outputTooSmall size last => s!"destination buffer of {size} bytes is too small for pixel {last}"
  | emptyDestination w h => s!"destination size {w}x{h} is empty"
  | bandZero => "bands are counted from 1"
  | emptyPath => "source path is empty"
  | missingDestinationCrs => "destination CRS is empty"

def Task.message : Task α → String
  | invertingSource => "inverting source geotransform"
  | invertingDestination => "inverting destination geotransform"
  | parsingBandQuery => "parsing band_query open option"
  | bindingOverview g => s!"binding overview geotransform {g.description}"
  | validatingConfig => "validating warp config"
  | checkingRequest path => s!"invalid request for {quoted path}"
  | opening path => s!"opening {quoted path}"
  | selectingBand band path => s!"selecting band {band} of {quoted path}"
  | creatingTransform path => s!"creating transform for {quoted path}"
  | rebinding => "rebinding cached transform"
  | selectingOverview => "selecting overview"
  | mapping => "mapping destination pixels"
  | readingBlocks path => s!"reading blocks of {quoted path}"
  | creatingTransformTo path crs => s!"creating transform from {quoted path} to {quoted crs}"
  | estimatingResolution path crs => s!"estimating resolution of {quoted path} in {quoted crs}"

end Wording

/-! ## 3. Chains and reports -/

/-- **Messages from the outermost to the innermost.** -/
structure Chain where
  outermost : String
  causes : List String

namespace Chain

def messages (c : Chain) : List String := c.outermost :: c.causes

/-- The messages on one line. -/
def joined (c : Chain) : String := String.intercalate ": " c.messages

def root (c : Chain) : String := c.causes.getLast?.getD c.outermost

/-- Lines of a cause, the first after `first` and the others after `rest`. -/
def indented (first rest message : String) : String :=
  first ++ String.intercalate ("\n" ++ rest) (message.splitOn "\n")

/-- The numbered causes of a listing. -/
def numbered (causes : List String) : List String :=
  causes.zipIdx.map fun (m, i) =>
    let number := toString i
    let margin := String.ofList (List.replicate (5 - number.length) ' ')
    indented (margin ++ number ++ ": ") "       " m

/-- The outermost message, and the causes under it on lines of their own. -/
def listing (c : Chain) : String :=
  match c.causes with
  | [] => c.outermost
  | [m] => c.outermost ++ "\n\nCaused by:\n" ++ indented "    " "    " m
  | ms => c.outermost ++ "\n\nCaused by:\n" ++ String.intercalate "\n" (numbered ms)

end Chain

def Failure.chain {α : Type} [DecimalText α] (f : Failure α) : Chain :=
  match f.tasks with
  | [] => ⟨f.cause.message, []⟩
  | t :: ts => ⟨t.message, ts.map Task.message ++ [f.cause.message]⟩

/-- **How a warp ended.** -/
inductive Status where
  | success
  | openFailure
  | bandNotFound
  | transformFailure
  | invalidRequest
  | readFailure
deriving DecidableEq, Repr

namespace Status

def all : List Status :=
  [success, openFailure, bandNotFound, transformFailure, invalidRequest, readFailure]

def code (s : Status) : Nat := s.ctorIdx

def ofCode? (code : Nat) : Option Status := all[code]?

def name : Status → String
  | success => "success"
  | openFailure => "open failure"
  | bandNotFound => "band not found"
  | transformFailure => "transform failure"
  | invalidRequest => "invalid request"
  | readFailure => "read failure"

/-- The name as one word. -/
def identifier : Status → String
  | success => "Success"
  | openFailure => "OpenFailure"
  | bandNotFound => "BandNotFound"
  | transformFailure => "TransformFailure"
  | invalidRequest => "InvalidRequest"
  | readFailure => "ReadFailure"

end Status

/-- **A chain under the status of the stage that failed.** -/
structure Report where
  status : Status
  chain : Chain

namespace Report

def message (r : Report) : String :=
  s!"{r.status.name} (status {r.status.code}): {r.chain.joined}"

def description (r : Report) : String :=
  Text.record "WarpError" [("status", r.status.identifier), ("source", r.chain.listing)] false

end Report

/-- **A failed stage.** -/
structure StageError (α : Type) where
  status : Status
  failure : Failure α

def StageError.report {α : Type} [DecimalText α] (e : StageError α) : Report :=
  ⟨e.status, e.failure.chain⟩

/-! ## 4. Faults -/

/-- **An access, a division or a size that was out of place.** -/
inductive Fault where
  /-- A part of a buffer that the buffer does not have. -/
  | outOfRange
  /-- A remainder by zero. -/
  | zeroDivisor
  /-- A sum or product of sizes that is not a word. -/
  | overflow
  /-- A buffer of more bytes than any can have.  That memory may end earlier is left out. -/
  | capacity
  /-- A fault of a transform from outside. -/
  | foreign
deriving DecidableEq, Repr

/-- **What ends a computation early,** where `ε` says what a failure is. -/
inductive Interrupt (ε : Type) where
  | failure (f : ε)
  | fault (f : Fault)

/-- A result, or what ended the computation. -/
abbrev Outcome (α : Type) : Type → Type := Except (Interrupt (Failure α))

section Outcome

variable {α β γ : Type}

@[simp] theorem Outcome.ok_bind (b : β) (f : β → Outcome α γ) :
    ((.ok b : Outcome α β) >>= f) = f b := rfl

@[simp] theorem Outcome.error_bind (e : Interrupt (Failure α)) (f : β → Outcome α γ) :
    ((.error e : Outcome α β) >>= f) = .error e := rfl

/-- Steps that come to an end all did. -/
theorem Outcome.bind_eq_ok_iff {o : Outcome α β} {f : β → Outcome α γ} {c : γ} :
    (o >>= f) = .ok c ↔ ∃ b, o = .ok b ∧ f b = .ok c := by
  cases o <;> simp

def Cause.raise {m : Type → Type} [MonadExceptOf (Interrupt (Failure α)) m] (c : Cause α) : m β :=
  throw (.failure c.failure)

/-- What a size is refused with.  It is computed before it is held against anything, so one that is
not a word is a fault. -/
def Cause.refusing (c : Cause α) (size : Nat) : Interrupt (Failure α) :=
  if size < Numeral.wordBound then .failure c.failure else .fault .overflow

theorem Cause.refusing_of_lt {c : Cause α} {size : Nat} (h : size < Numeral.wordBound) :
    c.refusing size = .failure c.failure := if_pos h

/-- An attempt that can fail but not go out of place. -/
def attempt (e : Except (Failure α) β) : Outcome α β := e.mapError .failure

/-- The value, unless an access was out of range. -/
def inRange : Option β → Outcome α β
  | some b => .ok b
  | none => .error (.fault .outOfRange)

@[simp] theorem inRange_some (b : β) : (inRange (some b) : Outcome α β) = .ok b := rfl

/-- The value, unless a size on the way to it was not a word. -/
def inWord : Option β → Outcome α β
  | some b => .ok b
  | none => .error (.fault .overflow)

@[simp] theorem inWord_some (b : β) : (inWord (some b) : Outcome α β) = .ok b := rfl

@[simp] theorem inWord_eq_ok_iff {o : Option β} {b : β} :
    (inWord o : Outcome α β) = .ok b ↔ o = some b := by
  cases o <;> simp [inWord]

/-- Room for a buffer of `size` bytes. -/
def allocate (size : Nat) : Outcome α Unit :=
  if size < bufferBound then .ok () else .error (.fault .capacity)

@[simp] theorem allocate_eq_ok_iff {size : Nat} {u : Unit} :
    (allocate size : Outcome α Unit) = .ok u ↔ size < bufferBound := by
  simp [allocate]

/-- A new buffer of zeros. -/
def blank (size : Nat) : Outcome α Bytes := do
  allocate size
  return Bytes.zeros size

@[simp] theorem blank_eq_ok_iff {size : Nat} {b : Bytes} :
    (blank size : Outcome α Bytes) = .ok b ↔ size < bufferBound ∧ Bytes.zeros size = b := by
  unfold blank allocate
  by_cases hfits : size < bufferBound
  · rw [if_pos hfits]
    exact ⟨fun h => ⟨hfits, Except.ok.inj h⟩, fun h => congrArg _ h.2⟩
  · rw [if_neg hfits]
    exact ⟨fun h => (nomatch h), fun h => absurd h.1 hfits⟩

theorem blank_of_le {size : Nat} (h : bufferBound ≤ size) :
    (blank size : Outcome α Bytes) = .error (.fault .capacity) := by
  unfold blank allocate
  rw [if_neg (Nat.not_lt.mpr h)]
  rfl

/-- Names the task that a failure ended; a fault stays what it is. -/
def Interrupt.during (t : Task α) : Interrupt (Failure α) → Interrupt (Failure α)
  | .failure f => .failure (f.during t)
  | .fault f => .fault f

/-- The outcome of a task. -/
def Outcome.during (t : Task α) (o : Outcome α β) : Outcome α β := o.mapError (·.during t)

/-- Puts a failure under the status of its stage. -/
def Interrupt.stage (s : Status) : Interrupt (Failure α) → Interrupt (StageError α)
  | .failure f => .failure ⟨s, f⟩
  | .fault f => .fault f

/-- The outcome of a stage. -/
def Outcome.stage (s : Status) (o : Outcome α β) : Except (Interrupt (StageError α)) β :=
  o.mapError (·.stage s)

/-- A fault of a size, and not of an access. -/
def Fault.OfSize (f : Fault) : Prop := f = .overflow ∨ f = .capacity

/-- **An outcome that there is, unless a size is beyond those of the machine.** -/
def Outcome.UpToSize (o : Outcome α β) : Prop :=
  ∀ e, o = .error e → ∃ f : Fault, f.OfSize ∧ e = .fault f

namespace Outcome.UpToSize

theorem ok (b : β) : UpToSize (.ok b : Outcome α β) := nofun

theorem inWord (o : Option β) : UpToSize (inWord o : Outcome α β) := by
  intro e h
  cases o with
  | some b => cases h
  | none =>
    cases h
    exact ⟨_, .inl rfl, rfl⟩

theorem allocate (size : Nat) : UpToSize (allocate size : Outcome α Unit) := by
  intro e h
  unfold RasterWarp.allocate at h
  split at h
  · cases h
  · cases h
    exact ⟨_, .inr rfl, rfl⟩

/-- The second of two steps is taken from what the first came to. -/
theorem bind {o : Outcome α β} {k : β → Outcome α γ} (ho : o.UpToSize)
    (hk : ∀ b, o = .ok b → (k b).UpToSize) : (o >>= k).UpToSize := by
  cases o with
  | ok b => exact hk b rfl
  | error e =>
    intro e' h
    cases h
    exact ho e rfl

theorem blank (size : Nat) : UpToSize (blank size : Outcome α Bytes) :=
  (allocate size).bind fun _ _ => .ok _

/-- Steps along a list, by induction on it. -/
theorem foldlM {ι : Type} {step : β → ι → Outcome α β} : ∀ (xs : List ι) (b : β),
    (∀ x ∈ xs, ∀ b, (step b x).UpToSize) → UpToSize (xs.foldlM step b)
  | [], b, _ => .ok b
  | x :: xs, b, h => by
    rw [List.foldlM_cons]
    exact (h x List.mem_cons_self b).bind fun b' _ =>
      foldlM xs b' fun y hy => h y (List.mem_cons_of_mem _ hy)

end Outcome.UpToSize
end Outcome

end RasterWarp
