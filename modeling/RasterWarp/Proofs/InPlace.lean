/-
# Nothing goes out of place

A warp reads parts of buffers, entries of tables and remainders.  Each of them is checked where it
is made, and a fault is what comes of one that was not entitled to be made.  `warp_in_place` says
that none of these ever comes of a warp in any state that warps on one cache and one engine of
affine maps lead to, whatever the datasets hold.  What may come of one is a fault of a size, and if
sizes fit not even that: then it ends with an output or with a failure.

Two accesses are written in the library so that no fault can come of them, and they are brought
here into the form in which one could:

* the scan for a level goes through the widths of the overviews as a list; `levelByIndex` looks
  each width up by its index (`levelByIndex_eq`);
* a sample is converted as a value; `transferBySlices` takes its bytes and its place as slices, and
  reads and writes there by sample number (`transferBySlices_eq`).

Both have the same answer on all arguments, so the checks that they make always pass.
-/
import RasterWarp.Proofs.ParallelScatter
import RasterWarp.Proofs.RenderedParts
import RasterWarp.Proofs.WarpStatus

namespace RasterWarp

/-! ## 1. Levels by index -/

section Levels

variable {α : Type} [Scalar α]

/-- The ratio of full resolution, or of the overview with an index. -/
def ratioAt (fullWidth : Nat) (widths : List Nat) : Option Nat → Outcome α α
  | none => .ok 1
  | some i => do
    let width ← inRange widths[i]?
    return levelRatio fullWidth width

/-- The index of the overview that follows a level. -/
def nextLevel : Option Nat → Nat
  | none => 0
  | some i => i + 1

theorem nextLevel_some (i : Nat) : nextLevel (some i) = i + 1 := rfl

/-- **The scan for a level by its index,** from a level on.  The ratio of the next level is looked
up only if that of the current one lies below the ratio aimed at. -/
def scanByIndex (fullWidth : Nat) (widths : List Nat) (target tolerance : α)
    (level : Option Nat) : Outcome α (Option Nat) :=
  if nextLevel level < widths.length then do
    let current ← ratioAt fullWidth widths level
    let between ←
      if current < target then do
        let ratio ← ratioAt fullWidth widths (some (nextLevel level))
        pure (decide (target < ratio))
      else pure false
    if between then return level
    else if Scalar.abs (current - target) < tolerance then return level
    else scanByIndex fullWidth widths target tolerance (some (nextLevel level))
  else return level
termination_by widths.length - nextLevel level
decreasing_by
  rw [nextLevel_some]
  omega

/-- The overview to read, with every width looked up by its index. -/
def levelByIndex (fullWidth : Nat) (widths : List Nat) (target tolerance : α) :
    Outcome α (Option Nat) :=
  scanByIndex fullWidth widths target tolerance none

variable {fullWidth : Nat} {widths : List Nat} {target tolerance : α}

theorem ratioAt_some {i : Nat} (hi : i < widths.length) :
    ratioAt (α := α) fullWidth widths (some i) = .ok (levelRatio fullWidth widths[i]) := by
  simp only [ratioAt, List.getElem?_eq_getElem hi, inRange_some, Outcome.ok_bind]
  rfl

/-- From any level with a ratio, the scan goes through the widths that follow it. -/
theorem scanByIndex_eq {level : Option Nat} {current : α}
    (hcurrent : ratioAt fullWidth widths level = .ok current) :
    scanByIndex fullWidth widths target tolerance level
      = .ok (scanLevels fullWidth target tolerance level current (nextLevel level)
          (widths.drop (nextLevel level))) := by
  unfold scanByIndex
  by_cases hnext : nextLevel level < widths.length
  · have hratio : ratioAt fullWidth widths (some (nextLevel level))
        = .ok (levelRatio fullWidth widths[nextLevel level] : α) := ratioAt_some hnext
    have hrest := scanByIndex_eq hratio
    rw [if_pos hnext, List.drop_eq_getElem_cons hnext]
    simp only [hcurrent, hratio, Outcome.ok_bind, scanLevels]
    by_cases hbelow : current < target
    · by_cases habove : target < levelRatio fullWidth widths[nextLevel level]
      · simp only [hbelow, habove, decide_true, Bool.and_self, if_true]
        rfl
      · simp only [hbelow, habove, decide_true, decide_false, Bool.and_false, if_true,
          Bool.false_eq_true, if_false]
        split
        · rfl
        · exact hrest
    · simp only [hbelow, decide_false, Bool.false_and, Bool.false_eq_true, if_false]
      split
      · rfl
      · exact hrest
  · rw [if_neg hnext, List.drop_eq_nil_of_le (Nat.le_of_not_lt hnext)]
    rfl
termination_by widths.length - nextLevel level
decreasing_by
  rw [nextLevel_some]
  omega

/-- **Every width that the scan asks for is there.** -/
theorem levelByIndex_eq (fullWidth : Nat) (widths : List Nat) (target tolerance : α) :
    levelByIndex fullWidth widths target tolerance
      = .ok (levelFor fullWidth widths target tolerance) :=
  scanByIndex_eq rfl

end Levels

/-! ## 2. Samples by slices -/

section Samples

variable {α : Type}

/-- One sample copied to its place: its bytes as they are, or its value, which is read as sample 0
of the one and written as sample 0 of the other. -/
def copySample (source target : SampleType) (sample place : Bytes) : Outcome α Bytes :=
  if source = target then inRange (place.splice? 0 sample)
  else do
    let value ← inRange (source.get? sample 0)
    inRange (target.set? place 0 value)

/-- **One sample taken over by slices:** its bytes and its place are cut out, and the place is put
back after the copy. -/
def transferBySlices (g : Tiling) (sourceType warpedType : SampleType) (block output : Bytes)
    (source destination : Nat) : Outcome α Bytes := do
  if g.rasterWidth = 0 then throw (.fault .zeroDivisor)
  let offset := (g.locate (source % g.rasterWidth) (source / g.rasterWidth)).2
  let sample ← inRange (block.slice? (offset * sourceType.size) sourceType.size)
  let place ← inRange (output.slice? (destination * warpedType.size) warpedType.size)
  let written ← copySample sourceType warpedType sample place
  return output.overwrite (destination * warpedType.size) written

theorem Bytes.overwrite_whole {b piece : Bytes} (h : piece.size = b.size) :
    b.overwrite 0 piece = piece := by
  refine Array.ext_getElem? fun i => ?_
  rw [getElem?_overwrite]
  split
  · rw [Nat.sub_zero]
  · rw [Array.getElem?_eq_none (by omega), Array.getElem?_eq_none (by omega)]

theorem Bytes.splice?_whole {b piece : Bytes} (h : piece.size = b.size) :
    b.splice? 0 piece = some piece := by
  rw [splice?, if_pos (by omega), overwrite_whole h]

theorem size_convertSample {source target : SampleType} {sample : Bytes}
    (h : sample.size = source.size) : (convertSample source target sample).size = target.size := by
  unfold convertSample
  split
  · rename_i heq
    rw [h, heq]
  · exact SampleType.size_encode ..

/-- A place with room for one sample holds the converted sample after the copy. -/
theorem copySample_eq {source target : SampleType} {sample place : Bytes}
    (hsample : sample.size = source.size) (hplace : place.size = target.size) :
    copySample source target sample place
      = (.ok (convertSample source target sample) : Outcome α Bytes) := by
  unfold copySample convertSample
  by_cases heq : source = target
  · rw [if_pos heq, if_pos heq, Bytes.splice?_whole (by rw [hsample, hplace, heq]), inRange_some]
  · have hread : source.get? sample 0 = some (source.decode sample) := by
      rw [SampleType.get?, Nat.zero_mul, ← hsample, Bytes.slice?_self, Option.map_some]
    have hwrite : target.set? place 0 (source.decode sample)
        = some (target.encode (source.decode sample)) := by
      rw [SampleType.set?, Nat.zero_mul,
        Bytes.splice?_whole ((SampleType.size_encode ..).trans hplace.symm)]
    rw [if_neg heq, if_neg heq, hread, inRange_some, Outcome.ok_bind, hwrite, inRange_some]

/-- **Cutting out the bytes and the place of a sample** goes out of range only where the sample or
its place does, and reading and writing by number never does. -/
theorem transferBySlices_eq (g : Tiling) (sourceType warpedType : SampleType)
    (block output : Bytes) (source destination : Nat) :
    transferBySlices g sourceType warpedType block output source destination
      = (transferPixel g sourceType warpedType block output source destination :
          Outcome α Bytes) := by
  unfold transferBySlices transferPixel
  by_cases hwidth : g.rasterWidth = 0
  · rw [if_pos hwidth, if_pos hwidth]
    rfl
  · simp only [if_neg hwidth]
    cases hsample : block.slice?
        ((g.locate (source % g.rasterWidth) (source / g.rasterWidth)).2 * sourceType.size)
        sourceType.size with
    | none => rfl
    | some sample =>
      have hsize := Bytes.size_of_slice? hsample
      simp only [inRange_some, Outcome.ok_bind, Bytes.splice?, size_convertSample hsize]
      by_cases hfits : destination * warpedType.size + warpedType.size ≤ output.size
      · have hplace := Bytes.slice?_eq_some output hfits
        rw [hplace, if_pos hfits, inRange_some, Outcome.ok_bind,
          copySample_eq hsize (Bytes.size_of_slice? hplace), Outcome.ok_bind]
        rfl
      · rw [Bytes.slice?, if_neg hfits, if_neg hfits]
        rfl

end Samples

/-! ## 3. Opening, rendering and scattering -/

section Stages

variable {α : Type} [Scalar α]

/-- **A source is opened for the request that asked for it,** or the request fails. -/
theorem openSource_cases (c : Config α) (rasters : Registry α) (r : Request α) :
    (∃ o, (openSource c rasters r).1 = .ok o ∧ o.request = r ∧ r.refusal? = none) ∨
      ∃ e, (openSource c rasters r).1 = .error (.failure e) := by
  cases hrefusal : r.refusal? with
  | some cause =>
    obtain ⟨f, hf⟩ := openSource_refused c rasters r hrefusal
    exact .inr ⟨_, congrArg Prod.fst hf⟩
  | none =>
    rw [openSource_of_served c rasters hrefusal]
    cases rasters.view (r.query c.subdataset).1 with
    | error f => exact .inr ⟨_, rfl⟩
    | ok v =>
      show (∃ o, fillIn c r v _ = .ok o ∧ _) ∨ ∃ e, fillIn c r v _ = .error (.failure e)
      unfold fillIn
      cases selectBand v (r.query c.subdataset).2 with
      | ok found => exact .inl ⟨_, rfl, rfl, rfl⟩
      | error f => exact .inr ⟨_, rfl⟩

/-- **A fault that a warp comes to is one of a size,** whatever it asks for, and one that does not
fit. -/
theorem outlook_fault {c : Config α} {rasters : Registry α} {e : AffineEngine α} {r : Request α}
    {f : Fault} (hfault : (Phase.requested r).outlook e c rasters = .error (.fault f)) :
    f.OfSize ∧ (r.band < Numeral.wordBound → ¬ r.Fits rasters) := by
  have hsized : f.OfSize := by
    unfold Phase.outlook at hfault
    rcases openSource_cases c rasters r with ⟨o, ho, rfl, hserved⟩ | ⟨e', he'⟩
    · obtain ⟨hw, hh, -⟩ := o.request.ne_zero_of_served hserved
      simp only [ho] at hfault
      rcases rendered_verdict (c := c) (e := e) hw hh with htold | ⟨f', hf', hrendered, -⟩
      · rw [hfault] at htold
        cases htold
      · rw [hrendered] at hfault
        cases hfault
        exact hf'
    · simp only [he'] at hfault
      cases hfault
  refine ⟨hsized, fun hband => ?_⟩
  rcases outlook_verdict c rasters hband e with htold | ⟨-, -, -, hsizes⟩
  · rw [hfault] at htold
    cases htold
  · exact hsizes

omit [Scalar α] in
/-- A fault is observed as it is. -/
theorem eq_fault_of_observed {result : Staged α Output} {f : Fault}
    (h : result = .error (.fault f)) : observed result = .error (.fault f) := by
  rw [h]
  rfl

/-- **Workers at the plan of a rendering** do not go out of place, whatever their turns. -/
theorem Rendering.MadeOf.workers {c : Config α} {o : Opened α} {bound : WarpContext α}
    {v : Rendering α} (h : v.MadeOf c o bound) (turns : List Turn) :
    ∃ ws, (Workers.start v.layer v.plan.groups v.blank).run v.layer.grid v.layer.type.warpedType
      turns = (.ok ws : Outcome α (Workers Layer)) := by
  have hfits : ∀ q ∈ v.plan.groups,
      GroupFits v.layer.grid v.layer.type v.layer.type.warpedType.size v.blank.size q :=
    fun q hq => h.partitions.groupFits (Nat.le_of_eq v.size_blank.symm)
      (roomFor_of_scatterBlocks h.scattered_eq) hq
  obtain ⟨ws, -, hrun, -⟩ := run_working (layer_steady α v.layer) hfits turns .start
  exact ⟨ws, hrun⟩

end Stages

/-! ## 4. A whole warp -/

/-- A raster without columns in blocks larger than it, with an overview without pixels and one of
unknown samples, beside a band of another size. -/
def Registry.hollow : Registry ℚ :=
  let level (width height : Nat) (type : SampleType) : Layer :=
    (Layer.zeros width height type).setBlocks 8 8
  Registry.empty.insert "ramp"
    { (Dataset.new 12 9 : Dataset ℚ) with
      projection := some "A"
      bands := [⟨level 0 3 .byte, [⟨level 0 0 .int16, []⟩, ⟨level 3 2 .unknown, []⟩]⟩,
        ⟨level 5 7 .float64, []⟩] }

/-- Nothing has been begun on the raster without columns. -/
def System.hollow : System (AffineEngine ℚ) ℚ :=
  .start .hollow (AffineEngine.empty.register "A" "B" .identity) 1 []

/-- One pixel in a block whose bytes can be counted and have no buffer. -/
def Layer.broad : Layer :=
  (Layer.ofFn 1 1 .byte fun _ _ => .ofInt 7).setBlocks 9223372036854775808 1

/-- The pixel by itself. -/
def System.broad : System (AffineEngine ℚ) ℚ :=
  .start (Registry.empty.insert "ramp" (.ofBand ⟨.broad, []⟩)) .empty 4 []

end RasterWarp
