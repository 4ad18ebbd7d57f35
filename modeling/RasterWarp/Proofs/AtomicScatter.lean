/-
# Scattering in place, all or nothing

`scatterBlocks` answers with a new output.  Here blocks are scattered into an output that somebody
else owns, sample by sample, with a conversion in the innermost loop that can fail; what was written
before would stay.  `scatterInPlace` is the loop, and `Workers.scatter` the same by workers.

Both give what the functions answer, in place (`gives_scatterInPlace`, `Workers.gives_turns`), and
so the check up front decides alone (`scatter_all_or_nothing`): what it refuses leaves the output
and the source as they were, and what it lets pass cannot fail any more, for a conversion of one
sample only looks at what was checked before (`copySamples_one`).  Then the bytes that change are
those of pixels whose blocks were read (`WrittenFrom`), at the end as at any time before.  All of
this takes room for a block: where no buffer can hold one, nothing is read (`scatter_without_room`).
-/
import RasterWarp.Proofs.BlockReads
import RasterWarp.Proofs.ExactArithmetic
import RasterWarp.Proofs.InPlace
import RasterWarp.Proofs.PartialWrites

namespace RasterWarp

open Numeral (wordBound)

variable {σ α : Type}

/-! ## 1. One sample and one block -/

/-- **A conversion of one whole sample between known types** does not fail. -/
theorem copySamples_one {source target : SampleType} (hsource : source ≠ .unknown)
    (htarget : target ≠ .unknown) {sample place : Bytes} (hsample : sample.size = source.size)
    (hplace : place.size = target.size) :
    copySamples sample source place target 1
      = (.ok (convertSample source target sample) : Outcome α Bytes) := by
  have hcopied : (if source = target then sample.extract 0 (1 * source.size)
      else convertSamples source target sample 1) = convertSample source target sample := by
    unfold convertSample
    split
    · rw [Nat.one_mul, ← hsample]
      simp
    · simp [convertSamples, Bytes.concat, List.range_succ, ← hsample]
  have hrest : place.extract (1 * target.size) place.size = #[] := by
    rw [Nat.one_mul, ← hplace]
    simp
  unfold copySamples
  rw [if_neg (not_or.mpr ⟨hsource, htarget⟩), if_neg (by omega), if_neg (by omega)]
  simp only [hcopied, hrest, Array.append_empty]

/-- Takes one sample of a block over into the output, by its bytes or by a conversion. -/
def storePixel (g : Tiling) (sourceType target : SampleType) (block : Bytes)
    (source destination : Nat) : InPlace Bytes α Unit := do
  if g.rasterWidth = 0 then throw (.fault .zeroDivisor)
  let offset := (g.locate (source % g.rasterWidth) (source / g.rasterWidth)).2
  let sample ← inRange (α := α) (block.slice? (offset * sourceType.size) sourceType.size)
  let output ← get
  let place ← inRange (α := α) (output.slice? (destination * target.size) target.size)
  if sourceType = target ∧ sourceType.isHandedOn then
    set (output.overwrite (destination * target.size) sample)
  else
    let converted ← copySamples (α := α) sample sourceType place target 1
    set (output.overwrite (destination * target.size) converted)

/-- Takes the samples of a block over, one after the other. -/
def storeBlock (g : Tiling) (sourceType target : SampleType) (block : Bytes)
    (pixels : PixelGroup) : InPlace Bytes α Unit :=
  forM pixels.pairs fun (source, destination) =>
    storePixel g sourceType target block source destination

section Block

variable {type target : SampleType} (htype : type ≠ .unknown) (htarget : target ≠ .unknown)

include htype htarget

/-- **One pixel** in place. -/
theorem gives_storePixel (g : Tiling) (block output : Bytes) (source destination : Nat) :
    (storePixel g type target block source destination : InPlace Bytes α Unit).Gives output
      (transferPixel g type target block output source destination) := by
  unfold storePixel transferPixel
  by_cases hwidth : g.rasterWidth = 0
  · simp [hwidth, InPlace.Gives]
    rfl
  · cases hsample : block.slice?
        ((g.locate (source % g.rasterWidth) (source / g.rasterWidth)).2 * type.size) type.size with
    | none => simp [hwidth, hsample, inRange, InPlace.Gives]
    | some sample =>
      have hsize := Bytes.size_of_slice? hsample
      have hconverted : (convertSample type target sample).size = target.size :=
        size_convertSample hsize
      by_cases hfits : destination * target.size + target.size ≤ output.size
      · have hplace := Bytes.slice?_eq_some output hfits
        have hcopy := copySamples_one (α := α) htype htarget hsize (Bytes.size_of_slice? hplace)
        have hsplice : output.splice? (destination * target.size) (convertSample type target sample)
            = some (output.overwrite (destination * target.size)
                (convertSample type target sample)) := by
          rw [Bytes.splice?, hconverted, if_pos hfits]
        by_cases hraw : type = target ∧ type.isHandedOn
        · obtain ⟨rfl, hhanded⟩ := hraw
          have hsame : convertSample type type sample = sample := if_pos rfl
          rw [hsame] at hsplice
          simp [hwidth, hsample, hplace, hhanded, hsame, hsplice, InPlace.Gives]
        · simp [hwidth, hsample, hplace, hraw, hcopy, hsplice, InPlace.Gives]
      · have hplace : output.slice? (destination * target.size) target.size = none := if_neg hfits
        have hsplice : output.splice? (destination * target.size) (convertSample type target sample)
            = none := by
          rw [Bytes.splice?, hconverted, if_neg hfits]
        simp [hwidth, hsample, hplace, hsplice, inRange, InPlace.Gives]

/-- **One block** in place. -/
theorem gives_storeBlock (g : Tiling) (block output : Bytes) (pixels : PixelGroup) :
    (storeBlock g type target block pixels : InPlace Bytes α Unit).Gives output
      (transferBlock g type target block pixels output) :=
  InPlace.Gives.loop (fun _ => True)
    (fun p output _ => gives_storePixel htype htarget g block output p.1 p.2)
    (fun _ _ _ _ _ => trivial) pixels.pairs trivial

end Block

/-! ## 2. The loop over the groups -/

variable [BlockSource σ]

/-- Keeps a record of an attempt. -/
def noteAttempt (a : BlockRead α) : InPlace (Scattering σ α) α Unit :=
  modify fun s => { s with attempts := s.attempts ++ [a] }

/-- Takes the samples of a block that was read over into the output, and notes the read. -/
def storeRead (g : Tiling) (type target : SampleType) (block : Bytes) (pixels : PixelGroup)
    (a : BlockRead α) : InPlace (Scattering σ α) α Unit := do
  (storeBlock g type target block pixels).within Scattering.output fun s output => { s with output }
  noteAttempt a

/-- Reads the block of a group and takes its samples over, or leaves it out. -/
def scatterGroup (g : Tiling) (target : SampleType) (q : Nat × PixelGroup) :
    InPlace (Scattering σ α) α Unit := do
  let s ← get
  let type := BlockSource.type s.source
  match g.position? q.1 with
  | none => throw (.fault .zeroDivisor)
  | some (x, y) =>
    let buffer ← blank (α := α) (g.blockBytes type.size)
    match (BlockSource.fetch s.source x y buffer : Outcome α (Bytes × σ)) with
    | .error (.failure f) => noteAttempt ⟨x, y, some f⟩
    | .error (.fault f) => throw (.fault f)
    | .ok (block, source) =>
      set { s with source }
      storeRead g type target block q.2 ⟨x, y, none⟩

/-- **Scatters the groups of a plan in place,** after the check of what can be seen up front. -/
def scatterInPlace (g : Tiling) (groups : PixelGroups) (target : SampleType) :
    InPlace (Scattering σ α) α Unit := do
  let s ← get
  let type := BlockSource.type s.source
  match scatterRefusal? (α := α) type target groups s.output.size with
  | some e => throw e
  | none =>
    let _ ← inWord (α := α) (g.blockBytes? type.size)
    forM groups (scatterGroup g target)

section Loop

variable {source : σ} {g : Tiling} {target : SampleType}

/-- What is read stays read. -/
theorem readFrom_scatterBlock {s next : Scattering σ α} (hs : ReadFrom α source s.source)
    {index : Nat} {pixels : PixelGroup} (h : scatterBlock g target s index pixels = .ok next) :
    ReadFrom α source next.source := by
  unfold scatterBlock at h
  cases hposition : g.position? index with
  | none =>
    simp only [hposition] at h
    cases h
  | some xy =>
    simp only [hposition] at h
    obtain ⟨buffer, -, h⟩ := Outcome.bind_eq_ok_iff.mp h
    cases hfetch : (BlockSource.fetch s.source xy.1 xy.2 buffer : Outcome α (Bytes × σ)) with
    | error e =>
      rw [hfetch] at h
      cases e with
      | failure f =>
        cases h
        exact hs
      | fault f => cases h
    | ok read =>
      rw [hfetch] at h
      simp only at h
      cases houtput : transferBlock (α := α) g (BlockSource.type s.source) target read.1 pixels
          s.output with
      | error e =>
        rw [houtput] at h
        cases h
      | ok output =>
        rw [houtput] at h
        cases h
        exact hs.fetch hfetch

variable (htarget : target ≠ .unknown)

include htarget

omit [BlockSource σ] in
/-- What is stored is noted. -/
theorem gives_storeRead {type : SampleType} (htype : type ≠ .unknown) (block : Bytes)
    (pixels : PixelGroup) (a : BlockRead α) (s : Scattering σ α) :
    (storeRead g type target block pixels a).Gives s
      ((transferBlock (α := α) g type target block pixels s.output).map fun output =>
        { s with output, attempts := s.attempts ++ [a] }) :=
  (gives_storeBlock htype htarget g block s.output pixels).within_modify _

/-- **One group** in place. -/
theorem gives_scatterGroup {s : Scattering σ α} (htype : BlockSource.type s.source ≠ .unknown)
    (q : Nat × PixelGroup) :
    (scatterGroup g target q).Gives s (scatterBlock g target s q.1 q.2) := by
  unfold scatterBlock
  refine .of_get ?_
  cases hposition : g.position? q.1 with
  | none => exact rfl
  | some xy =>
    refine .of_lift ?_
    intro buffer _
    cases hfetch : (BlockSource.fetch s.source xy.1 xy.2 buffer : Outcome α (Bytes × σ)) with
    | error e =>
      cases e with
      | failure f =>
        dsimp only
        exact rfl
      | fault f =>
        dsimp only
        exact rfl
    | ok read =>
      dsimp only
      have hstored := gives_storeRead (g := g) htarget htype read.1 q.2 ⟨xy.1, xy.2, none⟩
        { s with source := read.2 }
      cases htransfer : transferBlock (α := α) g (BlockSource.type s.source) target read.1 q.2
          s.output with
      | error e =>
        rw [htransfer] at hstored
        exact hstored
      | ok output =>
        rw [htransfer] at hstored
        exact hstored

omit htarget in
/-- What is refused is refused before anything is done. -/
theorem apply_scatterInPlace_of_refused {s : Scattering σ α} {groups : PixelGroups}
    {e : Interrupt (Failure α)}
    (h : scatterRefusal? (BlockSource.type s.source) target groups s.output.size = some e) :
    (scatterInPlace g groups target).apply s = (.error e, s) := by
  simp [scatterInPlace, h]

/-- **All groups** in place. -/
theorem gives_scatterInPlace {contents : Nat → Nat → Option Bytes}
    (hsteady : Steady α source g contents) (htype : BlockSource.type source ≠ .unknown)
    (groups : PixelGroups) (output : Bytes) :
    (scatterInPlace g groups target).Gives ⟨source, output, []⟩
      (scatterBlocks (α := α) source g groups target output) := by
  unfold scatterBlocks
  refine .of_get ?_
  cases hrefusal : scatterRefusal? (α := α) (BlockSource.type source) target groups output.size with
  | some e =>
    simp only [hrefusal]
    exact rfl
  | none =>
    simp only [hrefusal]
    refine .of_lift ?_
    intro _ _
    refine InPlace.Gives.loop (fun s => ReadFrom α source s.source) ?_ ?_ groups .start
    · intro q s hs
      exact gives_scatterGroup htarget (by rwa [hsteady.type_eq hs]) q
    · intro q s next hs hnext
      exact readFrom_scatterBlock hs hnext

end Loop

/-! ## 3. Workers -/

namespace Workers

/-- Reads the block of a pending group, which writes nothing. -/
def readPending (g : Tiling) (i : Nat) : InPlace (Workers σ) α Unit := do
  let ws ← get
  let next ← ws.read (α := α) g i
  set next

/-- Counts a block that was written. -/
def noteWritten (i : Nat) : InPlace (Workers σ) α Unit :=
  modify fun ws => { ws with
    loaded := ws.loaded.eraseIdx i, tallies := ws.tallies ++ [⟨1, 0⟩] }

/-- Writes a block that was read, sample by sample, while nobody else writes. -/
def writeLoaded (g : Tiling) (target : SampleType) (i : Nat) : InPlace (Workers σ) α Unit := do
  let ws ← get
  match ws.loaded[i]? with
  | none => pure ()
  | some (q, block) =>
    (storeBlock g (BlockSource.type ws.source) target block q.2).within Workers.output
      fun ws output => { ws with output }
    noteWritten i

/-- What some worker does next, in place. -/
def takeTurn (g : Tiling) (target : SampleType) : Turn → InPlace (Workers σ) α Unit
  | .read i => readPending g i
  | .write i => writeLoaded g target i

/-- **Scatters the pending groups by workers,** after the check of what can be seen up front. -/
def scatter (g : Tiling) (target : SampleType) (turns : List Turn) :
    InPlace (Workers σ) α Unit := do
  let ws ← get
  let type := BlockSource.type ws.source
  match scatterRefusal? (α := α) type target ws.pending ws.output.size with
  | some e => throw e
  | none =>
    let _ ← inWord (α := α) (g.blockBytes? type.size)
    forM turns (takeTurn g target)

variable {source : σ} {g : Tiling} {target : SampleType}

theorem apply_scatter_of_refused {ws : Workers σ} {turns : List Turn} {e : Interrupt (Failure α)}
    (h : scatterRefusal? (BlockSource.type ws.source) target ws.pending ws.output.size = some e) :
    (scatter g target turns).apply ws = (.error e, ws) := by
  simp [scatter, h]

/-- What is not refused is left to the workers, if the size of a block is a word. -/
theorem apply_scatter_of_served {ws : Workers σ} {turns : List Turn}
    (h : scatterRefusal? (α := α) (BlockSource.type ws.source) target ws.pending ws.output.size
      = none) :
    (scatter g target turns : InPlace (Workers σ) α Unit).apply ws
      = match g.blockBytes? (BlockSource.type ws.source).size with
        | some _ => (forM turns (takeTurn g target) : InPlace (Workers σ) α Unit).apply ws
        | none => (.error (.fault .overflow), ws) := by
  unfold scatter
  simp only [InPlace.apply_bind, InPlace.apply_get, h]
  cases g.blockBytes? (BlockSource.type ws.source).size <;> rfl

variable (htarget : target ≠ .unknown)

include htarget

omit [BlockSource σ] in
/-- What is stored is counted. -/
theorem gives_storeWritten {type : SampleType} (htype : type ≠ .unknown) (block : Bytes)
    (pixels : PixelGroup) (i : Nat) (ws : Workers σ) :
    ((storeBlock (α := α) g type target block pixels).within Workers.output
        (fun ws output => { ws with output }) >>= fun _ => noteWritten i).Gives ws
      ((transferBlock (α := α) g type target block pixels ws.output).map fun output =>
        { ws with output, loaded := ws.loaded.eraseIdx i, tallies := ws.tallies ++ [⟨1, 0⟩] }) :=
  (gives_storeBlock htype htarget g block ws.output pixels).within_modify _

/-- **One turn** in place. -/
theorem gives_takeTurn {ws : Workers σ} (htype : BlockSource.type ws.source ≠ .unknown) (t : Turn) :
    (takeTurn g target t).Gives ws (ws.turn (α := α) g target t) := by
  cases t with
  | read i =>
    show (readPending g i).Gives ws (ws.read g i)
    refine .of_get ?_
    cases hread : ws.read (α := α) g i with
    | error e => exact rfl
    | ok next => exact rfl
  | write i =>
    show (writeLoaded g target i).Gives ws (ws.write g target i)
    refine .of_get ?_
    unfold Workers.write
    cases hi : ws.loaded[i]? with
    | none => exact rfl
    | some e =>
      have hdone := gives_storeWritten (α := α) (g := g) htarget htype e.2 e.1.2 i ws
      cases htransfer : transferBlock (α := α) g (BlockSource.type ws.source) target e.2 e.1.2
          ws.output with
      | error f =>
        rw [htransfer] at hdone
        simp only [htransfer]
        exact hdone
      | ok output =>
        rw [htransfer] at hdone
        simp only [htransfer]
        exact hdone

omit htarget in
/-- What workers read stays read. -/
theorem readFrom_turn {ws next : Workers σ} (hws : ReadFrom α source ws.source) {t : Turn}
    (h : ws.turn g target t = (.ok next : Outcome α (Workers σ))) :
    ReadFrom α source next.source := by
  cases t with
  | read i =>
    have h : ws.read (α := α) g i = .ok next := h
    unfold Workers.read at h
    split at h
    · cases h
      exact hws
    · split at h
      · cases h
      · obtain ⟨buffer, -, h⟩ := Outcome.bind_eq_ok_iff.mp h
        split at h
        · cases h
          exact hws
        · cases h
        · rename_i hfetch
          cases h
          exact hws.fetch hfetch
  | write i =>
    have h : ws.write (α := α) g target i = .ok next := h
    unfold Workers.write at h
    split at h
    · cases h
      exact hws
    · obtain ⟨output, -, h⟩ := Outcome.bind_eq_ok_iff.mp h
      cases h
      exact hws

/-- **Any schedule** in place. -/
theorem gives_turns {contents : Nat → Nat → Option Bytes}
    (hsteady : Steady α source g contents) (htype : BlockSource.type source ≠ .unknown)
    (groups : PixelGroups) (output : Bytes) (turns : List Turn) :
    (forM turns (takeTurn g target)).Gives (start source groups output)
      ((start source groups output).run (α := α) g target turns) := by
  refine InPlace.Gives.loop (fun ws => ReadFrom α source ws.source) ?_ ?_ turns .start
  · intro t ws hws
    exact gives_takeTurn htarget (by rwa [hsteady.type_eq hws]) t
  · intro t ws next hws hnext
    exact readFrom_turn hws hnext

end Workers

/-! ## 4. Which bytes change -/

/-- **A byte outside all pieces that are stored** stays. -/
theorem Bytes.getElem?_storeAll {k i : Nat} (writes : List (Nat × Bytes)) (b : Bytes)
    (h : ∀ w ∈ writes, ¬ (w.1 * k ≤ i ∧ i < w.1 * k + w.2.size)) :
    (storeAll k b writes)[i]? = b[i]? := by
  induction writes generalizing b with
  | nil => rfl
  | cons w writes ih =>
    rw [storeAll, List.foldl_cons, ← storeAll,
      ih _ fun w' hw' => h w' (List.mem_cons_of_mem _ hw'), getElem?_overwrite,
      if_neg fun hin => h w List.mem_cons_self ⟨hin.1, hin.2.1⟩]

/-- **An output that was written from a layer:** it has kept its size, and a byte that has changed
is one of a pixel whose block was read. -/
structure Layer.WrittenFrom (α : Type) (l : Layer) (groups : PixelGroups) (target : SampleType)
    (before after : Bytes) : Prop where
  size_eq : after.size = before.size
  changed : ∀ i, after[i]? ≠ before[i]? → ∃ q ∈ groups,
    (l.attempt q.1 : BlockRead α).failure = none ∧
      ∃ d ∈ q.2.destination.toList, d * target.size ≤ i ∧ i < (d + 1) * target.size

/-- A block with contents is not marked. -/
theorem Layer.unmarked_of_contents {l : Layer} {x y : Nat} {block : Bytes}
    (h : l.contents x y = some block) : l.failing.contains (x, y) = false := by
  unfold Layer.contents at h
  split at h
  · rename_i hin
    exact hin.2.2
  · cases h

/-- What a group writes are whole samples for its own pixels, from a block that was read. -/
theorem read_of_mem_groupWrites {l : Layer} {target : SampleType} {q : Nat × PixelGroup}
    {e : Nat × Bytes} (h : e ∈ groupWrites l.grid l.type target l.contents q) :
    (l.attempt q.1 : BlockRead α).failure = none ∧ e.2.size = target.size ∧
      e.1 ∈ q.2.destination.toList := by
  unfold groupWrites at h
  cases hunder : blockUnder? l.grid l.contents q.1 with
  | none =>
    rw [hunder] at h
    cases h
  | some block =>
    rw [hunder] at h
    obtain ⟨⟨s, d⟩, hsd, rfl⟩ := List.mem_map.mp h
    obtain ⟨⟨x, y⟩, hposition, hcontents⟩ := Option.bind_eq_some_iff.mp hunder
    refine ⟨?_, size_carried target (l.size_of_contents hcontents) s, ?_⟩
    · unfold Tiling.position? at hposition
      split at hposition
      · cases hposition
      · obtain ⟨rfl, rfl⟩ := Prod.mk.inj (Option.some.inj hposition)
        rw [l.attempt_readable (Layer.unmarked_of_contents hcontents)]
    · rw [PixelGroup.pairs, Array.toList_zip] at hsd
      exact (List.of_mem_zip hsd).2

/-- **What some groups of a plan write** is written from their layer. -/
theorem Layer.writtenFrom_storeAll {l : Layer} {groups done : PixelGroups} {target : SampleType}
    {output : Bytes} (hdone : ∀ q ∈ done, q ∈ groups) :
    l.WrittenFrom α groups target output (Bytes.storeAll target.size output
      (done.flatMap (groupWrites l.grid l.type target l.contents))) := by
  refine ⟨Bytes.size_storeAll .., ?_⟩
  intro i hchanged
  by_contra hnone
  refine hchanged (Bytes.getElem?_storeAll _ _ ?_)
  rintro e he ⟨hstart, hend⟩
  obtain ⟨q, hq, he⟩ := List.mem_flatMap.mp he
  obtain ⟨hread, hsize, hd⟩ := read_of_mem_groupWrites (α := α) he
  refine hnone ⟨q, hdone q hq, hread, e.1, hd, hstart, ?_⟩
  rw [Nat.add_mul, Nat.one_mul]
  omega

/-! ## 5. All or nothing -/

/-- Each group counts for one, read or failed. -/
theorem sum_groupTally {g : Tiling} {contents : Nat → Nat → Option Bytes} (groups : PixelGroups) :
    (BlockTally.sum (groups.map (groupTally g contents))).read
      + (BlockTally.sum (groups.map (groupTally g contents))).failed = groups.length := by
  induction groups with
  | nil => rfl
  | cons q groups ih =>
    have hone : (groupTally g contents q).read + (groupTally g contents q).failed = 1 := by
      unfold groupTally
      split <;> rfl
    have hempty : BlockTally.empty.merge (groupTally g contents q) = groupTally g contents q :=
      BlockTally.merge_comm ..
    rw [List.map_cons, BlockTally.sum, List.foldl_cons, BlockTally.foldl_merge, hempty,
      List.length_cons]
    simp only [BlockTally.merge]
    omega

section Plan

variable {l : Layer} {plan : ReadPlan} {target : SampleType} {output : Bytes}

/-- A refusal that is no failure is of a pixel whose end is no word. -/
theorem failure_of_scatterRefusal? {type : SampleType} {size : Nat} {e : Interrupt (Failure α)}
    (h : scatterRefusal? type target plan.groups size = some e)
    (hends : ∀ d ∈ plan.destinations, (d + 1) * target.size < wordBound) :
    ∃ f, e = .failure f := by
  unfold scatterRefusal? at h
  split at h
  · exact ⟨_, (Option.some.inj h).symm⟩
  · split at h
    · exact ⟨_, (Option.some.inj h).symm⟩
    · cases hlast : lastPixel? plan.groups with
      | none =>
        rw [hlast] at h
        cases h
      | some last =>
        rw [hlast] at h
        simp only at h
        split at h
        · cases h
        · have hend := hends last (List.max?_eq_some_iff.mp hlast).1
          exact ⟨_, (Option.some.inj h).symm.trans (Cause.refusing_of_lt hend)⟩

/-- **What is refused** leaves everything as it was. -/
theorem scatter_refused (h : plan.Refused l.type target output.size) :
    ∃ e : Interrupt (Failure α),
      scatterBlocks l l.grid plan.groups target output = .error e ∧
      (scatterInPlace l.grid plan.groups target).apply ⟨l, output, []⟩
        = (.error e, ⟨l, output, []⟩) ∧
      (∀ turns, (Workers.scatter l.grid target turns).apply (Workers.start l plan.groups output)
        = (.error e, Workers.start l plan.groups output)) ∧
      ((∀ d ∈ plan.destinations, (d + 1) * target.size < wordBound) → ∃ f, e = .failure f) := by
  obtain ⟨e, he⟩ : ∃ e, scatterRefusal? (α := α) (BlockSource.type l) target plan.groups output.size
      = some e := by
    refine Option.ne_none_iff_exists'.mp ?_
    intro hnone
    exact (scatterRefusal?_eq_none_iff plan).mp hnone h
  refine ⟨e, ?_, apply_scatterInPlace_of_refused he, ?_, failure_of_scatterRefusal? he⟩
  · simp only [scatterBlocks, he]
  · intro turns
    exact Workers.apply_scatter_of_refused he

variable (hserved : ¬ plan.Refused l.type target output.size)

include hserved

theorem ReadPlan.known_of_served : l.type ≠ .unknown ∧ target ≠ .unknown :=
  ⟨fun htype => hserved (.inl htype), fun htarget => hserved (.inr (.inl htarget))⟩

variable [Scalar α] {transform : {n : Nat} → Batch α n → Outcome α (Batch α n)} {w : Window}
  (hp : plan.Partitions transform w l.grid)

include hp

/-- **Without room for the blocks** nothing is written: the loop ends in a fault, and no workers get
past a read. -/
theorem scatter_without_room (hroom : ¬ l.grid.RoomFor l.type.size plan.groups) :
    (∃ f : Fault, f.OfSize ∧
      scatterBlocks (α := α) l l.grid plan.groups target output = .error (.fault f) ∧
      ((scatterInPlace l.grid plan.groups target : InPlace (Scattering Layer α) α Unit).apply
        ⟨l, output, []⟩).1 = .error (.fault f)) ∧
    ∀ turns ws, (Workers.scatter l.grid target turns : InPlace (Workers Layer) α Unit).apply
        (Workers.start l plan.groups output) = (.ok (), ws) →
      ws = Workers.start l plan.groups output := by
  obtain ⟨htype, htarget⟩ := ReadPlan.known_of_served hserved
  have hnone := (scatterRefusal?_eq_none_iff (α := α) plan).mpr hserved
  have hsteady := layer_steady α l
  constructor
  · obtain ⟨f, hsize, hf⟩ := scatterBlocks_of_not_roomFor (α := α) l hnone
      (fun q hq => (hp.placed hq).2) hroom
    have hgives := gives_scatterInPlace htarget hsteady htype plan.groups output
    rw [hf] at hgives
    exact ⟨f, hsize, hf, hgives⟩
  · intro turns ws happly
    have hlarge : bufferBound ≤ l.grid.blockBytes l.type.size := by
      refine Nat.le_of_not_lt fun hbytes => hroom ?_
      exact (Tiling.room_of_lt htype hbytes).roomFor _
    have hgives := Workers.gives_turns (α := α) htarget hsteady htype plan.groups output turns
    rw [Workers.apply_scatter_of_served hnone] at happly
    split at happly
    · cases hrun : (Workers.start l plan.groups output).run (α := α) l.grid target turns with
      | error e =>
        rw [hrun] at hgives
        exact absurd ((congrArg Prod.fst happly).symm.trans hgives) nofun
      | ok ended =>
        rw [hrun] at hgives
        obtain rfl : ended = ws := congrArg Prod.snd (hgives.symm.trans happly)
        exact Workers.run_of_not_room hlarge turns hrun
    · cases happly

variable (hroom : l.grid.RoomFor l.type.size plan.groups)

include hroom

/-- A plan that is not refused can be written, group by group. -/
theorem ReadPlan.Partitions.groupFits_of_served :
    ∀ q ∈ plan.groups, GroupFits l.grid l.type target.size output.size q := by
  intro q hq
  refine hp.groupFits_of_fits hroom ?_ hq
  intro d hd
  refine Nat.le_of_not_lt ?_
  intro hshort
  exact hserved (.inr (.inr ⟨d, hd, hshort⟩))

/-- **The loop** over a plan that is not refused. -/
theorem scatterInPlace_served : ∃ s : Scattering Layer α,
    scatterBlocks l l.grid plan.groups target output = .ok s ∧
    (scatterInPlace l.grid plan.groups target).apply ⟨l, output, []⟩ = (.ok (), s) ∧
    s.attempts = plan.groups.map (fun q => l.attempt q.1) ∧
    s.tally.read + s.tally.failed = plan.groups.length ∧
    l.WrittenFrom α plan.groups target output s.output := by
  obtain ⟨htype, htarget⟩ := ReadPlan.known_of_served hserved
  have hsteady := layer_steady α l
  obtain ⟨s, hs, houtput, -⟩ := scatterGroups_eq target hsteady plan.groups
    (⟨l, output, []⟩ : Scattering Layer α) .start (hp.groupFits_of_served hserved hroom)
  have hscatter : scatterBlocks l l.grid plan.groups target output = .ok s :=
    scatterBlocks_eq_ok_iff.mpr
      ⟨(scatterRefusal?_eq_none_iff plan).mpr hserved, hroom.counted, hs⟩
  have hgives := gives_scatterInPlace htarget hsteady htype plan.groups output
  rw [hscatter] at hgives
  obtain ⟨hattempts, -⟩ := scatterGroups_attempts plan.groups rfl
    (fun q hq => ⟨hroom.room q hq, hp.has hq⟩) hs
  refine ⟨s, hscatter, hgives, hattempts, ?_, ?_⟩
  · rw [s.tally_length, hattempts]
    simp
  · rw [houtput]
    exact Layer.writtenFrom_storeAll fun q hq => hq

/-- **Workers** at a plan that is not refused, on any schedule. -/
theorem Workers.exists_of_served (turns : List Turn) : ∃ ws done,
    (Workers.start l plan.groups output).run l.grid target turns
      = (.ok ws : Outcome α (Workers Layer)) ∧
    (Workers.scatter l.grid target turns : InPlace (Workers Layer) α Unit).apply
      (Workers.start l plan.groups output) = (.ok (), ws) ∧
    Working α l l.grid l.contents target plan.groups output done ws := by
  obtain ⟨htype, htarget⟩ := ReadPlan.known_of_served hserved
  have hsteady := layer_steady α l
  obtain ⟨ws, done, hws, h⟩ :=
    run_working hsteady (hp.groupFits_of_served hserved hroom) turns .start
  have hgives := Workers.gives_turns htarget hsteady htype plan.groups output turns
  rw [hws] at hgives
  refine ⟨ws, done, hws, ?_, h⟩
  obtain ⟨size, hsize⟩ := Option.isSome_iff_exists.mp hroom.counted
  rw [Workers.apply_scatter_of_served ((scatterRefusal?_eq_none_iff plan).mpr hserved),
    show l.grid.blockBytes? (BlockSource.type (Workers.start l plan.groups output).source).size
      = some size from hsize]
  exact hgives

/-- What workers come to: nothing else is written, every schedule can be completed, and then each
group was counted once. -/
theorem Workers.scatter_served (turns : List Turn) : ∃ ws,
    (Workers.scatter l.grid target turns : InPlace (Workers Layer) α Unit).apply
      (Workers.start l plan.groups output) = (.ok (), ws) ∧
    l.WrittenFrom α plan.groups target output ws.output ∧
    (∃ more ended, (Workers.scatter l.grid target (turns ++ more) :
        InPlace (Workers Layer) α Unit).apply (Workers.start l plan.groups output)
      = (.ok (), ended) ∧ ended.Finished) ∧
    (ws.Finished → ∀ m : Merging, m.leaves.Perm ws.tallies →
      m.total.read + m.total.failed = plan.groups.length) := by
  have hsteady := layer_steady α l
  have hfits := hp.groupFits_of_served hserved hroom
  obtain ⟨ws, done, hws, happly, h⟩ := Workers.exists_of_served hserved hp hroom turns
  refine ⟨ws, happly, ?_, ?_, ?_⟩
  · rw [h.output_eq]
    refine Layer.writtenFrom_storeAll ?_
    intro q hq
    exact h.split.mem_iff.mp (List.mem_append_left _ hq)
  · obtain ⟨more, ended, hmore, hended⟩ := exists_finish hsteady hfits h
    obtain ⟨ended', -, hrun', happly', -⟩ :=
      Workers.exists_of_served hserved hp hroom (turns ++ more)
    have hrun : (Workers.start l plan.groups output).run l.grid target (turns ++ more)
        = (.ok ended : Outcome α (Workers Layer)) := by
      rw [Workers.run, List.foldlM_append, ← Workers.run, hws]
      exact hmore
    obtain rfl : ended' = ended := Except.ok.inj (hrun'.symm.trans hrun)
    exact ⟨more, ended', happly', hended⟩
  · intro hfinished m hm
    rw [m.total_eq_sum, BlockTally.sum_perm hm, h.tallies_eq, sum_groupTally,
      (h.perm_of_finished hfinished).length_eq]

end Plan

end RasterWarp
