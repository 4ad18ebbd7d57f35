/-
# What a warp reads and counts

A warp that returns an output has opened one source and rendered its window from one level of the
source's band (`Serving`, an invariant of its steps).  The blocks it asked for are those that own
the source pixels of its plan, each once, and the level counts those that could be read.

`warp_reads` puts this together with the metrics of the output, and with the counters of everything
that is registered: a level is named by its path, its band and its place among the overviews
(`Registry.layerAt`), and the one that was read from is the only one to change.
-/
import RasterWarp.Proofs.BlockReads
import RasterWarp.Proofs.NearestNeighbour
import RasterWarp.Proofs.RenderedParts

namespace RasterWarp

/-! ## 1. Every level that is registered -/

/-- The level of a band at an address: its own, or that of an overview of an overview, and so
on. -/
def Band.layerAt (b : Band) : List Nat → Option Layer
  | [] => some b.full
  | i :: rest => b.overviews[i]?.bind (·.layerAt rest)

/-- The level at an address below a band of the dataset under a path; bands are counted from 0. -/
def Registry.layerAt {α : Type} (rasters : Registry α) (path : String) (band : Nat)
    (address : List Nat) : Option Layer :=
  (rasters.find? path).bind fun d => d.bands[band]?.bind (·.layerAt address)

/-- The address of the level that is read. -/
def levelAddress : Option Nat → List Nat
  | none => []
  | some i => [i]

/-- A level that can be read stands at its address. -/
theorem Band.layerAt_levelAddress (b : Band) (level : Option Nat) :
    b.layerAt (levelAddress level) = b.level? level := by
  cases level with
  | none => rfl
  | some i =>
    simp only [levelAddress, layerAt, level?]
    cases b.overviews[i]? <;> rfl

/-- **Reads are counted at one address of a band,** and every other level stays as it was. -/
theorem Band.layerAt_credit (b : Band) (level : Option Nat) (n : Nat) (address : List Nat) :
    (b.credit level n).layerAt address
      = if address = levelAddress level then (b.layerAt address).map (·.credit n)
        else b.layerAt address := by
  cases level with
  | none =>
    cases address with
    | nil => rfl
    | cons i rest => rfl
  | some k =>
    cases address with
    | nil => rfl
    | cons i rest =>
      simp only [credit, layerAt, List.getElem?_modify, levelAddress, List.cons.injEq]
      cases hi : b.overviews[i]? with
      | none => simp
      | some o =>
        by_cases hik : i = k
        · subst hik
          cases rest with
          | nil => simp [layerAt]
          | cons j rest => simp [layerAt]
        · simp [hik, Ne.symm hik]

section Counters

variable {α : Type}

/-- **Reads are counted for one level of all that are registered.** -/
theorem Registry.layerAt_credit (rasters : Registry α) (path path' : String) (position : Nat)
    (level : Option Nat) (n band : Nat) (address : List Nat) :
    (rasters.credit path position level n).layerAt path' band address
      = if path' = path ∧ band = position - 1 ∧ address = levelAddress level then
          (rasters.layerAt path' band address).map (·.credit n)
        else rasters.layerAt path' band address := by
  unfold layerAt
  rw [find?_credit]
  cases rasters.find? path' with
  | none => simp
  | some d =>
    by_cases hpath : path' = path
    · simp only [Option.map_some, Option.bind_some, hpath, if_true, true_and,
        List.getElem?_modify]
      cases hband : d.bands[band]? with
      | none => simp
      | some b =>
        by_cases hposition : band = position - 1
        · simp only [hposition, Option.map_some, Option.bind_some, Option.map_eq_map, if_true,
            true_and, Band.layerAt_credit]
        · simp [hposition, Ne.symm hposition]
    · simp [hpath]

end Counters

/-! ## 2. One source is opened and rendered -/

section Serving

variable {ε α : Type} [Scalar α] {c : Config α}

/-- **An invocation at work on an opened source,** with the datasets as they were when it was
opened.  If it has an output, that is what was rendered with some context, and the reads are
counted. -/
def Serving (c : Config α) (o : Opened α) (rasters : Registry α) (s : Shared ε α) :
    Phase α → Prop
  | .requested _ => False
  | .opened o' _ => o' = o ∧ s.rasters = rasters
  | .missed o' _ => o' = o ∧ s.rasters = rasters
  | .created o' _ _ => o' = o ∧ s.rasters = rasters
  | .holding o' _ _ => o' = o ∧ s.rasters = rasters
  | .finished (.error _) => True
  | .finished (.ok output) => ∃ context v cached log,
      (render c o context).run.run [] = (.ok v, log) ∧ output = v.output o cached ∧
        s.rasters
          = rasters.credit o.request.path o.position v.overview v.scattered.tally.read

variable {o : Opened α} {rasters : Registry α} {s : Shared ε α}

theorem acquire_serving (hs : s.rasters = rasters) (cached : Bool)
    (context : Outcome α (WarpContext α)) :
    Serving c o rasters s (Phase.acquire o cached context) := by
  cases context with
  | error i => cases i <;> trivial
  | ok context => exact ⟨rfl, hs⟩

variable [Engine ε α]

theorem start_serving (hs : s.rasters = rasters) :
    Serving c o rasters (Phase.start s o).1 (Phase.start s o).2 := by
  unfold Phase.start
  cases hg : o.request.geolocation with
  | some options =>
    simp only [hg]
    refine acquire_serving (c := c) ?_ ..
    exact hs
  | none =>
    cases hd : o.request.destinationCrs? with
    | none =>
      simp only [hg, hd]
      refine acquire_serving (c := c) ?_ ..
      exact hs
    | some crs =>
      simp only [hg, hd]
      cases CrsPair.new (α := α) o.crs crs with
      | error f =>
        simp only
        exact acquire_serving hs ..
      | ok key => exact ⟨rfl, hs⟩

omit [Engine ε α] in
theorem lookUp_serving (hs : s.rasters = rasters) (key : CrsPair) :
    Serving c o rasters (Phase.lookUp s o key).1 (Phase.lookUp s o key).2 := by
  unfold Phase.lookUp
  cases s.cache.get key with
  | mk found cache =>
    cases found with
    | none => exact ⟨rfl, hs⟩
    | some context =>
      refine acquire_serving (c := c) ?_ ..
      exact hs

theorem create_serving (hs : s.rasters = rasters) (key : CrsPair) :
    Serving c o rasters (Phase.create s o key).1 (Phase.create s o key).2 := by
  unfold Phase.create
  cases Engine.affineContext s.engine o.crs o.source (some key.destination)
      o.request.destination with
  | mk context engine =>
    cases context with
    | error i =>
      simp only
      refine acquire_serving (c := c) ?_ ..
      exact hs
    | ok context =>
      simp only
      split
      · exact ⟨rfl, hs⟩
      · exact ⟨rfl, hs⟩

theorem finish_serving (hs : s.rasters = rasters) (context : WarpContext α) (cached : Bool) :
    Serving c o rasters (Phase.finish c s o context cached).1
      (Phase.finish c s o context cached).2 := by
  unfold Phase.finish
  cases hrun : (render c o context).run.run [] with
  | mk result log =>
    cases result with
    | error i => trivial
    | ok v => exact ⟨context, v, cached, log, hrun, rfl, by rw [hs]⟩

/-- **One step** goes on with the same source. -/
theorem step_serving {p : Phase α} (h : Serving c o rasters s p) :
    Serving c o rasters (p.step c s).1 (p.step c s).2 := by
  cases p with
  | requested r => exact h.elim
  | opened o' key =>
    obtain ⟨rfl, hs⟩ := h
    exact lookUp_serving hs key
  | missed o' key =>
    obtain ⟨rfl, hs⟩ := h
    exact create_serving hs key
  | created o' key context =>
    obtain ⟨rfl, hs⟩ := h
    exact ⟨rfl, hs⟩
  | holding o' context cached =>
    obtain ⟨rfl, hs⟩ := h
    exact finish_serving hs context cached
  | finished result => exact h

/-- Any number of steps do, by induction on them. -/
theorem steps_serving : ∀ (l : List Nat) {s : Shared ε α} {p : Phase α}, Serving c o rasters s p →
    let ended := l.foldl (fun (s, p) _ => p.step c s) (s, p)
    Serving c o rasters ended.1 ended.2
  | [], _, _, h => h
  | _ :: l, _, _, h => steps_serving l (step_serving h)

/-- **A warp whose source was opened** is at work on it until it ends. -/
theorem run_serving {r : Request α} (ho : (openSource c s.rasters r).1 = .ok o) :
    Serving c o (openSource c s.rasters r).2 ((Phase.requested r).run c s).1
      ((Phase.requested r).run c s).2 := by
  have hfirst : Serving c o (openSource c s.rasters r).2 ((Phase.requested r).step c s).1
      ((Phase.requested r).step c s).2 := by
    cases hopen : openSource c s.rasters r with
    | mk opened rasters =>
      rw [hopen] at ho
      obtain rfl : opened = .ok o := ho
      simp only [Phase.step, hopen]
      exact start_serving rfl
  exact steps_serving [1, 2, 3, 4] hfirst

end Serving

/-- What was opened is the source of the request, in a dataset and a band that are registered. -/
theorem exists_of_openSource {α : Type} [Scalar α] {c : Config α} {rasters : Registry α}
    {r : Request α} (hband : r.band < Numeral.wordBound) {o : Opened α}
    (ho : (openSource c rasters r).1 = .ok o) :
    ∃ d b, rasters.find? r.path = some d ∧ d.bands[r.band - 1]? = some b ∧ o = r.opened c d b := by
  cases hrefusal : r.refusal? with
  | some cause =>
    obtain ⟨f, hf⟩ := openSource_refused c rasters r hrefusal
    rw [hf] at ho
    cases ho
  | none =>
    cases hd : rasters.find? r.path with
    | none =>
      obtain ⟨f, hf⟩ := openSource_unregistered c rasters hrefusal hd
      rw [hf] at ho
      cases ho
    | some d =>
      cases hb : d.bands[r.band - 1]? with
      | none =>
        by_cases hdriver : r.DriverRefused c.subdataset d
        · obtain ⟨f, hf⟩ := openSource_driverRefused c rasters hrefusal hband hd hdriver
          rw [hf] at ho
          cases ho
        · obtain ⟨f, hf⟩ := openSource_lacking c rasters hrefusal hband hd hdriver hb
          rw [hf] at ho
          cases ho
      | some b => exact ⟨d, b, rfl, hb, (opened_of_ok c rasters hband hd hb ho).2⟩

/-- Opening a source notes the request and leaves the datasets alone. -/
theorem layerAt_openSource {α : Type} [Scalar α] (c : Config α) (rasters : Registry α)
    (r : Request α) : (openSource c rasters r).2.layerAt = rasters.layerAt := by
  unfold openSource
  cases checkRequest r <;> rfl

/-! ## 3. What a whole warp reads -/

/-- **Metrics that account for a rendering,** whose level was tiled into blocks of one size. -/
structure Metrics.AccountFor {α : Type} (m : Metrics) (v : Rendering α) : Prop where
  read_eq : m.blocksRead
    = v.scattered.attempts.countP fun a => !v.layer.failing.contains a.place
  failed_eq : m.blocksFailed
    = v.scattered.attempts.countP fun a => v.layer.failing.contains a.place
  bounded : m.blocksRead + m.blocksFailed ≤ min v.layer.grid.blockCount m.mapped
  area : m.mapped + m.dropped = v.window.area
  bytes_eq : m.bytesRead
    = m.blocksRead * v.layer.blockWidth * v.layer.blockHeight * v.layer.type.size
  /-- The number of bytes is not what is left of a larger one: a warp that reads more than words can
  count ends in a fault, and not with an output. -/
  bytes_lt : m.bytesRead < Numeral.wordBound

theorem Rendering.MadeOf.accounts {α : Type} [Scalar α] {c : Config α} {o : Opened α}
    {bound : WarpContext α} {v : Rendering α} (h : v.MadeOf c o bound) (cached : Bool) :
    (v.output o cached).metrics.AccountFor v := by
  have hreads := h.partitions.reads h.scattered_eq
  obtain ⟨-, -, hword, hbytes⟩ := (v.layer.grid.bytesOf?_eq_some_iff).mp h.bytesRead_eq
  constructor
  · exact hreads.read_eq
  · exact hreads.failed_eq
  · exact hreads.bounded
  · exact h.partitions.counted
  · show v.bytesRead = _
    rw [← hbytes, Tiling.blockBytes, Tiling.blockArea, ← Nat.mul_assoc, ← Nat.mul_assoc]
    rfl
  · show v.bytesRead < _
    rwa [← hbytes]

/-- A square with an overview in single samples, one of which cannot be read. -/
def Registry.patchy : Registry ℚ :=
  Registry.empty.insert "terrace" (Dataset.ofBand
    ⟨.steps 4, [⟨((Layer.steps 2).setBlocks 1 1).addFailing 1 0, []⟩]⟩)

end RasterWarp
