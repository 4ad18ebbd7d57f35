/-
# Which blocks are read

Scattering a plan from a layer asks for the block of each group and for no other.  What comes of
the request is decided by the layer alone (`Layer.attempt`): the block is read, or it is one of
those marked as unreadable.  It never lies outside the raster and the buffer for it is never too
small, since the group has a pixel and that pixel lies in the block.

`Partitions.reads` lists what a scattering of a plan has done afterwards, block by block and
counted; `Partitions.workers_source` says that workers leave the layer with the same count of reads,
whatever their schedule.
-/
import RasterWarp.Proofs.ParallelScatter
import Mathlib.Algebra.Order.BigOperators.Group.List
import Mathlib.Data.List.Perm.Subperm

namespace RasterWarp

/-! ## 1. Tallies count attempts -/

section Tallies

variable {α : Type}

/-- The tallies of attempts add up to their numbers. -/
theorem BlockTally.sum_tally : ∀ attempts : List (BlockRead α),
    BlockTally.sum (attempts.map (·.tally))
      = ⟨attempts.countP (·.failure.isNone), attempts.countP (·.failure.isSome)⟩
  | [] => rfl
  | a :: attempts => by
    have hempty : BlockTally.empty.merge a.tally = a.tally := BlockTally.merge_comm ..
    rw [List.map_cons, sum, List.foldl_cons, foldl_merge, hempty, sum_tally attempts,
      List.countP_cons, List.countP_cons]
    unfold BlockRead.tally merge
    cases a.failure with
    | none => simp [Nat.add_comm]
    | some f => simp [Nat.add_comm]

theorem Scattering.tally_eq_count {σ : Type} (s : Scattering σ α) :
    s.tally
      = ⟨s.attempts.countP (·.failure.isNone), s.attempts.countP (·.failure.isSome)⟩ :=
  BlockTally.sum_tally s.attempts

/-- Every attempt is counted once. -/
theorem Scattering.tally_length {σ : Type} (s : Scattering σ α) :
    s.tally.read + s.tally.failed = s.attempts.length := by
  have hsplit := List.length_eq_countP_add_countP (fun a : BlockRead α => a.failure.isNone)
    (l := s.attempts)
  have hsome : s.attempts.countP (fun a => ¬ a.failure.isNone)
      = s.attempts.countP (·.failure.isSome) := by
    refine List.countP_congr fun a _ => ?_
    cases a.failure <;> simp
  rw [s.tally_eq_count, hsplit, hsome]

end Tallies

/-! ## 2. One block of a layer -/

namespace Layer

variable {α : Type} (l : Layer)

/-- **What comes of reading the block with a number,** if the layer has it. -/
def attempt (index : Nat) : BlockRead α :=
  let x := index % l.grid.columns
  let y := index / l.grid.columns
  ⟨x, y, if l.failing.contains (x, y) then some (Cause.blockUnreadable x y).failure else none⟩

/-- A number under which the layer has a block. -/
def Has (index : Nat) : Prop :=
  l.grid.position? index = some (index % l.grid.columns, index / l.grid.columns) ∧
    index % l.grid.columns * l.blockWidth < l.width ∧
    index / l.grid.columns * l.blockHeight < l.height

theorem attempt_failing {index : Nat}
    (h : l.failing.contains (index % l.grid.columns, index / l.grid.columns) = true) :
    (l.attempt index : BlockRead α) = ⟨index % l.grid.columns, index / l.grid.columns,
      some (Cause.blockUnreadable (index % l.grid.columns) (index / l.grid.columns)).failure⟩ := by
  unfold attempt
  simp only [h, if_true]

theorem attempt_readable {index : Nat}
    (h : l.failing.contains (index % l.grid.columns, index / l.grid.columns) = false) :
    (l.attempt index : BlockRead α)
      = ⟨index % l.grid.columns, index / l.grid.columns, none⟩ := by
  unfold attempt
  simp only [h, Bool.false_eq_true, if_false]

variable {l} {x y : Nat} (hroom : l.grid.Room l.type.size) (hx : x * l.blockWidth < l.width)
  (hy : y * l.blockHeight < l.height)

include hroom hx hy

/-- A block of the raster that is marked as unreadable fails for that reason and for no other. -/
theorem fetch_failing (h : l.failing.contains (x, y) = true) :
    l.fetch x y (Bytes.zeros (l.grid.blockBytes l.type.size))
      = (.error (.failure (Cause.blockUnreadable x y).failure) : Outcome α (Bytes × Layer)) := by
  rw [l.fetch_blank hroom ⟨hx, hy⟩, if_pos h]
  rfl

/-- Any other block of the raster is read, and the read is counted. -/
theorem fetch_readable (h : l.failing.contains (x, y) = false) :
    ∃ block, l.fetch x y (Bytes.zeros (l.grid.blockBytes l.type.size))
      = (.ok (block, l.credit 1) : Outcome α (Bytes × Layer)) := by
  obtain ⟨block, hblock, -⟩ := l.copyBlock_blank x y hx
  have hcontents : l.contents x y = some block := by rw [contents, if_pos ⟨hx, hy, h⟩, hblock]
  exact ⟨block, l.fetch_of_contents hroom hcontents⟩

end Layer

/-! ## 3. The blocks of a list of groups -/

section Groups

variable {α : Type} {l : Layer} {target : SampleType}

/-- **One group** asks for its block.  The layer counts the read if there was one, so it goes on
counting what the tally counts. -/
theorem scatterBlock_attempt {s next : Scattering Layer α} (hs : s.source = l.credit s.tally.read)
    {q : Nat × PixelGroup} (hroom : l.grid.Room l.type.size) (hq : l.Has q.1)
    (h : scatterBlock l.grid target s q.1 q.2 = .ok next) :
    next.attempts = s.attempts ++ [l.attempt q.1] ∧ next.source = l.credit next.tally.read := by
  obtain ⟨hposition, hx, hy⟩ := hq
  have hbuffer : (blank (l.grid.blockBytes (BlockSource.type (l.credit s.tally.read)).size) :
      Outcome α Bytes) = .ok (Bytes.zeros (l.grid.blockBytes l.type.size)) := hroom.blank_eq
  unfold scatterBlock at h
  simp only [hposition, hs, hbuffer, Outcome.ok_bind] at h
  generalize hn : s.tally.read = n at hs h
  cases hfailing : l.failing.contains (q.1 % l.grid.columns, q.1 / l.grid.columns) with
  | true =>
    have hfetch : BlockSource.fetch (l.credit n) (q.1 % l.grid.columns) (q.1 / l.grid.columns)
        (Bytes.zeros (l.grid.blockBytes l.type.size))
      = (.error (.failure (Cause.blockUnreadable (q.1 % l.grid.columns)
          (q.1 / l.grid.columns)).failure) : Outcome α (Bytes × Layer)) :=
      Layer.fetch_failing (l := l.credit n) hroom hx hy hfailing
    rw [hfetch] at h
    cases h
    rw [l.attempt_failing hfailing, s.tally_append, BlockTally.merge, hn]
    exact ⟨rfl, rfl⟩
  | false =>
    obtain ⟨block, hblock⟩ := Layer.fetch_readable (α := α) (l := l.credit n) hroom hx hy hfailing
    have hfetch : BlockSource.fetch (l.credit n) (q.1 % l.grid.columns) (q.1 / l.grid.columns)
        (Bytes.zeros (l.grid.blockBytes l.type.size))
      = (.ok (block, l.credit (n + 1)) : Outcome α (Bytes × Layer)) := hblock
    rw [hfetch] at h
    simp only at h
    cases houtput : transferBlock (α := α) l.grid (BlockSource.type (l.credit n)) target block q.2
        s.output with
    | error e =>
      rw [houtput] at h
      cases h
    | ok output =>
      rw [houtput] at h
      cases h
      rw [l.attempt_readable hfailing, s.tally_append, BlockTally.merge, hn]
      exact ⟨rfl, rfl⟩

/-- **All groups,** one after the other. -/
theorem scatterGroups_attempts : ∀ (groups : PixelGroups) {s next : Scattering Layer α},
    s.source = l.credit s.tally.read → (∀ q ∈ groups, l.grid.Room l.type.size ∧ l.Has q.1) →
    groups.foldlM (fun s (index, pixels) => scatterBlock l.grid target s index pixels) s
      = .ok next →
    next.attempts = s.attempts ++ groups.map (fun q => l.attempt q.1) ∧
      next.source = l.credit next.tally.read
  | [], s, next, hs, _, h => by
    cases h
    exact ⟨(List.append_nil _).symm, hs⟩
  | q :: groups, s, next, hs, hgroups, h => by
    rw [List.foldlM_cons] at h
    cases hmid : scatterBlock l.grid target s q.1 q.2 with
    | error e =>
      simp only [hmid] at h
      cases h
    | ok mid =>
      simp only [hmid] at h
      obtain ⟨hattempts, hsource⟩ := scatterBlock_attempt hs (hgroups q List.mem_cons_self).1
        (hgroups q List.mem_cons_self).2 hmid
      obtain ⟨hattempts', hsource'⟩ := scatterGroups_attempts groups hsource
        (fun q' hq' => hgroups q' (List.mem_cons_of_mem _ hq')) h
      refine ⟨?_, hsource'⟩
      rw [hattempts', hattempts, List.append_assoc]
      rfl

end Groups

/-! ## 4. The blocks of a plan -/

/-- The source pixels that a plan uses, by their linear indices. -/
def ReadPlan.sources (plan : ReadPlan) : List Nat :=
  plan.groups.flatMap fun q => q.2.source.toList

/-- The block of a layer that owns the pixel with a linear index. -/
def Layer.owner (l : Layer) (source : Nat) : Nat × Nat :=
  (source % l.width / l.blockWidth, source / l.width / l.blockHeight)

/-- The block that was asked for. -/
def BlockRead.place {α : Type} (a : BlockRead α) : Nat × Nat := (a.xBlock, a.yBlock)

/-- **What scattering a plan from a layer does to the layer's blocks.** -/
structure Layer.ReadFor {α : Type} (l : Layer) (plan : ReadPlan) (s : Scattering Layer α) :
    Prop where
  /-- No block is asked for twice. -/
  once : (s.attempts.map (·.place)).Nodup
  /-- A block is asked for exactly if it owns a source pixel of the plan. -/
  needed : ∀ b, b ∈ s.attempts.map (·.place) ↔ ∃ source ∈ plan.sources, l.owner source = b
  inside : ∀ a ∈ s.attempts,
    a.xBlock * l.blockWidth < l.width ∧ a.yBlock * l.blockHeight < l.height
  /-- A block is left out because it is marked as unreadable and for no other reason. -/
  failure_eq : ∀ a ∈ s.attempts, a.failure = if l.failing.contains a.place
    then some (Cause.blockUnreadable a.xBlock a.yBlock).failure else none
  read_eq : s.tally.read = s.attempts.countP fun a => !l.failing.contains a.place
  failed_eq : s.tally.failed = s.attempts.countP fun a => l.failing.contains a.place
  bounded : s.tally.read + s.tally.failed ≤ min l.grid.blockCount plan.mapped
  /-- The layer has counted the blocks that were read. -/
  counted : s.source = l.credit s.tally.read

theorem PixelGroup.map_fst_pairs {p : PixelGroup} (h : p.Even) :
    p.pairs.map Prod.fst = p.source.toList := by
  have hlength : p.source.toList.length ≤ p.destination.toList.length :=
    Nat.le_of_eq (by rw [Array.length_toList, Array.length_toList, h])
  rw [pairs, Array.toList_zip, List.map_fst_zip hlength]

namespace ReadPlan.Partitions

variable {α : Type} [Scalar α] {plan : ReadPlan} {l : Layer}
  {transform : {n : Nat} → Batch α n → Outcome α (Batch α n)} {w : Window}
  (hp : plan.Partitions transform w l.grid)

include hp

theorem mem_sources {s : Nat} : s ∈ plan.sources ↔ ∃ q ∈ plan.groups, ∃ d, (s, d) ∈ q.2.pairs := by
  simp only [sources, List.mem_flatMap]
  refine exists_congr fun q => and_congr_right fun hq => ?_
  rw [← PixelGroup.map_fst_pairs (hp.even q hq), List.mem_map]
  constructor
  · rintro ⟨sd, hsd, rfl⟩
    exact ⟨sd.2, hsd⟩
  · rintro ⟨d, hsd⟩
    exact ⟨_, hsd, rfl⟩

/-- A group stands under the block that owns its pixels. -/
theorem owner_eq {q : Nat × PixelGroup} (hq : q ∈ plan.groups) {sd : Nat × Nat}
    (hsd : sd ∈ q.2.pairs) :
    l.owner sd.1 = (q.1 % l.grid.columns, q.1 / l.grid.columns) ∧ l.Has q.1 ∧
      q.1 < l.grid.blockCount := by
  obtain ⟨hlt, hblock⟩ := hp.owned q hq sd hsd
  have hlt : sd.1 < l.width * l.height := hlt
  have hwidth : 0 < l.width := Nat.pos_of_ne_zero fun hzero => by
    rw [hzero, Nat.zero_mul] at hlt
    exact Nat.not_lt_zero _ hlt
  have hx : sd.1 % l.width < l.width := Nat.mod_lt _ hwidth
  have hy : sd.1 / l.width < l.height := Nat.div_lt_of_lt_mul hlt
  have hposition := l.grid.position?_locate hx (sd.1 / l.width)
  rw [show (l.grid.locate (sd.1 % l.width) (sd.1 / l.width)).1 = q.1 from hblock] at hposition
  have hplace : l.owner sd.1 = (q.1 % l.grid.columns, q.1 / l.grid.columns) := by
    unfold Tiling.position? at hposition
    split at hposition
    · cases hposition
    · exact (Option.some.inj hposition).symm
  obtain ⟨hcolumn, hrow⟩ := Prod.mk.inj hplace
  refine ⟨hplace, ⟨?_, ?_, ?_⟩, ?_⟩
  · rw [hposition, ← hplace]
    rfl
  · rw [← hcolumn]
    exact Nat.lt_of_le_of_lt (Nat.div_mul_le_self ..) hx
  · rw [← hrow]
    exact Nat.lt_of_le_of_lt (Nat.div_mul_le_self ..) hy
  · rw [← hblock]
    exact add_mul_lt (l.grid.div_lt_columns hx) (l.grid.div_lt_rows hy)

theorem has {q : Nat × PixelGroup} (hq : q ∈ plan.groups) : l.Has q.1 := by
  obtain ⟨sd, hsd⟩ := hp.exists_mem_pairs hq
  exact (hp.owner_eq hq hsd).2.1

/-- There are no more groups than blocks, and no more than pixels. -/
theorem length_groups_le : plan.groups.length ≤ min l.grid.blockCount plan.mapped := by
  refine Nat.le_min.mpr ⟨?_, ?_⟩
  · have hnodup : (plan.groups.map Prod.fst).Nodup := hp.ordered.imp Nat.ne_of_lt
    have hsubset : plan.groups.map Prod.fst ⊆ List.range l.grid.blockCount := by
      intro index hindex
      obtain ⟨q, hq, rfl⟩ := List.mem_map.mp hindex
      obtain ⟨sd, hsd⟩ := hp.exists_mem_pairs hq
      exact List.mem_range.mpr (hp.owner_eq hq hsd).2.2
    have hle := (List.subperm_of_subset hnodup hsubset).length_le
    rwa [List.length_map, List.length_range] at hle
  · rw [hp.mapped_eq]
    have hle := List.length_le_sum_of_one_le (plan.groups.map fun q => q.2.pairs.length)
      fun n hn => by
        obtain ⟨q, hq, rfl⟩ := List.mem_map.mp hn
        obtain ⟨sd, hsd⟩ := hp.exists_mem_pairs hq
        exact List.length_pos_of_mem hsd
    rwa [List.length_map] at hle

/-- **Every needed block is asked for once, and no other.** -/
theorem reads {target : SampleType} {output : Bytes} {s : Scattering Layer α}
    (h : scatterBlocks l l.grid plan.groups target output = .ok s) : l.ReadFor plan s := by
  have hroom := roomFor_of_scatterBlocks h
  obtain ⟨hattempts, hsource⟩ := scatterGroups_attempts plan.groups rfl
    (fun q hq => ⟨hroom.room q hq, hp.has hq⟩) (scatterBlocks_eq_ok_iff.mp h).2.2
  rw [List.nil_append] at hattempts
  have hmem : ∀ a ∈ s.attempts, ∃ q ∈ plan.groups, l.attempt q.1 = a := by
    intro a ha
    rw [hattempts] at ha
    exact List.mem_map.mp ha
  have hfailure : ∀ a ∈ s.attempts, a.failure = if l.failing.contains a.place
      then some (Cause.blockUnreadable a.xBlock a.yBlock).failure else none := by
    intro a ha
    obtain ⟨q, -, rfl⟩ := hmem a ha
    rfl
  refine ⟨?_, fun b => ?_, fun a ha => ?_, hfailure, ?_, ?_, ?_, hsource⟩
  · -- a block's number can be told from its column and row
    rw [hattempts, List.map_map]
    refine List.pairwise_map.mpr ((List.pairwise_map.mp hp.ordered).imp fun {q q'} hlt heq => ?_)
    have hplaces : (q.1 % l.grid.columns, q.1 / l.grid.columns)
        = (q'.1 % l.grid.columns, q'.1 / l.grid.columns) := heq
    obtain ⟨hmod, hdiv⟩ := Prod.mk.inj hplaces
    have hq := Nat.div_add_mod q.1 l.grid.columns
    have hq' := Nat.div_add_mod q'.1 l.grid.columns
    rw [hmod, hdiv, hq'] at hq
    omega
  · rw [hattempts, List.map_map, List.mem_map]
    constructor
    · rintro ⟨q, hq, rfl⟩
      obtain ⟨sd, hsd⟩ := hp.exists_mem_pairs hq
      exact ⟨sd.1, hp.mem_sources.mpr ⟨q, hq, sd.2, hsd⟩, (hp.owner_eq hq hsd).1⟩
    · rintro ⟨source, hsource, rfl⟩
      obtain ⟨q, hq, d, hsd⟩ := hp.mem_sources.mp hsource
      exact ⟨q, hq, (hp.owner_eq hq hsd).1.symm⟩
  · obtain ⟨q, hq, rfl⟩ := hmem a ha
    exact (hp.has hq).2
  · rw [s.tally_eq_count]
    refine List.countP_congr fun a ha => ?_
    rw [hfailure a ha]
    cases l.failing.contains a.place <;> simp
  · rw [s.tally_eq_count]
    refine List.countP_congr fun a ha => ?_
    rw [hfailure a ha]
    cases l.failing.contains a.place <;> simp
  · rw [s.tally_length, hattempts, List.length_map]
    exact hp.length_groups_le

end ReadPlan.Partitions

/-! ## 5. Workers leave the same count -/

section Workers

variable {α : Type} {l : Layer} {g : Tiling} {target : SampleType}

/-- Workers at a layer that has counted the blocks read so far: those that wait for the output and
those that were written. -/
def Workers.Counted (l : Layer) (ws : Workers Layer) : Prop :=
  ws.source = l.credit (ws.loaded.length + (BlockTally.sum ws.tallies).read)

theorem Workers.counted_start (l : Layer) (groups : PixelGroups) (output : Bytes) :
    (Workers.start l groups output).Counted l := rfl

theorem BlockTally.sum_concat (tallies : List BlockTally) (t : BlockTally) :
    sum (tallies ++ [t]) = (sum tallies).merge t := by
  rw [sum_append]
  exact congrArg (merge (sum tallies)) (merge_comm empty t)

/-- A block that was read waits for the output, and one that could not be read is not counted. -/
theorem Workers.Counted.read {ws ws' : Workers Layer} (h : ws.Counted l) {i : Nat}
    (hread : ws.read g i = (.ok ws' : Outcome α (Workers Layer))) : ws'.Counted l := by
  unfold Workers.read at hread
  cases hi : ws.pending[i]? with
  | none =>
    simp only [hi] at hread
    cases hread
    exact h
  | some q =>
    simp only [hi] at hread
    cases hxy : g.position? q.1 with
    | none =>
      simp only [hxy] at hread
      cases hread
    | some xy =>
      simp only [hxy] at hread
      obtain ⟨buffer, -, hread⟩ := Outcome.bind_eq_ok_iff.mp hread
      cases hfetch : (BlockSource.fetch ws.source xy.1 xy.2 buffer : Outcome α (Bytes × Layer)) with
      | error e =>
        simp only [hfetch] at hread
        cases e with
        | fault f => cases hread
        | failure f =>
          cases hread
          unfold Counted
          rw [BlockTally.sum_concat]
          exact h
      | ok read =>
        simp only [hfetch] at hread
        cases hread
        unfold Counted at h ⊢
        rw [Layer.fetch_credit hfetch, h]
        simp only [Layer.credit, List.length_cons]
        congr 1
        omega

/-- A block that was written was waiting. -/
theorem Workers.Counted.write {ws ws' : Workers Layer} (h : ws.Counted l) {i : Nat}
    (hwrite : ws.write g target i = (.ok ws' : Outcome α (Workers Layer))) : ws'.Counted l := by
  unfold Workers.write at hwrite
  cases hi : ws.loaded[i]? with
  | none =>
    simp only [hi] at hwrite
    cases hwrite
    exact h
  | some e =>
    simp only [hi] at hwrite
    cases houtput : transferBlock (α := α) g (BlockSource.type ws.source) target e.2 e.1.2
        ws.output with
    | error f =>
      rw [houtput] at hwrite
      cases hwrite
    | ok output =>
      rw [houtput] at hwrite
      cases hwrite
      have hlt := (List.getElem?_eq_some_iff.mp hi).1
      unfold Counted at h ⊢
      rw [h, BlockTally.sum_concat]
      simp only [Layer.credit, BlockTally.merge, List.length_eraseIdx_of_lt hlt]
      congr 1
      omega

theorem Workers.Counted.run : ∀ (turns : List Turn) {ws ws' : Workers Layer}, ws.Counted l →
    ws.run g target turns = (.ok ws' : Outcome α (Workers Layer)) → ws'.Counted l
  | [], ws, ws', h, hrun => by
    cases hrun
    exact h
  | t :: turns, ws, ws', h, hrun => by
    rw [Workers.run, List.foldlM_cons] at hrun
    cases hturn : ws.turn (α := α) g target t with
    | error e =>
      rw [hturn] at hrun
      cases hrun
    | ok mid =>
      rw [hturn] at hrun
      refine Counted.run turns ?_ hrun
      cases t with
      | read i => exact h.read hturn
      | write i => exact h.write hturn

variable [Scalar α] {plan : ReadPlan}
  {transform : {n : Nat} → Batch α n → Outcome α (Batch α n)} {w : Window} {output : Bytes}

/-- **Workers leave the layer as the sequential loop does:** they have read as many blocks. -/
theorem ReadPlan.Partitions.workers_source (hp : plan.Partitions transform w l.grid)
    (hlarge : w.area * target.size ≤ output.size) (hknown : l.type ≠ .unknown)
    (htarget : target ≠ .unknown) {s : Scattering Layer α}
    (hs : scatterBlocks l l.grid plan.groups target output = .ok s) {turns : List Turn}
    {ws : Workers Layer}
    (hrun : (Workers.start l plan.groups output).run l.grid target turns
      = (.ok ws : Outcome α (Workers Layer))) (hfinished : ws.Finished) : ws.source = s.source := by
  have hroom := roomFor_of_scatterBlocks hs
  obtain ⟨s', hs', -, htally⟩ :=
    scatterBlocks_eq hp hlarge (layer_steady α l) hroom hknown htarget
  obtain rfl : s' = s := Except.ok.inj (hs'.symm.trans hs)
  obtain ⟨ws', done, hrun', hworking⟩ := run_working (layer_steady α l)
    (fun q hq => hp.groupFits hlarge hroom hq) turns .start
  obtain rfl : ws' = ws := Except.ok.inj (hrun'.symm.trans hrun)
  have horder := hworking.perm_of_finished hfinished
  have hsum : BlockTally.sum ws'.tallies = s'.tally := by
    rw [htally, hworking.tallies_eq, BlockTally.sum_perm (horder.map _), BlockTally.sum,
      List.foldl_map]
  have hcounted := Workers.Counted.run turns (Workers.counted_start l _ _) hrun
  unfold Workers.Counted at hcounted
  rw [hcounted, hfinished.2, hsum, (hp.reads hs).counted, List.length_nil, Nat.zero_add]

end Workers
end RasterWarp
