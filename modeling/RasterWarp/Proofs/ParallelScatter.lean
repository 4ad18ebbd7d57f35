/-
# Scattering by workers, in any order

Blocks can be read by several workers at once.  A worker takes up a group that nobody has taken
up, reads its block, waits for the output, and writes the whole block while nobody else does.  What
the workers have counted is merged as it happens to come.  `Workers` is such a run in the middle,
`Turn` is what some worker does next, and a schedule is any list of turns.

`scatter_any_order` says that none of this shows: no schedule goes wrong or gets stuck, and every
schedule that completes the plan leaves the output and the tally of the sequential loop.  The
invariant (`Working`) is that the output holds the pieces of the groups done, in the order in which
they were done; since no two groups of a plan write the same piece, that order does not matter.
-/
import RasterWarp.Proofs.Scattering

namespace RasterWarp

/-! ## 1. Tallies -/

namespace BlockTally

theorem merge_comm (a b : BlockTally) : a.merge b = b.merge a := by
  simp only [merge, Nat.add_comm]

theorem merge_assoc (a b c : BlockTally) : (a.merge b).merge c = a.merge (b.merge c) := by
  simp only [merge, Nat.add_assoc]

/-- Several tallies merged one after the other. -/
def sum (tallies : List BlockTally) : BlockTally := tallies.foldl merge empty

theorem foldl_merge (a : BlockTally) : ∀ tallies : List BlockTally,
    tallies.foldl merge a = a.merge (sum tallies)
  | [] => rfl
  | t :: tallies => by
    have hempty : empty.merge t = t := merge_comm ..
    rw [sum, List.foldl_cons, List.foldl_cons, hempty, foldl_merge (a.merge t) tallies,
      foldl_merge t tallies, merge_assoc]

theorem sum_append (l l' : List BlockTally) : sum (l ++ l') = (sum l).merge (sum l') := by
  rw [sum, List.foldl_append, foldl_merge, ← sum]

theorem sum_perm {l l' : List BlockTally} (h : l.Perm l') : sum l = sum l' := by
  refine h.foldl_eq' (fun a _ b _ t => ?_) empty
  rw [merge_assoc, merge_assoc, merge_comm a b]

end BlockTally

/-- **A way to merge tallies:** which are merged with which, and where empty ones come in. -/
inductive Merging where
  | empty
  | one (t : BlockTally)
  | both (a b : Merging)

namespace Merging

def leaves : Merging → List BlockTally
  | empty => []
  | one t => [t]
  | both a b => a.leaves ++ b.leaves

def total : Merging → BlockTally
  | empty => .empty
  | one t => t
  | both a b => a.total.merge b.total

/-- However tallies are merged, the result is their sum. -/
theorem total_eq_sum : ∀ m : Merging, m.total = BlockTally.sum m.leaves
  | empty => rfl
  | one t => BlockTally.merge_comm t .empty
  | both a b => by
    rw [total, leaves, BlockTally.sum_append, a.total_eq_sum, b.total_eq_sum]

end Merging

/-! ## 2. Workers -/

/-- **Workers in the middle of a plan.** -/
structure Workers (σ : Type) where
  source : σ
  /-- The groups that nobody has taken up. -/
  pending : PixelGroups
  /-- The groups whose blocks were read and wait for the output. -/
  loaded : List ((Nat × PixelGroup) × Bytes)
  output : Bytes
  /-- What was counted for each group done, in the order in which they were done. -/
  tallies : List BlockTally

/-- **What some worker does next:** it reads the block of a pending group, or it writes a block
that was read. -/
inductive Turn where
  | read (i : Nat)
  | write (i : Nat)

namespace Workers

variable {σ α : Type}

def start (source : σ) (groups : PixelGroups) (output : Bytes) : Workers σ :=
  ⟨source, groups, [], output, []⟩

/-- Nothing is left to be done. -/
def Finished (ws : Workers σ) : Prop := ws.pending = [] ∧ ws.loaded = []

/-- How many turns are left. -/
def left (ws : Workers σ) : Nat := 2 * ws.pending.length + ws.loaded.length

variable [BlockSource σ] (g : Tiling) (target : SampleType)

/-- Reads the block of pending group `i`.  A block that cannot be read ends its group; a number
without a group does nothing. -/
def read (ws : Workers σ) (i : Nat) : Outcome α (Workers σ) :=
  match ws.pending[i]? with
  | none => return ws
  | some q =>
    match g.position? q.1 with
    | none => throw (.fault .zeroDivisor)
    | some (x, y) => do
      let buffer ← blank (α := α) (g.blockBytes (BlockSource.type ws.source).size)
      match (BlockSource.fetch ws.source x y buffer : Outcome α (Bytes × σ)) with
      | .error (.failure _) =>
        return { ws with pending := ws.pending.eraseIdx i, tallies := ws.tallies ++ [⟨0, 1⟩] }
      | .error (.fault f) => throw (.fault f)
      | .ok (block, source) =>
        return { ws with
          source, pending := ws.pending.eraseIdx i, loaded := (q, block) :: ws.loaded }

/-- Writes the block that was read as number `i`, all of it. -/
def write (ws : Workers σ) (i : Nat) : Outcome α (Workers σ) :=
  match ws.loaded[i]? with
  | none => return ws
  | some (q, block) => do
    let output ← transferBlock g (BlockSource.type ws.source) target block q.2 ws.output
    return { ws with
      loaded := ws.loaded.eraseIdx i, output, tallies := ws.tallies ++ [⟨1, 0⟩] }

def turn (ws : Workers σ) : Turn → Outcome α (Workers σ)
  | .read i => ws.read g i
  | .write i => ws.write g target i

/-- A schedule of turns. -/
def run (ws : Workers σ) (turns : List Turn) : Outcome α (Workers σ) :=
  turns.foldlM (fun ws t => ws.turn g target t) ws

end Workers

/-! ## 3. What every turn preserves -/

/-- **Workers that did their part right,** where `done` are the groups done, in their order. -/
structure Working {σ : Type} [BlockSource σ] (α : Type) (source : σ) (g : Tiling)
    (contents : Nat → Nat → Option Bytes) (target : SampleType) (groups : PixelGroups)
    (output : Bytes) (done : PixelGroups) (ws : Workers σ) : Prop where
  reached : ReadFrom α source ws.source
  split : (done ++ (ws.loaded.map Prod.fst ++ ws.pending)).Perm groups
  loaded_eq : ∀ e ∈ ws.loaded, blockUnder? g contents e.1.1 = some e.2
  output_eq : ws.output = Bytes.storeAll target.size output
    (done.flatMap (groupWrites g (BlockSource.type source) target contents))
  tallies_eq : ws.tallies = done.map (groupTally g contents)

namespace Working

variable {σ : Type} [BlockSource σ] {α : Type} {source : σ} {g : Tiling}
  {contents : Nat → Nat → Option Bytes} {target : SampleType} {groups : PixelGroups}
  {output : Bytes} {done : PixelGroups} {ws : Workers σ}

theorem start : Working α source g contents target groups output []
    (.start source groups output) where
  reached := .start
  split := .refl _
  loaded_eq _ h := by cases h
  output_eq := rfl
  tallies_eq := rfl

variable (h : Working α source g contents target groups output done ws)

include h

/-- Workers that have finished are done with all groups. -/
theorem perm_of_finished (hfinished : ws.Finished) : done.Perm groups := by
  have hsplit := h.split
  rwa [hfinished.1, hfinished.2, List.map_nil, List.append_nil, List.append_nil] at hsplit

/-- A pending group whose block cannot be read is done. -/
theorem leave {i : Nat} {q : Nat × PixelGroup} (hi : ws.pending[i]? = some q)
    (hq : blockUnder? g contents q.1 = none) :
    Working α source g contents target groups output (done ++ [q])
      { ws with pending := ws.pending.eraseIdx i, tallies := ws.tallies ++ [⟨0, 1⟩] } where
  reached := h.reached
  split := by
    obtain ⟨hlt, rfl⟩ := List.getElem?_eq_some_iff.mp hi
    refine .trans ?_ h.split
    rw [List.append_assoc]
    refine .append_left done ?_
    rw [List.singleton_append]
    exact List.perm_middle.symm.trans (.append_left _ (List.getElem_cons_eraseIdx_perm hlt))
  loaded_eq := h.loaded_eq
  output_eq := by
    have hnone : groupWrites g (BlockSource.type source) target contents q = [] := by
      rw [groupWrites, hq]
    simp only [List.flatMap_append, List.flatMap_cons, List.flatMap_nil, hnone, List.append_nil]
    exact h.output_eq
  tallies_eq := by
    rw [List.map_append, ← h.tallies_eq, List.map_cons, groupTally, hq]
    rfl

/-- A pending group whose block was read waits for the output. -/
theorem load {i : Nat} {q : Nat × PixelGroup} (hi : ws.pending[i]? = some q) {block : Bytes}
    (hq : blockUnder? g contents q.1 = some block) {s : σ} (hs : ReadFrom α source s) :
    Working α source g contents target groups output done
      { ws with
        source := s, pending := ws.pending.eraseIdx i, loaded := (q, block) :: ws.loaded } where
  reached := hs
  split := by
    obtain ⟨hlt, rfl⟩ := List.getElem?_eq_some_iff.mp hi
    refine .trans (.append_left done ?_) h.split
    rw [List.map_cons, List.cons_append]
    exact List.perm_middle.symm.trans (.append_left _ (List.getElem_cons_eraseIdx_perm hlt))
  loaded_eq e he := by
    rcases List.mem_cons.mp he with rfl | he
    · exact hq
    · exact h.loaded_eq e he
  output_eq := h.output_eq
  tallies_eq := h.tallies_eq

/-- A group is done when its block is written. -/
theorem write {i : Nat} {q : Nat × PixelGroup} {block : Bytes}
    (hi : ws.loaded[i]? = some (q, block)) :
    Working α source g contents target groups output (done ++ [q])
      { ws with
        loaded := ws.loaded.eraseIdx i
        output := Bytes.storeAll target.size ws.output
          (blockWrites g (BlockSource.type source) target block q.2)
        tallies := ws.tallies ++ [⟨1, 0⟩] } where
  reached := h.reached
  split := by
    obtain ⟨hlt, heq⟩ := List.getElem?_eq_some_iff.mp hi
    refine .trans ?_ h.split
    rw [List.append_assoc, List.singleton_append]
    refine .append_left done ?_
    have hp := (List.getElem_cons_eraseIdx_perm hlt).map Prod.fst
    rw [heq, List.map_cons] at hp
    exact hp.append_right ws.pending
  loaded_eq e he := h.loaded_eq e (List.mem_of_mem_eraseIdx he)
  output_eq := by
    have hq := h.loaded_eq _ (List.mem_of_getElem? hi)
    rw [List.flatMap_append, Bytes.storeAll_append, ← h.output_eq, List.flatMap_cons,
      List.flatMap_nil, List.append_nil, groupWrites, hq]
  tallies_eq := by
    have hq := h.loaded_eq _ (List.mem_of_getElem? hi)
    rw [List.map_append, ← h.tallies_eq, List.map_cons, groupTally, hq]
    rfl

end Working

/-! ## 4. Schedules -/

section Schedule

variable {σ : Type} [BlockSource σ] {α : Type} {source : σ} {g : Tiling}
  {contents : Nat → Nat → Option Bytes} {target : SampleType} {groups : PixelGroups}
  {output : Bytes} (hsteady : Steady α source g contents)
  (hfits : ∀ q ∈ groups, GroupFits g (BlockSource.type source) target.size output.size q)

include hsteady hfits

/-- **Reading** goes well, and leaves less to do if there was something to read. -/
theorem read_working {done : PixelGroups} {ws : Workers σ}
    (h : Working α source g contents target groups output done ws) (i : Nat) :
    ∃ ws' done', ws.read g i = (.ok ws' : Outcome α (Workers σ)) ∧
      Working α source g contents target groups output done' ws' ∧
      (i < ws.pending.length → ws'.left < ws.left) := by
  cases hi : ws.pending[i]? with
  | none =>
    refine ⟨ws, done, by rw [Workers.read, hi]; rfl, h, fun hlt => ?_⟩
    exact absurd (List.getElem?_eq_none_iff.mp hi) (by omega)
  | some q =>
    have hmem : q ∈ groups := h.split.mem_iff.mp
      (List.mem_append_right _ (List.mem_append_right _ (List.mem_of_getElem? hi)))
    obtain ⟨x, y, hxy, hin⟩ := (hfits q hmem).placed
    have hroom := (hfits q hmem).room
    have hbuffer := hroom.blank_eq (α := α)
    have hunder : blockUnder? g contents q.1 = contents x y := by
      rw [blockUnder?, hxy, Option.bind_some]
    have hlength : i < ws.pending.length →
        (ws.pending.eraseIdx i).length + 1 = ws.pending.length := fun hlt => by
      rw [List.length_eraseIdx_of_lt hlt]
      omega
    cases hcontents : contents x y with
    | none =>
      obtain ⟨f, hf⟩ := hsteady.fetch_none hroom h.reached hin hcontents
      refine ⟨_, _, ?_, h.leave hi (hunder.trans hcontents), fun hlt => ?_⟩
      · simp only [Workers.read, hi, hxy, hsteady.type_eq h.reached, hbuffer, Outcome.ok_bind, hf]
        rfl
      · have := hlength hlt
        simp only [Workers.left]
        omega
    | some block =>
      obtain ⟨s', hfetch⟩ := hsteady.fetch_some hroom h.reached hin hcontents
      refine ⟨_, _, ?_, h.load hi (hunder.trans hcontents) (h.reached.fetch hfetch),
        fun hlt => ?_⟩
      · simp only [Workers.read, hi, hxy, hsteady.type_eq h.reached, hbuffer, Outcome.ok_bind,
          hfetch]
        rfl
      · have := hlength hlt
        simp only [Workers.left, List.length_cons]
        omega

/-- **Writing** goes well, and leaves less to do if there was something to write. -/
theorem write_working {done : PixelGroups} {ws : Workers σ}
    (h : Working α source g contents target groups output done ws) (i : Nat) :
    ∃ ws' done', ws.write g target i = (.ok ws' : Outcome α (Workers σ)) ∧
      Working α source g contents target groups output done' ws' ∧
      (i < ws.loaded.length → ws'.left < ws.left) := by
  cases hi : ws.loaded[i]? with
  | none =>
    refine ⟨ws, done, by rw [Workers.write, hi]; rfl, h, fun hlt => ?_⟩
    exact absurd (List.getElem?_eq_none_iff.mp hi) (by omega)
  | some e =>
    obtain ⟨q, block⟩ := e
    have hmem : q ∈ groups := h.split.mem_iff.mp (List.mem_append_right _
      (List.mem_append_left _ (List.mem_map_of_mem (List.mem_of_getElem? hi))))
    obtain ⟨⟨x, y⟩, -, hcontents⟩ :=
      Option.bind_eq_some_iff.mp (h.loaded_eq _ (List.mem_of_getElem? hi))
    have hpairs : ∀ p ∈ q.2.pairs, (p.2 + 1) * target.size ≤ ws.output.size := by
      rw [h.output_eq, Bytes.size_storeAll]
      exact (hfits q hmem).fits
    have htransfer := transferBlock_eq (α := α) target (hsteady.size_eq hcontents)
      (hfits q hmem).wide hpairs
    refine ⟨_, _, ?_, h.write hi, fun hlt => ?_⟩
    · simp only [Workers.write, hi, hsteady.type_eq h.reached, htransfer]
      rfl
    · have hlength := List.length_eraseIdx_of_lt hlt
      simp only [Workers.left]
      omega

/-- **One turn** goes well, whoever takes it. -/
theorem turn_working {done : PixelGroups} {ws : Workers σ}
    (h : Working α source g contents target groups output done ws) (t : Turn) :
    ∃ ws' done', ws.turn g target t = (.ok ws' : Outcome α (Workers σ)) ∧
      Working α source g contents target groups output done' ws' := by
  cases t with
  | read i =>
    obtain ⟨ws', done', hread, h', -⟩ := read_working hsteady hfits h i
    exact ⟨ws', done', hread, h'⟩
  | write i =>
    obtain ⟨ws', done', hwrite, h', -⟩ := write_working hsteady hfits h i
    exact ⟨ws', done', hwrite, h'⟩

/-- While something is left to be done, some turn leaves less. -/
theorem exists_turn {done : PixelGroups} {ws : Workers σ}
    (h : Working α source g contents target groups output done ws) (hleft : ¬ ws.Finished) :
    ∃ t ws' done', ws.turn g target t = (.ok ws' : Outcome α (Workers σ)) ∧
      Working α source g contents target groups output done' ws' ∧ ws'.left < ws.left := by
  by_cases hpending : ws.pending = []
  · have hlt : 0 < ws.loaded.length :=
      List.length_pos_iff.mpr fun hloaded => hleft ⟨hpending, hloaded⟩
    obtain ⟨ws', done', hwrite, h', hless⟩ := write_working hsteady hfits h 0
    exact ⟨.write 0, ws', done', hwrite, h', hless hlt⟩
  · obtain ⟨ws', done', hread, h', hless⟩ := read_working hsteady hfits h 0
    exact ⟨.read 0, ws', done', hread, h', hless (List.length_pos_iff.mpr hpending)⟩

/-- **Any schedule** goes well, by induction on its turns. -/
theorem run_working : ∀ (turns : List Turn) {done : PixelGroups} {ws : Workers σ},
    Working α source g contents target groups output done ws →
      ∃ ws' done', ws.run g target turns = (.ok ws' : Outcome α (Workers σ)) ∧
        Working α source g contents target groups output done' ws'
  | [], done, ws, h => ⟨ws, done, rfl, h⟩
  | t :: turns, done, ws, h => by
    obtain ⟨mid, done', hmid, hmid'⟩ := turn_working hsteady hfits h t
    obtain ⟨ended, done'', hended, h'⟩ := run_working turns hmid'
    refine ⟨ended, done'', ?_, h'⟩
    rw [Workers.run, List.foldlM_cons, hmid]
    exact hended

/-- **No schedule gets stuck:** from wherever it came to, some turns complete the plan. -/
theorem exists_finish {ws : Workers σ} {done : PixelGroups}
    (h : Working α source g contents target groups output done ws) :
    ∃ turns ended, ws.run g target turns = (.ok ended : Outcome α (Workers σ)) ∧
      ended.Finished := by
  by_cases hleft : ws.Finished
  · exact ⟨[], ws, rfl, hleft⟩
  · obtain ⟨t, ws', done', ht, h', hless⟩ := exists_turn hsteady hfits h hleft
    obtain ⟨turns, ended, hrun, hended⟩ := exists_finish h'
    refine ⟨t :: turns, ended, ?_, hended⟩
    rw [Workers.run, List.foldlM_cons, ht]
    exact hrun
termination_by ws.left

end Schedule

/-- **Without a buffer for a block** no schedule gets anywhere: whoever is to read one faults. -/
theorem Workers.run_of_not_room {σ : Type} [BlockSource σ] {α : Type} {source : σ} {g : Tiling}
    {target : SampleType} {groups : PixelGroups} {output : Bytes}
    (hroom : bufferBound ≤ g.blockBytes (BlockSource.type source).size) :
    ∀ (turns : List Turn) {ws : Workers σ},
      (start source groups output).run g target turns = (.ok ws : Outcome α (Workers σ)) →
        ws = start source groups output
  | [], _, h => (Except.ok.inj h).symm
  | t :: turns, ws, h => by
    rw [run, List.foldlM_cons] at h
    have hstays : ∀ mid, (start source groups output).turn g target t
        = (.ok mid : Outcome α (Workers σ)) → mid = start source groups output := by
      intro mid hmid
      cases t with
      | write i => exact (Except.ok.inj hmid).symm
      | read i =>
        unfold turn read at hmid
        simp only [start] at hmid
        split at hmid
        · exact (Except.ok.inj hmid).symm
        · split at hmid
          · cases hmid
          · rw [blank_of_le hroom] at hmid
            cases hmid
    cases hmid : (start source groups output).turn (α := α) g target t with
    | error e =>
      rw [hmid] at h
      cases h
    | ok mid =>
      rw [hmid, hstays mid hmid] at h
      exact run_of_not_room hroom turns h

/-! ## 5. Every order gives the same -/

section Order

variable {σ : Type} [BlockSource σ] {α : Type} [Scalar α] {source : σ} {g : Tiling}
  {contents : Nat → Nat → Option Bytes} {target : SampleType} {output : Bytes}
  {transform : {n : Nat} → Batch α n → Outcome α (Batch α n)} {w : Window} {plan : ReadPlan}

/-- The groups of a plan write the same in any order. -/
theorem storeAll_groups_perm (hsteady : Steady α source g contents)
    (hp : plan.Partitions transform w g) (hlarge : w.area * target.size ≤ output.size)
    {order : PixelGroups} (horder : order.Perm plan.groups) :
    Bytes.storeAll target.size output
        (order.flatMap (groupWrites g (BlockSource.type source) target contents))
      = Bytes.storeAll target.size output
        (plan.groups.flatMap (groupWrites g (BlockSource.type source) target contents)) := by
  have hstorable := hp.storable hlarge (BlockSource.type source) contents
    fun _ _ _ h => hsteady.size_eq h
  exact (Bytes.storeAll_perm hstorable (horder.flatMap_right _).symm).symm

omit [Scalar α] in
/-- What is refused up front is the same in any order. -/
theorem scatterRefusal?_perm {type : SampleType} {order groups : PixelGroups} {size : Nat}
    (horder : order.Perm groups)
    (h : scatterRefusal? (α := α) type target groups size = none) :
    scatterRefusal? (α := α) type target order size = none := by
  have hmem : ∀ d, d ∈ (⟨order, 0, 0⟩ : ReadPlan).destinations →
      d ∈ (⟨groups, 0, 0⟩ : ReadPlan).destinations := fun d hd =>
    (horder.flatMap_right _).mem_iff.mp hd
  have hserved := (scatterRefusal?_eq_none_iff ⟨groups, 0, 0⟩).mp h
  refine (scatterRefusal?_eq_none_iff ⟨order, 0, 0⟩).mpr fun hrefused => hserved ?_
  rcases hrefused with h | h | ⟨d, hd, hshort⟩
  · exact .inl h
  · exact .inr (.inl h)
  · exact .inr (.inr ⟨d, hmem d hd, hshort⟩)

/-- Whether there is room for the blocks of groups is the same in any order. -/
theorem Tiling.RoomFor.perm {sampleSize : Nat} {order groups : PixelGroups}
    (h : g.RoomFor sampleSize groups) (horder : order.Perm groups) : g.RoomFor sampleSize order :=
  ⟨h.counted, fun q hq => h.room q (horder.mem_iff.mp hq)⟩

/-- **Reading in any order gives the same.**  Take the plan of a window and a source that answers
the same for ever.  If there is room for its blocks, the sequential loop succeeds, and

* with the blocks in any other order it gives the same output and tally;
* no schedule of workers goes wrong, each can be completed, and one that completes the plan has the
  output of the loop, and its tally however the workers' counts are merged.

If there is none, the loop faults in any order, and no schedule of workers gets past a read. -/
theorem scatter_any_order {notices : List (Notice α)}
    (hplan : planReads transform w g = .ok (plan, notices))
    (hsteady : Steady α source g contents) (htype : BlockSource.type source ≠ .unknown)
    (htarget : target ≠ .unknown) (hlarge : w.area * target.size ≤ output.size) :
    (g.RoomFor (BlockSource.type source).size plan.groups →
      ∃ s, scatterBlocks (α := α) source g plan.groups target output = .ok s ∧
        (∀ order : PixelGroups, order.Perm plan.groups →
          ∃ s', order.foldlM
              (fun s (index, pixels) => scatterBlock (α := α) g target s index pixels)
              ⟨source, output, []⟩ = .ok s' ∧
            s'.output = s.output ∧ s'.tally = s.tally) ∧
        ∀ turns : List Turn, ∃ ws,
          (Workers.start source plan.groups output).run g target turns
            = (.ok ws : Outcome α (Workers σ)) ∧
          (∃ more ended, ws.run g target more = (.ok ended : Outcome α (Workers σ)) ∧
            ended.Finished) ∧
          (ws.Finished → ws.output = s.output ∧
            ∀ m : Merging, m.leaves.Perm ws.tallies → m.total = s.tally)) ∧
    (¬ g.RoomFor (BlockSource.type source).size plan.groups →
      (∀ order : PixelGroups, order.Perm plan.groups →
        ∃ f : Fault, f.OfSize ∧
          scatterBlocks (α := α) source g order target output = .error (.fault f)) ∧
      ∀ turns ws, (Workers.start source plan.groups output).run g target turns
        = (.ok ws : Outcome α (Workers σ)) → ws = Workers.start source plan.groups output) := by
  have hp := partitions_of_planReads hplan
  refine ⟨fun hroom => ?_, fun hroom => ⟨fun order horder => ?_, fun turns ws hrun => ?_⟩⟩
  · have hfits : ∀ q ∈ plan.groups,
        GroupFits g (BlockSource.type source) target.size output.size q :=
      fun q hq => hp.groupFits hlarge hroom hq
    obtain ⟨s, hs, houtput, htally⟩ := scatterBlocks_eq hp hlarge hsteady hroom htype htarget
    have hsum : ∀ order : PixelGroups, order.Perm plan.groups →
        BlockTally.sum (order.map (groupTally g contents)) = s.tally := by
      intro order horder
      rw [htally, BlockTally.sum_perm (horder.map _), BlockTally.sum, List.foldl_map]
    refine ⟨s, hs, fun order horder => ?_, fun turns => ?_⟩
    · obtain ⟨s', hs', houtput', htally'⟩ := scatterGroups_eq target hsteady order
        ⟨source, output, []⟩ .start fun q hq => hfits q (horder.mem_iff.mp hq)
      refine ⟨s', hs', ?_, ?_⟩
      · rw [houtput', houtput]
        exact storeAll_groups_perm hsteady hp hlarge horder
      · rw [htally', ← hsum order horder, BlockTally.sum, List.foldl_map]
        rfl
    · obtain ⟨ws, done, hrun, h⟩ := run_working hsteady hfits turns .start
      refine ⟨ws, hrun, exists_finish hsteady hfits h, fun hfinished => ?_⟩
      have horder := h.perm_of_finished hfinished
      refine ⟨?_, fun m hm => ?_⟩
      · rw [h.output_eq, houtput]
        exact storeAll_groups_perm hsteady hp hlarge horder
      · rw [m.total_eq_sum, BlockTally.sum_perm hm, h.tallies_eq]
        exact hsum done horder
  · refine scatterBlocks_of_not_roomFor source
      (scatterRefusal?_perm horder (hp.not_refused hlarge htype htarget)) (fun q hq => ?_)
      fun h => hroom (h.perm horder.symm)
    exact (hp.placed (horder.mem_iff.mp hq)).2
  · refine Workers.run_of_not_room (Nat.le_of_not_lt fun hbytes => hroom ?_) turns hrun
    exact (Tiling.room_of_lt htype hbytes).roomFor _

/-- Workers at a layer with a block that cannot be read, from bytes to floating-point samples. -/
theorem scatter_any_order_ramp :
    Steady Float Layer.ramp Layer.ramp.grid Layer.ramp.contents ∧
      ∃ plan notices s,
        planReads (fun row => .ok (row.map fun p : Point Float => { p with ok := true }))
          ⟨1, 1, 6, 3⟩ Layer.ramp.grid = .ok (plan, notices) ∧
        scatterBlocks (α := Float) Layer.ramp Layer.ramp.grid plan.groups .float32
          (Bytes.zeros 75) = .ok s ∧
        ∀ turns : List Turn, ∃ ws,
          (Workers.start Layer.ramp plan.groups (Bytes.zeros 75)).run Layer.ramp.grid .float32 turns
            = (.ok ws : Outcome Float (Workers Layer)) ∧
          (ws.Finished → ws.output = s.output ∧
            ∀ m : Merging, m.leaves.Perm ws.tallies → m.total = s.tally) := by
  have hsteady := layer_steady Float Layer.ramp
  have hlarge : (⟨1, 1, 6, 3⟩ : Window).area * SampleType.float32.size ≤ (Bytes.zeros 75).size := by
    rw [Bytes.size_zeros]
    decide
  have hfits : PlanFits ⟨1, 1, 6, 3⟩ Layer.ramp.grid := by constructor <;> decide
  have hroom : Layer.ramp.grid.Room (BlockSource.type Layer.ramp).size := ⟨by decide, by decide⟩
  obtain ⟨plan, notices, hplan⟩ := (exists_planReads
    (fun row => .ok (row.map fun p : Point Float => { p with ok := true }))
    rfl hfits).resolve_right fun ⟨_, _, _, h, _⟩ => nomatch h
  obtain ⟨s, hs, -, hruns⟩ :=
    (scatter_any_order hplan hsteady (by decide) (by decide) hlarge).1 (hroom.roomFor _)
  refine ⟨hsteady, plan, notices, s, hplan, hs, fun turns => ?_⟩
  obtain ⟨ws, hrun, -, hended⟩ := hruns turns
  exact ⟨ws, hrun, hended⟩

end Order

end RasterWarp
