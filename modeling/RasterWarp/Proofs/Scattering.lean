/-
# What scattering a plan writes

`scatterBlocks` reads the blocks of a plan one after the other, and each block moves its samples
into the output.  Here the whole of it is brought into one closed form: the output afterwards is
the output before with one list of pieces stored (`blockWrites`, group by group), and the tally is
the sum over the groups (`scatterBlocks_eq`).

The source may be anything that hands out blocks, if it is `Steady`: however often it was read, a
block is read with the same bytes or fails.  A layer is (`layer_steady`).

That a plan partitions its window (`ReadPlan.Partitions`) is what makes the closed form useful: the
pieces have different numbers and lie inside an output that is large enough for the window
(`Partitions.storable`), so what one group writes no other group touches.
-/
import RasterWarp.Scatter
import RasterWarp.Proofs.PlanPartition
import Mathlib.Data.List.Flatten

namespace RasterWarp

/-! ## 1. Sources that answer the same for ever -/

section Source

variable {σ : Type} [BlockSource σ]

/-- The states of a source after any blocks were read from it. -/
inductive ReadFrom (α : Type) (source : σ) : σ → Prop
  | start : ReadFrom α source source
  | fetch {s s' : σ} {x y : Nat} {buffer block : Bytes} (h : ReadFrom α source s)
      (hf : BlockSource.fetch s x y buffer = (.ok (block, s') : Outcome α (Bytes × σ))) :
      ReadFrom α source s'

/-- **A source that answers the same for ever:** whatever was read before, block `(x, y)` of the
raster is read as `contents x y`, or fails if that is `none`.  Nothing is said of blocks for which
there is no buffer. -/
structure Steady (α : Type) (source : σ) (g : Tiling) (contents : Nat → Nat → Option Bytes) :
    Prop where
  type_eq : ∀ {s}, ReadFrom α source s → BlockSource.type s = BlockSource.type source
  size_eq : ∀ {x y block}, contents x y = some block →
    block.size = g.blockBytes (BlockSource.type source).size
  fetch_some : g.Room (BlockSource.type source).size → ∀ {s}, ReadFrom α source s →
    ∀ {x y block}, g.Inside x y → contents x y = some block → ∃ s',
      BlockSource.fetch s x y (Bytes.zeros (g.blockBytes (BlockSource.type source).size))
        = (.ok (block, s') : Outcome α (Bytes × σ))
  fetch_none : g.Room (BlockSource.type source).size → ∀ {s}, ReadFrom α source s →
    ∀ {x y}, g.Inside x y → contents x y = none → ∃ f,
      BlockSource.fetch s x y (Bytes.zeros (g.blockBytes (BlockSource.type source).size))
        = (.error (.failure f) : Outcome α (Bytes × σ))

end Source

namespace Layer

/-- What is read from a layer changes its count of reads and nothing else. -/
theorem fetch_credit {α : Type} {l l' : Layer} {x y : Nat} {buffer block : Bytes}
    (h : l.fetch x y buffer = (.ok (block, l') : Outcome α (Bytes × Layer))) :
    l' = l.credit 1 := by
  unfold fetch at h
  simp only at h
  split at h
  · cases h
  · obtain ⟨size, -, h⟩ := Outcome.bind_eq_ok_iff.mp h
    split at h
    · cases h
    · split at h
      · cases h
      · obtain ⟨copied, -, h⟩ := Outcome.bind_eq_ok_iff.mp h
        cases h
        rfl

theorem readFrom_credit {α : Type} {l s : Layer} (h : ReadFrom α l s) : ∃ n, s = l.credit n := by
  induction h with
  | start => exact ⟨0, rfl⟩
  | fetch _ hf ih =>
    obtain ⟨n, rfl⟩ := ih
    exact ⟨n + 1, fetch_credit hf⟩

end Layer

/-- **A layer answers the same for ever.** -/
theorem layer_steady (α : Type) (l : Layer) : Steady α l l.grid l.contents where
  type_eq h := by
    obtain ⟨n, rfl⟩ := Layer.readFrom_credit h
    rfl
  size_eq h := l.size_of_contents h
  fetch_some hroom s h x y block _ hb := by
    obtain ⟨n, rfl⟩ := Layer.readFrom_credit h
    exact ⟨_, (l.credit n).fetch_of_contents hroom hb⟩
  fetch_none hroom s h x y hin hb := by
    obtain ⟨n, rfl⟩ := Layer.readFrom_credit h
    exact (l.credit n).fetch_of_no_contents hroom hin hb

/-- A layer cut by its blocks on the right and below, with a block that cannot be read. -/
def Layer.ramp : Layer :=
  ((Layer.ofFn 5 3 .byte fun x y => .ofInt (10 * y + x : Nat)).setBlocks 2 2).addFailing 1 0

/-! ## 2. One block -/

section Block

variable (g : Tiling) (type target : SampleType)

/-- The bytes that a pixel with source index `s` takes over from its block. -/
def carried (block : Bytes) (s : Nat) : Bytes :=
  convertSample type target
    ((block.piece? type.size (g.locate (s % g.rasterWidth) (s / g.rasterWidth)).2).getD #[])

/-- What the pixels of a group take over from their block, each for its own place. -/
def blockWrites (block : Bytes) (pixels : PixelGroup) : List (Nat × Bytes) :=
  pixels.pairs.map fun (s, d) => (d, carried g type target block s)

variable {g type} {block : Bytes} (hblock : block.size = g.blockBytes type.size)

include hblock

/-- A block that was read whole has every sample that `locate` names. -/
theorem piece?_locate (x y : Nat) : ∃ sample, block.piece? type.size (g.locate x y).2 = some sample
    ∧ sample.size = type.size := by
  have hlt := Nat.mul_le_mul_right type.size
    (show (g.locate x y).2 + 1 ≤ g.blockArea from g.locate_snd_lt x y)
  rw [← Tiling.blockBytes, ← hblock] at hlt
  obtain ⟨sample, hsample⟩ := Bytes.piece?_isSome hlt
  exact ⟨sample, hsample, Bytes.size_of_piece? hsample⟩

/-- What is taken over is one whole sample of the target type. -/
theorem size_carried (s : Nat) : (carried g type target block s).size = target.size := by
  obtain ⟨sample, hsample, hsize⟩ :=
    piece?_locate hblock (s % g.rasterWidth) (s / g.rasterWidth)
  rw [carried, hsample, Option.getD_some]
  unfold convertSample
  split
  · rename_i heq
    rw [hsize, heq]
  · exact SampleType.size_encode ..

variable {α : Type} (hwidth : g.rasterWidth ≠ 0)

include hwidth

/-- **One pixel** is written under its own number. -/
theorem transferPixel_eq {output : Bytes} {s d : Nat}
    (hfits : (d + 1) * target.size ≤ output.size) :
    transferPixel g type target block output s d
      = (.ok (output.overwrite (d * target.size) (carried g type target block s)) :
        Outcome α Bytes) := by
  obtain ⟨sample, hsample, -⟩ := piece?_locate hblock (s % g.rasterWidth) (s / g.rasterWidth)
  have hsize := size_carried target hblock s
  have hsplice : output.splice? (d * target.size) (carried g type target block s)
      = some (output.overwrite (d * target.size) (carried g type target block s)) := by
    rw [Nat.add_mul, Nat.one_mul] at hfits
    rw [Bytes.splice?, if_pos (by omega)]
  rw [carried, hsample, Option.getD_some] at hsplice ⊢
  rw [Bytes.piece?] at hsample
  simp only [transferPixel, if_neg hwidth, hsample, hsplice, inRange_some, Outcome.ok_bind]

/-- **The pixels of one block** are written one after the other. -/
theorem transferPairs_eq : ∀ (pairs : List (Nat × Nat)) (output : Bytes),
    (∀ p ∈ pairs, (p.2 + 1) * target.size ≤ output.size) →
      pairs.foldlM (fun output (s, d) => transferPixel g type target block output s d) output
        = (.ok (Bytes.storeAll target.size output
            (pairs.map fun (s, d) => (d, carried g type target block s))) : Outcome α Bytes)
  | [], _, _ => rfl
  | (s, d) :: pairs, output, hfits => by
    rw [List.foldlM_cons]
    simp only
    rw [transferPixel_eq target hblock hwidth (hfits _ List.mem_cons_self)]
    exact transferPairs_eq pairs _ fun p hp => by
      rw [Bytes.size_overwrite]
      exact hfits p (List.mem_cons_of_mem _ hp)

theorem transferBlock_eq {output : Bytes} {pixels : PixelGroup}
    (hfits : ∀ p ∈ pixels.pairs, (p.2 + 1) * target.size ≤ output.size) :
    transferBlock g type target block pixels output
      = (.ok (Bytes.storeAll target.size output (blockWrites g type target block pixels)) :
        Outcome α Bytes) :=
  transferPairs_eq target hblock hwidth _ _ hfits

end Block

/-! ## 3. The groups of a plan -/

theorem SampleType.size_pos {t : SampleType} (ht : t ≠ .unknown) : 0 < t.size := by
  cases t <;> first | exact absurd rfl ht | decide

/-- A block of known samples has as many bytes as samples at least. -/
theorem Tiling.room_of_lt {g : Tiling} {t : SampleType} (ht : t ≠ .unknown)
    (h : g.blockBytes t.size < bufferBound) : g.Room t.size where
  area := Nat.lt_of_le_of_lt (Nat.le_mul_of_pos_right _ (SampleType.size_pos ht))
    (Nat.lt_of_lt_of_le h bufferBound_le_wordBound)
  bytes := h

/-- **Room for the blocks of groups:** the size of a block can be told in words, and is one that
buffers have if there is any group. -/
structure Tiling.RoomFor (g : Tiling) (sampleSize : Nat) (groups : PixelGroups) : Prop where
  counted : (g.blockBytes? sampleSize).isSome
  room : ∀ q ∈ groups, g.Room sampleSize

theorem Tiling.Room.blank_eq {α : Type} {g : Tiling} {sampleSize : Nat} (h : g.Room sampleSize) :
    (blank (g.blockBytes sampleSize) : Outcome α Bytes)
      = .ok (Bytes.zeros (g.blockBytes sampleSize)) :=
  blank_eq_ok_iff.mpr ⟨h.bytes, rfl⟩

theorem Tiling.Room.roomFor {g : Tiling} {sampleSize : Nat} (h : g.Room sampleSize)
    (groups : PixelGroups) : g.RoomFor sampleSize groups :=
  ⟨h.blockBytes?_eq ▸ rfl, fun _ _ => h⟩

section Groups

variable (g : Tiling) (type target : SampleType) (contents : Nat → Nat → Option Bytes)

/-- The bytes of the block with a number, if it can be read. -/
def blockUnder? (index : Nat) : Option Bytes :=
  (g.position? index).bind fun (x, y) => contents x y

/-- What a group writes: nothing, if its block cannot be read. -/
def groupWrites (q : Nat × PixelGroup) : List (Nat × Bytes) :=
  match blockUnder? g contents q.1 with
  | none => []
  | some block => blockWrites g type target block q.2

/-- What a group adds to the tally. -/
def groupTally (q : Nat × PixelGroup) : BlockTally :=
  if (blockUnder? g contents q.1).isSome then ⟨1, 0⟩ else ⟨0, 1⟩

/-- **A group that can be written** to an output of `size` bytes in pieces of `k`: its block has a
place in the tiling and a buffer, and its pixels have a place in the output. -/
structure GroupFits (k size : Nat) (q : Nat × PixelGroup) : Prop where
  placed : ∃ x y, g.position? q.1 = some (x, y) ∧ g.Inside x y
  room : g.Room type.size
  wide : g.rasterWidth ≠ 0
  fits : ∀ p ∈ q.2.pairs, (p.2 + 1) * k ≤ size

theorem Scattering.tally_append {σ α : Type} (s : Scattering σ α) (source : σ) (output : Bytes)
    (a : BlockRead α) :
    (⟨source, output, s.attempts ++ [a]⟩ : Scattering σ α).tally = s.tally.merge a.tally := by
  simp only [tally, List.map_append, List.map_cons, List.map_nil, List.foldl_append,
    List.foldl_cons, List.foldl_nil]

variable {g contents} {σ : Type} [BlockSource σ] {α : Type} {source : σ}
  (hsteady : Steady α source g contents)

include hsteady

/-- **One group:** its pieces are stored and its block is counted, whether it could be read or
not. -/
theorem scatterBlock_eq {s : Scattering σ α} (hs : ReadFrom α source s.source)
    {q : Nat × PixelGroup}
    (hq : GroupFits g (BlockSource.type source) target.size s.output.size q) :
    ∃ next, scatterBlock g target s q.1 q.2 = .ok next ∧ ReadFrom α source next.source ∧
      next.output = Bytes.storeAll target.size s.output
        (groupWrites g (BlockSource.type source) target contents q) ∧
      next.tally = s.tally.merge (groupTally g contents q) := by
  obtain ⟨x, y, hxy, hin⟩ := hq.placed
  have htype := hsteady.type_eq hs
  have hbuffer := hq.room.blank_eq (α := α)
  unfold scatterBlock
  simp only [hxy, htype, hbuffer, Outcome.ok_bind, groupWrites, groupTally, blockUnder?,
    Option.bind_some]
  cases hcontents : contents x y with
  | none =>
    obtain ⟨f, hf⟩ := hsteady.fetch_none hq.room hs hin hcontents
    rw [hf]
    exact ⟨_, rfl, hs, rfl, s.tally_append ..⟩
  | some block =>
    obtain ⟨s', hfetch⟩ := hsteady.fetch_some hq.room hs hin hcontents
    have htransfer := transferBlock_eq (α := α) target (hsteady.size_eq hcontents)
      hq.wide hq.fits
    simp only [hfetch, htransfer]
    exact ⟨_, rfl, hs.fetch hfetch, rfl, s.tally_append ..⟩

/-- **All groups,** one after the other. -/
theorem scatterGroups_eq : ∀ (groups : PixelGroups) (s : Scattering σ α),
    ReadFrom α source s.source →
    (∀ q ∈ groups, GroupFits g (BlockSource.type source) target.size s.output.size q) →
    ∃ next, groups.foldlM (fun s (index, pixels) => scatterBlock g target s index pixels) s
        = .ok next ∧
      next.output = Bytes.storeAll target.size s.output
        (groups.flatMap (groupWrites g (BlockSource.type source) target contents)) ∧
      next.tally = groups.foldl (fun t q => t.merge (groupTally g contents q)) s.tally
  | [], s, _, _ => ⟨s, rfl, rfl, rfl⟩
  | q :: groups, s, hs, hfits => by
    obtain ⟨mid, hmid, hread, houtput, htally⟩ :=
      scatterBlock_eq target hsteady hs (hfits q List.mem_cons_self)
    have hfits' : ∀ q' ∈ groups,
        GroupFits g (BlockSource.type source) target.size mid.output.size q' := by
      intro q' hq'
      rw [houtput, Bytes.size_storeAll]
      exact hfits q' (List.mem_cons_of_mem _ hq')
    obtain ⟨next, hnext, houtput', htally'⟩ := scatterGroups_eq groups mid hread hfits'
    refine ⟨next, ?_, ?_, ?_⟩
    · rw [List.foldlM_cons]
      simp only [hmid]
      exact hnext
    · rw [houtput', houtput, List.flatMap_cons, Bytes.storeAll_append]
    · rw [htally', htally, List.foldl_cons]

end Groups

/-! ## 4. A whole plan -/

/-- **What keeps a plan from being scattered:** a type that is not known, or a pixel that the output
has no room for. -/
def ReadPlan.Refused (plan : ReadPlan) (type target : SampleType) (size : Nat) : Prop :=
  type = .unknown ∨ target = .unknown ∨ ∃ d ∈ plan.destinations, size < (d + 1) * target.size

/-- **The check up front finds exactly that.**  It looks at the greatest pixel only, and the others
end before it. -/
theorem scatterRefusal?_eq_none_iff {α : Type} (plan : ReadPlan) {type target : SampleType}
    {size : Nat} : scatterRefusal? (α := α) type target plan.groups size = none
      ↔ ¬ plan.Refused type target size := by
  have hdestinations : lastPixel? plan.groups = plan.destinations.max? := rfl
  unfold ReadPlan.Refused scatterRefusal?
  by_cases htype : type = .unknown
  · simp [htype, SampleType.size, SampleType.number?]
  · have ht := SampleType.size_pos htype
    rw [if_neg (by omega)]
    by_cases htarget : target = .unknown
    · simp [htarget, SampleType.size, SampleType.number?]
    · have ht' := SampleType.size_pos htarget
      rw [if_neg (by omega), hdestinations]
      cases hlast : plan.destinations.max? with
      | none =>
        rw [List.max?_eq_none_iff] at hlast
        simp [htype, htarget, hlast]
      | some last =>
        obtain ⟨hmem, hle⟩ := List.max?_eq_some_iff.mp hlast
        simp only [htype, htarget, false_or]
        constructor
        · intro hnone
          rintro ⟨d, hd, hshort⟩
          have hend : (d + 1) * target.size ≤ (last + 1) * target.size :=
            Nat.mul_le_mul_right _ (Nat.succ_le_succ (hle d hd))
          split at hnone
          · omega
          · cases hnone
        · intro hroom
          rw [if_pos]
          exact Nat.le_of_not_lt fun hshort => hroom ⟨last, hmem, hshort⟩

section Plan

variable {α : Type} [Scalar α] {plan : ReadPlan}
  {transform : {n : Nat} → Batch α n → Outcome α (Batch α n)} {w : Window} {g : Tiling}
  (hp : plan.Partitions transform w g) {target : SampleType} {output : Bytes}

include hp

/-- The block of a group is one that the raster reaches into. -/
theorem ReadPlan.Partitions.placed {q : Nat × PixelGroup} (hq : q ∈ plan.groups) :
    g.rasterWidth ≠ 0 ∧ ∃ x y, g.position? q.1 = some (x, y) ∧ g.Inside x y := by
  obtain ⟨⟨s, d⟩, hsd⟩ := hp.exists_mem_pairs hq
  obtain ⟨hlt, hblock⟩ := hp.owned q hq _ hsd
  have hwidth : g.rasterWidth ≠ 0 := by
    intro hzero
    rw [hzero, Nat.zero_mul] at hlt
    exact Nat.not_lt_zero _ hlt
  have hx := Nat.mod_lt s (Nat.pos_of_ne_zero hwidth)
  have hy : s / g.rasterWidth < g.rasterHeight := Nat.div_lt_of_lt_mul hlt
  have hplaced := g.position?_locate hx (s / g.rasterWidth)
  rw [hblock] at hplaced
  exact ⟨hwidth, _, _, hplaced, Nat.lt_of_le_of_lt (Nat.div_mul_le_self ..) hx,
    Nat.lt_of_le_of_lt (Nat.div_mul_le_self ..) hy⟩

/-- A group can be written wherever there is room for its block and for the pixels of the plan. -/
theorem ReadPlan.Partitions.groupFits_of_fits {type : SampleType} {k size : Nat}
    (hroom : g.RoomFor type.size plan.groups) (hfits : ∀ d ∈ plan.destinations, (d + 1) * k ≤ size)
    {q : Nat × PixelGroup} (hq : q ∈ plan.groups) : GroupFits g type k size q := by
  obtain ⟨hwidth, hplaced⟩ := hp.placed hq
  refine ⟨hplaced, hroom.room q hq, hwidth, fun p hmem => hfits _ ?_⟩
  refine List.mem_flatMap.mpr ⟨q, hq, ?_⟩
  rw [← PixelGroup.map_snd_pairs (hp.even q hq)]
  exact List.mem_map_of_mem hmem

variable (hlarge : w.area * target.size ≤ output.size)

include hlarge

theorem ReadPlan.Partitions.end_le {d : Nat} (hd : d ∈ plan.destinations) :
    (d + 1) * target.size ≤ output.size :=
  Nat.le_trans (Nat.mul_le_mul_right _ (hp.inside d hd)) hlarge

/-- Every group of a plan can be written to an output that is large enough for the window. -/
theorem ReadPlan.Partitions.groupFits {type : SampleType}
    (hroom : g.RoomFor type.size plan.groups) {q : Nat × PixelGroup} (hq : q ∈ plan.groups) :
    GroupFits g type target.size output.size q :=
  hp.groupFits_of_fits hroom (fun _ hd => hp.end_le hlarge hd) hq

/-- **No two groups write the same piece,** and all pieces fit. -/
theorem ReadPlan.Partitions.storable (type : SampleType) (contents : Nat → Nat → Option Bytes)
    (hsize : ∀ x y block, contents x y = some block → block.size = g.blockBytes type.size) :
    Bytes.Storable target.size output
      (plan.groups.flatMap (groupWrites g type target contents)) := by
  have hkeys : ((plan.groups.flatMap (groupWrites g type target contents)).map Prod.fst).Sublist
      plan.destinations := by
    rw [List.map_flatMap]
    refine List.Sublist.flatMap_right _ fun q hq => ?_
    unfold groupWrites
    split
    · exact List.nil_sublist _
    · rw [← PixelGroup.map_snd_pairs (hp.even q hq), blockWrites, List.map_map]
      exact List.Sublist.refl _
  refine ⟨fun e he => ?_, fun e he => ?_, hp.distinct.sublist hkeys⟩
  · obtain ⟨q, -, he⟩ := List.mem_flatMap.mp he
    unfold groupWrites at he
    split at he
    · cases he
    · rename_i block hblock
      obtain ⟨sd, -, rfl⟩ := List.mem_map.mp he
      obtain ⟨⟨x, y⟩, -, hxy⟩ := Option.bind_eq_some_iff.mp hblock
      exact size_carried target (hsize x y block hxy) sd.1
  · exact hp.end_le hlarge (hkeys.subset (List.mem_map_of_mem he))

/-- Nothing about a plan for the window is refused up front. -/
theorem ReadPlan.Partitions.not_refused {type : SampleType} (htype : type ≠ .unknown)
    (htarget : target ≠ .unknown) :
    scatterRefusal? (α := α) type target plan.groups output.size = none := by
  refine (scatterRefusal?_eq_none_iff plan).mpr ?_
  rintro (h | h | ⟨d, hd, hshort⟩)
  · exact htype h
  · exact htarget h
  · exact Nat.not_lt.mpr (hp.end_le hlarge hd) hshort

/-- **Scattering a plan in closed form:** it succeeds, the output has the pieces of all groups
stored, and the tally is the sum over the groups. -/
theorem scatterBlocks_eq {σ : Type} [BlockSource σ] {source : σ}
    {contents : Nat → Nat → Option Bytes} (hsteady : Steady α source g contents)
    (hroom : g.RoomFor (BlockSource.type source).size plan.groups)
    (htype : BlockSource.type source ≠ .unknown) (htarget : target ≠ .unknown) :
    ∃ s, scatterBlocks (α := α) source g plan.groups target output = .ok s ∧
      s.output = Bytes.storeAll target.size output
        (plan.groups.flatMap (groupWrites g (BlockSource.type source) target contents)) ∧
      s.tally = plan.groups.foldl (fun t q => t.merge (groupTally g contents q)) .empty := by
  obtain ⟨size, hsize⟩ := Option.isSome_iff_exists.mp hroom.counted
  simp only [scatterBlocks, hp.not_refused hlarge htype htarget, hsize, inWord_some,
    Outcome.ok_bind]
  exact scatterGroups_eq target hsteady plan.groups ⟨source, output, []⟩ .start
    fun q hq => hp.groupFits hlarge hroom hq

end Plan

/-! ## 5. Blocks without a buffer -/

section Room

variable {σ α : Type} [BlockSource σ] {source : σ} {g : Tiling} {groups : PixelGroups}
  {target : SampleType} {output : Bytes}

/-- What a scattering comes to: nothing is refused, the size of a block is a word, and all groups
are gone through. -/
theorem scatterBlocks_eq_ok_iff {s : Scattering σ α} :
    scatterBlocks source g groups target output = .ok s ↔
      scatterRefusal? (α := α) (BlockSource.type source) target groups output.size = none ∧
        (g.blockBytes? (BlockSource.type source).size).isSome ∧
        groups.foldlM (fun s (index, pixels) => scatterBlock g target s index pixels)
          ⟨source, output, []⟩ = .ok s := by
  simp only [scatterBlocks]
  cases scatterRefusal? (α := α) (BlockSource.type source) target groups output.size with
  | some e => simp
  | none => cases g.blockBytes? (BlockSource.type source).size <;> simp [inWord]

/-- A scattering that comes to its end was one between known types, -/
theorem known_of_scatterBlocks {s : Scattering σ α}
    (h : scatterBlocks source g groups target output = .ok s) :
    BlockSource.type source ≠ .unknown ∧ target ≠ .unknown := by
  obtain ⟨hserved, -, -⟩ := scatterBlocks_eq_ok_iff.mp h
  have hserved := (scatterRefusal?_eq_none_iff ⟨groups, 0, 0⟩).mp hserved
  exact ⟨fun htype => hserved (.inl htype), fun htarget => hserved (.inr (.inl htarget))⟩

/-- **and had room for the blocks.** -/
theorem roomFor_of_scatterBlocks {s : Scattering σ α}
    (h : scatterBlocks source g groups target output = .ok s) :
    g.RoomFor (BlockSource.type source).size groups := by
  obtain ⟨-, hcounted, hrun⟩ := scatterBlocks_eq_ok_iff.mp h
  obtain ⟨size, hsize⟩ := Option.isSome_iff_exists.mp hcounted
  refine ⟨hcounted, fun q hq => ⟨(g.blockBytes?_eq_some_iff.mp hsize).1, ?_⟩⟩
  -- the first group had a buffer
  cases groups with
  | nil => cases hq
  | cons first rest =>
    rw [List.foldlM_cons] at hrun
    by_contra hbytes
    have hnone := blank_of_le (α := α) (Nat.not_lt.mp hbytes)
    unfold scatterBlock at hrun
    simp only [hnone] at hrun
    split at hrun <;> cases hrun

/-- **Without room for the blocks,** the scattering of a plan ends in a fault. -/
theorem scatterBlocks_of_not_roomFor (source : σ)
    (hserved : scatterRefusal? (α := α) (BlockSource.type source) target groups output.size = none)
    (hplaced : ∀ q ∈ groups, ∃ x y, g.position? q.1 = some (x, y) ∧ g.Inside x y)
    (h : ¬ g.RoomFor (BlockSource.type source).size groups) :
    ∃ f : Fault, f.OfSize ∧
      scatterBlocks (α := α) source g groups target output = .error (.fault f) := by
  unfold scatterBlocks
  simp only [hserved]
  cases hsize : g.blockBytes? (BlockSource.type source).size with
  | none => exact ⟨_, .inl rfl, rfl⟩
  | some size =>
    simp only [inWord_some, Outcome.ok_bind]
    obtain ⟨harea, -⟩ := g.blockBytes?_eq_some_iff.mp hsize
    cases groups with
    | nil => exact absurd ⟨hsize ▸ rfl, nofun⟩ h
    | cons first rest =>
      have hbytes : ¬ g.blockBytes (BlockSource.type source).size < bufferBound := fun hbytes =>
        h ⟨hsize ▸ rfl, fun _ _ => ⟨harea, hbytes⟩⟩
      have hnone := blank_of_le (α := α) (Nat.not_lt.mp hbytes)
      obtain ⟨x, y, hxy, -⟩ := hplaced first List.mem_cons_self
      refine ⟨.capacity, .inr rfl, ?_⟩
      rw [List.foldlM_cons]
      simp only [scatterBlock, hxy, hnone]
      rfl

end Room

end RasterWarp
