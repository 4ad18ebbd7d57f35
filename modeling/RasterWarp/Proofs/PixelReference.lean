/-
# A warp by blocks against a warp pixel by pixel

What a warp should write to a pixel can be said without blocks: take the pixel back to the source
and, if it has a source pixel that can be read, bring the stored sample into the target type
(`referenceSample`).  Blocks enter only through the question which samples cannot be read.

`scatter_reference` says that filling the output, planning the reads and scattering the plan comes
to exactly that, for every pixel of the window.  The plan says which pair the pixel is in, the
block read has the stored sample where `locate` says, and no other pair writes to the pixel.
-/
import RasterWarp.Proofs.Scattering

namespace RasterWarp

/-! ## 1. The reference -/

/-- The bytes of the sample at column `x` and row `y` of a layer. -/
def Layer.stored (l : Layer) (x y : Nat) : Bytes :=
  l.data.extract ((y * l.width + x) * l.type.size) ((y * l.width + x) * l.type.size + l.type.size)

theorem Layer.piece?_stored (l : Layer) {x y : Nat} (hx : x < l.width) (hy : y < l.height) :
    l.data.piece? l.type.size (y * l.width + x) = some (l.stored x y) := by
  refine Bytes.slice?_eq_some _ ?_
  have hin : y * l.width + x < l.width * l.height := by
    rw [Nat.add_comm]
    exact add_mul_lt hx hy
  rw [l.size_data]
  exact end_le_start hin l.type.size

section Reference

variable {α : Type} [Scalar α]

/-- **What a warp should write to the window's pixel `(row, col)`.**  A pixel without a source, or
with one in a block that cannot be read, is `noData`; any other is the stored sample, as it is
between equal types and through its value between different ones. -/
def referenceSample (transform : {n : Nat} → Batch α n → Outcome α (Batch α n)) (w : Window)
    (l : Layer) (target : SampleType) (noData : Binary64) (row col : Nat) : Bytes :=
  match sourceUnder? transform w l.grid row col with
  | none => target.encode noData
  | some (x, y) =>
    if l.failing.contains (x / l.blockWidth, y / l.blockHeight) then target.encode noData
    else if l.type = target then l.stored x y
    else target.encode (l.type.decode (l.stored x y))

/-! ## 2. What the pairs of a plan write -/

/-- The block of a pixel of a layer can be read unless it is marked. -/
theorem Layer.contents_isSome (l : Layer) {x y : Nat} (hx : x < l.width) (hy : y < l.height) :
    (∃ block, l.contents (x / l.blockWidth) (y / l.blockHeight) = some block)
      ↔ l.failing.contains (x / l.blockWidth, y / l.blockHeight) = false := by
  have hxb := Nat.div_mul_le_self x l.blockWidth
  rw [l.contents_div hx hy]
  constructor
  · rintro ⟨block, hblock⟩
    split at hblock
    · cases hblock
    · exact Bool.eq_false_iff.mpr ‹_›
  · intro hreadable
    obtain ⟨block, hblock, -⟩ :=
      l.copyBlock_blank (x / l.blockWidth) (y / l.blockHeight) (by omega)
    exact ⟨block, by rw [if_neg (by rw [hreadable]; exact Bool.false_ne_true), hblock]⟩

/-- **A pair writes the stored sample** of its source pixel, if the block can be read. -/
theorem mem_groupWrites (l : Layer) (target : SampleType) {x y d : Nat} (hx : x < l.width)
    (hy : y < l.height) {q : Nat × PixelGroup} (hq : (l.grid.locate x y).1 = q.1)
    (hsd : (y * l.width + x, d) ∈ q.2.pairs)
    (hreadable : l.failing.contains (x / l.blockWidth, y / l.blockHeight) = false) :
    (d, convertSample l.type target (l.stored x y))
      ∈ groupWrites l.grid l.type target l.contents q := by
  obtain ⟨block, hblock⟩ := (l.contents_isSome hx hy).mpr hreadable
  have hunder : blockUnder? l.grid l.contents q.1 = some block := by
    rw [← hq, blockUnder?, l.grid.position?_locate hx]
    exact hblock
  have hcarried : carried l.grid l.type target block (y * l.width + x)
      = convertSample l.type target (l.stored x y) := by
    obtain ⟨hmod, hdiv⟩ := linear_mod_div (y := y) hx
    rw [carried, show l.grid.rasterWidth = l.width from rfl, hmod, hdiv,
      l.piece?_located hx hy hblock, l.piece?_stored hx hy, Option.getD_some]
  rw [groupWrites, hunder, ← hcarried]
  exact List.mem_map.mpr ⟨_, hsd, rfl⟩

/-- A group whose block cannot be read writes nothing. -/
theorem groupWrites_failing (l : Layer) (target : SampleType) {x y : Nat} (hx : x < l.width)
    (hy : y < l.height) {q : Nat × PixelGroup} (hq : (l.grid.locate x y).1 = q.1)
    (hfailing : l.failing.contains (x / l.blockWidth, y / l.blockHeight)) :
    groupWrites l.grid l.type target l.contents q = [] := by
  have hnone : l.contents (x / l.blockWidth) (y / l.blockHeight) = none := by
    rw [l.contents_div hx hy, if_pos hfailing]
  have hunder : blockUnder? l.grid l.contents q.1 = none := by
    rw [← hq, blockUnder?, l.grid.position?_locate hx]
    exact hnone
  rw [groupWrites, hunder]

/-- What is written under a number comes from a pair with that number. -/
theorem exists_pair_of_mem_groupWrites {g : Tiling} {type target : SampleType}
    {contents : Nat → Nat → Option Bytes} {q : Nat × PixelGroup} {d : Nat}
    (h : d ∈ (groupWrites g type target contents q).map Prod.fst) :
    ∃ s, (s, d) ∈ q.2.pairs := by
  unfold groupWrites at h
  split at h
  · cases h
  · obtain ⟨e, he, rfl⟩ := List.mem_map.mp h
    obtain ⟨⟨s, d⟩, hsd, rfl⟩ := List.mem_map.mp he
    exact ⟨s, hsd⟩

/-! ## 3. The whole window -/

variable {transform : {n : Nat} → Batch α n → Outcome α (Batch α n)} {w : Window} {plan : ReadPlan}
  {l : Layer} {target : SampleType} {noData : Binary64}

/-- **The samples of a plan for a layer,** stored into an output that holds `noData` everywhere, are
the samples of the reference. -/
theorem piece?_storeAll_reference (hp : plan.Partitions transform w l.grid) {output : Bytes}
    (hlarge : w.area * target.size ≤ output.size)
    (hblank : ∀ d < w.area, output.piece? target.size d = some (target.encode noData))
    {row col : Nat} (hrow : row < w.height) (hcol : col < w.width) :
    (Bytes.storeAll target.size output
        (plan.groups.flatMap (groupWrites l.grid l.type target l.contents))).piece? target.size
      (row * w.width + col) = some (referenceSample transform w l target noData row col) := by
  have hstorable := hp.storable hlarge l.type l.contents fun _ _ _ h => l.size_of_contents h
  have hd : row * w.width + col < w.area := by
    rw [Nat.add_comm]
    exact add_mul_lt hcol hrow
  -- a pixel that no pair writes to keeps what the output was filled with
  have hkeep : (∀ q ∈ plan.groups, ∀ s, (s, row * w.width + col) ∈ q.2.pairs →
      groupWrites l.grid l.type target l.contents q = []) →
      (Bytes.storeAll target.size output
        (plan.groups.flatMap (groupWrites l.grid l.type target l.contents))).piece? target.size
          (row * w.width + col) = some (target.encode noData) := by
    intro hnone
    rw [Bytes.piece?_storeAll_of_not_mem _ _ hstorable.whole hstorable.inside, hblank _ hd]
    rw [List.map_flatMap, List.mem_flatMap]
    rintro ⟨q, hq, hmem⟩
    obtain ⟨s, hs⟩ := exists_pair_of_mem_groupWrites hmem
    rw [hnone q hq s hs] at hmem
    cases hmem
  unfold referenceSample
  cases hsource : sourceUnder? transform w l.grid row col with
  | none =>
    refine hkeep fun q hq s hs => ?_
    obtain ⟨x, y, hxy, -⟩ := (hp.paired_iff row hrow col hcol s).mp ⟨q, hq, hs⟩
    rw [hsource] at hxy
    cases hxy
  | some xy =>
    obtain ⟨x, y⟩ := xy
    obtain ⟨hx, hy⟩ := sourceUnder?_lt hsource
    -- the pair of the pixel is in the group of the block that owns its source
    have howned : ∀ q ∈ plan.groups, ∀ s, (s, row * w.width + col) ∈ q.2.pairs →
        s = y * l.width + x ∧ (l.grid.locate x y).1 = q.1 := by
      intro q hq s hs
      obtain ⟨x', y', hxy, rfl⟩ := (hp.paired_iff row hrow col hcol s).mp ⟨q, hq, hs⟩
      rw [hsource] at hxy
      cases hxy
      have hblock := (hp.owned q hq _ hs).2
      obtain ⟨hmod, hdiv⟩ := linear_mod_div (y := y) hx
      simp only [hmod, hdiv] at hblock
      exact ⟨rfl, hblock⟩
    simp only
    split
    · rename_i hfailing
      exact hkeep fun q hq s hs => groupWrites_failing l target hx hy (howned q hq s hs).2 hfailing
    · rename_i hreadable
      obtain ⟨q, hq, hs⟩ :=
        (hp.paired_iff row hrow col hcol (y * l.width + x)).mpr ⟨x, y, hsource, rfl⟩
      have hwrite := mem_groupWrites l target hx hy (howned q hq _ hs).2 hs
        (Bool.eq_false_iff.mpr hreadable)
      rw [Bytes.piece?_storeAll_of_mem hstorable (List.mem_flatMap.mpr ⟨q, hq, hwrite⟩)]
      rfl

/-- What is written over an output that holds `noData` everywhere are the samples of the
reference. -/
theorem piece?_scatterBlocks {buffer : Bytes} (hlarge : w.area * target.size ≤ buffer.size)
    {notices : List (Notice α)} {s : Scattering Layer α}
    (hplan : planReads transform w l.grid = .ok (plan, notices))
    (hs : scatterBlocks l l.grid plan.groups target (target.fill buffer noData) = .ok s) :
    ∀ row < w.height, ∀ col < w.width, s.output.piece? target.size (row * w.width + col)
      = some (referenceSample transform w l target noData row col) := by
  intro row hrow col hcol
  have hlarge' : w.area * target.size ≤ (target.fill buffer noData).size := by
    rwa [SampleType.size_fill]
  have hp := partitions_of_planReads hplan
  obtain ⟨hl, ht⟩ := known_of_scatterBlocks hs
  obtain ⟨s', hs', houtput, -⟩ :=
    scatterBlocks_eq hp hlarge' (layer_steady α l) (roomFor_of_scatterBlocks hs) hl ht
  obtain rfl := Except.ok.inj (hs'.symm.trans hs)
  rw [houtput]
  refine piece?_storeAll_reference hp hlarge' (fun d hd => ?_) hrow hcol
  refine SampleType.piece?_fill (SampleType.size_pos ht) noData ?_
  exact Nat.le_trans (Nat.mul_le_mul_right _ hd) hlarge

/-- A layer of one pixel, in a block for which no buffer is large enough. -/
def Layer.vast : Layer :=
  (Layer.ofFn 1 1 .byte fun _ _ => .ofInt 7).setBlocks 4294967296 4294967296

/-- Its pixel has a place in a plan. -/
theorem Layer.exists_plan_vast : ∃ plan notices,
    planReads (fun row => .ok (row.map fun p : Point ℚ => { p with ok := true })) ⟨0, 0, 1, 1⟩
      Layer.vast.grid = .ok (plan, notices) := by
  have hfits : PlanFits ⟨0, 0, 1, 1⟩ Layer.vast.grid := by constructor <;> decide
  exact (exists_planReads (fun row => .ok (row.map fun p : Point ℚ => { p with ok := true }))
    rfl hfits).resolve_right fun ⟨_, _, _, h, _⟩ => nomatch h

end Reference

end RasterWarp
