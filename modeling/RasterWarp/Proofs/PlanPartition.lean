/-
# A read plan partitions the pixels that have a source

`planReads` goes through a window row by row and column by column and adds each pixel to the group
of the block that owns its source pixel, or drops it.  What it has after `n` pixels is said by one
predicate, `Covers`: the group of a block holds exactly those of the first `n` pixels whose source
lies in the block, in the order of the window.  One pixel keeps it (`Covers.place`), a row that is
dropped keeps it (`Covers.skip`), and so a whole window does (`planReads_covers`).

Indices and counts that are no words end the planning.  Where sizes fit (`PlanFits`) there are none:
the counts add up to the pixels so far, so `Covers` is also what bounds them (`exists_planReads`).

`Covers` says of every group which list of pairs it is.  Everything else follows from that list
(`Partitions`): the groups share no window index, every index is below the window's area, an index
occurs exactly if its pixel has a source and then with that source, and the counts add up.
-/
import RasterWarp.ReadPlan
import RasterWarp.Proofs.BlockLayout
import RasterWarp.Proofs.ExactArithmetic
import Mathlib.Algebra.GroupWithZero.Nat

namespace RasterWarp

/-! ## 1. One pixel more in the groups -/

namespace PixelGroup

/-- A group in which every source index has its window index. -/
def Even (p : PixelGroup) : Prop := p.source.size = p.destination.size

theorem even_push {p : PixelGroup} (h : p.Even) (s d : Nat) : (p.push s d).Even := by
  unfold Even push
  rw [Array.size_push, Array.size_push, h]

theorem pairs_push {p : PixelGroup} (h : p.Even) (s d : Nat) :
    (p.push s d).pairs = p.pairs ++ [(s, d)] := by
  unfold Even at h
  simp only [pairs, push, Array.toList_zip, Array.toList_push]
  rw [List.zip_append (by rw [Array.length_toList, Array.length_toList, h])]
  rfl

/-- The window indices of a group are the second halves of its pairs. -/
theorem map_snd_pairs {p : PixelGroup} (h : p.Even) :
    p.pairs.map Prod.snd = p.destination.toList := by
  have hlength : p.destination.toList.length ≤ p.source.toList.length :=
    Nat.le_of_eq (by rw [Array.length_toList, Array.length_toList, h])
  rw [pairs, Array.toList_zip, List.map_snd_zip hlength]

theorem length_pairs {p : PixelGroup} (h : p.Even) : p.pairs.length = p.size := by
  unfold Even at h
  rw [pairs, Array.length_toList, Array.size_zip, ← h, Nat.min_self, size]

end PixelGroup

namespace PixelGroups

/-- What the groups hold after a pixel is added: the other groups as they were, and the pixel's
own group with the pixel at its end. -/
theorem mem_add {b s d : Nat} : ∀ {groups : PixelGroups},
    (groups.map Prod.fst).Pairwise (· < ·) → ∀ q ∈ groups.add b s d,
      (q ∈ groups ∧ q.1 ≠ b) ∨
        ∃ old, q = (b, old.push s d) ∧
          ((b, old) ∈ groups ∨ (old = .empty ∧ b ∉ groups.map Prod.fst))
  | [], _, q, hq => by
    rw [add, List.mem_singleton] at hq
    exact Or.inr ⟨.empty, hq, Or.inr ⟨rfl, by simp⟩⟩
  | (k, pixels) :: rest, hsorted, q, hq => by
    rw [List.map_cons, List.pairwise_cons] at hsorted
    unfold add at hq
    split at hq
    · rename_i hlt
      have hnew : ∀ q' ∈ (k, pixels) :: rest, b < q'.1 := by
        intro q' hq'
        rcases List.mem_cons.mp hq' with rfl | hq'
        · exact hlt
        · exact Nat.lt_trans hlt (hsorted.1 _ (List.mem_map_of_mem hq'))
      rcases List.mem_cons.mp hq with rfl | hq
      · refine Or.inr ⟨.empty, rfl, Or.inr ⟨rfl, fun hb => ?_⟩⟩
        obtain ⟨q', hq', rfl⟩ := List.mem_map.mp hb
        exact Nat.lt_irrefl _ (hnew q' hq')
      · exact Or.inl ⟨hq, fun h => Nat.lt_irrefl _ (h ▸ hnew q hq)⟩
    · split at hq
      · rename_i _ heq
        subst heq
        rcases List.mem_cons.mp hq with rfl | hq
        · exact Or.inr ⟨pixels, rfl, Or.inl List.mem_cons_self⟩
        · exact Or.inl ⟨List.mem_cons_of_mem _ hq,
            fun h => Nat.lt_irrefl b (by simpa [h] using hsorted.1 _ (List.mem_map_of_mem hq))⟩
      · rename_i hlt hne
        rcases List.mem_cons.mp hq with rfl | hq
        · exact Or.inl ⟨List.mem_cons_self, fun h => hne h.symm⟩
        · rcases mem_add hsorted.2 q hq with ⟨hmem, hk⟩ | ⟨old, rfl, hold⟩
          · exact Or.inl ⟨List.mem_cons_of_mem _ hmem, hk⟩
          · refine Or.inr ⟨old, rfl, ?_⟩
            rcases hold with hold | ⟨rfl, hold⟩
            · exact Or.inl (List.mem_cons_of_mem _ hold)
            · exact Or.inr ⟨rfl, by simp only [List.map_cons, List.mem_cons]; tauto⟩

theorem mem_keys_add {b s d k : Nat} : ∀ (groups : PixelGroups),
    k ∈ (groups.add b s d).map Prod.fst ↔ k = b ∨ k ∈ groups.map Prod.fst
  | [] => by simp [add]
  | (b', pixels) :: rest => by
    unfold add
    split
    · simp
    · split
      · rename_i heq
        simp [heq]
      · simp only [List.map_cons, List.mem_cons, mem_keys_add rest]
        tauto

/-- The groups stay in the order of their blocks. -/
theorem keys_add_sorted {b s d : Nat} : ∀ {groups : PixelGroups},
    (groups.map Prod.fst).Pairwise (· < ·) →
      ((groups.add b s d).map Prod.fst).Pairwise (· < ·)
  | [], _ => by simp [add]
  | (b', pixels) :: rest, h => by
    unfold add
    split
    · rename_i hlt
      rw [List.map_cons, List.pairwise_cons]
      refine ⟨fun k hk => ?_, h⟩
      rcases List.mem_cons.mp hk with rfl | hk
      · exact hlt
      · exact Nat.lt_trans hlt ((List.pairwise_cons.mp h).1 k hk)
    · split
      · exact h
      · rename_i hlt hne
        rw [List.map_cons, List.pairwise_cons] at h ⊢
        refine ⟨fun k hk => ?_, keys_add_sorted h.2⟩
        rcases (mem_keys_add rest).mp hk with rfl | hk
        · simp only at hlt hne ⊢
          omega
        · exact h.1 k hk

theorem sum_size_add {b s d : Nat} : ∀ (groups : PixelGroups),
    ((groups.add b s d).map fun q => q.2.size).sum = (groups.map fun q => q.2.size).sum + 1
  | [] => by simp [add, PixelGroup.size, PixelGroup.push, PixelGroup.empty]
  | (b', pixels) :: rest => by
    unfold add
    split
    · simp [PixelGroup.size, PixelGroup.push, PixelGroup.empty]
      omega
    · split
      · simp [PixelGroup.size, PixelGroup.push]
        omega
      · simp only [List.map_cons, List.sum_cons, sum_size_add rest]
        omega

end PixelGroups

/-! ## 2. What a plan holds after some pixels -/

/-- The pairs of the first `n` pixels whose source, as `under` tells it, lies in a block. -/
def pairsIn (g : Tiling) (under : Nat → Option (Nat × Nat)) (block n : Nat) : List (Nat × Nat) :=
  (List.range n).filterMap fun d => (under d).bind fun (x, y) =>
    if (g.locate x y).1 = block then some (y * g.rasterWidth + x, d) else none

theorem mem_pairsIn {g : Tiling} {under : Nat → Option (Nat × Nat)} {block n s d : Nat} :
    (s, d) ∈ pairsIn g under block n ↔ d < n ∧ ∃ x y, under d = some (x, y) ∧
      (g.locate x y).1 = block ∧ s = y * g.rasterWidth + x := by
  simp only [pairsIn, List.mem_filterMap, List.mem_range, Option.bind_eq_some_iff]
  constructor
  · rintro ⟨d', hd', ⟨x, y⟩, hunder, h⟩
    split at h
    · rename_i hblock
      simp only [Option.some.injEq, Prod.mk.injEq] at h
      obtain ⟨rfl, rfl⟩ := h
      exact ⟨hd', x, y, hunder, hblock, rfl⟩
    · cases h
  · rintro ⟨hd, x, y, hunder, hblock, rfl⟩
    exact ⟨d, hd, (x, y), hunder, by simp only [hblock, if_true]⟩

theorem pairsIn_succ (g : Tiling) (under : Nat → Option (Nat × Nat)) (block n : Nat) :
    pairsIn g under block (n + 1) = pairsIn g under block n
      ++ ((under n).bind fun (x, y) =>
        if (g.locate x y).1 = block then some (y * g.rasterWidth + x, n) else none).toList := by
  rw [pairsIn, List.range_succ, List.filterMap_append, ← pairsIn]
  congr 1

/-- The window indices of a block's pairs grow from pair to pair. -/
theorem pairsIn_increasing (g : Tiling) (under : Nat → Option (Nat × Nat)) (block : Nat) :
    ∀ n, ((pairsIn g under block n).map Prod.snd).Pairwise (· < ·)
  | 0 => by simp [pairsIn]
  | n + 1 => by
    rw [pairsIn_succ, List.map_append, List.pairwise_append]
    refine ⟨pairsIn_increasing g under block n, ?_, fun d hd e he => ?_⟩
    · cases (under n).bind fun (x, y) =>
        if (g.locate x y).1 = block then some (y * g.rasterWidth + x, n) else none <;> simp
    · obtain ⟨⟨s, d'⟩, hmem, rfl⟩ := List.mem_map.mp hd
      obtain ⟨⟨s', e'⟩, hmem', rfl⟩ := List.mem_map.mp he
      simp only [Option.mem_toList, Option.bind_eq_some_iff] at hmem'
      obtain ⟨⟨x, y⟩, -, h⟩ := hmem'
      split at h
      · simp only [Option.some.injEq, Prod.mk.injEq] at h
        exact h.2 ▸ (mem_pairsIn.mp hmem).1
      · cases h

/-- **A plan for the first `n` pixels of a window:** the group of a block holds those pixels of
them whose source lies in the block, and no block is without a pixel. -/
structure Covers (g : Tiling) (under : Nat → Option (Nat × Nat)) (n : Nat) (plan : ReadPlan) :
    Prop where
  sorted : (plan.groups.map Prod.fst).Pairwise (· < ·)
  even : ∀ q ∈ plan.groups, q.2.Even
  pairs_eq : ∀ q ∈ plan.groups, q.2.pairs = pairsIn g under q.1 n
  nonempty : ∀ q ∈ plan.groups, q.2.pairs ≠ []
  found : ∀ d < n, ∀ x y, under d = some (x, y) → (g.locate x y).1 ∈ plan.groups.map Prod.fst
  mapped_eq : plan.mapped = (plan.groups.map fun q => q.2.size).sum
  counted : plan.mapped + plan.dropped = n

theorem covers_empty (g : Tiling) (under : Nat → Option (Nat × Nat)) :
    Covers g under 0 .empty where
  sorted := by simp [ReadPlan.empty]
  even _ h := absurd h (by simp [ReadPlan.empty])
  pairs_eq _ h := absurd h (by simp [ReadPlan.empty])
  nonempty _ h := absurd h (by simp [ReadPlan.empty])
  found _ h := absurd h (by omega)
  mapped_eq := rfl
  counted := rfl

/-- A pixel without a source changes the count of dropped pixels only. -/
theorem Covers.drop {g : Tiling} {under : Nat → Option (Nat × Nat)} {n : Nat} {plan : ReadPlan}
    (h : Covers g under n plan) (hn : under n = none) :
    Covers g under (n + 1) { plan with dropped := plan.dropped + 1 } where
  sorted := h.sorted
  even := h.even
  pairs_eq q hq := by rw [h.pairs_eq q hq, pairsIn_succ, hn]; simp
  nonempty := h.nonempty
  found d hd x y hu := by
    rcases Nat.lt_or_ge d n with hlt | hge
    · exact h.found d hlt x y hu
    · obtain rfl : d = n := by omega
      rw [hn] at hu
      cases hu
  mapped_eq := h.mapped_eq
  counted := by
    have := h.counted
    simp only
    omega

/-- A pixel with a source joins the group of its block. -/
theorem Covers.add {g : Tiling} {under : Nat → Option (Nat × Nat)} {n x y : Nat}
    {plan : ReadPlan} (h : Covers g under n plan) (hn : under n = some (x, y)) :
    Covers g under (n + 1) { plan with
      groups := plan.groups.add (g.locate x y).1 (y * g.rasterWidth + x) n
      mapped := plan.mapped + 1 } where
  sorted := PixelGroups.keys_add_sorted h.sorted
  even q hq := by
    rcases PixelGroups.mem_add h.sorted q hq with ⟨hmem, -⟩ | ⟨old, rfl, hold⟩
    · exact h.even q hmem
    · refine PixelGroup.even_push ?_ _ _
      rcases hold with hold | ⟨rfl, -⟩
      · exact h.even _ hold
      · rfl
  pairs_eq q hq := by
    rw [pairsIn_succ, hn]
    rcases PixelGroups.mem_add h.sorted q hq with ⟨hmem, hne⟩ | ⟨old, rfl, hold⟩
    · rw [h.pairs_eq q hmem]
      simp [Ne.symm hne]
    · rcases hold with hold | ⟨rfl, hold⟩
      · rw [PixelGroup.pairs_push (h.even _ hold), h.pairs_eq _ hold]
        simp
      · -- a block that had no group had no pixel either
        have hnone : pairsIn g under (g.locate x y).1 n = [] := by
          refine List.eq_nil_iff_forall_not_mem.mpr fun ⟨s, d⟩ hmem => hold ?_
          obtain ⟨hd, x', y', hu, hblock, -⟩ := mem_pairsIn.mp hmem
          exact hblock ▸ h.found d hd x' y' hu
        rw [PixelGroup.pairs_push (show PixelGroup.empty.Even from rfl), hnone]
        simp [PixelGroup.pairs, PixelGroup.empty]
  nonempty q hq := by
    rcases PixelGroups.mem_add h.sorted q hq with ⟨hmem, -⟩ | ⟨old, rfl, hold⟩
    · exact h.nonempty q hmem
    · have heven : old.Even := by
        rcases hold with hold | ⟨rfl, -⟩
        · exact h.even _ hold
        · rfl
      rw [PixelGroup.pairs_push heven]
      simp
  found d hd x' y' hu := by
    refine (PixelGroups.mem_keys_add _).mpr ?_
    rcases Nat.lt_or_ge d n with hlt | hge
    · exact Or.inr (h.found d hlt x' y' hu)
    · obtain rfl : d = n := by omega
      rw [hn] at hu
      cases hu
      exact Or.inl rfl
  mapped_eq := by
    simp only
    rw [PixelGroups.sum_size_add, h.mapped_eq]
  counted := by
    have := h.counted
    simp only
    omega

/-! ## 3. What a row and a window add -/

open Numeral (wordBound)

variable {α : Type} [Scalar α]

/-- A source pixel is one of the raster. -/
theorem pixelUnder?_lt {g : Tiling} {p : Point α} {x y : Nat} (h : pixelUnder? g p = some (x, y)) :
    x < g.rasterWidth ∧ y < g.rasterHeight := by
  unfold pixelUnder? at h
  split at h
  · dsimp only at h
    split at h
    · rename_i hin
      simp only [Option.some.injEq, Prod.mk.injEq] at h
      rw [← h.1, ← h.2]
      simpa using hin
    · cases h
  · cases h

/-- **Sizes that a plan can be told in words for:** the nominal grid up to the window's end, the
window, the raster, one of its blocks, and the buffers for the coordinates of a row. -/
structure PlanFits (w : Window) (g : Tiling) : Prop where
  columns : w.xOffset + w.width ≤ wordBound
  rows : w.yOffset + w.height ≤ wordBound
  coordinates : 8 * w.width < bufferBound
  area : w.area < wordBound
  raster : g.rasterWidth * g.rasterHeight ≤ wordBound
  block : g.blockArea ≤ wordBound

/-- The number of a pixel's block is not above the pixel's own. -/
theorem Tiling.locate_fst_le (g : Tiling) (x y : Nat) :
    (g.locate x y).1 ≤ y * g.rasterWidth + x := by
  have hcolumns : g.columns ≤ g.rasterWidth := by
    have hpos := g.blockWidth_pos
    rw [columns]
    refine Nat.le_of_lt_succ ((Nat.div_lt_iff_lt_mul hpos).mpr ?_)
    have hle := Nat.mul_le_mul_left g.rasterWidth hpos
    rw [Nat.succ_mul]
    omega
  have hrows := Nat.mul_le_mul (Nat.div_le_self y g.blockHeight) hcolumns
  have hcolumn := Nat.div_le_self x g.blockWidth
  show x / g.blockWidth + y / g.blockHeight * g.columns ≤ _
  omega

section Pixel

variable {g : Tiling} {under : Nat → Option (Nat × Nat)} {plan next : ReadPlan}
  {width row col : Nat} {p : Point α}

/-- **One pixel** keeps what is said of those before it, if it is placed. -/
theorem Covers.place (h : Covers g under (row * width + col) plan)
    (hunder : under (row * width + col) = pixelUnder? g p)
    (hnext : plan.place? g width row col p = some next) :
    Covers g under (row * width + (col + 1)) next := by
  unfold ReadPlan.place? at hnext
  cases hp : pixelUnder? g p with
  | none =>
    simp only [hp, Option.bind_eq_bind, Option.bind_eq_some_iff, word?_eq_some_iff] at hnext
    obtain ⟨_, ⟨-, rfl⟩, hnext⟩ := hnext
    cases hnext
    exact h.drop (hunder.trans hp)
  | some xy =>
    simp only [hp, Option.bind_eq_bind, Option.bind_eq_some_iff, word?_eq_some_iff,
      Tiling.locate?_eq_some_iff] at hnext
    obtain ⟨_, ⟨-, -, rfl⟩, _, ⟨-, rfl⟩, _, ⟨-, rfl⟩, _, ⟨-, rfl⟩, _, ⟨-, rfl⟩, _, ⟨-, rfl⟩,
      hnext⟩ := hnext
    cases hnext
    exact h.add (hunder.trans hp)

variable {w : Window}

/-- It is placed, where sizes fit. -/
theorem Covers.exists_place (h : Covers g under (row * w.width + col) plan) (hfits : PlanFits w g)
    (hrow : row < w.height) (hcol : col < w.width) :
    ∃ next, plan.place? g w.width row col p = some next := by
  have hcounted := h.counted
  have harea : row * w.width + col < w.area := by
    rw [Nat.add_comm]
    exact add_mul_lt hcol hrow
  have hword := hfits.area
  unfold ReadPlan.place?
  cases hp : pixelUnder? g p with
  | none =>
    have hdropped : word? (plan.dropped + 1) = some (plan.dropped + 1) :=
      word?_of_lt (by omega)
    exact ⟨_, by simp only [hdropped, Option.bind_eq_bind, Option.bind_some]; rfl⟩
  | some xy =>
    obtain ⟨x, y⟩ := xy
    obtain ⟨hx, hy⟩ := pixelUnder?_lt hp
    -- the pixel's own number bounds the others
    have hraster : y * g.rasterWidth + x < wordBound := by
      refine Nat.lt_of_lt_of_le ?_ hfits.raster
      rw [Nat.add_comm]
      exact add_mul_lt hx hy
    have hlocate : g.locate? x y = some (g.locate x y) := g.locate?_eq_some_iff.mpr
      ⟨Nat.lt_of_le_of_lt (g.locate_fst_le x y) hraster,
        Nat.lt_of_lt_of_le (g.locate_snd_lt x y) hfits.block, rfl⟩
    have hbefore : word? (y * g.rasterWidth) = some (y * g.rasterWidth) :=
      word?_of_lt (by omega)
    have hsource : word? (y * g.rasterWidth + x) = some (y * g.rasterWidth + x) :=
      word?_of_lt hraster
    have habove : word? (row * w.width) = some (row * w.width) := word?_of_lt (by omega)
    have hdestination : word? (row * w.width + col) = some (row * w.width + col) :=
      word?_of_lt (by omega)
    have hmapped : word? (plan.mapped + 1) = some (plan.mapped + 1) := word?_of_lt (by omega)
    exact ⟨_, by
      simp only [hlocate, hbefore, hsource, habove, hdestination, hmapped, Option.bind_eq_bind,
        Option.bind_some]
      rfl⟩

/-- The points of a row, from a column on. -/
theorem Covers.placeAll : ∀ (points : List (Point α)) (k : Nat) (plan next : ReadPlan),
    Covers g under (row * width + k) plan →
    (∀ j p, points[j]? = some p → under (row * width + (k + j)) = pixelUnder? g p) →
    (points.zipIdx k).foldlM (fun plan (p, col) => plan.place? g width row col p) plan = some next →
      Covers g under (row * width + (k + points.length)) next
  | [], _, _, _, h, _, hnext => by
    cases hnext
    exact h
  | p :: points, k, plan, next, h, hunder, hnext => by
    rw [List.zipIdx_cons, List.foldlM_cons] at hnext
    obtain ⟨mid, hmid, hnext⟩ := Option.bind_eq_some_iff.mp hnext
    rw [List.length_cons, show k + (points.length + 1) = k + 1 + points.length by omega]
    refine Covers.placeAll points (k + 1) mid next (h.place (hunder 0 p rfl) hmid)
      (fun j q hj => ?_) hnext
    rw [← hunder (j + 1) q hj]
    congr 2
    omega

/-- They are placed, where sizes fit. -/
theorem Covers.exists_placeAll (hfits : PlanFits w g) (hrow : row < w.height) :
    ∀ (points : List (Point α)) (k : Nat) (plan : ReadPlan), k + points.length ≤ w.width →
      Covers g under (row * w.width + k) plan →
      (∀ j p, points[j]? = some p → under (row * w.width + (k + j)) = pixelUnder? g p) →
        ∃ next, (points.zipIdx k).foldlM (fun plan (p, col) => plan.place? g w.width row col p) plan
          = some next
  | [], _, plan, _, _, _ => ⟨plan, rfl⟩
  | p :: points, k, plan, hk, h, hunder => by
    rw [List.length_cons] at hk
    obtain ⟨mid, hmid⟩ := h.exists_place (p := p) hfits hrow (by omega)
    obtain ⟨next, hnext⟩ := exists_placeAll hfits hrow points (k + 1) mid (by omega)
      (h.place (hunder 0 p rfl) hmid) fun j q hj => by
        rw [← hunder (j + 1) q hj]
        congr 2
        omega
    refine ⟨next, ?_⟩
    rw [List.zipIdx_cons, List.foldlM_cons]
    exact (congrArg (· >>= _) hmid).trans hnext

end Pixel

/-- A run of pixels without a source. -/
theorem Covers.skip {g : Tiling} {under : Nat → Option (Nat × Nat)} {start : Nat}
    {plan : ReadPlan} (h : Covers g under start plan) : ∀ n,
      (∀ j < n, under (start + j) = none) →
        Covers g under (start + n) { plan with dropped := plan.dropped + n }
  | 0, _ => h
  | n + 1, hunder =>
    (h.skip n fun j hj => hunder j (by omega)).drop (hunder n (by omega))

/-- **The source pixel of the window's pixel `(row, col)`:** the one under the pixel's own entry of
its row's transform.  There is none if the row could not be transformed. -/
def sourceUnder? (transform : {n : Nat} → Batch α n → Outcome α (Batch α n)) (w : Window)
    (g : Tiling) (row col : Nat) : Option (Nat × Nat) :=
  match transform (w.rowCenters row) with
  | .ok points => points[col]?.bind (pixelUnder? g)
  | .error _ => none

/-- The same by window index. -/
def sourceAt? (transform : {n : Nat} → Batch α n → Outcome α (Batch α n)) (w : Window)
    (g : Tiling) (d : Nat) : Option (Nat × Nat) :=
  sourceUnder? transform w g (d / w.width) (d % w.width)

section Window

variable (transform : {n : Nat} → Batch α n → Outcome α (Batch α n)) (w : Window) (g : Tiling)

theorem sourceAt?_pixel {row col : Nat} (hcol : col < w.width) :
    sourceAt? transform w g (row * w.width + col) = sourceUnder? transform w g row col := by
  have hpos : 0 < w.width := by omega
  rw [sourceAt?, Nat.add_comm, Nat.add_mul_div_right _ _ hpos, Nat.add_mul_mod_self_right,
    Nat.div_eq_of_lt hcol, Nat.mod_eq_of_lt hcol, Nat.zero_add]

theorem placeRow?_eq (plan : ReadPlan) (g : Tiling) {width : Nat} (row : Nat)
    (points : Batch α width) : plan.placeRow? g row points
      = (points.toList.zipIdx 0).foldlM (fun plan (p, col) => plan.place? g width row col p)
          plan := by
  unfold ReadPlan.placeRow?
  rw [← Array.foldlM_toList, Array.toList_zipIdx]
  rfl

/-- The points that a row went to are those that its pixels are said to lie on. -/
theorem under_of_row {row : Nat} {points : Batch α w.width}
    (hpoints : transform (w.rowCenters row) = .ok points) (j : Nat) (p : Point α)
    (hj : points.toList[j]? = some p) :
    sourceAt? transform w g (row * w.width + (0 + j)) = pixelUnder? g p := by
  have hlt : j < w.width := by
    have hbound := (List.getElem?_eq_some_iff.mp hj).1
    rwa [Vector.length_toList] at hbound
  rw [Vector.getElem?_toList] at hj
  rw [Nat.zero_add, sourceAt?_pixel transform w g hlt]
  simp only [sourceUnder?, hpoints]
  rw [hj, Option.bind_some]

theorem rowCenters?_eq_some_iff {row : Nat} {centers : Batch α w.width} :
    w.rowCenters? row = some centers ↔ w.xOffset + (w.width - 1) < wordBound ∧
      w.yOffset + row < wordBound ∧ w.rowCenters row = centers := by
  simp only [Window.rowCenters?, Option.bind_eq_bind, Option.bind_eq_some_iff, word?_eq_some_iff]
  constructor
  · rintro ⟨_, ⟨hcolumns, -⟩, _, ⟨hrow, -⟩, hcenters⟩
    exact ⟨hcolumns, hrow, Option.some.inj hcenters⟩
  · rintro ⟨hcolumns, hrow, rfl⟩
    exact ⟨_, ⟨hcolumns, rfl⟩, _, ⟨hrow, rfl⟩, rfl⟩

variable {transform w g}

/-- **One row:** a plan for the rows before it becomes one for the rows up to it, whether the row
could be transformed or not. -/
theorem planRow_covers {plan next : ReadPlan} {row : Nat} {notices : List (Notice α)}
    (h : Covers g (sourceAt? transform w g) (row * w.width) plan)
    (hrow : planRow transform w g plan row = .ok (next, notices)) :
    Covers g (sourceAt? transform w g) ((row + 1) * w.width) next := by
  rw [Nat.add_mul, Nat.one_mul]
  obtain ⟨centers, hcenters, hrow⟩ := Outcome.bind_eq_ok_iff.mp hrow
  obtain ⟨-, -, rfl⟩ := (rowCenters?_eq_some_iff w).mp (inWord_eq_ok_iff.mp hcenters)
  cases hpoints : transform (w.rowCenters row) with
  | ok points =>
    simp only [hpoints] at hrow
    obtain ⟨placed, hplaced, hrow⟩ := Outcome.bind_eq_ok_iff.mp hrow
    cases hrow
    rw [inWord_eq_ok_iff, placeRow?_eq] at hplaced
    have hall := Covers.placeAll points.toList 0 plan next h
      (under_of_row transform w g hpoints) hplaced
    rwa [Nat.zero_add, Vector.length_toList] at hall
  | error e =>
    cases e with
    | failure f =>
      simp only [hpoints] at hrow
      obtain ⟨dropped, hdropped, hrow⟩ := Outcome.bind_eq_ok_iff.mp hrow
      cases hrow
      obtain ⟨-, rfl⟩ := word?_eq_some_iff.mp (inWord_eq_ok_iff.mp hdropped)
      refine h.skip w.width fun j hj => ?_
      rw [sourceAt?_pixel transform w g hj]
      simp only [sourceUnder?, hpoints]
    | fault f =>
      simp only [hpoints] at hrow
      cases hrow

/-- A row has a plan, where sizes fit and the transform does not go out of place. -/
theorem exists_planRow {plan : ReadPlan} {row : Nat} (hfits : PlanFits w g) (hpos : 0 < w.width)
    (hrow : row < w.height)
    (h : Covers g (sourceAt? transform w g) (row * w.width) plan) :
    (∃ next notices, planRow transform w g plan row = .ok (next, notices)) ∨
      ∃ f, transform (w.rowCenters row) = .error (.fault f) ∧
        planRow transform w g plan row = .error (.fault f) := by
  have hcenters : w.rowCenters? row = some (w.rowCenters row : Batch α w.width) := by
    have hcolumns := hfits.columns
    have hrows := hfits.rows
    exact (rowCenters?_eq_some_iff w).mpr ⟨by omega, by omega, rfl⟩
  unfold planRow
  simp only [hcenters, inWord_some, Outcome.ok_bind]
  cases hpoints : transform (w.rowCenters row) with
  | ok points =>
    obtain ⟨next, hnext⟩ := Covers.exists_placeAll hfits hrow points.toList 0 plan
      (Nat.le_of_eq (by rw [Vector.length_toList, Nat.zero_add])) h
      (under_of_row transform w g hpoints)
    rw [← placeRow?_eq plan g row points] at hnext
    exact Or.inl ⟨next, [], by simp only [hnext]; rfl⟩
  | error e =>
    cases e with
    | failure f =>
      have hcounted := h.counted
      have harea := hfits.area
      have hend := end_le_start hrow w.width
      rw [Window.area, Nat.mul_comm] at harea
      have hdropped : word? (plan.dropped + w.width) = some (plan.dropped + w.width) :=
        word?_of_lt (by omega)
      exact Or.inl ⟨_, _, by simp only [hdropped]; rfl⟩
    | fault f => exact Or.inr ⟨f, rfl, rfl⟩

variable (transform w g) in
/-- The rows of a window up to one, one after the other. -/
def planRows (n : Nat) : Outcome α (ReadPlan × List (Notice α)) :=
  (List.range n).foldlM (fun (plan, notices) row => do
    let (plan, more) ← planRow transform w g plan row
    return (plan, notices ++ more)) (.empty, [])

theorem planRows_succ (n : Nat) : planRows transform w g (n + 1) = do
    let (plan, notices) ← planRows transform w g n
    let (plan, more) ← planRow transform w g plan n
    return (plan, notices ++ more) := by
  unfold planRows
  rw [List.range_succ, List.foldlM_append]
  refine congrArg _ (funext fun r => ?_)
  simp only [List.foldlM_cons, List.foldlM_nil, bind_pure]

/-- Rows one after the other, by induction on their number: each starts from the plan for the rows
before it. -/
theorem planRows_covers {n : Nat} {plan : ReadPlan} {notices : List (Notice α)}
    (h : planRows transform w g n = .ok (plan, notices)) :
    Covers g (sourceAt? transform w g) (n * w.width) plan := by
  induction n generalizing plan notices with
  | zero =>
    cases h
    rw [Nat.zero_mul]
    exact covers_empty g _
  | succ n ih =>
    rw [planRows_succ] at h
    obtain ⟨before, hbefore, h⟩ := Outcome.bind_eq_ok_iff.mp h
    obtain ⟨row, hrow, h⟩ := Outcome.bind_eq_ok_iff.mp h
    cases h
    exact planRow_covers (ih hbefore) hrow

/-- They have a plan, unless the transform goes out of place on one of them. -/
theorem exists_planRows (hfits : PlanFits w g) (hpos : 0 < w.width) : ∀ n, n ≤ w.height →
    (∃ plan notices, planRows transform w g n = .ok (plan, notices)) ∨
      ∃ row < w.height, ∃ f, transform (w.rowCenters row) = .error (.fault f) ∧
        planRows transform w g n = .error (.fault f)
  | 0, _ => Or.inl ⟨.empty, [], rfl⟩
  | n + 1, hn => by
    rw [planRows_succ]
    rcases exists_planRows hfits hpos n (by omega) with
      ⟨plan, notices, hbefore⟩ | ⟨row, hrow, f, ht, hf⟩
    · simp only [hbefore, Outcome.ok_bind]
      rcases exists_planRow hfits hpos hn (planRows_covers hbefore) with
        ⟨next, more, hrow⟩ | ⟨f, ht, hf⟩
      · exact Or.inl ⟨next, notices ++ more, by rw [hrow]; rfl⟩
      · exact Or.inr ⟨n, hn, f, ht, by rw [hf]; rfl⟩
    · exact Or.inr ⟨row, hrow, f, ht, by rw [hf]; rfl⟩

/-- **A whole window:** what is answered is a plan for all its pixels. -/
theorem planReads_covers {plan : ReadPlan} {notices : List (Notice α)}
    (h : planReads transform w g = .ok (plan, notices)) :
    Covers g (sourceAt? transform w g) w.area plan := by
  unfold planReads at h
  split at h
  · cases h
  · obtain ⟨_, -, h⟩ := Outcome.bind_eq_ok_iff.mp h
    rw [Window.area, Nat.mul_comm]
    exact planRows_covers (n := w.height) h

/-- **There is a plan,** where the window has pixels and sizes fit, unless the transform itself goes
out of place on one of the rows. -/
theorem exists_planReads (transform : {n : Nat} → Batch α n → Outcome α (Batch α n))
    (hw : w.isEmpty = false) (hfits : PlanFits w g) :
    (∃ plan notices, planReads transform w g = .ok (plan, notices)) ∨
      ∃ row < w.height, ∃ f, transform (w.rowCenters row) = .error (.fault f) ∧
        planReads transform w g = .error (.fault f) := by
  have hplan : planReads transform w g = planRows transform w g w.height := by
    have hallocate : (allocate (8 * w.width) : Outcome α Unit) = .ok () :=
      allocate_eq_ok_iff.mpr hfits.coordinates
    unfold planReads
    rw [hw, hallocate]
    rfl
  have hpos : 0 < w.width := by
    refine Nat.pos_of_ne_zero fun hzero => ?_
    rw [Window.isEmpty, hzero] at hw
    cases hw
  rw [hplan]
  exact exists_planRows hfits hpos w.height (Nat.le_refl _)

/-- A row is planned unless a size is out of place, if the transform is not. -/
theorem planRow_upToSize {row : Nat}
    (hx : ∀ f, transform (w.rowCenters row) ≠ .error (.fault f)) (plan : ReadPlan) :
    (planRow transform w g plan row).UpToSize := by
  refine (Outcome.UpToSize.inWord _).bind fun centers hcenters => ?_
  obtain ⟨-, -, rfl⟩ := (rowCenters?_eq_some_iff w).mp (inWord_eq_ok_iff.mp hcenters)
  cases hpoints : transform (w.rowCenters row) with
  | ok points =>
    simp only [hpoints]
    exact (Outcome.UpToSize.inWord _).bind fun placed _ => .ok _
  | error e =>
    cases e with
    | failure f =>
      simp only [hpoints]
      exact (Outcome.UpToSize.inWord _).bind fun dropped _ => .ok _
    | fault f => exact absurd hpoints (hx f)

/-- **So is a window that has pixels.**  A row that fails is no failure of the plan. -/
theorem planReads_upToSize (hw : w.isEmpty = false)
    (hx : ∀ row < w.height, ∀ f, transform (w.rowCenters row) ≠ .error (.fault f)) :
    (planReads transform w g).UpToSize := by
  unfold planReads
  rw [hw]
  refine (Outcome.UpToSize.allocate _).bind fun _ _ => .foldlM _ _ fun row hrow r => ?_
  exact (planRow_upToSize (hx row (List.mem_range.mp hrow)) r.1).bind fun next _ => .ok _

end Window

/-! ## 4. The partition -/

/-- All window indices of a plan, group by group. -/
def ReadPlan.destinations (plan : ReadPlan) : List Nat :=
  plan.groups.flatMap fun q => q.2.destination.toList

/-- **A plan that partitions the pixels of a window which have a source** by the blocks that own
their sources. -/
structure ReadPlan.Partitions (plan : ReadPlan)
    (transform : {n : Nat} → Batch α n → Outcome α (Batch α n)) (w : Window) (g : Tiling) :
    Prop where
  /-- No window index occurs twice, be it in one group or in two. -/
  distinct : plan.destinations.Nodup
  inside : ∀ d ∈ plan.destinations, d < w.width * w.height
  /-- A pixel of the window occurs exactly if it has a source. -/
  occurs_iff : ∀ row < w.height, ∀ col < w.width,
    row * w.width + col ∈ plan.destinations ↔ (sourceUnder? transform w g row col).isSome
  /-- A pixel of the window is paired with its own source and with nothing else. -/
  paired_iff : ∀ row < w.height, ∀ col < w.width, ∀ s,
    (∃ q ∈ plan.groups, (s, row * w.width + col) ∈ q.2.pairs)
      ↔ ∃ x y, sourceUnder? transform w g row col = some (x, y) ∧ s = y * g.rasterWidth + x
  /-- The pairs under a block have their sources in the raster and in that block. -/
  owned : ∀ q ∈ plan.groups, ∀ sd ∈ q.2.pairs, sd.1 < g.rasterWidth * g.rasterHeight ∧
    (g.locate (sd.1 % g.rasterWidth) (sd.1 / g.rasterWidth)).1 = q.1
  /-- Every block has one group. -/
  ordered : (plan.groups.map Prod.fst).Pairwise (· < ·)
  nonempty : ∀ q ∈ plan.groups, q.2.isEmpty = false
  even : ∀ q ∈ plan.groups, q.2.source.size = q.2.destination.size
  increasing : ∀ q ∈ plan.groups, q.2.destination.toList.Pairwise (· < ·)
  mapped_eq : plan.mapped = (plan.groups.map fun q => q.2.pairs.length).sum
  counted : plan.mapped + plan.dropped = w.width * w.height

/-- Every group of a plan has a pixel. -/
theorem ReadPlan.Partitions.exists_mem_pairs {plan : ReadPlan}
    {transform : {n : Nat} → Batch α n → Outcome α (Batch α n)} {w : Window} {g : Tiling}
    (h : plan.Partitions transform w g) {q : Nat × PixelGroup} (hq : q ∈ plan.groups) :
    ∃ sd, sd ∈ q.2.pairs := by
  refine List.exists_mem_of_ne_nil _ fun hnil => ?_
  have hsize := PixelGroup.length_pairs (h.even q hq)
  rw [hnil, List.length_nil, PixelGroup.size] at hsize
  exact Bool.eq_false_iff.mp (h.nonempty q hq)
    (Array.isEmpty_iff.mpr (Array.size_eq_zero_iff.mp hsize.symm))

theorem sourceUnder?_lt {transform : {n : Nat} → Batch α n → Outcome α (Batch α n)} {w : Window}
    {g : Tiling} {row col x y : Nat} (h : sourceUnder? transform w g row col = some (x, y)) :
    x < g.rasterWidth ∧ y < g.rasterHeight := by
  unfold sourceUnder? at h
  split at h
  · obtain ⟨p, -, hp⟩ := Option.bind_eq_some_iff.mp h
    exact pixelUnder?_lt hp
  · cases h

/-- The linear index of a pixel says where the pixel is. -/
theorem linear_mod_div {x y width : Nat} (hx : x < width) :
    (y * width + x) % width = x ∧ (y * width + x) / width = y := by
  have hpos : 0 < width := by omega
  rw [Nat.add_comm, Nat.add_mul_mod_self_right, Nat.add_mul_div_right _ _ hpos,
    Nat.mod_eq_of_lt hx, Nat.div_eq_of_lt hx, Nat.zero_add]
  exact ⟨rfl, rfl⟩

namespace Covers

variable {g : Tiling} {under : Nat → Option (Nat × Nat)} {n : Nat} {plan : ReadPlan}

theorem mem_pairs (h : Covers g under n plan) {q : Nat × PixelGroup} (hq : q ∈ plan.groups)
    {s d : Nat} : (s, d) ∈ q.2.pairs ↔ d < n ∧ ∃ x y, under d = some (x, y) ∧
      (g.locate x y).1 = q.1 ∧ s = y * g.rasterWidth + x := by
  rw [h.pairs_eq q hq, mem_pairsIn]

theorem exists_pair (h : Covers g under n plan) {s d : Nat} :
    (∃ q ∈ plan.groups, (s, d) ∈ q.2.pairs)
      ↔ d < n ∧ ∃ x y, under d = some (x, y) ∧ s = y * g.rasterWidth + x := by
  constructor
  · rintro ⟨q, hq, hmem⟩
    obtain ⟨hd, x, y, hu, -, hs⟩ := (h.mem_pairs hq).mp hmem
    exact ⟨hd, x, y, hu, hs⟩
  · rintro ⟨hd, x, y, hu, hs⟩
    obtain ⟨q, hq, hblock⟩ := List.mem_map.mp (h.found d hd x y hu)
    exact ⟨q, hq, (h.mem_pairs hq).mpr ⟨hd, x, y, hu, hblock.symm, hs⟩⟩

/-- A window index of a group comes from a pair. -/
theorem mem_destination (h : Covers g under n plan) {q : Nat × PixelGroup} (hq : q ∈ plan.groups)
    {d : Nat} : d ∈ q.2.destination.toList ↔ ∃ s, (s, d) ∈ q.2.pairs := by
  rw [← PixelGroup.map_snd_pairs (h.even q hq)]
  simp

theorem mem_destinations (h : Covers g under n plan) {d : Nat} :
    d ∈ plan.destinations ↔ d < n ∧ (under d).isSome := by
  simp only [ReadPlan.destinations, List.mem_flatMap]
  constructor
  · rintro ⟨q, hq, hd⟩
    obtain ⟨s, hs⟩ := (h.mem_destination hq).mp hd
    obtain ⟨hd, x, y, hu, -⟩ := h.exists_pair.mp ⟨q, hq, hs⟩
    exact ⟨hd, Option.isSome_iff_exists.mpr ⟨_, hu⟩⟩
  · rintro ⟨hd, hu⟩
    obtain ⟨⟨x, y⟩, hxy⟩ := Option.isSome_iff_exists.mp hu
    obtain ⟨q, hq, hs⟩ := h.exists_pair.mpr ⟨hd, x, y, hxy, rfl⟩
    exact ⟨q, hq, (h.mem_destination hq).mpr ⟨_, hs⟩⟩

theorem destination_increasing (h : Covers g under n plan) {q : Nat × PixelGroup}
    (hq : q ∈ plan.groups) : q.2.destination.toList.Pairwise (· < ·) := by
  rw [← PixelGroup.map_snd_pairs (h.even q hq), h.pairs_eq q hq]
  exact pairsIn_increasing g under q.1 n

/-- **No two groups share a window index,** since a pixel has one source and that lies in one
block. -/
theorem destinations_nodup (h : Covers g under n plan) : plan.destinations.Nodup := by
  refine List.nodup_flatMap.mpr ⟨fun q hq => ?_, ?_⟩
  · exact (h.destination_increasing hq).imp Nat.ne_of_lt
  · refine (List.pairwise_map.mp h.sorted).imp_of_mem fun {q q'} hq hq' hlt d hd hd' => ?_
    obtain ⟨s, hs⟩ := (h.mem_destination hq).mp hd
    obtain ⟨s', hs'⟩ := (h.mem_destination hq').mp hd'
    obtain ⟨-, x, y, hu, hb, -⟩ := (h.mem_pairs hq).mp hs
    obtain ⟨-, x', y', hu', hb', -⟩ := (h.mem_pairs hq').mp hs'
    rw [hu] at hu'
    cases hu'
    omega

/-- A plan for a whole window is a partition. -/
theorem partitions {transform : {n : Nat} → Batch α n → Outcome α (Batch α n)} {w : Window}
    (h : Covers g (sourceAt? transform w g) w.area plan) : plan.Partitions transform w g where
  distinct := h.destinations_nodup
  inside d hd := (h.mem_destinations.mp hd).1
  occurs_iff row hrow col hcol := by
    rw [h.mem_destinations, sourceAt?_pixel transform w g hcol]
    refine and_iff_right ?_
    rw [Nat.add_comm]
    exact add_mul_lt hcol hrow
  paired_iff row hrow col hcol s := by
    rw [h.exists_pair, sourceAt?_pixel transform w g hcol]
    refine and_iff_right ?_
    rw [Nat.add_comm]
    exact add_mul_lt hcol hrow
  owned q hq sd hsd := by
    obtain ⟨-, x, y, hu, hblock, hs⟩ := (h.mem_pairs hq).mp hsd
    obtain ⟨hx, hy⟩ := sourceUnder?_lt hu
    obtain ⟨hmod, hdiv⟩ := linear_mod_div (y := y) hx
    rw [hs, hmod, hdiv]
    refine ⟨?_, hblock⟩
    rw [Nat.add_comm]
    exact add_mul_lt hx hy
  ordered := h.sorted
  nonempty q hq := by
    rw [Bool.eq_false_iff]
    intro hempty
    refine h.nonempty q hq (List.length_eq_zero_iff.mp ?_)
    rw [PixelGroup.length_pairs (h.even q hq), PixelGroup.size]
    exact Array.size_eq_zero_iff.mpr (Array.isEmpty_iff.mp hempty)
  even := h.even
  increasing _ hq := h.destination_increasing hq
  mapped_eq := by
    rw [h.mapped_eq]
    exact congrArg List.sum
      (List.map_congr_left fun q hq => (PixelGroup.length_pairs (h.even q hq)).symm)
  counted := h.counted

end Covers

/-- A plan that was made is a partition. -/
theorem partitions_of_planReads {transform : {n : Nat} → Batch α n → Outcome α (Batch α n)}
    {w : Window} {g : Tiling} {plan : ReadPlan} {notices : List (Notice α)}
    (h : planReads transform w g = .ok (plan, notices)) : plan.Partitions transform w g :=
  (planReads_covers h).partitions

end RasterWarp
