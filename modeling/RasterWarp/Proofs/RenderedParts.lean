/-
# What a rendering was made of

A window that was computed tells how: a level was selected, every row of the window was taken back
to that level, and the blocks of the plan were scattered over a blank output.
`Rendering.MadeOf` lists these parts and `exists_madeOf` finds them, with any context that the
window may have been computed with; `Rendering.OfLevel` says which level and which window they are
of.

`Proofs/Rendering` goes the other way and says when a window is computed at all.
-/
import RasterWarp.Proofs.PixelReference
import RasterWarp.Proofs.StageRuns

namespace RasterWarp

/-! ## 1. The parts -/

section Parts

variable {α : Type}

/-- **An output without samples** is of a size that is a word, and that a buffer can have. -/
theorem unreadOutput_eq_ok_iff {w : Window} {type : SampleType} {noData : Binary64}
    {output : Bytes} : (unreadOutput w type noData : Outcome α Bytes) = .ok output ↔
      w.area < Numeral.wordBound ∧ w.area * type.size < bufferBound ∧
        type.fill (Bytes.zeros (w.area * type.size)) noData = output := by
  simp only [unreadOutput, Outcome.bind_eq_ok_iff, inWord_eq_ok_iff, word?_eq_some_iff,
    blank_eq_ok_iff]
  constructor
  · rintro ⟨_, ⟨harea, rfl⟩, _, ⟨-, rfl⟩, _, ⟨hfits, rfl⟩, h⟩
    exact ⟨harea, hfits, Except.ok.inj h⟩
  · rintro ⟨harea, hfits, rfl⟩
    exact ⟨_, ⟨harea, rfl⟩, _, ⟨Nat.lt_of_lt_of_le hfits bufferBound_le_wordBound, rfl⟩, _,
      ⟨hfits, rfl⟩, rfl⟩

theorem unreadOutput_upToSize (w : Window) (type : SampleType) (noData : Binary64) :
    (unreadOutput w type noData : Outcome α Bytes).UpToSize :=
  (Outcome.UpToSize.inWord _).bind fun _ _ => (Outcome.UpToSize.inWord _).bind fun _ _ =>
    (Outcome.UpToSize.blank _).bind fun _ _ => .ok _

/-- The output of a window before anything is read into it. -/
def Rendering.blank (r : Rendering α) : Bytes :=
  r.layer.type.warpedType.fill
    (Bytes.zeros (r.window.area * r.layer.type.warpedType.size)) r.noData

theorem Rendering.size_blank (r : Rendering α) :
    r.blank.size = r.window.area * r.layer.type.warpedType.size := by
  rw [blank, SampleType.size_fill, Bytes.size_zeros]

variable [Scalar α]

/-- **The parts of a rendering** with a context that is bound to its level. -/
structure Rendering.MadeOf (c : Config α) (o : Opened α) (bound : WarpContext α)
    (r : Rendering α) : Prop where
  level_eq : o.band.level? r.overview = some r.layer
  noData_eq : r.noData = noDataOf c o r.layer
  planned : ∃ notices, planReads
    ((⟨bound, c.approxTolerance⟩ : Approximation (Outcome α) α).transform .destinationToSource)
    r.window r.layer.grid = .ok (r.plan, notices)
  unread_eq : (unreadOutput r.window r.layer.type.warpedType r.noData : Outcome α Bytes)
    = .ok r.blank
  scattered_eq : scatterBlocks r.layer r.layer.grid r.plan.groups r.layer.type.warpedType r.blank
    = .ok r.scattered
  bytesRead_eq : r.layer.grid.bytesOf? r.layer.type.size r.scattered.tally.read = some r.bytesRead

/-- **The level that a rendering read and the window that it computed.** -/
structure Rendering.OfLevel (o : Opened α) (level : ChosenLevel α) (r : Rendering α) : Prop where
  overview_eq : r.overview = level.overview
  layer_eq : r.layer = level.layer
  window_eq : r.window
    = coveredWindow (level.suggested.map (·.extent)) o.request.width o.request.height

/-- The plan of a rendering partitions its window. -/
theorem Rendering.MadeOf.partitions {c : Config α} {o : Opened α} {bound : WarpContext α}
    {r : Rendering α} (h : r.MadeOf c o bound) : r.plan.Partitions
      ((⟨bound, c.approxTolerance⟩ : Approximation (Outcome α) α).transform .destinationToSource)
      r.window r.layer.grid := by
  obtain ⟨notices, hplan⟩ := h.planned
  exact partitions_of_planReads hplan

theorem Rendering.MadeOf.known {c : Config α} {o : Opened α} {bound : WarpContext α}
    {r : Rendering α} (h : r.MadeOf c o bound) : r.layer.type ≠ .unknown :=
  (known_of_scatterBlocks h.scattered_eq).1

/-- **The output of a rendering** holds the samples that the reference gives. -/
theorem Rendering.MadeOf.piece?_output {c : Config α} {o : Opened α} {bound : WarpContext α}
    {r : Rendering α} (h : r.MadeOf c o bound) {row col : Nat} (hrow : row < r.window.height)
    (hcol : col < r.window.width) :
    r.scattered.output.piece? r.layer.type.warpedType.size (row * r.window.width + col)
      = some (referenceSample
        ((⟨bound, c.approxTolerance⟩ : Approximation (Outcome α) α).transform .destinationToSource)
        r.window r.layer r.layer.type.warpedType r.noData row col) := by
  have hlarge : r.window.area * r.layer.type.warpedType.size
      ≤ (Bytes.zeros (r.window.area * r.layer.type.warpedType.size)).size := by
    rw [Bytes.size_zeros]
  obtain ⟨notices, hplan⟩ := h.planned
  exact (piece?_scatterBlocks hlarge hplan h.scattered_eq) row hrow col hcol

/-! ## 2. Finding them -/

variable {c : Config α} {o : Opened α} {context bound : WarpContext α} {r : Rendering α}
  {layer : Layer} {overview : Option Nat} {log log' : List (Notice α)}

/-- A level that was selected is one of the band. -/
theorem level?_of_selectLevel
    (h : (selectLevel o context overview).run.run log = (.ok (layer, bound), log')) :
    o.band.level? overview = some layer := by
  cases overview with
  | none =>
    cases h
    rfl
  | some k =>
    unfold selectLevel at h
    obtain ⟨b, mid, hb, h⟩ := exists_of_run_bind h
    have hfound := eq_ok_of_attempt (eq_ok_of_during (eq_ok_of_run_stage hb))
    obtain ⟨⟨map, bound'⟩, mid', -, h⟩ := exists_of_run_bind h
    obtain ⟨-, mid'', -, h⟩ := exists_of_run_bind h
    cases h
    unfold Band.overview at hfound
    unfold Band.level?
    split at hfound
    · rename_i b' hk
      cases hfound
      simp only [hk, Option.map_some]
    · cases hfound

theorem level?_of_chooseLevel {level : ChosenLevel α}
    (h : (chooseLevel c o context).run.run log = (.ok level, log')) :
    o.band.level? level.overview = some level.layer := by
  unfold chooseLevel at h
  obtain ⟨suggested, mid, -, h⟩ := exists_of_run_bind h
  obtain ⟨⟨layer, bound⟩, mid', hlevel, h⟩ := exists_of_run_bind h
  cases h
  exact level?_of_selectLevel hlevel

theorem madeOf_of_renderLevel {level : ChosenLevel α}
    (hlevel : o.band.level? level.overview = some level.layer)
    (h : (renderLevel c o level).run.run log = (.ok r, log')) :
    r.MadeOf c o level.context ∧ r.OfLevel o level := by
  unfold renderLevel at h
  obtain ⟨⟨plan, notices⟩, mid₁, hplan, h⟩ := exists_of_run_bind h
  have hplan := eq_ok_of_during (eq_ok_of_run_stage hplan)
  obtain ⟨-, mid₂, -, h⟩ := exists_of_run_bind h
  obtain ⟨unread, mid₃, hunread, h⟩ := exists_of_run_bind h
  have hunread := eq_ok_of_run_stage hunread
  obtain ⟨-, -, rfl⟩ := unreadOutput_eq_ok_iff.mp hunread
  obtain ⟨scattered, mid₄, hscattered, h⟩ := exists_of_run_bind h
  have hscattered := eq_ok_of_during (eq_ok_of_run_stage hscattered)
  obtain ⟨-, mid₅, -, h⟩ := exists_of_run_bind h
  obtain ⟨bytesRead, mid₆, hbytes, h⟩ := exists_of_run_bind h
  have hcounted := inWord_eq_ok_iff.mp (eq_ok_of_run_stage hbytes)
  cases h
  exact ⟨⟨hlevel, rfl, ⟨notices, hplan⟩, hunread, hscattered, hcounted⟩, rfl, rfl, rfl⟩

/-- **A window that was computed** was planned and scattered on the level that was chosen for it. -/
theorem exists_chosen (h : (render c o context).run.run log = (.ok r, log')) : ∃ level mid,
    (chooseLevel c o context).run.run log = (.ok level, mid) ∧ r.MadeOf c o level.context ∧
      r.OfLevel o level := by
  unfold render at h
  obtain ⟨level, mid, hlevel, h⟩ := exists_of_run_bind h
  obtain ⟨hmade, hof⟩ := madeOf_of_renderLevel (level?_of_chooseLevel hlevel) h
  exact ⟨level, mid, hlevel, hmade, hof⟩

theorem exists_madeOf (h : (render c o context).run.run log = (.ok r, log')) :
    ∃ bound, r.MadeOf c o bound := by
  obtain ⟨level, -, -, hmade, -⟩ := exists_chosen h
  exact ⟨level.context, hmade⟩

end Parts
end RasterWarp
