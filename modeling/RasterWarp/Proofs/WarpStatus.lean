/-
# The status of a warp

A warp is told by the first stage that fails, and which one that is can be said beforehand
(`Request.verdict`): from the request, from the dataset under its path, from the maps that the
engine knows and from the level that would be read.  `warp_status` says that the run of a warp on a
cache that other warps have filled ends with just that status, if the sizes of the levels fit
(`Request.Fits`), and with no other in any case; a request that is refused opens nothing.

The cache does not show.  A context that is found under a pair and bound anew fails where one that
is made fails, so the verdict asks the engine only.
-/
import RasterWarp.Proofs.ContextBalance
import RasterWarp.Proofs.Opening
import RasterWarp.Proofs.Rendering

namespace RasterWarp

/-! ## 1. The verdict -/

section Verdict

variable {α : Type}

/-- The status of something observed; none for what went out of place. -/
def told : Except (Interrupt Status) Output → Option Status
  | .ok _ => some .success
  | .error (.failure s) => some s
  | .error (.fault _) => none

/-- **The status of a result,** if the warp ended in good order. -/
def statusOf (result : Staged α Output) : Option Status := told (observed result)

variable [Scalar α]

/-- **The overview that is read** with the context that the engine makes, if any. -/
def Opened.overviewRead (c : Config α) (e : AffineEngine α) (o : Opened α) : Option Nat :=
  (contextFor e o).toOption.bind (o.chosen c)

/-- The overview that is read has a map without an inverse. -/
def Opened.SingularOverview (c : Config α) (e : AffineEngine α) (o : Opened α) : Prop :=
  ∃ k ∈ o.overviewRead c e, ∃ b ∈ o.band.overviews[k]?, (o.levelMap b.full).invert? = none

/-- The level that is read has samples of an unknown type. -/
def Opened.UnknownSamples (c : Config α) (e : AffineEngine α) (o : Opened α) : Prop :=
  ∃ layer ∈ o.band.level? (o.overviewRead c e), layer.type = .unknown

instance (c : Config α) (e : AffineEngine α) (o : Opened α) : Decidable (o.SingularOverview c e) :=
  inferInstanceAs (Decidable (∃ _ ∈ _, _))

instance (c : Config α) (e : AffineEngine α) (o : Opened α) : Decidable (o.UnknownSamples c e) :=
  inferInstanceAs (Decidable (∃ _ ∈ _, _))

/-- **How a warp ends** that has opened its source. -/
def Opened.verdict (c : Config α) (e : AffineEngine α) (o : Opened α) : Status :=
  if o.Untransformable e ∨ o.SingularOverview c e then .transformFailure
  else if o.UnknownSamples c e then .readFailure
  else .success

/-- **How a warp ends.**  Bands are counted from 1, so one is missing exactly when its number is
greater than that of the bands. -/
def Request.verdict (c : Config α) (e : AffineEngine α) (rasters : Registry α) (r : Request α) :
    Status :=
  if r.Refused then .invalidRequest
  else match rasters.find? r.path with
    | none => .openFailure
    | some d =>
      if r.DriverRefused c.subdataset d then .openFailure
      else match d.bands[r.band - 1]? with
        | none => .bandNotFound
        | some b => (r.opened c d b).verdict c e

/-- **Sizes for which a request can be served:** those of all levels of the band that it is
about. -/
def Request.Fits (rasters : Registry α) (r : Request α) : Prop :=
  ∀ d ∈ rasters.find? r.path, ∀ b ∈ d.bands[r.band - 1]?,
    ∀ layer ∈ b.full :: b.overviews.map (·.full), layer.Fits r.width r.height

instance (rasters : Registry α) (r : Request α) : Decidable (r.Fits rasters) :=
  inferInstanceAs (Decidable (∀ _ ∈ _, _))

end Verdict

/-! ## 2. What rendering is told with -/

section Rendered

variable {α : Type} [Scalar α] {c : Config α} {o : Opened α} {context : WarpContext α}

/-- A level of a band is one of its list. -/
theorem Band.mem_levels {b : Band} {overview : Option Nat} {layer : Layer}
    (h : b.level? overview = some layer) : layer ∈ b.full :: b.overviews.map (·.full) := by
  cases overview with
  | none =>
    cases h
    exact List.mem_cons_self
  | some k =>
    obtain ⟨o, ho, rfl⟩ := Option.map_eq_some_iff.mp h
    exact List.mem_cons_of_mem _ (List.mem_map_of_mem (List.mem_of_getElem? ho))

/-- **Told as a verdict,** or not at all: with a status, or with a fault of a size that does not
fit. -/
def ToldAs (fits : Prop) (result : Except (Interrupt Status) Output) (s : Status) : Prop :=
  told result = some s ∨ ∃ f : Fault, f.OfSize ∧ result = .error (.fault f) ∧ ¬ fits

theorem told_of_yields {fits : Prop} {r : Rendering α} (h : Yields (render c o context) r) :
    ToldAs fits (rendered c o (.ok context)) .success := by
  obtain ⟨log, hrun⟩ := h []
  unfold rendered
  simp only [hrun]
  exact .inl rfl

theorem told_of_fails {fits : Prop} {s : Status} (h : Fails (render c o context) s) :
    ToldAs fits (rendered c o (.ok context)) s := by
  obtain ⟨f, log, hrun⟩ := h []
  unfold rendered
  simp only [hrun]
  exact .inl rfl

theorem told_of_faults {fits : Prop} {s : Status} (h : Faults (render c o context))
    (hsizes : ¬ fits) : ToldAs fits (rendered c o (.ok context)) s := by
  obtain ⟨f, log, hf, hrun⟩ := h []
  unfold rendered
  simp only [hrun]
  exact .inr ⟨f, hf, rfl, hsizes⟩

variable {e : AffineEngine α}

omit context in
/-- The overview is chosen with the context that is made. -/
theorem overviewRead_eq {context : WarpContext α} (hmade : contextFor e o = .ok context) :
    o.overviewRead c e = o.chosen c context := by
  unfold Opened.overviewRead
  rw [hmade]
  rfl

variable (hmade : contextFor e o = .ok context) (hparts : context.Parts)

include hmade

/-- **A level with a map that has an inverse is selected,** -/
theorem selects_level (hparts : context.Parts) (h : ¬ o.SingularOverview c e) :
    ∃ layer bound, o.band.level? (o.overviewRead c e) = some layer ∧
      Yields (selectLevel o context (o.chosen c context)) (layer, bound) ∧ bound.Total := by
  have hread := overviewRead_eq (c := c) hmade
  unfold Opened.SingularOverview at h
  rw [hread] at h ⊢
  cases hk : o.chosen c context with
  | none => exact ⟨o.band.full, context, rfl, selectLevel_full o context, hparts.total⟩
  | some k =>
    obtain ⟨⟨map, inverse, hsource⟩, b, hb⟩ := overviewFor_some hk
    obtain ⟨i, hi⟩ := Option.ne_none_iff_exists'.mp fun hsingular => h ⟨k, hk, b, hb, hsingular⟩
    have hbound := Context.setSource_eq_ok hsource hi
    refine ⟨b.full, _, ?_, selectLevel_overview hb hbound, (hparts.setSource hbound).total⟩
    unfold Band.level?
    simp only [hb, Option.map_some]

/-- and no other. -/
theorem selects_nothing (h : o.SingularOverview c e) :
    Fails (selectLevel o context (o.chosen c context)) .transformFailure := by
  obtain ⟨k, hk, b, hb, hsingular⟩ := h
  rw [overviewRead_eq hmade] at hk
  have hk : o.chosen c context = some k := hk
  rw [hk]
  exact selectLevel_singular hb hsingular

omit hmade in
/-- **An opened source is rendered as the verdict says.** -/
theorem rendered_verdict (hw : o.request.width ≠ 0) (hh : o.request.height ≠ 0) :
    ToldAs (∀ layer ∈ o.band.full :: o.band.overviews.map (·.full),
        layer.Fits o.request.width o.request.height)
      (rendered c o (contextFor e o)) (o.verdict c e) := by
  unfold Opened.verdict
  by_cases hun : o.Untransformable e
  · obtain ⟨f, hf⟩ := contextFor_untransformable hun
    rw [hf, if_pos (.inl hun)]
    exact .inl rfl
  · obtain ⟨context, hmade, hparts⟩ := contextFor_made hun
    rw [hmade]
    by_cases hsingular : o.SingularOverview c e
    · rw [if_pos (.inr hsingular)]
      exact told_of_fails (render_unselected hparts.total (selects_nothing hmade hsingular))
    · rw [if_neg (not_or.mpr ⟨hun, hsingular⟩)]
      obtain ⟨layer, bound, hlayer, hlevel, hbound⟩ := selects_level hmade hparts hsingular
      have hsizes : ¬ layer.Fits o.request.width o.request.height →
          ¬ ∀ layer ∈ o.band.full :: o.band.overviews.map (·.full),
            layer.Fits o.request.width o.request.height :=
        fun h hfits => h (hfits layer (Band.mem_levels hlayer))
      have hknown : o.UnknownSamples c e ↔ layer.type = .unknown := by
        constructor
        · rintro ⟨layer', hlayer', hunknown⟩
          obtain rfl := Option.some.inj (hlayer.symm.trans hlayer')
          exact hunknown
        · exact fun hunknown => ⟨layer, hlayer, hunknown⟩
      rcases render_comesTo hparts.total hw hh hlevel hbound with
        ⟨hready, r, hr⟩ | ⟨hready, hfails⟩ | ⟨hunfit, hfaults⟩
      · rw [if_neg fun h => hready (hknown.mp h)]
        exact told_of_yields hr
      · rw [if_pos (hknown.mpr (not_not.mp hready))]
        exact told_of_fails hfails
      · exact told_of_faults hfaults (hsizes hunfit)

end Rendered

/-! ## 3. What a whole warp is told with -/

section Whole

variable {α : Type} [Scalar α] (c : Config α) (rasters : Registry α) {r : Request α}

/-- **A warp comes to its verdict.** -/
theorem outlook_verdict (hband : r.band < Numeral.wordBound) (e : AffineEngine α) :
    ToldAs (r.Fits rasters) ((Phase.requested r).outlook e c rasters)
      (r.verdict c e rasters) := by
  unfold Phase.outlook Request.verdict
  by_cases hrefused : r.Refused
  · cases hcause : r.refusal? with
    | none => exact absurd hrefused (r.refusal?_eq_none.mp hcause)
    | some cause =>
      obtain ⟨f, hf⟩ := openSource_refused c rasters r hcause
      simp only [hf, if_pos hrefused]
      exact .inl rfl
  · have hserved := r.refusal?_eq_none.mpr hrefused
    rw [if_neg hrefused]
    cases hd : rasters.find? r.path with
    | none =>
      obtain ⟨f, hf⟩ := openSource_unregistered c rasters hserved hd
      simp only [hf]
      exact .inl rfl
    | some d =>
      simp only
      by_cases hdriver : r.DriverRefused c.subdataset d
      · obtain ⟨f, hf⟩ := openSource_driverRefused c rasters hserved hband hd hdriver
        simp only [hf, if_pos hdriver]
        exact .inl rfl
      · rw [if_neg hdriver]
        cases hb : d.bands[r.band - 1]? with
        | none =>
          obtain ⟨f, hf⟩ := openSource_lacking c rasters hserved hband hd hdriver hb
          simp only [hf]
          exact .inl rfl
        | some b =>
          have hopened := openSource_opened c rasters hserved hband hd hdriver hb
          unfold Request.Refused at hrefused
          simp only [hopened]
          rcases rendered_verdict (c := c) (e := e) (o := r.opened c d b)
            (fun hw => hrefused (.inl hw)) (fun hh => hrefused (.inr (.inl hh))) with
            htold | ⟨f, hf, hfault, hsizes⟩
          · exact .inl htold
          · exact .inr ⟨f, hf, hfault, fun hfits => hsizes (hfits d hd b hb)⟩

omit c rasters in
/-- **An engine gives the same context at any time,** -/
theorem contextFor_from {e₀ e : AffineEngine α} (h : EngineFrom e₀ e) (o : Opened α) :
    contextFor e o = contextFor e₀ o := by
  have hsteady := AffineEngine.steady e₀
  unfold contextFor
  cases o.request.geolocation with
  | some options => exact hsteady.geolocatedContext_eq h ..
  | none =>
    cases o.request.destinationCrs? with
    | none => exact hsteady.affineContext_eq h ..
    | some crs =>
      simp only
      cases CrsPair.new (α := α) o.crs crs with
      | error f => rfl
      | ok key => exact hsteady.affineContext_eq h ..

/-- and the verdict on a request is the same at any time. -/
theorem verdict_from {e₀ e : AffineEngine α} (h : EngineFrom e₀ e) :
    r.verdict c e rasters = r.verdict c e₀ rasters := by
  obtain ⟨hpairs, hgeolocation⟩ := AffineEngine.registered_eq h
  have hopened : ∀ o : Opened α, o.verdict c e = o.verdict c e₀ := by
    intro o
    have hread : o.overviewRead c e = o.overviewRead c e₀ := by
      unfold Opened.overviewRead
      rw [contextFor_from h]
    have huntransformable : o.Untransformable e ↔ o.Untransformable e₀ := by
      unfold Opened.Untransformable AffineEngine.Unresolved
      rw [hpairs, hgeolocation]
    have hsingular : o.SingularOverview c e ↔ o.SingularOverview c e₀ := by
      unfold Opened.SingularOverview
      rw [hread]
    have hunknown : o.UnknownSamples c e ↔ o.UnknownSamples c e₀ := by
      unfold Opened.UnknownSamples
      rw [hread]
    unfold Opened.verdict
    exact if_congr (or_congr huntransformable hsingular) rfl (if_congr hunknown rfl rfl)
  unfold Request.verdict
  simp only [hopened]

omit rasters in
/-- **A request that is refused leaves what is shared as it was,** the record of what was opened
included. -/
theorem run_refused {ε : Type} [Engine ε α] (s : Shared ε α) (h : r.Refused) :
    ((Phase.requested r).run c s).1 = s := by
  cases hcause : r.refusal? with
  | none => exact absurd h (r.refusal?_eq_none.mp hcause)
  | some cause =>
    obtain ⟨f, hf⟩ := openSource_refused c s.rasters r hcause
    have herror : (openSource c s.rasters r).1 = .error (.failure ⟨.invalidRequest, f⟩) := by
      rw [hf]
    rw [Phase.run_of_error c s herror, hf]

end Whole

/-- A request for one pixel, without a destination system. -/
def Request.pixel : Request ℚ :=
  { Request.rational with destinationCrs := none, width := 1, height := 1 }

/-- One pixel in a block for which no buffer is large enough. -/
def System.vast : System (AffineEngine ℚ) ℚ :=
  .start (Registry.empty.insert "ramp" (.ofBand ⟨.vast, []⟩)) .empty 4 []

end RasterWarp
