/-
# The contexts that an engine of affine maps makes

Whether such an engine makes a context for an opened source can be told from its maps and the
geotransforms (`Opened.Untransformable`), and a context that it made transforms every batch: no call
of it fails (`Context.Total`).  This stays so when the context is bound to an overview
(`Context.Parts.setSource`) and when rows are approximated (`Approximation.transform_total`).
-/
import RasterWarp.Proofs.History

namespace RasterWarp

/-! ## 1. Inverses and the contexts made with them -/

section Inverses

variable {α : Type} [Scalar α]

theorem GeoTransform.inverseFor_eq_ok {g i : GeoTransform α} (h : g.invert? = some i)
    (t : Task α) : g.inverseFor t = .ok i := by
  unfold inverseFor inverse
  rw [h]
  rfl

theorem GeoTransform.inverseFor_eq_error {g : GeoTransform α} (h : g.invert? = none)
    (t : Task α) : ∃ f, g.inverseFor t = .error f := by
  unfold inverseFor inverse
  rw [h]
  exact ⟨_, rfl⟩

namespace Context

variable {m : Type → Type}

/-- **A context is made from two maps that have inverses,** -/
theorem affine_eq_ok {source i destination j : GeoTransform α} (hi : source.invert? = some i)
    (hj : destination.invert? = some j) (step : Option (BatchTransform m α)) :
    affine source step destination = .ok ⟨.affine source i, step, destination, j⟩ := by
  unfold affine
  rw [GeoTransform.inverseFor_eq_ok hi, GeoTransform.inverseFor_eq_ok hj]
  rfl

/-- and from no others. -/
theorem affine_eq_error {source destination : GeoTransform α}
    (h : source.invert? = none ∨ destination.invert? = none)
    (step : Option (BatchTransform m α)) : ∃ f, affine source step destination = .error f := by
  unfold affine
  cases hi : source.invert? with
  | none =>
    obtain ⟨f, hf⟩ := GeoTransform.inverseFor_eq_error hi .invertingSource
    rw [hf]
    exact ⟨f, rfl⟩
  | some i =>
    obtain ⟨f, hf⟩ := GeoTransform.inverseFor_eq_error (h.resolve_left (by simp [hi]))
      .invertingDestination
    rw [GeoTransform.inverseFor_eq_ok hi, hf]
    exact ⟨f, rfl⟩

/-- A context that was made has inverses of its two maps. -/
theorem inverses_of_affine {source destination : GeoTransform α}
    {step : Option (BatchTransform m α)} {context : Context m α}
    (h : affine source step destination = .ok context) :
    ∃ i j, source.invert? = some i ∧ destination.invert? = some j ∧
      context = ⟨.affine source i, step, destination, j⟩ := by
  cases hi : source.invert? with
  | none =>
    obtain ⟨f, hf⟩ : ∃ f, affine source step destination = .error f := affine_eq_error (.inl hi) step
    rw [hf] at h
    cases h
  | some i =>
    cases hj : destination.invert? with
    | none =>
      obtain ⟨f, hf⟩ : ∃ f, affine source step destination = .error f :=
        affine_eq_error (.inr hj) step
      rw [hf] at h
      cases h
    | some j =>
      rw [affine_eq_ok hi hj] at h
      exact ⟨i, j, rfl, rfl, (Except.ok.inj h).symm⟩

theorem geolocated_eq_ok {destination j : GeoTransform α} (hj : destination.invert? = some j)
    (source : BatchTransform m α) (step : Option (BatchTransform m α)) :
    geolocated source step destination = .ok ⟨.geolocation source, step, destination, j⟩ := by
  unfold geolocated
  rw [GeoTransform.inverseFor_eq_ok hj]
  rfl

theorem geolocated_eq_error {destination : GeoTransform α} (h : destination.invert? = none)
    (source : BatchTransform m α) (step : Option (BatchTransform m α)) :
    ∃ f, geolocated source step destination = .error f := by
  obtain ⟨f, hf⟩ := GeoTransform.inverseFor_eq_error h .invertingDestination
  unfold geolocated
  rw [hf]
  exact ⟨f, rfl⟩

/-- **An affine source takes every map that has an inverse,** -/
theorem setSource_eq_ok {c : Context m α} {map inverse : GeoTransform α}
    (hc : c.source = .affine map inverse) {g i : GeoTransform α} (hi : g.invert? = some i) :
    c.setSource g = .ok { c with source := .affine g i } := by
  unfold setSource
  rw [hc]
  simp only [GeoTransform.inverseFor_eq_ok hi]
  rfl

/-- and no other. -/
theorem setSource_eq_error (c : Context m α) {g : GeoTransform α} (h : g.invert? = none) :
    ∃ f, c.setSource g = .error f := by
  unfold setSource
  cases c.source with
  | geolocation t => exact ⟨_, rfl⟩
  | affine map inverse =>
    obtain ⟨f, hf⟩ := GeoTransform.inverseFor_eq_error h .invertingSource
    rw [hf]
    exact ⟨f, rfl⟩

end Context
end Inverses

/-! ## 2. Transforms none of whose calls fails -/

section Total

variable {α : Type}

/-- **A transform none of whose calls fails.** -/
def BatchTransform.Total (t : Transform α) : Prop :=
  ∀ (d : Direction) {n : Nat} (b : Batch α n), ∃ b', t.run d b = .ok b'

theorem BatchTransform.Total.step {t : Transform α} (h : t.Total) (d : Direction) {n : Nat}
    (b : Batch α n) : ∃ b', t.step d b = .ok b' := by
  obtain ⟨moved, hmoved⟩ := h d (b.map fun p => { p with ok := true })
  unfold BatchTransform.step
  rw [hmoved]
  exact ⟨_, rfl⟩

variable [Scalar α]

theorem CrsMap.total (t : CrsMap α) : (t.toBatchTransform : Transform α).Total :=
  fun _ _ _ => ⟨_, rfl⟩

/-- **A context none of whose calls fails.** -/
def Context.Total (c : WarpContext α) : Prop :=
  ∀ (d : Direction) {n : Nat} (b : Batch α n), ∃ b', c.transform d b = .ok b'

omit [Scalar α] in
/-- A context that is put together from such transforms. -/
structure Context.Parts (c : WarpContext α) : Prop where
  source : ∀ t, c.source = .geolocation t → t.Total
  reprojection : ∀ t, c.reprojection = some t → t.Total

namespace Context.Parts

variable {c : WarpContext α} (h : c.Parts)

include h

theorem sourceStep (d : Direction) {n : Nat} (b : Batch α n) :
    ∃ b', c.sourceStep d b = .ok b' := by
  unfold Context.sourceStep
  cases hsource : c.source with
  | affine map inverse => cases d <;> exact ⟨_, rfl⟩
  | geolocation t => exact (h.source t hsource).step d b

omit [Scalar α] in
theorem reprojectionStep (d : Direction) {n : Nat} (b : Batch α n) :
    ∃ b', c.reprojectionStep d b = .ok b' := by
  unfold Context.reprojectionStep
  cases hstep : c.reprojection with
  | none => exact ⟨b, rfl⟩
  | some t => exact (h.reprojection t hstep).step d b

/-- **The steps of a chain succeed one after the other.** -/
theorem total : c.Total := by
  intro d n b
  unfold Context.transform Context.chain
  cases d with
  | sourceToDestination =>
    obtain ⟨b₁, h₁⟩ := h.sourceStep .sourceToDestination (b.map fun p => { p with ok := true })
    obtain ⟨b₂, h₂⟩ := h.reprojectionStep .sourceToDestination b₁
    simp only [h₁, h₂, Outcome.ok_bind]
    exact ⟨_, rfl⟩
  | destinationToSource =>
    obtain ⟨b₁, h₁⟩ := h.reprojectionStep .destinationToSource
      (c.destination.moveBatch (b.map fun p => { p with ok := true }))
    obtain ⟨b₂, h₂⟩ := h.sourceStep .destinationToSource b₁
    simp only [h₁, h₂, Outcome.ok_bind]
    exact ⟨_, rfl⟩

/-- Binding a context to another map of the source leaves the transforms in it alone. -/
theorem setSource {g : GeoTransform α} {c' : WarpContext α} (hset : c.setSource g = .ok c') :
    c'.Parts := by
  unfold Context.setSource at hset
  cases hsource : c.source with
  | geolocation t =>
    rw [hsource] at hset
    cases hset
  | affine map inverse =>
    rw [hsource] at hset
    cases hi : g.inverseFor .invertingSource with
    | error f =>
      simp only [hi] at hset
      cases hset
    | ok i =>
      simp only [hi] at hset
      cases hset
      exact ⟨nofun, h.reprojection⟩

end Context.Parts

/-- A context without a step between systems has no call that fails. -/
theorem Context.total_plain (map inverse destination destinationInverse : GeoTransform α) :
    Context.Total ⟨.affine map inverse, none, destination, destinationInverse⟩ := by
  refine Context.Parts.total ⟨fun t h => ?_, fun t h => ?_⟩
  · cases h
  · cases h

/-! ## 3. Approximated rows -/

namespace Approximation

variable {a : Approximation (Outcome α) α} (h : a.context.Total)

include h

/-- Halves of a row that are transformed make a row that is, by induction on the length. -/
theorem bisect_total (d : Direction) {n : Nat} (row : Batch α n) :
    ∃ row', a.bisect d row = .ok row' := by
  induction n using Nat.strongRecOn with
  | _ n ih =>
    unfold bisect
    split
    · exact h d row
    · rename_i hlong
      have hn : 5 < n := Nat.lt_of_not_le hlong
      have hmid : (n - 1) / 2 < n := by omega
      simp only
      split
      · exact h d row
      · obtain ⟨probes, hprobes⟩ := h d #v[row[0], { row[0] with x := row[(n - 1) / 2].x },
          { row[0] with x := row[n - 1].x }]
        obtain ⟨left, hleft⟩ := ih _ (by omega) (row.take ((n - 1) / 2))
        obtain ⟨right, hright⟩ := ih _ (by omega) (row.drop ((n - 1) / 2))
        simp only [hprobes, hleft, hright, Outcome.ok_bind]
        split
        · exact h d row
        · split
          · exact ⟨_, rfl⟩
          · exact ⟨_, rfl⟩

/-- **A context none of whose calls fails has no row that fails.** -/
theorem transform_total (d : Direction) {n : Nat} (row : Batch α n) :
    ∃ row', a.transform d row = .ok row' := by
  unfold transform
  split
  · split
    · exact h d row
    · exact bisect_total h d row
  · exact ⟨row, rfl⟩

end Approximation
end Total

/-! ## 4. What an engine of affine maps answers -/

namespace AffineEngine

variable {α : Type} [Scalar α] (e : AffineEngine α)

omit [Scalar α] in
/-- **There is no way from one system to another:** the first has no name, or the two differ and no
map is registered in either direction. -/
def Unresolved (source destination : String) : Prop :=
  source = "" ∨ (source ≠ destination ∧ e.pairs.lookup (source, destination) = none ∧
    e.pairs.lookup (destination, source) = none)

instance (source destination : String) : Decidable (e.Unresolved source destination) :=
  inferInstanceAs (Decidable (_ ∨ (_ ∧ _ ∧ _)))

theorem find?_eq_none (source destination : String) : e.find? source destination = none ↔
    e.pairs.lookup (source, destination) = none ∧ e.pairs.lookup (destination, source) = none := by
  unfold find?
  cases e.pairs.lookup (source, destination) with
  | some t => simp
  | none => simp

variable {e} {source destination : String}

theorem crsStep_unresolved (h : e.Unresolved source destination) :
    ∃ f, (e.crsStep source destination).1 = .error (.failure f) := by
  unfold crsStep
  rcases h with hempty | ⟨hne, hpairs⟩
  · rw [if_pos (Or.inl (by simp [hempty]))]
    exact ⟨_, rfl⟩
  · have hfind := (e.find?_eq_none source destination).mpr hpairs
    rw [hfind, if_neg hne]
    split <;> exact ⟨_, rfl⟩

theorem crsStep_resolved (hd : destination ≠ "") (h : ¬ e.Unresolved source destination) :
    ∃ step, (e.crsStep source destination).1 = .ok step ∧ ∀ t, step = some t → t.Total := by
  have hs : source ≠ "" := fun hempty => h (.inl hempty)
  have hnamed : ¬ (source.isEmpty = true ∨ destination.isEmpty = true) := by
    simp [hs, hd]
  unfold crsStep
  rw [if_neg hnamed]
  split
  · exact ⟨none, rfl, nofun⟩
  · rename_i hne
    cases hfind : e.find? source destination with
    | none => exact absurd (.inr ⟨hne, (e.find?_eq_none _ _).mp hfind⟩) h
    | some t =>
      refine ⟨_, rfl, fun t' ht => ?_⟩
      obtain rfl := Option.some.inj ht
      exact t.total

/-- **One transform stands for all geolocation arrays,** or there is none. -/
theorem geolocation_unknown {options : List String} (h : options = [] ∨ e.geolocation = none) :
    ∃ f, Engine.geolocation e options = (.error (.failure f), e) := by
  show ∃ f, e.geolocationStep options = _
  unfold geolocationStep
  split
  · exact ⟨_, rfl⟩
  · rename_i hoptions
    rw [h.resolve_left (by simpa using hoptions)]
    exact ⟨_, rfl⟩

theorem geolocation_known {options : List String} (hoptions : options ≠ []) {t : CrsMap α}
    (ht : e.geolocation = some t) :
    Engine.geolocation e options = (.ok t.toBatchTransform, e) := by
  show e.geolocationStep options = _
  unfold geolocationStep
  rw [if_neg (by simpa using hoptions), ht]

/-- The step to a system that may not be given. -/
theorem stepTo_unresolved {crs : Option String} (h : ∃ d ∈ crs, e.Unresolved source d) :
    ∃ f, (Engine.stepTo e source crs).1 = .error (.failure f) := by
  obtain ⟨d, rfl, hd⟩ := h
  exact crsStep_unresolved hd

theorem stepTo_resolved {crs : Option String} (hnamed : ∀ d ∈ crs, d ≠ "")
    (h : ¬ ∃ d ∈ crs, e.Unresolved source d) :
    ∃ step, (Engine.stepTo e source crs).1 = .ok step ∧ ∀ t, step = some t → t.Total := by
  cases crs with
  | none => exact ⟨none, rfl, nofun⟩
  | some d => exact crsStep_resolved (hnamed d rfl) fun hd => h ⟨d, rfl, hd⟩

end AffineEngine

/-! ## 5. Contexts for opened sources -/

section Sources

variable {α : Type} [Scalar α]

omit [Scalar α] in
theorem Request.destinationCrs?_ne (r : Request α) : ∀ crs ∈ r.destinationCrs?, crs ≠ "" := by
  intro crs hcrs hempty
  obtain ⟨-, hkeep⟩ := Option.filter_eq_some_iff.mp hcrs
  simp [hempty] at hkeep

/-- **What keeps an engine of affine maps from making a context:** geolocation arrays without
options or that it does not know, a destination system with no way to it, or a geotransform without
an inverse, where that of the source counts unless there are geolocation arrays. -/
def Opened.Untransformable (e : AffineEngine α) (o : Opened α) : Prop :=
  (∃ options ∈ o.request.geolocation, options = [] ∨ e.geolocation = none) ∨
    (∃ crs ∈ o.request.destinationCrs?, e.Unresolved o.crs crs) ∨
    o.request.destination.invert? = none ∨
    (o.request.geolocation = none ∧ o.source.invert? = none)

instance (e : AffineEngine α) (o : Opened α) : Decidable (o.Untransformable e) :=
  inferInstanceAs (Decidable (_ ∨ _ ∨ _ ∨ (_ ∧ _)))

variable {e : AffineEngine α}

section Affine

variable {source destination : GeoTransform α} {sourceCrs : String} {crs : Option String}
  (hnamed : ∀ d ∈ crs, d ≠ "")

include hnamed

theorem affineContext_failed (h : (∃ d ∈ crs, e.Unresolved sourceCrs d) ∨
    source.invert? = none ∨ destination.invert? = none) :
    ∃ f, (Engine.affineContext e sourceCrs source crs destination).1 = .error (.failure f) := by
  unfold Engine.affineContext
  by_cases hunresolved : ∃ d ∈ crs, e.Unresolved sourceCrs d
  · obtain ⟨f, hf⟩ := AffineEngine.stepTo_unresolved hunresolved
    simp only [hf]
    exact ⟨f, rfl⟩
  · obtain ⟨step, hstep, -⟩ := AffineEngine.stepTo_resolved hnamed hunresolved
    obtain ⟨f, hf⟩ := Context.affine_eq_error (m := Outcome α) (h.resolve_left hunresolved) step
    simp only [hstep, Except.bind, hf]
    exact ⟨f, rfl⟩

theorem affineContext_made (hresolved : ¬ ∃ d ∈ crs, e.Unresolved sourceCrs d) {i j : GeoTransform α}
    (hi : source.invert? = some i) (hj : destination.invert? = some j) :
    ∃ context, (Engine.affineContext e sourceCrs source crs destination).1 = .ok context ∧
      context.Parts := by
  obtain ⟨step, hstep, htotal⟩ := AffineEngine.stepTo_resolved hnamed hresolved
  refine ⟨⟨.affine source i, step, destination, j⟩, ?_, nofun, htotal⟩
  unfold Engine.affineContext
  simp only [hstep, Except.bind, Context.affine_eq_ok hi hj]
  rfl

theorem geolocatedContext_failed {options : List String}
    (h : (options = [] ∨ e.geolocation = none) ∨ (∃ d ∈ crs, e.Unresolved sourceCrs d) ∨
      destination.invert? = none) :
    ∃ f, (Engine.geolocatedContext e sourceCrs options crs destination).1
      = .error (.failure f) := by
  unfold Engine.geolocatedContext
  by_cases hunknown : options = [] ∨ e.geolocation = none
  · obtain ⟨f, hf⟩ := AffineEngine.geolocation_unknown hunknown
    simp only [hf]
    exact ⟨f, rfl⟩
  · obtain ⟨hoptions, hsome⟩ := not_or.mp hunknown
    obtain ⟨t, ht⟩ := Option.ne_none_iff_exists'.mp hsome
    simp only [AffineEngine.geolocation_known hoptions ht]
    by_cases hunresolved : ∃ d ∈ crs, e.Unresolved sourceCrs d
    · obtain ⟨f, hf⟩ := AffineEngine.stepTo_unresolved hunresolved
      simp only [hf]
      exact ⟨f, rfl⟩
    · obtain ⟨step, hstep, -⟩ := AffineEngine.stepTo_resolved hnamed hunresolved
      obtain ⟨f, hf⟩ := Context.geolocated_eq_error (m := Outcome α)
        ((h.resolve_left hunknown).resolve_left hunresolved) t.toBatchTransform step
      simp only [hstep, Except.bind, hf]
      exact ⟨f, rfl⟩

theorem geolocatedContext_made {options : List String} (hoptions : options ≠ [])
    {t : CrsMap α} (ht : e.geolocation = some t)
    (hresolved : ¬ ∃ d ∈ crs, e.Unresolved sourceCrs d) {j : GeoTransform α}
    (hj : destination.invert? = some j) :
    ∃ context, (Engine.geolocatedContext e sourceCrs options crs destination).1 = .ok context ∧
      context.Parts := by
  obtain ⟨step, hstep, htotal⟩ := AffineEngine.stepTo_resolved hnamed hresolved
  refine ⟨⟨.geolocation t.toBatchTransform, step, destination, j⟩, ?_, ?_, htotal⟩
  · unfold Engine.geolocatedContext
    simp only [AffineEngine.geolocation_known hoptions ht, hstep, Except.bind,
      Context.geolocated_eq_ok hj]
    rfl
  · rintro t' ht'
    obtain rfl := Georeference.geolocation.inj ht'
    exact t.total

end Affine

variable {o : Opened α}

/-- A source with a geotransform gets the context of its step, if its system has a name where one
is needed. -/
theorem contextFor_affine (hg : o.request.geolocation = none)
    (hnamed : ∀ crs ∈ o.request.destinationCrs?, o.crs ≠ "") : contextFor e o
      = (Engine.affineContext e o.crs o.source o.request.destinationCrs?
          o.request.destination).1 := by
  have hdestination := o.request.destinationCrs?_ne
  unfold contextFor
  rw [hg]
  cases hcrs : o.request.destinationCrs? with
  | none => rfl
  | some crs =>
    have hpair : CrsPair.new (α := α) o.crs crs = .ok ⟨o.crs, crs⟩ := by
      unfold CrsPair.new
      rw [if_neg (by simpa using hnamed crs hcrs), if_neg (by simpa using hdestination crs hcrs)]
    simp only [hpair]

/-- **No context is made of what cannot be transformed.** -/
theorem contextFor_untransformable (h : o.Untransformable e) :
    ∃ f, contextFor e o = .error (.failure f) := by
  have hdestination := o.request.destinationCrs?_ne
  cases hg : o.request.geolocation with
  | some options =>
    unfold contextFor
    simp only [hg]
    refine geolocatedContext_failed hdestination ?_
    rcases h with ⟨options', hoptions, hunknown⟩ | hunresolved | hsingular | ⟨hnone, -⟩
    · obtain rfl := Option.some.inj (hg.symm.trans hoptions)
      exact .inl hunknown
    · exact .inr (.inl hunresolved)
    · exact .inr (.inr hsingular)
    · exact absurd hnone (by simp [hg])
  | none =>
    by_cases hnamed : ∀ crs ∈ o.request.destinationCrs?, o.crs ≠ ""
    · rw [contextFor_affine hg hnamed]
      refine affineContext_failed hdestination ?_
      rcases h with ⟨options', hoptions, -⟩ | hunresolved | hsingular | ⟨-, hsingular⟩
      · exact absurd hoptions (by simp [hg])
      · exact .inl hunresolved
      · exact .inr (.inr hsingular)
      · exact .inr (.inl hsingular)
    · -- without a name for the source's system there is no pair to look under
      obtain ⟨crs, hcrs, hempty⟩ : ∃ crs ∈ o.request.destinationCrs?, o.crs = "" := by
        simpa using hnamed
      have hcrs : o.request.destinationCrs? = some crs := hcrs
      have hpair : CrsPair.new (α := α) o.crs crs = .error (Cause.failure .emptySourceCrs) := by
        unfold CrsPair.new
        rw [if_pos (by simp [hempty])]
      unfold contextFor
      simp only [hg, hcrs, hpair]
      exact ⟨_, rfl⟩

/-- **A context is made of anything else,** and none of its calls fails. -/
theorem contextFor_made (h : ¬ o.Untransformable e) :
    ∃ context, contextFor e o = .ok context ∧ context.Parts := by
  have hdestination := o.request.destinationCrs?_ne
  obtain ⟨hgeolocation, hresolved, hj, hsource⟩ := by
    simpa only [Opened.Untransformable, not_or] using h
  obtain ⟨j, hj⟩ := Option.ne_none_iff_exists'.mp hj
  cases hg : o.request.geolocation with
  | some options =>
    obtain ⟨hoptions, hsome⟩ := not_or.mp fun hunknown => hgeolocation ⟨options, hg, hunknown⟩
    obtain ⟨t, ht⟩ := Option.ne_none_iff_exists'.mp hsome
    unfold contextFor
    simp only [hg]
    exact geolocatedContext_made hdestination hoptions ht hresolved hj
  | none =>
    obtain ⟨i, hi⟩ := Option.ne_none_iff_exists'.mp fun hsingular => hsource ⟨hg, hsingular⟩
    rw [contextFor_affine hg fun crs hcrs hempty => hresolved ⟨crs, hcrs, .inl hempty⟩]
    exact affineContext_made hdestination hresolved hi hj

end Sources
end RasterWarp
