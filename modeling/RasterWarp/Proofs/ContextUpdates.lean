/-
# Contexts that are updated in place

The functions that bind a context to another map answer with a context.  Whoever keeps a context
updates it in place: the inverse of the new map is asked for, and the fields are written one after
the other.  An `Update` is such a program.  What it wrote before it failed stays written, so that it
matters what comes first.  All updates ask for an inverse before they write, and so each of them is
the function that gives a context, in place (`apply_setSource`, `apply_setDestination`,
`apply_toOverview`, `apply_rebind`).

A `Shelf` holds the contexts that somebody keeps.  Contexts are made, copied, updated and bound anew
in any order, and any of this may fail.  Whatever is done, one of five things comes of it
(`Shelf.came`).  From there `contexts_stay_matched` says of every shelf that a run leads to:

* the inverses in its contexts are those of their maps;
* what fails leaves all contexts as they were, and what succeeds changes at most the one context
  that it updates;
* a context stays of the kind it was made, and its copies are of that kind too;
* binding a context anew is making one with its step.
-/
import RasterWarp.Proofs.ExactArithmetic
import RasterWarp.Proofs.MadeContexts

namespace RasterWarp

variable {m : Type → Type} {α β γ : Type}

/-! ## 1. Updates -/

/-- **A program that updates a context in place.**  A failure does not take back what was written
before it. -/
abbrev Update (m : Type → Type) (α β : Type) := ExceptT (Failure α) (StateM (Context m α)) β

namespace Update

/-- What an update answers, and the context that it leaves. -/
def apply (u : Update m α β) (c : Context m α) : Except (Failure α) β × Context m α :=
  Id.run (u.run.run c)

/-- Names the task that a failure ended. -/
def during (t : Task α) (u : Update m α β) : Update m α β := ExceptT.adapt (·.during t) u

variable [Scalar α]

/-- Another geotransform for the source, written together with its inverse. -/
def setSource (g : GeoTransform α) : Update m α Unit := do
  if (← get).hasGeolocation then throw (Cause.failure .geolocatedSource)
  let inverse ← g.inverseFor .invertingSource
  modify fun c => { c with source := .affine g inverse }

/-- Another destination grid: its inverse is written first, then the grid. -/
def setDestination (g : GeoTransform α) : Update m α Unit := do
  let inverse ← g.inverseFor .invertingDestination
  modify fun c => { c with destinationInverse := inverse }
  modify fun c => { c with destination := g }

/-- Both, one after the other.  If there is no such grid, the source is another one already. -/
def rebind (source destination : GeoTransform α) : Update m α Unit := do
  setSource source
  setDestination destination

/-- The geotransform of an overview for the source. -/
def toOverview (source : GeoTransform α) (full level : Nat × Nat) :
    Update m α (GeoTransform α) := do
  let scaled := source.scaled (levelRatio full.1 level.1) (levelRatio full.2 level.2)
  during (.bindingOverview scaled) (setSource scaled)
  return scaled

/-! ## 2. What updates leave -/

section Apply

omit [Scalar α]

variable (c : Context m α)

@[simp] theorem apply_pure (b : β) : (pure b : Update m α β).apply c = (.ok b, c) := rfl

@[simp] theorem apply_throw (f : Failure α) : (throw f : Update m α β).apply c = (.error f, c) :=
  rfl

@[simp] theorem apply_lift (x : Except (Failure α) β) : (liftM x : Update m α β).apply c = (x, c) :=
  rfl

@[simp] theorem apply_get : (get : Update m α (Context m α)).apply c = (.ok c, c) := rfl

@[simp] theorem apply_modify (f : Context m α → Context m α) :
    (modify f : Update m α Unit).apply c = (.ok (), f c) := rfl

@[simp] theorem apply_during (u : Update m α β) (t : Task α) :
    (during t u).apply c = ((u.apply c).1.mapError (·.during t), (u.apply c).2) := rfl

/-- The second of two goes on from what the first left, unless that failed. -/
@[simp] theorem apply_bind (u : Update m α β) (k : β → Update m α γ) :
    (u >>= k).apply c =
      match u.apply c with
      | (.ok b, c') => (k b).apply c'
      | (.error f, c') => (.error f, c') := by
  have hrun : (u >>= k).apply c = Id.run ((ExceptT.bindCont k (u.apply c).1).run (u.apply c).2) :=
    rfl
  rw [hrun]
  rcases u.apply c with ⟨f | b, c'⟩ <;> rfl

end Apply

end Update

/-- What comes of binding a kept context anew: the new one is kept if there is one, and else the
old one. -/
def Context.settle (c : Context m α) :
    Except (Failure α) (β × Context m α) → Except (Failure α) β × Context m α
  | .ok (answer, c') => (.ok answer, c')
  | .error f => (.error f, c)

namespace Update

variable [Scalar α] (c : Context m α)

theorem apply_setSource (g : GeoTransform α) :
    (setSource g).apply c = c.settle ((c.setSource g).map ((), ·)) := by
  unfold Context.setSource
  cases hsource : c.source with
  | geolocation t =>
    have hkind : c.hasGeolocation = true := by simp [Context.hasGeolocation, hsource]
    simp [setSource, hkind]
    rfl
  | affine map inverse =>
    have hkind : c.hasGeolocation = false := by simp [Context.hasGeolocation, hsource]
    cases hi : g.inverseFor .invertingSource with
    | error f =>
      simp [setSource, hkind, hi]
      rfl
    | ok i =>
      simp [setSource, hkind, hi]
      rfl

theorem apply_setDestination (g : GeoTransform α) :
    (setDestination g).apply c = c.settle ((c.setDestination g).map ((), ·)) := by
  unfold Context.setDestination
  cases hi : g.inverseFor .invertingDestination with
  | error f =>
    simp [setDestination, hi]
    rfl
  | ok i =>
    simp [setDestination, hi]
    rfl

theorem apply_toOverview (source : GeoTransform α) (full level : Nat × Nat) :
    (toOverview source full level).apply c = c.settle (atOverview c source full level) := by
  cases hset : c.setSource (source.scaled (levelRatio full.1 level.1) (levelRatio full.2 level.2))
  all_goals
    simp only [toOverview, atOverview, apply_bind, apply_during, apply_setSource, hset]
    rfl

/-- Binding a copy anew gives the context that the function gives, or its failure. -/
theorem apply_rebind (source destination : GeoTransform α) :
    ((rebind source destination).apply c).1.map (fun _ => ((rebind source destination).apply c).2)
      = c.boundTo source destination := by
  unfold Context.boundTo
  cases hs : c.setSource source with
  | error f =>
    simp only [rebind, apply_bind, apply_setSource, hs]
    rfl
  | ok c' =>
    cases hd : c'.setDestination destination with
    | error f =>
      simp only [rebind, apply_bind, apply_setSource, hs, Except.map, Context.settle,
        apply_setDestination, hd]
      exact hd.symm
    | ok c'' =>
      simp only [rebind, apply_bind, apply_setSource, hs, Except.map, Context.settle,
        apply_setDestination, hd]
      exact hd.symm

end Update

/-! ## 3. Contexts that fit their maps -/

namespace Context

/-- The transform of a source with geolocation arrays; a source with a geotransform has none. -/
def geolocation? (c : Context m α) : Option (BatchTransform m α) :=
  match c.source with
  | .affine .. => none
  | .geolocation t => some t

/-- **Contexts of one kind:** with the same geolocation arrays, if any, and the same step between
the coordinate systems. -/
structure Akin (c c' : Context m α) : Prop where
  geolocation : c'.geolocation? = c.geolocation?
  reprojection : c'.reprojection = c.reprojection

theorem Akin.refl (c : Context m α) : c.Akin c := ⟨rfl, rfl⟩

theorem Akin.trans {c c' c'' : Context m α} (h : c.Akin c') (h' : c'.Akin c'') : c.Akin c'' :=
  ⟨h'.geolocation.trans h.geolocation, h'.reprojection.trans h.reprojection⟩

variable [Scalar α]

/-- **A context whose inverses are those of its maps.** -/
structure Matched (c : Context m α) : Prop where
  source : ∀ map inverse, c.source = .affine map inverse → map.invert? = some inverse
  destination : c.destination.invert? = some c.destinationInverse

/-- What a context may become: it stays of its kind, and its inverses fit if they did. -/
structure Becomes (c c' : Context m α) : Prop where
  akin : c.Akin c'
  matched : c.Matched → c'.Matched

theorem Becomes.refl (c : Context m α) : c.Becomes c := ⟨.refl c, id⟩

theorem Becomes.trans {c c' c'' : Context m α} (h : c.Becomes c') (h' : c'.Becomes c'') :
    c.Becomes c'' :=
  ⟨h.akin.trans h'.akin, h'.matched ∘ h.matched⟩

end Context

section Made

variable [Scalar α] {c c' : Context m α} {g : GeoTransform α}

theorem GeoTransform.invert?_of_inverseFor {i : GeoTransform α} {t : Task α}
    (h : g.inverseFor t = .ok i) : g.invert? = some i := by
  cases hi : g.invert? with
  | none =>
    obtain ⟨f, hf⟩ := inverseFor_eq_error hi t
    rw [hf] at h
    cases h
  | some i' =>
    rw [inverseFor_eq_ok hi t] at h
    exact congrArg some (Except.ok.inj h)

namespace Context

/-- A source that has taken a map had one before, and holds its inverse. -/
theorem exists_of_setSource (h : c.setSource g = .ok c') :
    ∃ i, c.geolocation? = none ∧ g.invert? = some i ∧ c' = { c with source := .affine g i } := by
  unfold setSource at h
  unfold geolocation?
  cases hsource : c.source with
  | geolocation t =>
    rw [hsource] at h
    cases h
  | affine map inverse =>
    rw [hsource] at h
    cases hi : g.inverseFor .invertingSource with
    | error f =>
      simp only [hi] at h
      cases h
    | ok i =>
      simp only [hi] at h
      exact ⟨i, rfl, GeoTransform.invert?_of_inverseFor hi, (Except.ok.inj h).symm⟩

theorem becomes_setSource (h : c.setSource g = .ok c') : c.Becomes c' := by
  obtain ⟨i, hkind, hi, rfl⟩ := exists_of_setSource h
  refine ⟨⟨hkind.symm, rfl⟩, fun hc => ⟨fun map inverse hmap => ?_, hc.destination⟩⟩
  obtain ⟨rfl, rfl⟩ := Georeference.affine.inj hmap
  exact hi

theorem becomes_setDestination (h : c.setDestination g = .ok c') : c.Becomes c' := by
  unfold setDestination at h
  cases hi : g.inverseFor .invertingDestination with
  | error f =>
    simp only [hi] at h
    cases h
  | ok i =>
    simp only [hi] at h
    obtain rfl := Except.ok.inj h
    exact ⟨⟨rfl, rfl⟩, fun hc => ⟨hc.source, GeoTransform.invert?_of_inverseFor hi⟩⟩

theorem becomes_boundTo {source destination : GeoTransform α}
    (h : c.boundTo source destination = .ok c') : c.Becomes c' := by
  unfold boundTo at h
  cases hs : c.setSource source with
  | error f =>
    rw [hs] at h
    cases h
  | ok c₁ =>
    rw [hs] at h
    exact (becomes_setSource hs).trans (becomes_setDestination h)

/-- Binding to an overview is taking its map. -/
theorem setSource_of_atOverview {source scaled : GeoTransform α} {full level : Nat × Nat}
    (h : atOverview c source full level = .ok (scaled, c')) :
    scaled = source.scaled (levelRatio full.1 level.1) (levelRatio full.2 level.2) ∧
      c.setSource scaled = .ok c' := by
  unfold atOverview at h
  simp only at h
  split at h
  · rename_i c₁ hset
    obtain ⟨rfl, rfl⟩ := Prod.mk.inj (Except.ok.inj h)
    exact ⟨rfl, hset⟩
  · cases h

theorem matched_affine {source destination : GeoTransform α} {step : Option (BatchTransform m α)}
    (h : affine source step destination = .ok c) : c.Matched := by
  obtain ⟨i, j, hi, hj, rfl⟩ := inverses_of_affine h
  refine ⟨fun map inverse hmap => ?_, hj⟩
  obtain ⟨rfl, rfl⟩ := Georeference.affine.inj hmap
  exact hi

theorem matched_geolocated {source : BatchTransform m α} {step : Option (BatchTransform m α)}
    {destination : GeoTransform α} (h : geolocated source step destination = .ok c) :
    c.Matched := by
  cases hj : destination.invert? with
  | none =>
    obtain ⟨f, hf⟩ := geolocated_eq_error hj source step
    rw [hf] at h
    cases h
  | some j =>
    rw [geolocated_eq_ok hj source step] at h
    obtain rfl := Except.ok.inj h
    exact ⟨nofun, hj⟩

end Context
end Made

/-! ## 4. Shelves -/

/-- **What is done with the contexts on a shelf.**  A context is told by its place there. -/
inductive Handling (m : Type → Type) (α : Type) where
  | affine (source : GeoTransform α) (step : Option (BatchTransform m α))
      (destination : GeoTransform α)
  | geolocated (source : BatchTransform m α) (step : Option (BatchTransform m α))
      (destination : GeoTransform α)
  | copy (place : Nat)
  | setSource (place : Nat) (g : GeoTransform α)
  | setDestination (place : Nat) (g : GeoTransform α)
  | rebind (place : Nat) (source destination : GeoTransform α)
  | toOverview (place : Nat) (source : GeoTransform α) (full level : Nat × Nat)

namespace Handling

/-- The place of the context that is updated. -/
def updated? : Handling m α → Option Nat
  | setSource place _ | setDestination place _ | toOverview place .. => some place
  | affine .. | geolocated .. | copy _ | rebind .. => none

/-- The place of the context that another one is made from. -/
def original? : Handling m α → Option Nat
  | copy place | rebind place .. => some place
  | affine .. | geolocated .. | setSource .. | setDestination .. | toOverview .. => none

/-- Nothing is updated and copied at once. -/
theorem original?_of_updated? {h : Handling m α} {place : Nat} (hplace : h.updated? = some place) :
    h.original? = none := by
  cases h <;> first | rfl | cases hplace

/-- The context that is to come of it, given the one at its place. -/
def outcome [Scalar α] (c : Context m α) : Handling m α → Except (Failure α) (Context m α)
  | affine source step destination => Context.affine source step destination
  | geolocated source step destination => Context.geolocated source step destination
  | copy _ => .ok c
  | setSource _ g => c.setSource g
  | setDestination _ g => c.setDestination g
  | rebind _ source destination => c.boundTo source destination
  | toOverview _ source full level => (atOverview c source full level).map (·.2)

end Handling

/-- **The contexts that somebody keeps,** in the order in which they were made. -/
abbrev Shelf (m : Type → Type) (α : Type) := List (Context m α)

namespace Shelf

/-- Puts a new context on the shelf, if it could be made. -/
def add (s : Shelf m α) : Except (Failure α) (Context m α) → Except (Failure α) Unit × Shelf m α
  | .ok c => (.ok (), s ++ [c])
  | .error f => (.error f, s)

/-- Puts a copy of a context on the shelf, after an update of the copy. -/
def addFrom (s : Shelf m α) (place : Nat) (u : Update m α β) :
    Except (Failure α) Unit × Shelf m α :=
  match s[place]? with
  | some c => s.add ((u.apply c).1.map fun _ => (u.apply c).2)
  | none => (.ok (), s)

/-- Updates a context where it stands. -/
def update (s : Shelf m α) (place : Nat) (u : Update m α β) : Except (Failure α) Unit × Shelf m α :=
  match s[place]? with
  | some c => ((u.apply c).1.map fun _ => (), s.set place (u.apply c).2)
  | none => (.ok (), s)

variable [Scalar α]

/-- **One handling:** whether it failed, and the shelf after it.  Where there is no context, nothing
is done. -/
def perform (s : Shelf m α) : Handling m α → Except (Failure α) Unit × Shelf m α
  | .affine source step destination => s.add (Context.affine source step destination)
  | .geolocated source step destination => s.add (Context.geolocated source step destination)
  | .copy place => s.addFrom place (pure ())
  | .setSource place g => s.update place (Update.setSource g)
  | .setDestination place g => s.update place (Update.setDestination g)
  | .rebind place source destination => s.addFrom place (Update.rebind source destination)
  | .toOverview place source full level => s.update place (Update.toOverview source full level)

/-- The shelf after a run of handlings, failed ones among them. -/
def after (s : Shelf m α) (run : List (Handling m α)) : Shelf m α :=
  run.foldl (fun s h => (s.perform h).2) s

/-- **What comes of a handling.** -/
inductive Came (s : Shelf m α) (h : Handling m α) : Except (Failure α) Unit × Shelf m α → Prop
  /-- It failed, and nothing is different. -/
  | failed (f : Failure α) : Came s h (.error f, s)
  /-- There is no context at the place. -/
  | idle
      (habsent : ∀ place, h.updated? = some place ∨ h.original? = some place → s[place]? = none) :
      Came s h (.ok (), s)
  /-- The context at a place has become another. -/
  | updated {place : Nat} {c c' : Context m α} (hplace : h.updated? = some place)
      (hc : s[place]? = some c) (hc' : h.outcome c = .ok c') : Came s h (.ok (), s.set place c')
  /-- There is a further context, which came from the one at a place. -/
  | derived {place : Nat} {c c' : Context m α} (hplace : h.original? = some place)
      (hc : s[place]? = some c) (hc' : h.outcome c = .ok c') : Came s h (.ok (), s ++ [c'])
  /-- There is a further context, which was made from maps. -/
  | made {c : Context m α} (hupdated : h.updated? = none) (horiginal : h.original? = none)
      (hc : c.Matched) : Came s h (.ok (), s ++ [c])

section Came

variable {s : Shelf m α} {h : Handling m α} {place : Nat}

theorem came_add (hupdated : h.updated? = none) (horiginal : h.original? = none)
    {x : Except (Failure α) (Context m α)} (hx : ∀ c, x = .ok c → c.Matched) :
    s.Came h (s.add x) := by
  cases x with
  | error f => exact .failed f
  | ok c => exact .made hupdated horiginal (hx c rfl)

theorem came_addFrom (hplace : h.original? = some place) (hupdated : h.updated? = none)
    {u : Update m α β}
    (hu : ∀ c, (u.apply c).1.map (fun _ => (u.apply c).2) = h.outcome c) :
    s.Came h (s.addFrom place u) := by
  unfold addFrom
  cases hc : s[place]? with
  | none =>
    refine .idle fun place' hplace' => ?_
    rcases hplace' with hplace' | hplace'
    · rw [hupdated] at hplace'
      cases hplace'
    · obtain rfl := Option.some.inj (hplace.symm.trans hplace')
      exact hc
  | some c =>
    simp only [hu]
    cases hx : h.outcome c with
    | error f => exact .failed f
    | ok c' => exact .derived hplace hc hx

theorem came_update (hplace : h.updated? = some place) (horiginal : h.original? = none)
    {u : Update m α β} {bind : Context m α → Except (Failure α) (β × Context m α)}
    (hu : ∀ c, u.apply c = c.settle (bind c)) (hbind : ∀ c, (bind c).map (·.2) = h.outcome c) :
    s.Came h (s.update place u) := by
  unfold update
  cases hc : s[place]? with
  | none =>
    refine .idle fun place' hplace' => ?_
    rcases hplace' with hplace' | hplace'
    · obtain rfl := Option.some.inj (hplace.symm.trans hplace')
      exact hc
    · rw [horiginal] at hplace'
      cases hplace'
  | some c =>
    simp only [hu]
    have houtcome := hbind c
    cases hx : bind c with
    | error f =>
      -- the context is put back as it was
      obtain ⟨hlt, hget⟩ := List.getElem?_eq_some_iff.mp hc
      have hsame : s.set place c = s := by
        rw [← hget]
        exact List.set_getElem_self hlt
      simp only [Context.settle, hsame]
      exact .failed f
    | ok r =>
      rw [hx] at houtcome
      exact .updated hplace hc houtcome.symm

/-- **One of these comes of every handling.** -/
theorem came (s : Shelf m α) (h : Handling m α) : s.Came h (s.perform h) := by
  cases h with
  | affine source step destination =>
    exact came_add rfl rfl fun _ hc => Context.matched_affine hc
  | geolocated source step destination =>
    exact came_add rfl rfl fun _ hc => Context.matched_geolocated hc
  | copy place => exact came_addFrom rfl rfl fun _ => rfl
  | setSource place g =>
    refine came_update rfl rfl (fun c => Update.apply_setSource c g) fun c => ?_
    simp only [Handling.outcome]
    cases c.setSource g <;> rfl
  | setDestination place g =>
    refine came_update rfl rfl (fun c => Update.apply_setDestination c g) fun c => ?_
    simp only [Handling.outcome]
    cases c.setDestination g <;> rfl
  | rebind place source destination =>
    exact came_addFrom rfl rfl fun c => Update.apply_rebind c source destination
  | toOverview place source full level =>
    exact came_update rfl rfl (fun c => Update.apply_toOverview c source full level) fun _ => rfl

/-- What comes of a context is of its kind, and fits if it did. -/
theorem becomes_outcome {c c' : Context m α}
    (hplace : h.updated? = some place ∨ h.original? = some place) (hc' : h.outcome c = .ok c') :
    c.Becomes c' := by
  cases h with
  | affine => rcases hplace with hplace | hplace <;> cases hplace
  | geolocated => rcases hplace with hplace | hplace <;> cases hplace
  | copy =>
    obtain rfl := Except.ok.inj hc'
    exact .refl c
  | setSource => exact Context.becomes_setSource hc'
  | setDestination => exact Context.becomes_setDestination hc'
  | rebind => exact Context.becomes_boundTo hc'
  | toOverview place source full level =>
    have hc' : (atOverview c source full level).map (·.2) = .ok c' := hc'
    cases hx : atOverview c source full level with
    | error f =>
      rw [hx] at hc'
      cases hc'
    | ok r =>
      rw [hx] at hc'
      obtain rfl := Except.ok.inj hc'
      exact Context.becomes_setSource (Context.setSource_of_atOverview hx).2

/-! ## 5. Runs -/

variable {r : Except (Failure α) Unit × Shelf m α}

theorem Came.unchanged {f : Failure α} (hr : s.Came h r) (hfailed : r.1 = .error f) : r.2 = s := by
  cases hr with
  | failed f => rfl
  | idle habsent => rfl
  | updated hplace hc hc' => cases hfailed
  | derived hplace hc hc' => cases hfailed
  | made hupdated horiginal hc => cases hfailed

/-- One handling leaves only contexts that fit their maps, if there were no others. -/
theorem Came.matched (hr : s.Came h r) (hs : ∀ c ∈ s, c.Matched) : ∀ c ∈ r.2, c.Matched := by
  cases hr with
  | failed f => exact hs
  | idle habsent => exact hs
  | @updated place c c' hplace hc hc' =>
    intro x hx
    rcases List.mem_or_eq_of_mem_set hx with hx | rfl
    · exact hs x hx
    · exact (becomes_outcome (.inl hplace) hc').matched (hs c (List.mem_of_getElem? hc))
  | @derived place c c' hplace hc hc' =>
    intro x hx
    rcases List.mem_append.mp hx with hx | hx
    · exact hs x hx
    · obtain rfl := List.mem_singleton.mp hx
      exact (becomes_outcome (.inr hplace) hc').matched (hs c (List.mem_of_getElem? hc))
  | @made c hupdated horiginal hc =>
    intro x hx
    rcases List.mem_append.mp hx with hx | hx
    · exact hs x hx
    · obtain rfl := List.mem_singleton.mp hx
      exact hc

/-- A context that is not updated stays what it is. -/
theorem Came.kept {c : Context m α} (hr : s.Came h r) (hc : s[place]? = some c)
    (hplace : h.updated? ≠ some place) : r.2[place]? = some c := by
  have hlt : place < s.length := (List.getElem?_eq_some_iff.mp hc).1
  cases hr with
  | failed f => exact hc
  | idle habsent => exact hc
  | @updated place' c' c'' hplace' hc' hc'' =>
    have hne : place' ≠ place := fun heq => hplace (heq ▸ hplace')
    rw [List.getElem?_set_ne hne]
    exact hc
  | derived hplace' hc' hc'' =>
    rw [List.getElem?_append_left hlt]
    exact hc
  | made hupdated horiginal hc' =>
    rw [List.getElem?_append_left hlt]
    exact hc

/-- An update that succeeds puts in a context's place what is to come of it, -/
theorem Came.replaced {c : Context m α} (hr : s.Came h r) (hc : s[place]? = some c)
    (hplace : h.updated? = some place) (hok : r.1 = .ok ()) :
    ∃ c', h.outcome c = .ok c' ∧ r.2 = s.set place c' := by
  cases hr with
  | failed f => cases hok
  | idle habsent =>
    rw [habsent place (.inl hplace)] at hc
    cases hc
  | @updated place' c₀ c' hplace' hc₀ hc' =>
    obtain rfl := Option.some.inj (hplace.symm.trans hplace')
    obtain rfl := Option.some.inj (hc.symm.trans hc₀)
    exact ⟨c', hc', rfl⟩
  | derived horiginal =>
    rw [h.original?_of_updated? hplace] at horiginal
    cases horiginal
  | made hupdated =>
    rw [hupdated] at hplace
    cases hplace

/-- and a copy that succeeds adds it. -/
theorem Came.added {c : Context m α} (hr : s.Came h r) (hc : s[place]? = some c)
    (hplace : h.original? = some place) (hok : r.1 = .ok ()) :
    ∃ c', h.outcome c = .ok c' ∧ r.2 = s ++ [c'] := by
  cases hr with
  | failed f => cases hok
  | idle habsent =>
    rw [habsent place (.inr hplace)] at hc
    cases hc
  | updated hupdated =>
    rw [h.original?_of_updated? hupdated] at hplace
    cases hplace
  | @derived place' c₀ c' hplace' hc₀ hc' =>
    obtain rfl := Option.some.inj (hplace.symm.trans hplace')
    obtain rfl := Option.some.inj (hc.symm.trans hc₀)
    exact ⟨c', hc', rfl⟩
  | made hupdated horiginal =>
    rw [horiginal] at hplace
    cases hplace

/-- A context becomes at most another of its kind. -/
theorem Came.becomes {c : Context m α} (hr : s.Came h r) (hc : s[place]? = some c) :
    ∃ c', r.2[place]? = some c' ∧ c.Becomes c' := by
  by_cases hplace : h.updated? = some place
  · cases hresult : r.1 with
    | error f =>
      rw [hr.unchanged hresult]
      exact ⟨c, hc, .refl c⟩
    | ok =>
      obtain ⟨c', hc', hset⟩ := hr.replaced hc hplace hresult
      have hlt : place < s.length := (List.getElem?_eq_some_iff.mp hc).1
      rw [hset]
      exact ⟨c', List.getElem?_set_self hlt, becomes_outcome (.inl hplace) hc'⟩
  · exact ⟨c, hr.kept hc hplace, .refl c⟩

end Came

/-- **A run leaves only contexts that fit their maps,** by induction on the run. -/
theorem matched_after : ∀ (run : List (Handling m α)) {s : Shelf m α}, (∀ c ∈ s, c.Matched) →
    ∀ c ∈ s.after run, c.Matched
  | [], _, hs => hs
  | h :: run, s, hs => matched_after run ((s.came h).matched hs)

/-- **A context stays of its kind along a run.** -/
theorem becomes_after : ∀ (run : List (Handling m α)) {s : Shelf m α} {place : Nat}
    {c : Context m α}, s[place]? = some c → ∃ c', (s.after run)[place]? = some c' ∧ c.Becomes c'
  | [], _, _, c, hc => ⟨c, hc, .refl c⟩
  | h :: run, s, _, c, hc => by
    obtain ⟨c₁, hc₁, hbecomes₁⟩ := (s.came h).becomes hc
    obtain ⟨c₂, hc₂, hbecomes₂⟩ := becomes_after run hc₁
    exact ⟨c₂, hc₂, hbecomes₁.trans hbecomes₂⟩

/-- A context with geolocation arrays takes no geotransform for its source. -/
theorem perform_geolocated {s : Shelf m α} {place : Nat} {c : Context m α}
    (hc : s[place]? = some c) (hkind : c.hasGeolocation = true) (g g' : GeoTransform α) :
    (∃ f, (s.perform (.setSource place g)).1 = .error f) ∧
      ∃ f, (s.perform (.rebind place g g')).1 = .error f := by
  have hset : c.setSource g = .error (Cause.failure .geolocatedSource) := by
    unfold Context.hasGeolocation at hkind
    unfold Context.setSource
    cases hsource : c.source with
    | affine map inverse =>
      rw [hsource] at hkind
      cases hkind
    | geolocation t => rfl
  have hbound : c.boundTo g g' = .error (Cause.failure .geolocatedSource) := by
    unfold Context.boundTo
    rw [hset]
    rfl
  constructor
  · refine ⟨Cause.failure .geolocatedSource, ?_⟩
    simp only [perform, update, hc, Update.apply_setSource, hset]
    rfl
  · refine ⟨Cause.failure .geolocatedSource, ?_⟩
    simp only [perform, addFrom, hc, Update.apply_rebind, hbound]
    rfl

/-- For an affine source, binding a copy anew is making a context with its step. -/
theorem perform_rebind {s : Shelf m α} {place : Nat} {c : Context m α}
    (hc : s[place]? = some c) (hkind : c.hasGeolocation = false) (g g' : GeoTransform α) :
    s.perform (.rebind place g g') = s.perform (.affine g c.reprojection g') := by
  have hbound : c.boundTo g g' = Context.affine g c.reprojection g' := by
    unfold Context.hasGeolocation at hkind
    cases hsource : c.source with
    | affine map inverse => exact Context.boundTo_eq_affine hsource g g'
    | geolocation t =>
      rw [hsource] at hkind
      cases hkind
  simp only [perform, addFrom, hc, Update.apply_rebind, hbound]

end Shelf

/-- **Contexts fit their maps, and nothing comes of what fails.**  For every run of handlings from
an empty shelf on:

* every context on the shelf has the inverses of its maps;
* any further handling that fails leaves the shelf as it was;
* one that updates a context and succeeds changes this one only, into what was asked for;
* one that copies a context, as it is or bound anew, adds a context of its kind and changes none;
* a context stays of its kind, whatever is done later;
* with geolocation arrays it takes no geotransform for its source;
* without them, binding it anew fails or succeeds like making a context with its step, and gives the
  same. -/
theorem contexts_stay_matched [Scalar α] (run : List (Handling m α)) :
    let shelf := Shelf.after [] run
    (∀ c ∈ shelf, c.Matched) ∧
    (∀ h f, (shelf.perform h).1 = .error f → (shelf.perform h).2 = shelf) ∧
    ∀ place c, shelf[place]? = some c →
      (∀ h, h.updated? = some place → (shelf.perform h).1 = .ok () →
        ∃ c', h.outcome c = .ok c' ∧ (shelf.perform h).2 = shelf.set place c') ∧
      (∀ h, h.updated? ≠ some place → (shelf.perform h).2[place]? = some c) ∧
      (∀ h, h.original? = some place → (shelf.perform h).1 = .ok () →
        ∃ c', h.outcome c = .ok c' ∧ (shelf.perform h).2 = shelf ++ [c'] ∧ c.Akin c') ∧
      (∀ later, ∃ c', (shelf.after later)[place]? = some c' ∧ c.Akin c') ∧
      (c.hasGeolocation = true → ∀ g g',
        (∃ f, (shelf.perform (.setSource place g)).1 = .error f) ∧
        ∃ f, (shelf.perform (.rebind place g g')).1 = .error f) ∧
      (c.hasGeolocation = false → ∀ g g',
        shelf.perform (.rebind place g g') = shelf.perform (.affine g c.reprojection g')) := by
  intro shelf
  refine ⟨Shelf.matched_after run nofun, fun h f hf => (shelf.came h).unchanged hf,
    fun place c hc => ⟨fun h => ?_, fun h => ?_, fun h hplace hok => ?_, fun later => ?_, ?_, ?_⟩⟩
  · exact (shelf.came h).replaced hc
  · exact (shelf.came h).kept hc
  · obtain ⟨c', hc', hadded⟩ := (shelf.came h).added hc hplace hok
    exact ⟨c', hc', hadded, (Shelf.becomes_outcome (.inr hplace) hc').akin⟩
  · obtain ⟨c', hc', hbecomes⟩ := Shelf.becomes_after later hc
    exact ⟨c', hc', hbecomes.akin⟩
  · exact Shelf.perform_geolocated hc
  · exact Shelf.perform_rebind hc

/-- A turn with an enlargement. -/
def GeoTransform.turned : GeoTransform ℚ := ⟨3, 1, 1, 2, -1, 1⟩

/-- All of the plane on one point. -/
def GeoTransform.flat : GeoTransform ℚ := ⟨0, 0, 0, 0, 0, 0⟩

/-- **A context and its copy at an overview.**  The two are updated apart, and neither takes a map
without an inverse. -/
theorem contexts_stay_matched_tour :
    let run : List (Handling (Outcome ℚ) ℚ) := [.affine .turned none .identity, .copy 0,
      .toOverview 1 .turned (8, 6) (4, 2), .setDestination 1 .flat, .setSource 0 .flat]
    let shelf := Shelf.after [] run
    ∃ c, shelf[1]? = some c ∧ c.Matched ∧ c.sourceMap? = some ⟨3, 2, 3, 2, -2, 3⟩ ∧
      (∃ f, (shelf.perform (.setDestination 1 .flat)).1 = .error f) ∧
      (shelf.perform (.setDestination 1 .flat)).2 = shelf ∧
      shelf.perform (.rebind 1 .turned .turned)
        = shelf.perform (.affine .turned c.reprojection .turned) := by
  intro run shelf
  have hseen : shelf[1]?.bind (·.sourceMap?) = some ⟨3, 2, 3, 2, -2, 3⟩ := by decide +kernel
  obtain ⟨c, hc, hmap⟩ := Option.bind_eq_some_iff.mp hseen
  have hkind : shelf[1]?.map (·.hasGeolocation) = some false := by decide +kernel
  rw [hc] at hkind
  obtain ⟨hmatched, hunchanged, hcontexts⟩ := contexts_stay_matched run
  obtain ⟨-, -, -, -, -, haffine⟩ := hcontexts 1 c hc
  have hbound := haffine (Option.some.inj hkind) .turned .turned
  cases hfails : (shelf.perform (.setDestination 1 .flat)).1 with
  | error f =>
    exact ⟨c, hc, hmatched c (List.mem_of_getElem? hc), hmap, ⟨f, rfl⟩, hunchanged _ f hfails,
      hbound⟩
  | ok =>
    have hrefused : (shelf.perform (.setDestination 1 .flat)).1.isOk = false := by decide +kernel
    rw [hfails] at hrefused
    cases hrefused

end RasterWarp
