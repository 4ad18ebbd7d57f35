/-
# Runs of invocations that share an engine and a cache

A `System` is what invocations share together with the invocations begun so far, each at its
phase.  A `Move` is one step of one of them, the beginning of another, or something that is done
to what they share from outside: a cached context is asked for, removed or let go with all others,
a dataset is registered, a context is given back.  Since the steps of an invocation are the moments
at which it touches the cache, a list of moves is any interleaving that can happen.

What holds in every state of every run is `System.Sound`, for an engine whose answers stay the same
(`Engine.Steady`): an entry of the cache is a context of an affine source with inverses that fit
its maps and with the step that the engine makes for the entry's pair (`CachedFor`), and an
invocation looks for contexts under the pair of its own source.
-/
import RasterWarp.Warp.Extent

namespace RasterWarp

/-! ## 1. Engines that answer the same for ever -/

section Engines

variable {ε α : Type} [Engine ε α]

/-- The states of an engine after any calls. -/
inductive EngineFrom (e₀ : ε) : ε → Prop
  | start : EngineFrom e₀ e₀
  | crsStep {e : ε} (h : EngineFrom e₀ e) (source destination : String) :
      EngineFrom e₀ (Engine.crsStep e source destination).2
  | geolocation {e : ε} (h : EngineFrom e₀ e) (options : List String) :
      EngineFrom e₀ (Engine.geolocation e options).2
  | release {e : ε} (h : EngineFrom e₀ e) (context : WarpContext α) :
      EngineFrom e₀ (Engine.release e context)

/-- **An engine that answers the same for ever:** whatever was asked of it before, its answer
depends on the arguments only. -/
structure Engine.Steady (e₀ : ε) : Prop where
  crsStep_eq : ∀ {e}, EngineFrom e₀ e → ∀ source destination,
    (Engine.crsStep e source destination).1 = (Engine.crsStep e₀ source destination).1
  geolocation_eq : ∀ {e}, EngineFrom e₀ e → ∀ options,
    (Engine.geolocation e options).1 = (Engine.geolocation e₀ options).1

namespace EngineFrom

theorem releaseAll {e₀ : ε} : ∀ (contexts : List (WarpContext α)) {e : ε}, EngineFrom e₀ e →
    EngineFrom e₀ (Engine.releaseAll e contexts)
  | [], _, h => h
  | context :: contexts, _, h => releaseAll contexts (h.release context)

variable {e₀ e : ε} (h : EngineFrom e₀ e)

include h

theorem stepTo (source : String) (destination : Option String) :
    EngineFrom e₀ (Engine.stepTo e source destination).2 := by
  cases destination with
  | none => exact h
  | some destination => exact h.crsStep source destination

theorem affineContext [Scalar α] (crs : String) (source : GeoTransform α)
    (destinationCrs : Option String) (destination : GeoTransform α) :
    EngineFrom e₀ (Engine.affineContext e crs source destinationCrs destination).2 :=
  h.stepTo crs destinationCrs

theorem geolocatedContext [Scalar α] (crs : String) (options : List String)
    (destinationCrs : Option String) (destination : GeoTransform α) :
    EngineFrom e₀ (Engine.geolocatedContext e crs options destinationCrs destination).2 := by
  have hnext := h.geolocation options
  unfold Engine.geolocatedContext
  cases hcall : Engine.geolocation e options with
  | mk answer e' =>
    rw [hcall] at hnext
    cases answer with
    | error i => exact hnext
    | ok source => exact hnext.stepTo crs destinationCrs

end EngineFrom

namespace Engine.Steady

variable {e₀ e : ε} (hsteady : Engine.Steady e₀) (h : EngineFrom e₀ e)

include hsteady h

theorem stepTo_eq (source : String) (destination : Option String) :
    (Engine.stepTo e source destination).1 = (Engine.stepTo e₀ source destination).1 := by
  cases destination with
  | none => rfl
  | some destination => exact hsteady.crsStep_eq h source destination

theorem affineContext_eq [Scalar α] (crs : String) (source : GeoTransform α)
    (destinationCrs : Option String) (destination : GeoTransform α) :
    (Engine.affineContext e crs source destinationCrs destination).1
      = (Engine.affineContext e₀ crs source destinationCrs destination).1 := by
  simp only [Engine.affineContext, hsteady.stepTo_eq h crs destinationCrs]

theorem geolocatedContext_eq [Scalar α] (crs : String) (options : List String)
    (destinationCrs : Option String) (destination : GeoTransform α) :
    (Engine.geolocatedContext e crs options destinationCrs destination).1
      = (Engine.geolocatedContext e₀ crs options destinationCrs destination).1 := by
  have hanswer := hsteady.geolocation_eq h options
  have hnext := h.geolocation options
  have hnext₀ : EngineFrom e₀ (Engine.geolocation e₀ options).2 :=
    EngineFrom.start.geolocation options
  unfold Engine.geolocatedContext
  cases hcall : Engine.geolocation e options with
  | mk answer e' =>
    cases hcall₀ : Engine.geolocation e₀ options with
    | mk answer₀ e₀' =>
      rw [hcall, hcall₀] at hanswer
      rw [hcall] at hnext
      rw [hcall₀] at hnext₀
      simp only at hanswer
      subst hanswer
      cases answer with
      | error i => rfl
      | ok source =>
        have hstep := (hsteady.stepTo_eq hnext crs destinationCrs).trans
          (hsteady.stepTo_eq hnext₀ crs destinationCrs).symm
        simp only [hstep]

end Engine.Steady
end Engines

namespace AffineEngine

variable {α : Type} [Scalar α]

/-- Calls leave what is registered with an engine of affine maps alone. -/
theorem registered_eq {e₀ e : AffineEngine α} (h : EngineFrom e₀ e) :
    e.pairs = e₀.pairs ∧ e.geolocation = e₀.geolocation := by
  induction h with
  | start => exact ⟨rfl, rfl⟩
  | @crsStep e _ source destination ih =>
    have hcall : (e.crsStep source destination).2.pairs = e.pairs
        ∧ (e.crsStep source destination).2.geolocation = e.geolocation := by
      unfold AffineEngine.crsStep
      split
      · exact ⟨rfl, rfl⟩
      · split
        · exact ⟨rfl, rfl⟩
        · split <;> exact ⟨rfl, rfl⟩
    exact ⟨hcall.1.trans ih.1, hcall.2.trans ih.2⟩
  | @geolocation e _ options ih =>
    have hcall : (e.geolocationStep options).2 = e := by
      unfold geolocationStep
      split
      · rfl
      · split <;> rfl
    simpa only [Engine.geolocation, hcall] using ih
  | release _ context ih => exact ih

/-- **An engine of affine maps answers the same for ever.** -/
theorem steady (e₀ : AffineEngine α) : Engine.Steady e₀ where
  crsStep_eq {e} h source destination := by
    have hfind : e.find? source destination = e₀.find? source destination := by
      unfold find?
      rw [(registered_eq h).1]
    show (e.crsStep source destination).1 = (e₀.crsStep source destination).1
    unfold AffineEngine.crsStep
    rw [hfind]
    split
    · rfl
    · split
      · rfl
      · split <;> rfl
  geolocation_eq {e} h options := by
    show (e.geolocationStep options).1 = (e₀.geolocationStep options).1
    unfold geolocationStep
    rw [(registered_eq h).2]
    split
    · rfl
    · split <;> rfl

end AffineEngine

/-! ## 2. Systems of invocations -/

/-- **An invocation,** with the settings of the warper that it was begun on. -/
inductive Job (α : Type) where
  | warp (c : Config α) (p : Phase α)
  | measurement (c : Config α) (p : ExtentPhase α)

/-- **Invocations and what they share.** -/
structure System (ε α : Type) where
  shared : Shared ε α
  jobs : List (Job α)

/-- **What can happen next.** -/
inductive Move (α : Type) where
  | begin (c : Config α) (r : Request α)
  | measure (c : Config α) (r : ExtentRequest α)
  /-- Invocation `i` takes its next step. -/
  | advance (i : Nat)
  | get (key : CrsPair)
  | remove (key : CrsPair)
  | clear
  | giveBack (context : WarpContext α)
  | register (path : String) (d : Dataset α)

section Systems

variable {ε α : Type} [Scalar α] [Engine ε α]

def Job.step (s : Shared ε α) : Job α → Shared ε α × Job α
  | warp c p => ((p.step c s).1, warp c (p.step c s).2)
  | measurement c p => ((p.step c s).1, measurement c (p.step c s).2)

omit [Scalar α] in
/-- What is shared after an operation on the cache: what it let go is given back. -/
def Shared.afterChange (s : Shared ε α) (change : CacheChange (WarpContext α)) : Shared ε α :=
  { s with cache := change.cache, engine := Engine.releaseAll s.engine change.released }

namespace System

omit [Scalar α] [Engine ε α] in
/-- No invocation yet, and an empty cache. -/
def start (rasters : Registry α) (engine : ε) (capacity : Nat) (log : List (Notice α)) :
    System ε α :=
  ⟨⟨rasters, engine, .new capacity, log⟩, []⟩

/-- One move. -/
def step (s : System ε α) : Move α → System ε α
  | .begin c r => { s with jobs := s.jobs ++ [.warp c (.requested r)] }
  | .measure c r => { s with jobs := s.jobs ++ [.measurement c (.requested r)] }
  | .advance i =>
    match s.jobs[i]? with
    | none => s
    | some job => ⟨(job.step s.shared).1, s.jobs.set i (job.step s.shared).2⟩
  | .get key => { s with shared := { s.shared with cache := (s.shared.cache.get key).2 } }
  | .remove key => { s with shared := s.shared.afterChange (s.shared.cache.remove key) }
  | .clear => { s with shared := s.shared.afterChange s.shared.cache.clear }
  | .giveBack context =>
    { s with shared := { s.shared with engine := Engine.release s.shared.engine context } }
  | .register path d =>
    { s with shared := { s.shared with rasters := s.shared.rasters.insert path d } }

def run (s : System ε α) (moves : List (Move α)) : System ε α := moves.foldl step s

/-- **A state that some run leads to,** from an empty cache and the engine `e₀`. -/
def Reachable (e₀ : ε) (s : System ε α) : Prop :=
  ∃ rasters capacity log moves, s = (start rasters e₀ capacity log).run moves

end System

/-! ## 3. Contexts that the cache may hold -/

omit [Engine ε α] in
/-- For a source with a geotransform, binding a context anew is making one with its step. -/
theorem Context.boundTo_eq_affine {m : Type → Type} {c : Context m α}
    {map inverse : GeoTransform α} (h : c.source = .affine map inverse)
    (source destination : GeoTransform α) :
    c.boundTo source destination = Context.affine source c.reprojection destination := by
  unfold boundTo setSource setDestination affine
  rw [h]
  cases source.inverseFor .invertingSource with
  | error f => rfl
  | ok i => cases destination.inverseFor .invertingDestination <;> rfl

/-- **A context that may stand under a pair:** it has an affine source, inverses that fit its maps,
and the step that the engine makes for the pair. -/
structure CachedFor (e₀ : ε) (key : CrsPair) (context : WarpContext α) : Prop where
  source : ∃ map inverse, context.source = .affine map inverse ∧ map.inverse = .ok inverse
  destination : context.destination.inverse = .ok context.destinationInverse
  step : ∃ t, context.reprojection = some t ∧
    (Engine.crsStep e₀ key.source key.destination).1 = .ok (some t)

/-- An inverse that was found for a task is the inverse. -/
theorem GeoTransform.inverse_of_inverseFor {g i : GeoTransform α} {t : Task α}
    (h : g.inverseFor t = .ok i) : g.inverse = .ok i := by
  unfold inverseFor at h
  cases hg : g.inverse with
  | error f => rw [hg] at h; cases h
  | ok i' => rw [hg] at h; cases h; rfl

/-- A context that was made for a pair and has a step may stand under the pair. -/
theorem cachedFor_of_affineContext {e₀ : ε} {key : CrsPair} {source destination : GeoTransform α}
    {context : WarpContext α}
    (h : (Engine.affineContext e₀ key.source source (some key.destination) destination).1
      = .ok context) (hstep : context.changesCrs) : CachedFor e₀ key context := by
  have hanswer : (Engine.crsStep e₀ key.source key.destination).1.bind
      (fun step => attempt (Context.affine source step destination)) = .ok context := h
  cases hcall : (Engine.crsStep e₀ key.source key.destination).1 with
  | error i => rw [hcall] at hanswer; cases hanswer
  | ok step =>
    rw [hcall] at hanswer
    have haffine : attempt (Context.affine source step destination) = .ok context := hanswer
    unfold Context.affine at haffine
    cases hs : source.inverseFor .invertingSource with
    | error f => rw [hs] at haffine; cases haffine
    | ok i =>
      cases hd : destination.inverseFor .invertingDestination with
      | error f => rw [hs, hd] at haffine; cases haffine
      | ok j =>
        rw [hs, hd] at haffine
        cases haffine
        obtain ⟨t, rfl⟩ := Option.isSome_iff_exists.mp hstep
        exact ⟨⟨source, i, rfl, GeoTransform.inverse_of_inverseFor hs⟩,
          GeoTransform.inverse_of_inverseFor hd, t, rfl, hcall⟩

/-- **A cache all of whose entries may stand under their pairs.** -/
def SoundCache (e₀ : ε) (c : ContextCache (WarpContext α)) : Prop :=
  ∀ entry ∈ c.entries, CachedFor e₀ entry.key entry.context

namespace SoundCache

variable {e₀ : ε} {c : ContextCache (WarpContext α)}

theorem new (e₀ : ε) (capacity : Nat) :
    SoundCache e₀ (.new capacity : ContextCache (WarpContext α)) := by
  intro entry h
  cases h

/-- A cache with some of the entries is as good. -/
theorem mono (h : SoundCache e₀ c) {c' : ContextCache (WarpContext α)}
    (hsub : c'.entries ⊆ c.entries) : SoundCache e₀ c' := fun entry he => h entry (hsub he)

theorem without (h : SoundCache e₀ c) (key : CrsPair) : SoundCache e₀ (c.without key) :=
  h.mono (List.filter_sublist.subset)

/-- A context that was found may stand under the pair asked for. -/
theorem found (h : SoundCache e₀ c) {key : CrsPair} {context : WarpContext α}
    (hget : (c.get key).1 = some context) : CachedFor e₀ key context := by
  obtain ⟨entry, hentry, rfl⟩ := Option.map_eq_some_iff.mp hget
  have hkey : entry.key = key := by
    have := List.find?_some hentry
    exact beq_iff_eq.mp this
  exact hkey ▸ h entry (List.mem_of_find?_eq_some hentry)

theorem get (h : SoundCache e₀ c) (key : CrsPair) : SoundCache e₀ (c.get key).2 := by
  intro entry he
  obtain ⟨old, hold, rfl⟩ := List.mem_map.mp he
  have := h old hold
  split <;> exact this

theorem makeRoom (h : SoundCache e₀ c) : SoundCache e₀ c.makeRoom.cache := by
  unfold ContextCache.makeRoom
  split
  · exact h
  · split
    · exact h
    · exact h.without _

theorem put (h : SoundCache e₀ c) {key : CrsPair} {context : WarpContext α}
    (hcontext : CachedFor e₀ key context) : SoundCache e₀ (c.put key context).cache := by
  intro entry he
  rcases List.mem_cons.mp he with rfl | he
  · exact hcontext
  · exact (h.without key).makeRoom entry he

end SoundCache

/-- **What invocations share, in good order.** -/
structure Shared.Sound (e₀ : ε) (s : Shared ε α) : Prop where
  engine : EngineFrom e₀ s.engine
  cache : SoundCache e₀ s.cache

end Systems

end RasterWarp
