/-
# Every context is handed back exactly once

Contexts come into being when an engine makes one and when a cached one is bound to a request, and
a copy comes into being when a context is put into the cache.  They end when they are handed back
to the engine.  In between each is either in the cache or held by one invocation, so at every
moment

    handed back + in the cache + held  =  acquired + put

whatever the invocations do and however their steps are interleaved (`contexts_released_once`).  One
step of an invocation keeps the balance (`Phase.step_balance`, `ExtentPhase.step_balance`), so does
any other move (`System.step_balance`), and so does a run (`System.run_balance`).

The contexts are weighed and not just counted: with a weight of one for every context the balance is
one of numbers.  A warp that reads an overview hands its context back bound to the overview's map,
so a weight must not depend on the map of the source.  One that picks out the contexts with given
other parts says that these are handed back as often as they were acquired and put
(`System.released_perm`, for an engine that records what it is given).

Which contexts a step acquires is told by the call that the step makes (`Phase.acquired`), and not
by the phase that it leads to.  A step that lost a context it had acquired would not be in balance.
-/
import RasterWarp.Proofs.CacheHistory
import RasterWarp.Proofs.ExactArithmetic
import RasterWarp.Proofs.SharedRuns
import RasterWarp.Proofs.StageRuns
import Mathlib.Algebra.BigOperators.Group.List.Basic

namespace RasterWarp

/-! ## 1. What leaves a cache, and what stays -/

namespace ContextCache

variable {γ : Type}

/-- The contexts in a cache. -/
def contexts (c : ContextCache γ) : List γ := c.entries.map (·.context)

/-- Taking the entry under a pair away from a list with one entry under each. -/
theorem perm_filter_key {e : CachedContext γ} : ∀ {l : List (CachedContext γ)},
    (l.map (·.key)).Nodup → e ∈ l → l.Perm (e :: l.filter (·.key != e.key))
  | [], _, he => by cases he
  | a :: l, hnodup, he => by
    obtain ⟨hnot, hrest⟩ := List.nodup_cons.mp hnodup
    have hother : ∀ b ∈ l, b.key ≠ a.key := by
      intro b hb heq
      have hmem : b.key ∈ l.map (·.key) := List.mem_map_of_mem hb
      rw [heq] at hmem
      exact hnot hmem
    rcases List.mem_cons.mp he with rfl | he
    · have hstay : l.filter (·.key != e.key) = l := by
        refine List.filter_eq_self.mpr fun b hb => ?_
        exact bne_iff_ne.mpr (hother b hb)
      rw [List.filter_cons, if_neg (by simp), hstay]
    · have hkeep : (a.key != e.key) = true := bne_iff_ne.mpr (hother e he).symm
      rw [List.filter_cons, if_pos hkeep]
      exact ((perm_filter_key hrest he).cons a).trans (List.Perm.swap ..)

variable {c : ContextCache γ} (h : c.Distinct)

include h

theorem contexts_without {e : CachedContext γ} (he : e ∈ c.entries) :
    c.contexts.Perm (e.context :: (c.without e.key).contexts) :=
  (perm_filter_key h he).map _

/-- **What a removal lets go was in the cache,** and the rest still is. -/
theorem contexts_remove (k : CrsPair) :
    c.contexts.Perm ((c.remove k).released ++ (c.remove k).cache.contexts) := by
  unfold remove
  cases hfound : c.find? k with
  | none =>
    rw [without_of_absent hfound]
    exact .refl _
  | some e =>
    obtain rfl := key_of_find? hfound
    exact contexts_without h (List.mem_of_find?_eq_some hfound)

theorem contexts_makeRoom :
    c.contexts.Perm (c.makeRoom.released ++ c.makeRoom.cache.contexts) := by
  unfold makeRoom
  split
  · exact .refl _
  · split
    · exact .refl _
    · rename_i v hv
      exact contexts_without h (victim?_least hv).1

/-- **A put adds its context,** and lets go of what it replaces or evicts. -/
theorem contexts_put (k : CrsPair) (x : γ) :
    (x :: c.contexts).Perm ((c.put k x).released ++ (c.put k x).cache.contexts) := by
  -- what is replaced is gone before room is made, so nothing is let go twice
  have hremoved := contexts_remove h k
  have hroom := contexts_makeRoom (h.remove k)
  show (x :: c.contexts).Perm (((c.remove k).released ++ (c.remove k).cache.makeRoom.released)
    ++ x :: (c.remove k).cache.makeRoom.cache.contexts)
  refine List.Perm.trans ?_ List.perm_middle.symm
  rw [List.append_assoc]
  exact (hremoved.trans (hroom.append_left _)).cons x

omit h in
theorem contexts_get (k : CrsPair) : (c.get k).2.contexts = c.contexts := by
  unfold get contexts
  rw [List.map_map]
  refine List.map_congr_left fun e _ => ?_
  simp only [Function.comp_apply]
  split <;> rfl

end ContextCache

/-! ## 2. Weights, and engines that count -/

section Weights

variable {ε α : Type}

/-- The weight of some contexts. -/
def total (weight : WarpContext α → Nat) (contexts : List (WarpContext α)) : Nat :=
  (contexts.map weight).sum

section Total

variable (weight : WarpContext α → Nat)

@[simp] theorem total_nil : total weight [] = 0 := rfl

@[simp] theorem total_cons (x : WarpContext α) (l : List (WarpContext α)) :
    total weight (x :: l) = weight x + total weight l := by simp [total]

@[simp] theorem total_append (l l' : List (WarpContext α)) :
    total weight (l ++ l') = total weight l + total weight l' := by simp [total]

/-- With a weight of one, contexts are counted. -/
theorem total_one (l : List (WarpContext α)) : total (fun _ => 1) l = l.length := by
  simp [total]

theorem total_perm {l l' : List (WarpContext α)} (h : l.Perm l') :
    total weight l = total weight l' := (h.map weight).sum_eq

end Total

/-- With a weight that picks out one part of contexts, its occurrences are counted. -/
theorem total_single {β : Type} [DecidableEq β] (part : WarpContext α → β) (x : β) :
    ∀ l : List (WarpContext α),
      total (fun y => if part y = x then 1 else 0) l = (l.map part).count x
  | [] => rfl
  | y :: l => by
    rw [total_cons, total_single part x l, List.map_cons, List.count_cons]
    simp only [beq_iff_eq]
    omega

/-- **A part of contexts that the map of the source has no share in.** -/
def Unbound {β : Type} [Scalar α] (part : WarpContext α → β) : Prop :=
  ∀ (context bound : WarpContext α) map, context.setSource map = .ok bound →
    part bound = part context

/-- The part is the same when a rendering ends. -/
theorem Unbound.contextAfter {β : Type} [Scalar α] {part : WarpContext α → β} (h : Unbound part)
    (c : Config α) (o : Opened α) (context : WarpContext α) :
    part (contextAfter c o context) = part context := by
  rcases contextAfter_cases c o context with heq | ⟨map, hset⟩
  · rw [heq]
  · exact h _ _ map hset

/-- The step between coordinate systems and the destination are such parts. -/
theorem Context.unbound_ends [Scalar α] : Unbound fun context : WarpContext α =>
    (context.reprojection, context.destination, context.destinationInverse) := by
  intro context bound map hset
  unfold setSource at hset
  split at hset
  · cases hset
  · cases hinverse : map.inverseFor .invertingSource with
    | error f =>
      rw [hinverse] at hset
      cases hset
    | ok inverse =>
      rw [hinverse] at hset
      cases hset
      rfl

/-- **A count of what an engine was given back:** nothing but a release changes it, and a release
adds the weight of its context, which is the same for every map of the source. -/
structure Engine.Counts [Scalar α] [Engine ε α] (weight : WarpContext α → Nat)
    (destroyed : ε → Nat) : Prop where
  unbound : Unbound weight
  crsStep : ∀ e source destination,
    destroyed (Engine.crsStep e source destination).2 = destroyed e
  geolocation : ∀ e options, destroyed (Engine.geolocation e options).2 = destroyed e
  release : ∀ e context, destroyed (Engine.release e context) = destroyed e + weight context

/-- **An engine of affine maps counts the contexts it was given back.** -/
theorem AffineEngine.counts [Scalar α] :
    Engine.Counts (α := α) (fun _ => 1) (AffineEngine.destroyed (α := α)) where
  unbound _ _ _ _ := rfl
  crsStep e source destination := by
    show (e.crsStep source destination).2.destroyed = e.destroyed
    unfold AffineEngine.crsStep
    split
    · rfl
    · split
      · rfl
      · split <;> rfl
  geolocation e options := by
    show (e.geolocationStep options).2.destroyed = e.destroyed
    unfold geolocationStep
    split
    · rfl
    · split <;> rfl
  release _ _ := rfl

/-- **An engine that also records what it was given back.** -/
structure Recorded (ε α : Type) where
  engine : ε
  released : List (WarpContext α)

instance [Engine ε α] : Engine (Recorded ε α) α where
  crsStep e source destination :=
    let (step, engine) := Engine.crsStep e.engine source destination
    (step, { e with engine })
  geolocation e options :=
    let (step, engine) := Engine.geolocation e.engine options
    (step, { e with engine })
  release e context := ⟨Engine.release e.engine context, context :: e.released⟩

/-- **The record counts with any weights** that do not depend on the map of the source. -/
theorem Recorded.counts [Scalar α] [Engine ε α] {weight : WarpContext α → Nat}
    (hweight : Unbound weight) :
    Engine.Counts weight (fun e : Recorded ε α => total weight e.released) where
  unbound := hweight
  crsStep _ _ _ := rfl
  geolocation _ _ := rfl
  release e context := by
    show total weight (context :: e.released) = _
    rw [total_cons, Nat.add_comm]

namespace Engine.Counts

variable [Scalar α] [Engine ε α] {weight : WarpContext α → Nat} {destroyed : ε → Nat}
  (h : Engine.Counts weight destroyed)

include h

theorem releaseAll : ∀ (contexts : List (WarpContext α)) (e : ε),
    destroyed (Engine.releaseAll e contexts) = destroyed e + total weight contexts
  | [], _ => rfl
  | x :: contexts, e => by
    have hrest := releaseAll contexts (Engine.release e x)
    rw [h.release] at hrest
    rw [total_cons, ← Nat.add_assoc]
    exact hrest

theorem stepTo (e : ε) (source : String) (destination : Option String) :
    destroyed (Engine.stepTo e source destination).2 = destroyed e := by
  cases destination with
  | none => rfl
  | some destination => exact h.crsStep e source destination

theorem affineContext (e : ε) (crs : String) (source : GeoTransform α)
    (destinationCrs : Option String) (destination : GeoTransform α) :
    destroyed (Engine.affineContext e crs source destinationCrs destination).2 = destroyed e :=
  h.stepTo e crs destinationCrs

theorem geolocatedContext (e : ε) (crs : String) (options : List String)
    (destinationCrs : Option String) (destination : GeoTransform α) :
    destroyed (Engine.geolocatedContext e crs options destinationCrs destination).2
      = destroyed e := by
  have hfirst := h.geolocation e options
  unfold Engine.geolocatedContext
  cases hcall : Engine.geolocation e options with
  | mk answer e' =>
    rw [hcall] at hfirst
    cases answer with
    | error i => exact hfirst
    | ok source => exact (h.stepTo e' crs destinationCrs).trans hfirst

end Engine.Counts

/-! ## 3. What a step acquires and puts, and what an invocation holds -/

/-- The context of a call that gave one. -/
def gained (answer : Outcome α (WarpContext α)) : List (WarpContext α) := answer.toOption.toList

namespace Phase

variable [Scalar α] [Engine ε α]

/-- What is acquired at once for an opened source: a context that would not be looked up. -/
def acquiredAtOnce (e : ε) (o : Opened α) : List (WarpContext α) :=
  match o.request.geolocation, o.request.destinationCrs? with
  | some options, crs =>
    gained (Engine.geolocatedContext e o.crs options crs o.request.destination).1
  | none, none =>
    gained (Engine.affineContext e o.crs o.source none o.request.destination).1
  | none, some _ => []

/-- **The context that the next step of an invocation acquires:** one that the engine makes, or a
cached one bound to the request. -/
def acquired (c : Config α) (s : Shared ε α) : Phase α → List (WarpContext α)
  | requested r =>
    match (openSource c s.rasters r).1 with
    | .error _ => []
    | .ok o => acquiredAtOnce s.engine o
  | opened o key =>
    match (s.cache.get key).1 with
    | none => []
    | some context => gained (attempt (context.boundTo o.source o.request.destination))
  | missed o key =>
    gained (Engine.affineContext s.engine o.crs o.source (some key.destination)
      o.request.destination).1
  | created .. => []
  | holding .. => []
  | finished _ => []

omit [Scalar α] in
/-- The context that the next step puts into the cache. -/
def stored : Phase α → List (WarpContext α)
  | created _ _ context => [context]
  | _ => []

omit [Scalar α] in
/-- The context that an invocation holds. -/
def held : Phase α → List (WarpContext α)
  | created _ _ context => [context]
  | holding _ context _ => [context]
  | _ => []

end Phase

namespace ExtentPhase

variable [Scalar α] [Engine ε α]

/-- The context that the next step of a measurement acquires. -/
def acquired (c : Config α) (s : Shared ε α) : ExtentPhase α → List (WarpContext α)
  | requested r =>
    if r.crs.isEmpty then [] else
      match s.rasters.view (.ofPath r.path) with
      | .error _ => []
      | .ok view =>
        gained (Engine.affineContext s.engine
          ((view.dataset.projection.filter (!·.isEmpty)).getD c.fallbackProjection)
          (view.dataset.geoTransform.getD .identity) (some r.crs) .identity).1
  | holding .. => []
  | finished _ => []

omit [Scalar α] in
/-- The context that a measurement holds. -/
def held : ExtentPhase α → List (WarpContext α)
  | holding _ _ context => [context]
  | _ => []

end ExtentPhase

namespace Job

variable [Scalar α] [Engine ε α]

def acquired (s : Shared ε α) : Job α → List (WarpContext α)
  | warp c p => p.acquired c s
  | measurement c p => p.acquired c s

omit [Scalar α] in
def stored : Job α → List (WarpContext α)
  | warp _ p => p.stored
  | measurement .. => []

omit [Scalar α] in
def held : Job α → List (WarpContext α)
  | warp _ p => p.held
  | measurement _ p => p.held

omit [Scalar α] in
/-- An invocation that has returned. -/
def Returned : Job α → Prop
  | warp _ p => p.result?.isSome
  | measurement _ p => p.result?.isSome

instance : DecidablePred (Returned : Job α → Prop)
  | warp _ p => inferInstanceAs (Decidable (p.result?.isSome = true))
  | measurement _ p => inferInstanceAs (Decidable (p.result?.isSome = true))

omit [Scalar α] in
theorem held_of_returned {job : Job α} (h : job.Returned) : job.held = [] := by
  cases job with
  | warp c p =>
    cases p with
    | finished result => rfl
    | _ => cases h
  | measurement c p =>
    cases p with
    | finished result => rfl
    | _ => cases h

end Job

/-! ## 4. One step of an invocation -/

section Step

variable [Scalar α] [Engine ε α]

omit [Engine ε α] [Scalar α] in
/-- An invocation goes on with the context that a call gave it, whatever tasks are named. -/
theorem Phase.held_acquire (o : Opened α) (cached : Bool) (answer : Outcome α (WarpContext α)) :
    (Phase.acquire o cached answer).held = gained answer := by
  cases answer with
  | error i => cases i <;> rfl
  | ok context => rfl

omit [Engine ε α] [Scalar α] in
theorem gained_during (t : Task α) (answer : Outcome α (WarpContext α)) :
    gained (Outcome.during t answer) = gained answer := by
  cases answer with
  | error i => cases i <;> rfl
  | ok context => rfl

/-- **What a step of an invocation preserves:** the cache stays one with one entry under each pair,
and what is handed back, cached and held grows by what is acquired and put. -/
structure Balanced (weight : WarpContext α → Nat) (destroyed : ε → Nat) (s s' : Shared ε α)
    (held held' acquired stored : List (WarpContext α)) : Prop where
  distinct : s'.cache.Distinct
  balance : destroyed s'.engine + total weight s'.cache.contexts + total weight held'
    = destroyed s.engine + total weight s.cache.contexts + total weight held
      + total weight acquired + total weight stored

variable {weight : WarpContext α → Nat} {destroyed : ε → Nat}
  (h : Engine.Counts weight destroyed) (c : Config α)

omit [Scalar α] [Engine ε α] in
/-- A step that leaves the cache and the count alone, and holds afterwards what it acquired. -/
theorem Balanced.ofAcquired {s s' : Shared ε α} {acquired held' : List (WarpContext α)}
    (hdistinct : s.cache.Distinct) (hcache : s'.cache = s.cache)
    (hengine : destroyed s'.engine = destroyed s.engine) (hheld : held' = acquired) :
    Balanced weight destroyed s s' [] held' acquired [] where
  distinct := hcache ▸ hdistinct
  balance := by
    rw [hcache, hengine, hheld]
    simp

include h

namespace Phase

theorem start_balance {s : Shared ε α} (hs : s.cache.Distinct) (o : Opened α) :
    Balanced weight destroyed s (start s o).1 [] (start s o).2.held
      (acquiredAtOnce s.engine o) [] := by
  cases hg : o.request.geolocation with
  | some options =>
    simp only [start, acquiredAtOnce, hg]
    exact .ofAcquired hs rfl (h.geolocatedContext ..) (held_acquire ..)
  | none =>
    cases hd : o.request.destinationCrs? with
    | none =>
      simp only [start, acquiredAtOnce, hg, hd]
      have hengine := h.affineContext s.engine o.crs o.source none o.request.destination
      exact .ofAcquired hs rfl hengine (held_acquire ..)
    | some crs =>
      simp only [start, acquiredAtOnce, hg, hd]
      cases CrsPair.new (α := α) o.crs crs with
      | ok key => exact .ofAcquired hs rfl rfl rfl
      | error f => exact .ofAcquired hs rfl rfl rfl

omit h in
theorem lookUp_balance {s : Shared ε α} (hs : s.cache.Distinct) (o : Opened α) (key : CrsPair) :
    Balanced weight destroyed s (lookUp s o key).1 [] (lookUp s o key).2.held
      ((opened o key).acquired c s) [] := by
  have hdistinct := hs.get key
  have hcontexts := s.cache.contexts_get (k := key)
  cases hget : s.cache.get key with
  | mk found cache =>
    rw [hget] at hdistinct hcontexts
    simp only [lookUp, acquired, hget]
    cases found with
    | none => exact .ofAcquired hs rfl rfl rfl
    | some context =>
      refine ⟨hdistinct, ?_⟩
      simp only [held_acquire, gained_during, hcontexts, total_nil]
      omega

theorem create_balance {s : Shared ε α} (hs : s.cache.Distinct) (o : Opened α) (key : CrsPair) :
    Balanced weight destroyed s (create s o key).1 [] (create s o key).2.held
      ((missed o key).acquired c s) [] := by
  have hengine := h.affineContext s.engine o.crs o.source (some key.destination)
    o.request.destination
  cases hcall : Engine.affineContext s.engine o.crs o.source (some key.destination)
      o.request.destination with
  | mk answer engine =>
    rw [hcall] at hengine
    simp only [create, acquired, hcall]
    cases answer with
    | error i => exact .ofAcquired hs rfl hengine (held_acquire o false (.error i))
    | ok context =>
      refine .ofAcquired hs rfl hengine ?_
      simp only
      split <;> rfl

/-- **Putting a copy into the cache.**  What the put lets go is handed back in the same step. -/
theorem store_balance {s : Shared ε α} (hs : s.cache.Distinct) (o : Opened α) (key : CrsPair)
    (context : WarpContext α) :
    Balanced weight destroyed s (store s o key context).1 [context]
      (store s o key context).2.held [] [context] := by
  have hput := total_perm weight (ContextCache.contexts_put hs key context)
  rw [total_cons, total_append] at hput
  refine ⟨hs.put key context, ?_⟩
  simp only [store, held, h.releaseAll, total_nil, total_cons]
  omega

/-- Computing the output ends with the release of the context, whatever comes of it and whatever map
it is bound to by then. -/
theorem finish_balance {s : Shared ε α} (hs : s.cache.Distinct) (o : Opened α)
    (context : WarpContext α) (cached : Bool) :
    Balanced weight destroyed s (finish c s o context cached).1 [context]
      (finish c s o context cached).2.held [] [] := by
  unfold finish
  cases (render c o context).run.run [] with
  | mk rendering notices =>
    refine ⟨hs, ?_⟩
    simp only [held, h.release, h.unbound.contextAfter, total_nil, total_cons]
    omega

/-- **One step of a warp.** -/
theorem step_balance {s : Shared ε α} (hs : s.cache.Distinct) (p : Phase α) :
    Balanced weight destroyed s (p.step c s).1 p.held (p.step c s).2.held
      (p.acquired c s) p.stored := by
  cases p with
  | requested r =>
    cases hopen : openSource c s.rasters r with
    | mk opening rasters =>
      simp only [step, acquired, hopen]
      cases opening with
      | error e => exact .ofAcquired hs rfl rfl rfl
      | ok o =>
        have hstart := start_balance h (s := { s with rasters }) hs o
        exact ⟨hstart.distinct, hstart.balance⟩
  | opened o key => exact lookUp_balance c hs o key
  | missed o key => exact create_balance h c hs o key
  | created o key context => exact store_balance h hs o key context
  | holding o context cached => exact finish_balance h c hs o context cached
  | finished result => exact .ofAcquired hs rfl rfl rfl

end Phase

/-- **One step of a measurement.** -/
theorem ExtentPhase.step_balance {s : Shared ε α} (hs : s.cache.Distinct) (p : ExtentPhase α) :
    Balanced weight destroyed s (p.step c s).1 p.held (p.step c s).2.held
      (p.acquired c s) [] := by
  cases p with
  | requested r =>
    simp only [step, start, acquired, Registry.openView]
    split
    · exact .ofAcquired hs rfl rfl rfl
    · cases s.rasters.view (.ofPath r.path) with
      | error f => exact .ofAcquired hs rfl rfl rfl
      | ok view =>
        have hengine := h.affineContext s.engine
          ((view.dataset.projection.filter (!·.isEmpty)).getD c.fallbackProjection)
          (view.dataset.geoTransform.getD .identity) (some r.crs) .identity
        have hopened : Outcome.stage (α := α) .openFailure
            (Outcome.during (.opening r.path) (attempt (.ok view))) = .ok view := rfl
        simp only [hopened]
        cases hcall : Engine.affineContext s.engine
            ((view.dataset.projection.filter (!·.isEmpty)).getD c.fallbackProjection)
            (view.dataset.geoTransform.getD .identity) (some r.crs) .identity with
        | mk answer engine =>
          rw [hcall] at hengine
          cases answer with
          | error i => cases i <;> exact .ofAcquired hs rfl hengine rfl
          | ok context => exact .ofAcquired hs rfl hengine rfl
  | holding r raster context =>
    refine ⟨hs, ?_⟩
    simp only [step, held, acquired, h.release, total_nil, total_cons]
    omega
  | finished result => exact .ofAcquired hs rfl rfl rfl

/-- **One step of an invocation.** -/
theorem Job.step_balance {s : Shared ε α} (hs : s.cache.Distinct) (job : Job α) :
    Balanced weight destroyed s (job.step s).1 job.held (job.step s).2.held
      (job.acquired s) job.stored := by
  cases job with
  | warp c p => exact p.step_balance h c hs
  | measurement c p => exact p.step_balance h c hs

end Step

/-! ## 5. Runs of a system -/

namespace System

variable [Scalar α] [Engine ε α]

omit [Scalar α] [Engine ε α] in
/-- The contexts that invocations hold. -/
def held (s : System ε α) : List (WarpContext α) := s.jobs.flatMap Job.held

/-- The context that a move acquires. -/
def acquiredBy (s : System ε α) : Move α → List (WarpContext α)
  | .advance i => (s.jobs[i]?.map (·.acquired s.shared)).getD []
  | _ => []

omit [Scalar α] [Engine ε α] in
/-- The context that a move puts into the cache. -/
def storedBy (s : System ε α) : Move α → List (WarpContext α)
  | .advance i => (s.jobs[i]?.map (·.stored)).getD []
  | _ => []

/-- **The contexts that invocations acquire** in the course of a run. -/
def acquired (s : System ε α) : List (Move α) → List (WarpContext α)
  | [] => []
  | m :: moves => s.acquiredBy m ++ (s.step m).acquired moves

/-- **The contexts that invocations put into the cache** in the course of a run. -/
def stored (s : System ε α) : List (Move α) → List (WarpContext α)
  | [] => []
  | m :: moves => s.storedBy m ++ (s.step m).stored moves

omit [Scalar α] in
/-- What invocations hold when one of them has gone on. -/
theorem held_set (weight : WarpContext α → Nat) (job' : Job α) :
    ∀ {jobs : List (Job α)} {i : Nat} {job : Job α}, jobs[i]? = some job →
      total weight ((jobs.set i job').flatMap Job.held) + total weight job.held
        = total weight (jobs.flatMap Job.held) + total weight job'.held
  | [], _, _, h => by cases h
  | first :: jobs, 0, job, h => by
    obtain rfl : first = job := by simpa using h
    simp only [List.set_cons_zero, List.flatMap_cons, total_append]
    omega
  | first :: jobs, i + 1, job, h => by
    have hlater : jobs[i]? = some job := by simpa using h
    have hrest := held_set weight job' hlater
    simp only [List.set_cons_succ, List.flatMap_cons, total_append]
    omega

variable {weight : WarpContext α → Nat} {destroyed : ε → Nat}
  (h : Engine.Counts weight destroyed)

include h

/-- **One move keeps the balance,** be it a step of an invocation or not. -/
theorem step_balance {s : System ε α} (hs : s.shared.cache.Distinct) {m : Move α}
    (hm : ∀ context, m ≠ .giveBack context) :
    Balanced weight destroyed s.shared (s.step m).shared s.held (s.step m).held
      (s.acquiredBy m) (s.storedBy m) := by
  cases m with
  | begin c r =>
    refine ⟨hs, ?_⟩
    simp [step, held, acquiredBy, storedBy, Job.held, Phase.held]
  | measure c r =>
    refine ⟨hs, ?_⟩
    simp [step, held, acquiredBy, storedBy, Job.held, ExtentPhase.held]
  | advance i =>
    cases hi : s.jobs[i]? with
    | none =>
      simp only [step, acquiredBy, storedBy, hi]
      exact ⟨hs, rfl⟩
    | some job =>
      have hjob := job.step_balance h hs
      have hheld := held_set weight (job.step s.shared).2 hi
      have hbalance := hjob.balance
      simp only [step, acquiredBy, storedBy, hi, held]
      refine ⟨hjob.distinct, ?_⟩
      simp only [Option.map_some, Option.getD_some]
      omega
  | get key =>
    refine ⟨hs.get key, ?_⟩
    simp only [step, held, acquiredBy, storedBy, ContextCache.contexts_get, total_nil]
    omega
  | remove key =>
    have hremoved := total_perm weight (ContextCache.contexts_remove hs key)
    rw [total_append] at hremoved
    refine ⟨hs.remove key, ?_⟩
    simp only [step, Shared.afterChange, held, acquiredBy, storedBy, h.releaseAll, total_nil]
    omega
  | clear =>
    refine ⟨ContextCache.Distinct.clear _, ?_⟩
    simp only [step, Shared.afterChange, held, acquiredBy, storedBy, h.releaseAll, total_nil]
    exact Nat.add_right_cancel_iff.mpr (Nat.add_zero _)
  | giveBack context => exact absurd rfl (hm context)
  | register path d =>
    refine ⟨hs, ?_⟩
    simp only [step, held, acquiredBy, storedBy, total_nil]
    omega

/-- **So does a run,** by induction on its moves. -/
theorem run_balance : ∀ (moves : List (Move α)) {s : System ε α}, s.shared.cache.Distinct →
    (∀ context, .giveBack context ∉ moves) →
    Balanced weight destroyed s.shared (s.run moves).shared s.held (s.run moves).held
      (s.acquired moves) (s.stored moves)
  | [], s, hs, _ => ⟨hs, rfl⟩
  | m :: moves, s, hs, hmoves => by
    have hfirst := step_balance h hs (m := m) fun context hm =>
      hmoves context (hm ▸ List.mem_cons_self)
    have hrest := run_balance moves hfirst.distinct fun context hc =>
      hmoves context (List.mem_cons_of_mem _ hc)
    have hbefore := hfirst.balance
    have hafter := hrest.balance
    refine ⟨hrest.distinct, ?_⟩
    simp only [acquired, stored, total_append]
    rw [show (s.run (m :: moves)) = (s.step m).run moves from rfl]
    omega

/-- **A run from an empty cache,** at every moment of it. -/
theorem balance_from_start (rasters : Registry α) (e₀ : ε) (capacity : Nat)
    (log : List (Notice α)) {moves : List (Move α)}
    (hmoves : ∀ context, .giveBack context ∉ moves) :
    let s₀ : System ε α := start rasters e₀ capacity log
    let s := s₀.run moves
    destroyed s.shared.engine + total weight s.shared.cache.contexts + total weight s.held
      = destroyed e₀ + total weight (s₀.acquired moves) + total weight (s₀.stored moves) := by
  have hrun := run_balance h moves (s := start rasters e₀ capacity log) (.new capacity) hmoves
  have hbalance := hrun.balance
  simpa [start, held, ContextCache.new, ContextCache.contexts] using hbalance

omit [Scalar α] [Engine ε α] h in
/-- When all invocations have returned, none of them holds a context. -/
theorem held_of_returned {s : System ε α} (hs : ∀ job ∈ s.jobs, job.Returned) : s.held = [] :=
  List.flatMap_eq_nil_iff.mpr fun job hjob => Job.held_of_returned (hs job hjob)

end System

variable [Scalar α] [Engine ε α]

/-- **No context is lost and none is handed back twice.**  What an engine was given back, what is
in the cache and what invocations hold are together the contexts that were acquired and put, each up
to the map of its source. -/
theorem System.released_perm {β : Type} {part : WarpContext α → β} (hpart : Unbound part)
    (rasters : Registry α) (e₀ : ε) (capacity : Nat) (log : List (Notice α)) {moves : List (Move α)}
    (hmoves : ∀ context, .giveBack context ∉ moves) :
    let s₀ : System (Recorded ε α) α := start rasters ⟨e₀, []⟩ capacity log
    let s := s₀.run moves
    ((s.shared.engine.released ++ s.shared.cache.contexts ++ s.held).map part).Perm
      ((s₀.acquired moves ++ s₀.stored moves).map part) := by
  classical
  intro s₀ s
  refine List.perm_iff_count.mpr fun x => ?_
  have hweight : Unbound fun y : WarpContext α => if part y = x then 1 else 0 :=
    fun context bound map hset => by simp only [hpart context bound map hset]
  have hbalance := balance_from_start (Recorded.counts hweight) rasters
    (⟨e₀, []⟩ : Recorded ε α) capacity log hmoves
  simp only [total_single, List.map_nil, List.count_nil, Nat.zero_add] at hbalance
  rw [List.map_append, List.map_append, List.map_append, List.count_append, List.count_append,
    List.count_append]
  exact hbalance

/-- **Every context is handed back exactly once.**  Take any run from an empty cache, with any
number of warps and measurements, finished or not, any lookups, removals and clearings from
outside, and any datasets; only that a context is given back from outside is left out.

* At every moment, what was handed back, what is in the cache and what invocations hold together
  are what invocations acquired and what they put into the cache.
* When all invocations have returned, what the cache lets go at its end is all that was still to
  be handed back.

An engine's own count is one way of counting, with a weight of one for every context
(`AffineEngine.counts`).  A record of the contexts can be counted with any weights that do not
depend on the map of the source (`Recorded.counts`), for a warp may bind its context to another map
before it hands it back. -/
theorem contexts_released_once {weight : WarpContext α → Nat} {destroyed : ε → Nat}
    (h : Engine.Counts weight destroyed) (rasters : Registry α) (e₀ : ε) (capacity : Nat)
    (log : List (Notice α)) {moves : List (Move α)}
    (hmoves : ∀ context, .giveBack context ∉ moves) :
    let s₀ : System ε α := .start rasters e₀ capacity log
    let s := s₀.run moves
    destroyed s.shared.engine + total weight s.shared.cache.contexts + total weight s.held
        = destroyed e₀ + total weight (s₀.acquired moves) + total weight (s₀.stored moves) ∧
      ((∀ job ∈ s.jobs, job.Returned) →
        destroyed (Engine.releaseAll s.shared.engine s.shared.cache.clear.released)
          = destroyed e₀ + total weight (s₀.acquired moves) + total weight (s₀.stored moves)) := by
  intro s₀ s
  have hbalance := System.balance_from_start h rasters e₀ capacity log hmoves
  refine ⟨hbalance, fun hreturned => ?_⟩
  have hnone : s.held = [] := System.held_of_returned hreturned
  rw [h.releaseAll, ← hbalance]
  show _ = _ + total weight s.held
  rw [hnone]
  rfl

end Weights

/-- A small dataset taken from one system to another, in rational numbers. -/
def Request.rational : Request ℚ where
  path := "ramp"
  sourceCrs := none
  source := none
  geolocation := none
  destinationCrs := some "B"
  destination := .identity
  width := 3
  height := 2
  band := 1
  srsCf := false

/-- The dataset. -/
def Registry.ramp : Registry ℚ :=
  Registry.empty.insert "ramp"
    { Dataset.ofBand ⟨.ofFn 3 2 .byte fun x y => .ofInt (x + y : Nat), []⟩ with
      projection := some "A" }

/-- Nothing has been begun, on an engine that knows one map. -/
def System.quiet : System (AffineEngine ℚ) ℚ :=
  .start .ramp (AffineEngine.empty.register "A" "B" .identity) 4 []

/-- A warp has put its context into the cache, another has found it there, a measurement is under
way, and the cache is cleared. -/
def Moves.busy : List (Move ℚ) :=
  [.begin .default .rational] ++ List.replicate 4 (.advance 0)
    ++ [.begin .default .rational, .advance 1, .advance 1,
      .measure .default ⟨"ramp", "B", ⟨0, 0, 1, 1⟩⟩, .advance 2, .clear]

/-- A warp that returns. -/
def Moves.single : List (Move ℚ) :=
  [.begin .default .rational] ++ List.replicate 5 (.advance 0)

/-- While three invocations are under way, three contexts were acquired and one was put: one was
handed back and three are held.  After a warp by itself, one was acquired and one was put, and both
are handed back when the cache has ended. -/
theorem contexts_released_once_busy :
    let s := System.quiet.run Moves.busy
    let ended := System.quiet.run Moves.single
    (s.shared.engine.destroyed, s.shared.cache.contexts.length, s.held.length) = (1, 0, 3) ∧
      s.shared.engine.destroyed + s.shared.cache.contexts.length + s.held.length
        = 0 + (System.quiet.acquired Moves.busy).length
          + (System.quiet.stored Moves.busy).length ∧
      (Engine.releaseAll ended.shared.engine ended.shared.cache.clear.released).destroyed
        = 0 + (System.quiet.acquired Moves.single).length
          + (System.quiet.stored Moves.single).length ∧
      ((System.quiet.acquired Moves.single).length, (System.quiet.stored Moves.single).length)
        = (1, 1) := by
  have hbusy : ∀ context, .giveBack context ∉ Moves.busy := by simp [Moves.busy]
  have hsingle : ∀ context, .giveBack context ∉ Moves.single := by simp [Moves.single]
  have hreturned : ∀ job ∈ (System.quiet.run Moves.single).jobs, job.Returned := by
    decide +kernel
  have hbalance := (contexts_released_once AffineEngine.counts .ramp
    (AffineEngine.empty.register "A" "B" .identity) 4 [] hbusy).1
  have hended := (contexts_released_once AffineEngine.counts .ramp
    (AffineEngine.empty.register "A" "B" .identity) 4 [] hsingle).2 hreturned
  simp only [total_one] at hbalance hended
  exact ⟨by decide +kernel, hbalance, hended, by decide +kernel⟩

end RasterWarp
