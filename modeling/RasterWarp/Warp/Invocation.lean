/-
# A warp as a sequence of steps

Warps that run side by side share the datasets, the engine and the cache of contexts.  An
invocation is therefore a machine whose steps are the moments at which it touches what is shared:

    requested -> opened -> missed -> created -> holding -> finished

`opened` looks the context up and rebinds it in one step, `missed` has one made, `created` puts a
copy of it into the cache, and `holding` computes the output and hands the context back.  Any
interleaving of the steps of several invocations is a possible run; `Phase.run` takes the steps of
one without a pause.

Every context that an invocation gets is handed back to the engine when it leaves `holding`, bound
to the level that was read; every context that leaves the cache is handed back in the step that
removes it.
-/
import RasterWarp.Warp.Stages

namespace RasterWarp

/-- **What invocations share.** -/
structure Shared (ε α : Type) where
  rasters : Registry α
  engine : ε
  cache : ContextCache (WarpContext α)
  /-- What was noted, in order. -/
  log : List (Notice α)

/-- **Where an invocation stands.** -/
inductive Phase (α : Type) where
  /-- Nothing is done yet. -/
  | requested (r : Request α)
  /-- About to look for a context under a pair. -/
  | opened (o : Opened α) (key : CrsPair)
  /-- About to have a context made, since there was none. -/
  | missed (o : Opened α) (key : CrsPair)
  /-- About to put a copy of its new context into the cache. -/
  | created (o : Opened α) (key : CrsPair) (context : WarpContext α)
  /-- In possession of a context. -/
  | holding (o : Opened α) (context : WarpContext α) (cached : Bool)
  | finished (result : Staged α Output)

namespace Phase

variable {ε α : Type} [Scalar α] [Engine ε α]

/-- The number of steps to the end, at most. -/
def rank : Phase α → Nat
  | requested _ => 5
  | opened .. => 4
  | missed .. => 3
  | created .. => 2
  | holding .. => 1
  | finished _ => 0

/-- Goes on with a context, or ends the invocation that did not get one. -/
def acquire (o : Opened α) (cached : Bool) (context : Outcome α (WarpContext α)) : Phase α :=
  match Outcome.stage .transformFailure
      (Outcome.during (.creatingTransform o.request.path) context) with
  | .ok context => holding o context cached
  | .error e => finished (.error e)

/-- Starts on the context of an opened source.  One that depends on geolocation arrays or has no
second coordinate system is made at once, and never enters the cache. -/
def start (s : Shared ε α) (o : Opened α) : Shared ε α × Phase α :=
  let r := o.request
  match r.geolocation, r.destinationCrs? with
  | some options, destinationCrs =>
    let (context, engine) := Engine.geolocatedContext s.engine o.crs options destinationCrs
      r.destination
    ({ s with engine }, acquire o false context)
  | none, none =>
    let (context, engine) := Engine.affineContext s.engine o.crs o.source none r.destination
    ({ s with engine }, acquire o false context)
  | none, some destinationCrs =>
    match CrsPair.new o.crs destinationCrs with
    | .ok key => (s, opened o key)
    | .error f => (s, acquire o false (.error (.failure f)))

/-- Looks up the context under a pair and binds a copy of it to the request. -/
def lookUp (s : Shared ε α) (o : Opened α) (key : CrsPair) : Shared ε α × Phase α :=
  match s.cache.get key with
  | (none, _) => (s, missed o key)
  | (some context, cache) =>
    let rebound := attempt (context.boundTo o.source o.request.destination)
    ({ s with cache }, acquire o true (Outcome.during .rebinding rebound))

/-- Has a context made.  One that needed no step between the systems is not worth keeping. -/
def create (s : Shared ε α) (o : Opened α) (key : CrsPair) : Shared ε α × Phase α :=
  let (context, engine) := Engine.affineContext s.engine o.crs o.source (some key.destination)
    o.request.destination
  let s := { s with engine }
  match context with
  | .ok context =>
    (s, if context.changesCrs then created o key context else holding o context false)
  | .error _ => (s, acquire o false context)

/-- Puts a copy of a context into the cache, and hands back what leaves it. -/
def store (s : Shared ε α) (o : Opened α) (key : CrsPair) (context : WarpContext α) :
    Shared ε α × Phase α :=
  let change := s.cache.put key context
  ({ s with
      cache := change.cache
      engine := Engine.releaseAll s.engine change.released
      log := s.log ++ change.evicted.toList.map .evicted },
    holding o context false)

/-- Computes the output, hands back the context that was used for it and counts the reads. -/
def finish (c : Config α) (s : Shared ε α) (o : Opened α) (context : WarpContext α)
    (cached : Bool) : Shared ε α × Phase α :=
  let (rendered, notices) := (render c o context).run.run []
  let rasters := match rendered with
    | .ok r => s.rasters.credit o.request.path o.position r.overview r.scattered.tally.read
    | .error _ => s.rasters
  ({ s with
      rasters
      engine := Engine.release s.engine (contextAfter c o context)
      log := s.log ++ notices },
    finished (rendered.map (·.output o cached)))

/-- **One step of an invocation.** -/
def step (c : Config α) (s : Shared ε α) : Phase α → Shared ε α × Phase α
  | requested r =>
    match openSource c s.rasters r with
    | (.ok o, rasters) => start { s with rasters } o
    | (.error e, rasters) => ({ s with rasters }, finished (.error e))
  | opened o key => lookUp s o key
  | missed o key => create s o key
  | created o key context => store s o key context
  | holding o context cached => finish c s o context cached
  | finished result => (s, finished result)

/-- **All steps of an invocation,** one after the other. -/
def run (c : Config α) (s : Shared ε α) (p : Phase α) : Shared ε α × Phase α :=
  (List.range p.rank).foldl (fun (s, p) _ => p.step c s) (s, p)

/-- The result of a finished invocation. -/
def result? : Phase α → Option (Staged α Output)
  | finished r => some r
  | _ => none

end Phase
end RasterWarp
