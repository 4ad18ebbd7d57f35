/-
# Warpers that share what they work on

A session holds datasets, an engine and a number of warpers.  A warper has settings and a cache of
contexts; copies of a warper have its cache in common, and warpers may also be made on one cache
that the session keeps.  A cache is gone, and its contexts handed back, when its last owner is.

Warpers are numbered in the order in which they were asked for, those that could not be made
included.
-/
import RasterWarp.Warp.Extent

namespace RasterWarp

/-- **Settings, and the number of the cache they come with.** -/
structure Warper (α : Type) where
  config : Config α
  cache : Nat

/-- **Datasets, engine, caches and warpers.** -/
structure Session (ε α : Type) where
  rasters : Registry α
  engine : ε
  /-- The caches that have an owner, by number. -/
  caches : List (Nat × ContextCache (WarpContext α))
  nextCache : Nat
  /-- The cache that the session itself owns. -/
  sharedCache : Option Nat
  /-- The warpers by number; none where there is no longer one, or never was. -/
  warpers : List (Option (Warper α))
  /-- What was noted, in order. -/
  log : List (Notice α)

namespace Session

variable {ε α : Type} [Scalar α] [Engine ε α]

omit [Scalar α] [Engine ε α] in
/-- A session without warpers, with a cache of its own if a capacity is given. -/
def new (rasters : Registry α) (engine : ε) (sharedCapacity : Option Nat) : Session ε α where
  rasters
  engine
  caches := (sharedCapacity.map fun n => (0, ContextCache.new n)).toList
  nextCache := 1
  sharedCache := sharedCapacity.map fun _ => 0
  warpers := []
  log := []

omit [Scalar α] [Engine ε α] in
def warper? (s : Session ε α) (i : Nat) : Option (Warper α) := s.warpers[i]?.join

omit [Scalar α] [Engine ε α] in
/-- The cache of a warper. -/
def cache? (s : Session ε α) (i : Nat) : Option (ContextCache (WarpContext α)) :=
  (s.warper? i).bind fun w => s.caches.lookup w.cache

omit [Scalar α] [Engine ε α] in
/-- A cache in the place of the one with its number. -/
def setCache (s : Session ε α) (number : Nat) (c : ContextCache (WarpContext α)) : Session ε α :=
  { s with caches := s.caches.map fun (n, old) => if n = number then (n, c) else (n, old) }

omit [Scalar α] [Engine ε α] in
/-- The number of the cache for a new warper, and the session with that cache in it. -/
def cacheFor (s : Session ε α) (capacity : Nat) (onShared : Bool) : Nat × Session ε α :=
  match if onShared then s.sharedCache else none with
  | some number => (number, s)
  | none =>
    (s.nextCache, { s with
      caches := s.caches ++ [(s.nextCache, ContextCache.new capacity)]
      nextCache := s.nextCache + 1 })

omit [Engine ε α] in
/-- **Makes a warper** with a cache of its own, or on the session's if that is asked for and there
is one.  A warper that cannot be made takes a number all the same. -/
def addWarper (s : Session ε α) (c : Config α) (processors : Nat) (onShared : Bool) :
    Except (Failure α) (Warper α) × Session ε α :=
  match c.validate with
  | .error f => (.error (f.during .validatingConfig), { s with warpers := s.warpers ++ [none] })
  | .ok () =>
    let (number, s) := s.cacheFor c.cacheCapacity onShared
    let warper : Warper α := ⟨c, number⟩
    let told : List (Notice α) := (s.caches.lookup number).toList.map fun cache =>
      .warperCreated (c.workers processors) cache.length cache.capacity
    (.ok warper, { s with warpers := s.warpers ++ [some warper], log := s.log ++ told })

omit [Scalar α] [Engine ε α] in
/-- Adds a copy of a warper, on the same cache. -/
def cloneWarper (s : Session ε α) (i : Nat) : Session ε α :=
  { s with warpers := s.warpers ++ [s.warper? i] }

omit [Scalar α] in
/-- Hands the contexts of a warper's cache back. -/
def clearCache (s : Session ε α) (i : Nat) : Session ε α :=
  match s.warper? i, s.cache? i with
  | some w, some cache =>
    let change := cache.clear
    { s.setCache w.cache change.cache with
      engine := Engine.releaseAll s.engine change.released }
  | _, _ => s

omit [Scalar α] [Engine ε α] in
/-- Whether a cache has an owner. -/
def owned (s : Session ε α) (number : Nat) : Bool :=
  s.sharedCache == some number
    || s.warpers.any fun w => w.any (·.cache == number)

omit [Scalar α] in
/-- **Ends a warper,** and its cache with it if it was the last owner. -/
def dropWarper (s : Session ε α) (i : Nat) : Session ε α :=
  match s.warper? i, s.cache? i with
  | some w, some cache =>
    let s := { s with warpers := s.warpers.set i none }
    if s.owned w.cache then s
    else
      { s with
        caches := s.caches.filter (·.1 ≠ w.cache)
        engine := Engine.releaseAll s.engine cache.clear.released }
  | _, _ => s

omit [Scalar α] [Engine ε α] in
/-- What a warper's invocations share. -/
def shared (s : Session ε α) (cache : ContextCache (WarpContext α)) : Shared ε α :=
  ⟨s.rasters, s.engine, cache, s.log⟩

omit [Scalar α] [Engine ε α] in
/-- The session after invocations of a warper. -/
def update (s : Session ε α) (w : Warper α) (after : Shared ε α) : Session ε α :=
  { s.setCache w.cache after.cache with
    rasters := after.rasters
    engine := after.engine
    log := after.log }

/-- **Runs a warp on a warper,** if there is one. -/
def warp (s : Session ε α) (i : Nat) (r : Request α) :
    Option (Staged α Output) × Session ε α :=
  match s.warper? i, s.cache? i with
  | some w, some cache =>
    let (after, p) := (Phase.requested r).run w.config (s.shared cache)
    (p.result?, s.update w after)
  | _, _ => (none, s)

/-- **Measures a box on a warper,** if there is one. -/
def extent (s : Session ε α) (i : Nat) (r : ExtentRequest α) :
    Option (Staged α (Measure α)) × Session ε α :=
  match s.warper? i, s.cache? i with
  | some w, some cache =>
    let (after, p) := (ExtentPhase.requested r).run w.config (s.shared cache)
    (p.result?, s.update w after)
  | _, _ => (none, s)

omit [Scalar α] [Engine ε α] in
def insert (s : Session ε α) (path : String) (d : Dataset α) : Session ε α :=
  { s with rasters := s.rasters.insert path d }

omit [Scalar α] [Engine ε α] in
/-- How messages show a warper. -/
def description? [DecimalText α] (s : Session ε α) (i processors : Nat) : Option String :=
  match s.warper? i, s.cache? i with
  | some w, some cache => some (Text.record "FastWarper"
      [("config", w.config.description),
        ("cache", ContextCache.description cache.length cache.capacity),
        ("block_workers", toString (w.config.workers processors))] true)
  | _, _ => none

end Session
end RasterWarp
