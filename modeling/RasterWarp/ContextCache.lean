/-
# Contexts kept for reuse

A cache keeps contexts under pairs of coordinate systems, and counts how often each was asked for.
When it is full, the entry that was used least makes room; of several, the one with the smallest
pair in the order of their texts.

Whatever leaves the cache has to be released by its owner.  The operations therefore answer with
what they let go (`Change.released`): an entry replaced, evicted, removed or cleared.
-/
import RasterWarp.Failure

namespace RasterWarp

/-- **A pair of coordinate systems,** source first. -/
structure CrsPair where
  source : String
  destination : String
deriving DecidableEq, Repr

namespace CrsPair

/-- The pair of two systems, neither of which may be empty. -/
def new {α : Type} (source destination : String) : Except (Failure α) CrsPair :=
  if source.isEmpty then .error (Cause.failure .emptySourceCrs)
  else if destination.isEmpty then .error (Cause.failure .emptyDestinationCrs)
  else .ok ⟨source, destination⟩

/-- The order of the source texts, then of the destination texts. -/
def before (a b : CrsPair) : Bool :=
  a.source < b.source || (a.source == b.source && a.destination < b.destination)

end CrsPair

/-- **A context under its pair,** with the number of its uses since it was put there.  The number is
one of 64 bits, which no run can count through: it is taken as a number without a bound. -/
structure CachedContext (γ : Type) where
  key : CrsPair
  context : γ
  uses : Nat

/-- **The contexts in use,** at most `capacity` of them and at most one under each pair. -/
structure ContextCache (γ : Type) where
  entries : List (CachedContext γ)
  capacity : Nat

/-- **The cache after an operation, and what left it.** -/
structure CacheChange (γ : Type) where
  cache : ContextCache γ
  released : List γ
  evicted : Option CrsPair

namespace ContextCache

variable {γ : Type}

/-- An empty cache, with room for one context at least. -/
def new (capacity : Nat) : ContextCache γ := ⟨[], max capacity 1⟩

def length (c : ContextCache γ) : Nat := c.entries.length

def find? (c : ContextCache γ) (k : CrsPair) : Option (CachedContext γ) :=
  c.entries.find? (·.key == k)

def contains (c : ContextCache γ) (k : CrsPair) : Bool := (c.find? k).isSome

def uses? (c : ContextCache γ) (k : CrsPair) : Option Nat := (c.find? k).map (·.uses)

/-- The cache without the entry under a pair. -/
def without (c : ContextCache γ) (k : CrsPair) : ContextCache γ :=
  { c with entries := c.entries.filter (·.key != k) }

/-- The context under a pair, and the cache with the use counted. -/
def get (c : ContextCache γ) (k : CrsPair) : Option γ × ContextCache γ :=
  ((c.find? k).map (·.context),
    { c with entries := c.entries.map fun e =>
        if e.key == k then { e with uses := e.uses + 1 } else e })

/-- The entries in the order of their pairs. -/
def sorted (c : ContextCache γ) : List (CachedContext γ) :=
  c.entries.mergeSort fun a b => !b.key.before a.key

/-- The entry that makes room first.  The scan through the sorted entries holds on to the one it has
unless another was used less. -/
def victim? (c : ContextCache γ) : Option (CachedContext γ) :=
  c.sorted.foldl (fun least e =>
    match least with
    | some v => if v.uses ≤ e.uses then some v else some e
    | none => some e) none

/-- Lets go of the entry under a pair. -/
def remove (c : ContextCache γ) (k : CrsPair) : CacheChange γ :=
  ⟨c.without k, ((c.find? k).map (·.context)).toList, none⟩

/-- Lets go of the entry that makes room, if the cache is full. -/
def makeRoom (c : ContextCache γ) : CacheChange γ :=
  if c.length < c.capacity then ⟨c, [], none⟩ else
    match c.victim? with
    | none => ⟨c, [], none⟩
    | some v => ⟨c.without v.key, [v.context], some v.key⟩

/-- **Puts a context under a pair, as used once.**  The entry it replaces is let go first, so that
a replacement evicts nothing. -/
def put (c : ContextCache γ) (k : CrsPair) (context : γ) : CacheChange γ :=
  let replaced := c.remove k
  let room := replaced.cache.makeRoom
  { cache := { room.cache with entries := ⟨k, context, 1⟩ :: room.cache.entries }
    released := replaced.released ++ room.released
    evicted := room.evicted }

/-- Lets go of everything. -/
def clear (c : ContextCache γ) : CacheChange γ :=
  ⟨{ c with entries := [] }, c.entries.map (·.context), none⟩

/-- How messages show a cache. -/
def description (length capacity : Nat) : String :=
  Text.record "TransformContextCache"
    [("length", toString length), ("capacity", toString capacity)] true

end ContextCache
end RasterWarp
