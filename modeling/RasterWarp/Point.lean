/-
# Points in batches

A transform takes a batch of points at a time and answers with a batch of the same size: the size
is part of the type, so no transform can lose or invent a point.  Each point carries a flag that
says whether it could be transformed; a whole call may also fail.

Points arrive in four separate buffers (`PointBuffers`).  Either their lengths must agree
(`transform`), or the points are those that have both coordinates and a flag (`transformShared`).
-/
import RasterWarp.Failure

namespace RasterWarp

/-- **A position and whether it could be transformed.** -/
structure Point (α : Type) where
  x : α
  y : α
  z : α
  ok : Bool
deriving DecidableEq

/-- **`n` points that are transformed together.** -/
abbrev Batch (α : Type) (n : Nat) := Vector (Point α) n

/-- **Which way a transform is taken.** -/
inductive Direction where
  | sourceToDestination
  | destinationToSource
deriving DecidableEq, Repr

/-- **A transform of batches,** whose calls run in `m`. -/
structure BatchTransform (m : Type → Type) (α : Type) where
  run : Direction → {n : Nat} → Batch α n → m (Batch α n)

/-- **Points as separate buffers.** -/
structure PointBuffers (α : Type) where
  xs : Array α
  ys : Array α
  zs : Array α
  ok : Array Bool

namespace PointBuffers

variable {α : Type}

/-- The first `n` points, for `n` up to the length of every buffer. -/
def take (b : PointBuffers α) (n : Nat)
    (h : n ≤ b.xs.size ∧ n ≤ b.ys.size ∧ n ≤ b.zs.size ∧ n ≤ b.ok.size) : Batch α n :=
  Vector.ofFn fun i =>
    have := i.isLt
    ⟨b.xs[i.val], b.ys[i.val], b.zs[i.val], b.ok[i.val]⟩

/-- The points of buffers of one length. -/
def batch? (b : PointBuffers α) : Option (Batch α b.xs.size) :=
  if h : b.ys.size = b.xs.size ∧ b.zs.size = b.xs.size ∧ b.ok.size = b.xs.size then
    some (b.take b.xs.size (by omega))
  else none

/-- The points as separate buffers again. -/
def ofBatch {n : Nat} (p : Batch α n) : PointBuffers α where
  xs := p.toArray.map (·.x)
  ys := p.toArray.map (·.y)
  zs := p.toArray.map (·.z)
  ok := p.toArray.map (·.ok)

/-- **Runs a transform over buffers,** which must be of one length. -/
def transform {m : Type → Type} [Monad m] [MonadExceptOf (Interrupt (Failure α)) m]
    (b : PointBuffers α) (run : {n : Nat} → Batch α n → m (Batch α n)) : m (PointBuffers α) :=
  match b.batch? with
  | some p => do return ofBatch (← run p)
  | none => Cause.raise (Cause.unequalBuffers (α := α))

/-- How many points have both coordinates and a flag. -/
def shared (b : PointBuffers α) : Nat := min b.xs.size (min b.ys.size b.ok.size)

/-- The points that have both coordinates and a flag; a height that is missing is zero. -/
def sharedBatch [OfNat α 0] (b : PointBuffers α) : Batch α b.shared :=
  Vector.ofFn fun i =>
    have := i.isLt
    have : i.val < b.xs.size ∧ i.val < b.ys.size ∧ i.val < b.ok.size := by
      simp only [shared] at this
      omega
    ⟨b.xs[i.val], b.ys[i.val], b.zs[i.val]?.getD 0, b.ok[i.val]⟩

/-- The buffers with their first points replaced; each buffer keeps its length. -/
def overlay {n : Nat} (b : PointBuffers α) (p : Batch α n) : PointBuffers α where
  xs := b.xs.mapIdx fun i x => (p[i]?.map (·.x)).getD x
  ys := b.ys.mapIdx fun i y => (p[i]?.map (·.y)).getD y
  zs := b.zs.mapIdx fun i z => (p[i]?.map (·.z)).getD z
  ok := b.ok.mapIdx fun i ok => (p[i]?.map (·.ok)).getD ok

/-- **Runs a transform over the points that the buffers share,** and leaves the rest alone. -/
def transformShared {m : Type → Type} [Monad m] [OfNat α 0] (b : PointBuffers α)
    (run : {n : Nat} → Batch α n → m (Batch α n)) : m (PointBuffers α) := do
  return b.overlay (← run b.sharedBatch)

end PointBuffers
end RasterWarp
