/-
# Scratch buffers

A pool keeps up to `maxIdle` buffers that nobody holds.  `acquire` takes one of them, or a new
one, and clears it to the size asked for, if a buffer can be of that size; `release` hands a buffer
back, which the pool keeps if it has room.  A `Lending` is a pool together with the buffers that are
out, each under a number of its own, so that it can be said who holds what.
-/
import RasterWarp.Failure

namespace RasterWarp

/-- **Buffers that wait for their next use,** the one returned last first. -/
structure ScratchPool where
  idle : List Bytes
  maxIdle : Nat

namespace ScratchPool

def empty (maxIdle : Nat) : ScratchPool := ⟨[], maxIdle⟩

def waiting (p : ScratchPool) : Nat := p.idle.length

/-- The buffer with nothing left of what it held, at another size. -/
def cleared (b : Bytes) (size : Nat) : Bytes := Bytes.resized (b.map fun _ => 0) size

/-- A zeroed buffer of exactly `size` bytes, unless no buffer has so many, and the pool without the
one it was made from. -/
def acquire (p : ScratchPool) (size : Nat) : Except Fault Bytes × ScratchPool :=
  let rest := { p with idle := p.idle.tail }
  if size < bufferBound then
    match p.idle with
    | [] => (.ok (Bytes.zeros size), rest)
    | b :: _ => (.ok (cleared b size), rest)
  else (.error .capacity, rest)

/-- Clearing leaves nothing of what a buffer was used for before. -/
theorem cleared_eq (b : Bytes) (size : Nat) : cleared b size = Bytes.zeros size := by
  simp only [cleared, Bytes.resized, Bytes.zeros]
  rw [Array.map_const', Array.size_replicate, Array.extract_replicate,
    Array.replicate_append_replicate]
  congr 1
  omega

/-- A buffer is blank, and the pool has one less, if any waited. -/
theorem acquire_eq (p : ScratchPool) (size : Nat) : p.acquire size
    = (if size < bufferBound then .ok (Bytes.zeros size) else .error .capacity,
        { p with idle := p.idle.tail }) := by
  unfold acquire
  by_cases hfits : size < bufferBound
  · simp only [if_pos hfits]
    split <;> simp [cleared_eq]
  · simp only [if_neg hfits]

@[simp] theorem maxIdle_acquire (p : ScratchPool) (size : Nat) :
    (p.acquire size).2.maxIdle = p.maxIdle := by rw [acquire_eq]

/-- One buffer less waits, if any did. -/
@[simp] theorem waiting_acquire (p : ScratchPool) (size : Nat) :
    (p.acquire size).2.waiting = p.waiting - 1 := by
  rw [acquire_eq]
  exact List.length_tail

/-- Takes a buffer back, unless enough are waiting. -/
def release (p : ScratchPool) (b : Bytes) : ScratchPool :=
  if p.idle.length < p.maxIdle then { p with idle := b :: p.idle } else p

@[simp] theorem maxIdle_release (p : ScratchPool) (b : Bytes) :
    (p.release b).maxIdle = p.maxIdle := by
  unfold release
  split <;> rfl

/-- One buffer more waits, if there is room for it. -/
theorem waiting_release {p : ScratchPool} (h : p.waiting ≤ p.maxIdle) (b : Bytes) :
    (p.release b).waiting = min (p.waiting + 1) p.maxIdle := by
  unfold release waiting at *
  split
  · rw [List.length_cons]
    omega
  · omega

end ScratchPool

/-- **A pool and the buffers checked out of it,** each under the number of its check-out. -/
structure Lending where
  pool : ScratchPool
  lent : List (Nat × Bytes)
  next : Nat

namespace Lending

def new (maxIdle : Nat) : Lending := ⟨.empty maxIdle, [], 0⟩

/-- The buffer under a number, while it is out. -/
def get? (l : Lending) (handle : Nat) : Option Bytes := l.lent.lookup handle

/-- Checks a buffer out under the next number, which it answers with. -/
def acquire (l : Lending) (size : Nat) : Except Fault Nat × Lending :=
  match l.pool.acquire size with
  | (.ok b, pool) => (.ok l.next, { pool, lent := (l.next, b) :: l.lent, next := l.next + 1 })
  | (.error f, pool) => (.error f, { l with pool })

/-- Changes what the buffer under a number holds. -/
def update (l : Lending) (handle : Nat) (f : Bytes → Bytes) : Lending :=
  { l with lent := l.lent.map fun (h, b) => if h = handle then (h, f b) else (h, b) }

/-- Hands the buffer under a number back, once. -/
def release (l : Lending) (handle : Nat) : Lending :=
  match l.get? handle with
  | none => l
  | some b =>
    { l with pool := l.pool.release b, lent := l.lent.filter fun (h, _) => h ≠ handle }

/-- How messages show the buffer under a number. -/
def description (b : Bytes) : String := s!"PooledBuffer({b.size} bytes)"

end Lending
end RasterWarp
