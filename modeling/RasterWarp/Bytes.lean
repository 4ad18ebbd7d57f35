/-
# Byte buffers

Buffers are arrays of bytes.  A part of one is taken and replaced only where it lies inside
(`slice?`, `splice?`), so an access out of range is a value to deal with and not an accident.
-/

namespace RasterWarp

/-- **A buffer.** -/
abbrev Bytes := Array UInt8

namespace Bytes

def zeros (size : Nat) : Bytes := Array.replicate size 0

@[simp] theorem size_zeros (n : Nat) : (zeros n).size = n := by simp [zeros]

/-- The buffer cut off at a size, or extended to it with zeros. -/
def resized (b : Bytes) (size : Nat) : Bytes := b.extract 0 size ++ zeros (size - b.size)

@[simp] theorem size_resized (b : Bytes) (n : Nat) : (b.resized n).size = n := by
  simp only [resized, Array.size_append, Array.size_extract, size_zeros]
  omega

/-- The `size` bytes from `start` on, if the buffer has them. -/
def slice? (b : Bytes) (start size : Nat) : Option Bytes :=
  if start + size ≤ b.size then some (b.extract start (start + size)) else none

/-- A slice that exists has the size asked for. -/
theorem size_of_slice? {b part : Bytes} {start size : Nat} (h : b.slice? start size = some part) :
    part.size = size := by
  unfold slice? at h
  split at h
  · cases h
    simp only [Array.size_extract]
    omega
  · cases h

/-- Writes `piece` at `start`, in place. -/
def overwrite (b : Bytes) (start : Nat) (piece : Bytes) : Bytes :=
  (piece.zipIdx start).foldl (fun b (byte, i) => b.setIfInBounds i byte) b

/-- A buffer keeps its size, whatever is written. -/
@[simp] theorem size_overwrite (b : Bytes) (start : Nat) (piece : Bytes) :
    (b.overwrite start piece).size = b.size := by
  have keeps : ∀ (l : List (UInt8 × Nat)) (b : Bytes),
      (l.foldl (fun b (byte, i) => b.setIfInBounds i byte) b).size = b.size := by
    intro l
    induction l with
    | nil => intro b; rfl
    | cons p l ih => intro b; simp [ih]
  rw [overwrite, ← Array.foldl_toList]
  exact keeps _ b

/-- The buffer with `piece` at `start`, if it fits. -/
def splice? (b : Bytes) (start : Nat) (piece : Bytes) : Option Bytes :=
  if start + piece.size ≤ b.size then some (b.overwrite start piece) else none

/-- The pieces `f 0`, …, `f (n - 1)` one after the other. -/
def concat (n : Nat) (f : Nat → Bytes) : Bytes := (List.range n).foldl (fun b i => b ++ f i) #[]

theorem size_concat {n k : Nat} {f : Nat → Bytes} (h : ∀ i, (f i).size = k) :
    (concat n f).size = n * k := by
  have grow : ∀ (l : List Nat) (b : Bytes),
      (l.foldl (fun b i => b ++ f i) b).size = b.size + l.length * k := by
    intro l
    induction l with
    | nil => simp
    | cons i l ih => intro b; simp [ih, h, Nat.add_mul, Nat.add_assoc, Nat.add_comm k]
  simpa [concat] using grow (List.range n) #[]

/-- The low `size` bytes of a number, the lowest first. -/
def ofNat : Nat → Nat → List UInt8
  | 0, _ => []
  | size + 1, n => n.toUInt8 :: ofNat size (n / 256)

@[simp] theorem length_ofNat (size n : Nat) : (ofNat size n).length = size := by
  induction size generalizing n with
  | zero => rfl
  | succ size ih => simp [ofNat, ih]

/-- The number that bytes spell, the lowest first. -/
def toNat : List UInt8 → Nat
  | [] => 0
  | byte :: rest => byte.toNat + 256 * toNat rest

end Bytes
end RasterWarp
