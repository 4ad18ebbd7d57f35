/-
# Reading blocks into the output

`scatterBlocks` reads each block of a plan once and writes its samples to the pixels they belong
to.  What could not be done at all is refused before anything is read; a block that cannot be read
is left out with a notice, and its pixels keep what they held.  The size of a block has to be a
word, and one that a buffer can have.
-/
import RasterWarp.Conversion
import RasterWarp.ReadPlan
import RasterWarp.Raster.Layer

namespace RasterWarp

/-- **What blocks are read from.**  Reading may change the source, but not when it fails. -/
class BlockSource (σ : Type) where
  type : σ → SampleType
  fetch {α : Type} : σ → (xBlock yBlock : Nat) → (buffer : Bytes) → Outcome α (Bytes × σ)

instance : BlockSource Layer := ⟨Layer.type, Layer.fetch⟩

/-- **One attempt to read a block,** and why it failed if it did. -/
structure BlockRead (α : Type) where
  xBlock : Nat
  yBlock : Nat
  failure : Option (Failure α)

/-- **How many blocks were read, and how many were left out.** -/
structure BlockTally where
  read : Nat
  failed : Nat
deriving DecidableEq, Repr

/-- **The output and the source after some blocks,** with the attempts in order. -/
structure Scattering (σ α : Type) where
  source : σ
  output : Bytes
  attempts : List (BlockRead α)

variable {σ α : Type}

namespace BlockRead

/-- A block left out is worth a notice. -/
def notice? (r : BlockRead α) : Option (Notice α) :=
  r.failure.map (.blockSkipped r.xBlock r.yBlock)

def tally (r : BlockRead α) : BlockTally :=
  if r.failure.isNone then ⟨1, 0⟩ else ⟨0, 1⟩

end BlockRead

namespace BlockTally

def empty : BlockTally := ⟨0, 0⟩

def merge (a b : BlockTally) : BlockTally := ⟨a.read + b.read, a.failed + b.failed⟩

end BlockTally

namespace Scattering

def notices (s : Scattering σ α) : List (Notice α) := s.attempts.filterMap (·.notice?)

def tally (s : Scattering σ α) : BlockTally :=
  (s.attempts.map (·.tally)).foldl .merge .empty

end Scattering

/-- Takes one sample of a block over into the output.  Where the sample lies is a number of any
size: one that is not a word is not in the block either. -/
def transferPixel (g : Tiling) (sourceType warpedType : SampleType) (block output : Bytes)
    (source destination : Nat) : Outcome α Bytes := do
  if g.rasterWidth = 0 then throw (.fault .zeroDivisor)
  let offset := (g.locate (source % g.rasterWidth) (source / g.rasterWidth)).2
  let sample ← inRange (block.slice? (offset * sourceType.size) sourceType.size)
  inRange (output.splice? (destination * warpedType.size)
    (convertSample sourceType warpedType sample))

/-- Takes the samples of one block over into the output. -/
def transferBlock (g : Tiling) (sourceType warpedType : SampleType) (block : Bytes)
    (pixels : PixelGroup) (output : Bytes) : Outcome α Bytes :=
  pixels.pairs.foldlM (fun output (source, destination) =>
    transferPixel g sourceType warpedType block output source destination) output

/-- Reads one block and takes its samples over, or leaves it out. -/
def scatterBlock [BlockSource σ] (g : Tiling) (warpedType : SampleType)
    (s : Scattering σ α) (index : Nat) (pixels : PixelGroup) : Outcome α (Scattering σ α) := do
  let type := BlockSource.type s.source
  match g.position? index with
  | none => throw (.fault .zeroDivisor)
  | some (x, y) =>
    let buffer ← blank (g.blockBytes type.size)
    match BlockSource.fetch s.source x y buffer with
    | .error (.failure f) => return { s with attempts := s.attempts ++ [⟨x, y, some f⟩] }
    | .error (.fault f) => throw (.fault f)
    | .ok (block, source) =>
      let output ← transferBlock g type warpedType block pixels s.output
      return { source, output, attempts := s.attempts ++ [⟨x, y, none⟩] }

/-- The greatest window index of a plan. -/
def lastPixel? (groups : PixelGroups) : Option Nat :=
  (groups.flatMap fun (_, pixels) => pixels.destination.toList).max?

/-- What can be seen to be impossible before a block is read.  An end that the output has is a word
as the output's own size is. -/
def scatterRefusal? (type warpedType : SampleType) (groups : PixelGroups) (size : Nat) :
    Option (Interrupt (Failure α)) :=
  if type.size = 0 then some (.failure (Cause.failure .unknownBandType))
  else if warpedType.size = 0 then some (.failure (Cause.failure .unknownOutputType))
  else match lastPixel? groups with
    | none => none
    | some last =>
      if (last + 1) * warpedType.size ≤ size then none
      else some ((Cause.outputTooSmall size last).refusing ((last + 1) * warpedType.size))

/-- **Reads every block of a plan once,** and writes its samples into the output. -/
def scatterBlocks [BlockSource σ] (source : σ) (g : Tiling) (groups : PixelGroups)
    (warpedType : SampleType) (output : Bytes) : Outcome α (Scattering σ α) :=
  let type := BlockSource.type source
  match scatterRefusal? (α := α) type warpedType groups output.size with
  | some e => .error e
  | none => do
    let _ ← inWord (g.blockBytes? type.size)
    groups.foldlM (fun s (index, pixels) => scatterBlock g warpedType s index pixels)
      ⟨source, output, []⟩

end RasterWarp
