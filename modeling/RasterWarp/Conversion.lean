/-
# Copies between sample types

A sample goes to another type through its value; between equal types its bytes go over as they
are.  `copySamples` does this for a run of samples, and refuses up front what it could only do in
part: it never reads or writes a part of the run.
-/
import RasterWarp.Sample
import RasterWarp.Failure

namespace RasterWarp

/-- One sample's bytes in another type. -/
def convertSample (source target : SampleType) (bytes : Bytes) : Bytes :=
  if source = target then bytes else target.encode (source.decode bytes)

/-- The first `count` samples of a buffer, each converted through its value. -/
def convertSamples (source target : SampleType) (b : Bytes) (count : Nat) : Bytes :=
  Bytes.concat count fun i =>
    target.encode (source.decode (b.extract (i * source.size) (i * source.size + source.size)))

/-- **`destination` with its first `count` samples replaced by those of `source`.**  A number of
bytes that a buffer has is a word as the buffer's own size is; only one that it does not have can be
more. -/
def copySamples {α : Type} (source : Bytes) (sourceType : SampleType) (destination : Bytes)
    (destinationType : SampleType) (count : Nat) : Outcome α Bytes :=
  if sourceType = .unknown ∨ destinationType = .unknown then
    Cause.raise (Cause.unknownSamples (α := α))
  else if source.size < count * sourceType.size then
    .error ((Cause.shortSource source.size count sourceType).refusing (count * sourceType.size))
  else if destination.size < count * destinationType.size then
    .error ((Cause.shortDestination destination.size count destinationType).refusing
      (count * destinationType.size))
  else
    let copied :=
      if sourceType = destinationType then source.extract 0 (count * sourceType.size)
      else convertSamples sourceType destinationType source count
    .ok (copied ++ destination.extract (count * destinationType.size) destination.size)

end RasterWarp
