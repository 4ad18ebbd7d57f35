/-
# What a warp is asked for and answers with

A `Request` names a band of a dataset and a destination grid; what it leaves open is taken from
the dataset and then from the settings (`Opened`).  An `Output` is a window of that grid with its
samples, and what it took to compute them.
-/
import RasterWarp.Config
import RasterWarp.Raster.Registry

namespace RasterWarp

/-- **One band onto one destination grid.** -/
structure Request (α : Type) where
  path : String
  /-- Takes the place of the dataset's coordinate system. -/
  sourceCrs : Option String
  /-- Takes the place of the dataset's geotransform. -/
  source : Option (GeoTransform α)
  /-- Options of geolocation arrays, which take the place of any source geotransform. -/
  geolocation : Option (List String)
  /-- The source system if none is given. -/
  destinationCrs : Option String
  destination : GeoTransform α
  width : Nat
  height : Nat
  /-- Counted from 1. -/
  band : Nat
  /-- Whether a subdataset takes its system from the climate and forecast conventions. -/
  srsCf : Bool

namespace Request

variable {α : Type}

/-- What no request may be. -/
def refusal? (r : Request α) : Option (Cause α) :=
  if r.width = 0 ∨ r.height = 0 then some (.emptyDestination r.width r.height)
  else if r.band = 0 then some .bandZero
  else if r.path.isEmpty then some .emptyPath
  else none

/-- The destination system, if one is named. -/
def destinationCrs? (r : Request α) : Option String := r.destinationCrs.filter (!·.isEmpty)

/-- **How to open the dataset, and which band to ask it for.**  A subdataset shows the band that
was asked for as its band 1. -/
def query (r : Request α) (c : SubdatasetRule) : DatasetQuery × Nat :=
  if c.accepts r.path then
    let srsCf := if r.srsCf then "yes" else "no"
    (⟨r.path, c.drivers, ["md_query=no", s!"band_query={r.band}", s!"srs_cf={srsCf}"]⟩, 1)
  else (DatasetQuery.ofPath r.path, r.band)

/-- The source system: that of the request, of the dataset, or of the settings. -/
def crsIn (r : Request α) (d : Dataset α) (fallback : String) : String :=
  ((r.sourceCrs.filter (!·.isEmpty)) <|> (d.projection.filter (!·.isEmpty))).getD fallback

end Request

/-- **A request with everything it left open filled in.** -/
structure Opened (α : Type) where
  request : Request α
  dataset : Dataset α
  /-- Where the band stands in the dataset, counted from 1. -/
  position : Nat
  band : Band
  crs : String
  source : GeoTransform α

namespace Opened

variable {α : Type}

def rasterSize (o : Opened α) : Nat × Nat := (o.dataset.width, o.dataset.height)

end Opened

/-- **What it took to compute a window.** -/
structure Metrics where
  bytesRead : Nat
  blocksRead : Nat
  blocksFailed : Nat
  mapped : Nat
  dropped : Nat
  /-- The overview that was read, if not full resolution. -/
  overview : Option Nat
  /-- Whether the context came from the cache. -/
  cached : Bool

/-- **A window of the destination grid.** -/
structure Output where
  data : Bytes
  window : Window
  noData : Binary64
  type : ReportedType
  metrics : Metrics

end RasterWarp
