/-
# Settings of a warper

`Config.default` holds what applies when nothing is set, and `Config.validate` says which
settings no warper accepts; the first bad one in the order of the fields is told.
-/
import RasterWarp.Failure

namespace RasterWarp

/-- The geographic coordinate system that applies when neither request nor dataset names one. -/
def wgs84 : String :=
  "GEOGCS[\"WGS 84\",DATUM[\"WGS_1984\",SPHEROID[\"WGS 84\",6378137,298.257223563," ++
  "AUTHORITY[\"EPSG\",\"7030\"]],AUTHORITY[\"EPSG\",\"6326\"]],PRIMEM[\"Greenwich\",0," ++
  "AUTHORITY[\"EPSG\",\"8901\"]],UNIT[\"degree\",0.0174532925199433," ++
  "AUTHORITY[\"EPSG\",\"9122\"]],AXIS[\"Latitude\",NORTH],AXIS[\"Longitude\",EAST]," ++
  "AUTHORITY[\"EPSG\",\"4326\"]]"

/-- **Which paths name a variable inside a container file,** and the drivers that may open
them. -/
structure SubdatasetRule where
  prefixes : List String
  suffixes : List String
  drivers : List String
deriving DecidableEq, Repr

namespace SubdatasetRule

def default : SubdatasetRule := ⟨["NETCDF:"], [".nc"], ["netCDF"]⟩

/-- A path matches by its start or by its end. -/
def accepts (c : SubdatasetRule) (path : String) : Bool :=
  c.prefixes.any (fun p => p.toList.isPrefixOf path.toList)
    || c.suffixes.any (fun s => s.toList.isSuffixOf path.toList)

def description (c : SubdatasetRule) : String :=
  Text.record "SubdatasetConfig" [("prefixes", Text.quotedList c.prefixes),
    ("suffixes", Text.quotedList c.suffixes), ("drivers", Text.quotedList c.drivers)] false

end SubdatasetRule

/-- **The settings.** -/
structure Config (α : Type) where
  /-- Most contexts kept at a time. -/
  cacheCapacity : Nat
  /-- Most that an approximated row may be off, in output pixels. -/
  approxTolerance : α
  /-- Most that an overview's ratio may differ from the one aimed at. -/
  overviewTolerance : α
  /-- Threads that read blocks; as many as there are processors if not given. -/
  blockWorkers : Option Nat
  fallbackProjection : String
  fallbackNoData : Binary64
  subdataset : SubdatasetRule

namespace Config

variable {α : Type} [Scalar α]

def default : Config α where
  cacheCapacity := 1024
  approxTolerance := 0.125
  overviewTolerance := 0.1
  blockWorkers := none
  fallbackProjection := wgs84
  fallbackNoData := .ofInt (-10000000000)
  subdataset := .default

/-- The first setting that no warper accepts. -/
def refusal? (c : Config α) : Option (Cause α) :=
  if c.cacheCapacity = 0 then some .zeroCacheCapacity
  else if ¬ 0 ≤ c.approxTolerance then some (.negativeApproxTolerance c.approxTolerance)
  else if ¬ 0 ≤ c.overviewTolerance then some (.negativeOverviewTolerance c.overviewTolerance)
  else if c.blockWorkers = some 0 then some .zeroBlockWorkers
  else none

def validate (c : Config α) : Except (Failure α) Unit :=
  match c.refusal? with
  | some cause => .error cause.failure
  | none => .ok ()

omit [Scalar α] in
/-- How many workers a setting stands for, on a machine with some number of processors. -/
def workers (c : Config α) (processors : Nat) : Nat := max (c.blockWorkers.getD processors) 1

def description {α : Type} [DecimalText α] (c : Config α) : String :=
  let workers := match c.blockWorkers with
    | some n => s!"Some({n})"
    | none => "None"
  Text.record "WarpConfig" [("cache_capacity", toString c.cacheCapacity),
    ("approx_tolerance", exact c.approxTolerance),
    ("overview_tolerance", exact c.overviewTolerance), ("block_workers", workers),
    ("fallback_projection", Text.quoted c.fallbackProjection),
    ("fallback_no_data", exact c.fallbackNoData),
    ("subdataset", c.subdataset.description)] false

end Config
end RasterWarp
