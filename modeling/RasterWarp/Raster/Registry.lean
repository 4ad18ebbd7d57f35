/-
# Datasets by path

A registry holds datasets under paths, opens them on request and remembers every request.  A
request may name the drivers that are allowed and carries options of the form `KEY=VALUE`; the
option `band_query` asks for one band only.
-/
import RasterWarp.Raster.Dataset

namespace RasterWarp

/-- Equality of texts up to the case of ASCII letters. -/
def sameIgnoringCase (a b : String) : Bool := a.toList.map Char.toLower == b.toList.map Char.toLower

/-- **What to open and how.** -/
structure DatasetQuery where
  path : String
  /-- The drivers that may open it; any driver if none is named. -/
  drivers : List String
  options : List String
deriving DecidableEq, Repr

namespace DatasetQuery

/-- A request for a path by itself. -/
def ofPath (path : String) : DatasetQuery := ⟨path, [], []⟩

/-- A text before and after its first `=`, if it has one. -/
def keyValue? (option : String) : Option (String × String) :=
  match option.toList.dropWhile (· ≠ '=') with
  | _ :: value =>
    some (String.ofList (option.toList.takeWhile (· ≠ '=')), String.ofList value)
  | [] => none

/-- The value of the first option with a key, whatever the case of its letters. -/
def option? (r : DatasetQuery) (key : String) : Option String :=
  r.options.findSome? fun o =>
    match keyValue? o with
    | some (k, v) => if sameIgnoringCase k key then some v else none
    | none => none

/-- The band that the options ask for. -/
def onlyBand {α : Type} (r : DatasetQuery) : Except (Failure α) (Option Nat) :=
  match r.option? "band_query" with
  | none => .ok none
  | some v =>
    match Numeral.toWord? v with
    | .ok n => .ok (some n)
    | .error fault => .error ((Cause.failure (.badNumeral fault)).during .parsingBandQuery)

end DatasetQuery

/-- **Datasets by path, and the requests made so far.** -/
structure Registry (α : Type) where
  datasets : List (String × Dataset α)
  requests : List DatasetQuery

namespace Registry

variable {α : Type}

def empty : Registry α := ⟨[], []⟩

def find? (r : Registry α) (path : String) : Option (Dataset α) := r.datasets.lookup path

/-- Registers a dataset, in place of the one under the same path. -/
def insert (r : Registry α) (path : String) (d : Dataset α) : Registry α :=
  { r with datasets := (path, d) :: r.datasets.filter (·.1 ≠ path) }

/-- What a request finds, in the order of what is checked. -/
def view (r : Registry α) (request : DatasetQuery) : Except (Failure α) (DatasetView α) :=
  match r.find? request.path with
  | none => .error (Cause.failure (.notRegistered request.path))
  | some d =>
    if !request.drivers.isEmpty && !request.drivers.any (sameIgnoringCase · d.driver) then
      .error (Cause.failure (.driverRefused d.driver request.path request.drivers))
    else request.onlyBand.map fun query => ⟨d, query⟩

/-- **Opens a dataset,** and notes the request whatever comes of it. -/
def openView (r : Registry α) (request : DatasetQuery) :
    Except (Failure α) (DatasetView α) × Registry α :=
  (r.view request, { r with requests := r.requests ++ [request] })

/-- Counts reads of a level of a band, given by its place in the dataset under a path. -/
def credit (r : Registry α) (path : String) (position : Nat) (level : Option Nat) (n : Nat) :
    Registry α :=
  { r with datasets := r.datasets.map fun (p, d) =>
      if p = path then
        (p, { d with bands := d.bands.modify (position - 1) (·.credit level n) })
      else (p, d) }

end Registry
end RasterWarp
