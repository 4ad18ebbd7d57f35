/-
# Settings from text

The text is a mapping of the fields of `Config` by name; what it leaves out keeps its default.
Unknown and repeated names are refused, and so is every value of another kind than the field's.
-/
import RasterWarp.Config
import RasterWarp.Yaml.Value

namespace RasterWarp

open Yaml

/-- **Why no settings came of a text.** -/
inductive SettingsFault (α : Type) where
  /-- There is no text. -/
  | unreadable
  /-- The text is malformed or does not describe settings. -/
  | malformed
  /-- The settings are refused. -/
  | refused (f : Failure α)

/-- Whether no name occurs twice. -/
def distinct : List String → Bool
  | [] => true
  | name :: rest => !rest.contains name && distinct rest

/-- One field of the recognition of subdatasets. -/
def SubdatasetRule.set? (d : Document) (c : SubdatasetRule) (name : String) (n : Node) :
    Option SubdatasetRule :=
  match name with
  | "prefixes" => (d.texts? n).map fun v => { c with prefixes := v }
  | "suffixes" => (d.texts? n).map fun v => { c with suffixes := v }
  | "drivers" => (d.texts? n).map fun v => { c with drivers := v }
  | _ => none

/-- The recognition of subdatasets as a node gives it. -/
def SubdatasetRule.ofNode? (d : Document) (n : Node) : Option SubdatasetRule := do
  let fields ← d.fields? n
  if distinct (fields.map (·.1)) then
    fields.foldlM (fun c (name, v) => c.set? d name v) SubdatasetRule.default
  else none

namespace Config

/-- One field of the settings. -/
def set? (d : Document) (c : Config Float) (name : String) (n : Node) : Option (Config Float) :=
  match name with
  | "cache_capacity" => (d.count? n).map fun v => { c with cacheCapacity := v }
  | "approx_tolerance" => (d.decimal? n).map fun v => { c with approxTolerance := v.toFloat }
  | "overview_tolerance" => (d.decimal? n).map fun v => { c with overviewTolerance := v.toFloat }
  | "block_workers" => (d.optionalCount? n).map fun v => { c with blockWorkers := v }
  | "fallback_projection" => (d.text? n).map fun v => { c with fallbackProjection := v }
  | "fallback_no_data" => (d.decimal? n).map fun v => { c with fallbackNoData := v }
  | "subdataset" => (SubdatasetRule.ofNode? d n).map fun v => { c with subdataset := v }
  | _ => none

/-- The settings as a tree gives them, whether any warper accepts them or not. -/
def ofDocument? (d : Document) : Option (Config Float) := do
  match d.root with
  | none => return default
  | some root =>
    let fields ← d.fields? root
    if distinct (fields.map (·.1)) then
      fields.foldlM (fun c (name, v) => c.set? d name v) default
    else none

/-- **The settings of a text,** if it could be read at all. -/
def read (text : Option String) : Except (SettingsFault Float) (Config Float) :=
  match text with
  | none => .error .unreadable
  | some text =>
    match (Document.ofText? text).bind ofDocument? with
    | none => .error .malformed
    | some c => (c.validate.mapError .refused).map fun () => c

end Config
end RasterWarp
