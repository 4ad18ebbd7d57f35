/-
# Bands and datasets

A band is a layer of full resolution with overviews, each again a band.  A dataset holds bands
that are counted from 1.  It is looked at through a `DatasetView`: as a whole, or as the one band
that an open option asks for, which then counts as band 1.
-/
import RasterWarp.Raster.Layer

namespace RasterWarp

/-- **A layer and its overviews,** the finest first. -/
structure Band where
  full : Layer
  overviews : List Band

namespace Band

def overview {α : Type} (b : Band) (index : Nat) : Except (Failure α) Band :=
  match b.overviews[index]? with
  | some o => .ok o
  | none => .error (Cause.failure (.noOverview index b.overviews.length))

def description (b : Band) : String :=
  Text.record "MemoryBand" [("size", s!"({b.full.width}, {b.full.height})"),
    ("block_size", s!"({b.full.blockWidth}, {b.full.blockHeight})"),
    ("data_type", b.full.type.name), ("overviews", toString b.overviews.length)] true

/-- The layer at full resolution, or that of an overview. -/
def level? (b : Band) : Option Nat → Option Layer
  | none => some b.full
  | some i => b.overviews[i]?.map (·.full)

/-- The band with reads counted for one of its levels. -/
def credit (b : Band) (level : Option Nat) (n : Nat) : Band :=
  match level with
  | none => { b with full := b.full.credit n }
  | some i =>
    { b with overviews := b.overviews.modify i fun o => { o with full := o.full.credit n } }

end Band

/-- **Bands on one grid,** and what is known of where it lies. -/
structure Dataset (α : Type) where
  width : Nat
  height : Nat
  driver : String
  projection : Option String
  geoTransform : Option (GeoTransform α)
  bands : List Band

namespace Dataset

variable {α : Type}

def new (width height : Nat) : Dataset α := ⟨width, height, "MEM", none, none, []⟩

def addBand (d : Dataset α) (b : Band) : Dataset α := { d with bands := d.bands ++ [b] }

/-- A dataset of one band, sized to it. -/
def ofBand (b : Band) : Dataset α := (new b.full.width b.full.height).addBand b

end Dataset

/-- **An opened dataset.** -/
structure DatasetView (α : Type) where
  dataset : Dataset α
  /-- The one band that can be seen, if only one can. -/
  onlyBand : Option Nat

namespace DatasetView

variable {α : Type}

def visibleBands (v : DatasetView α) : Nat :=
  match v.onlyBand with
  | some _ => 1
  | none => v.dataset.bands.length

/-- Where band `index` stands among the bands of the dataset, counted from 1. -/
def position (v : DatasetView α) (index : Nat) : Except (Failure α) Nat :=
  match v.onlyBand with
  | none => .ok index
  | some query =>
    if index = 1 then .ok query else .error (Cause.failure (.notTheQueriedBand index))

/-- **Band `index` of the view,** counted from 1. -/
def band (v : DatasetView α) (index : Nat) : Except (Failure α) Band := do
  let position ← v.position index
  match if position = 0 then none else v.dataset.bands[position - 1]? with
  | some b => .ok b
  | none => .error (Cause.failure (.noBand index v.visibleBands))

end DatasetView
end RasterWarp
