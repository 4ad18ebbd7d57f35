/-
# Notices

What a warp meets on its way and does not fail of is told by notices, in the order of the events.
-/
import RasterWarp.ContextCache

namespace RasterWarp

inductive Level where
  | debug
  | warn
deriving DecidableEq, Repr

def Level.name : Level → String
  | debug => "DEBUG"
  | warn => "WARN"

/-- **An event worth telling.** -/
inductive Notice (α : Type) where
  | warperCreated (workers cacheLength cacheCapacity : Nat)
  | noSuggestion (path : String) (failure : Failure α)
  | overviewChosen (level width height : Nat) (path : String)
  | rowFailed (row : Nat) (failure : Failure α)
  | blockSkipped (xBlock yBlock : Nat) (failure : Failure α)
  | evicted (pair : CrsPair)

namespace Notice

variable {α : Type} [DecimalText α]

/-- Only a block left out is worth a warning. -/
def level : Notice α → Level
  | blockSkipped .. => .warn
  | _ => .debug

open Text (quoted)

def message : Notice α → String
  | warperCreated workers length capacity =>
    s!"created warper with {workers} block workers, {ContextCache.description length capacity}"
  | noSuggestion path f => s!"no suggested output for {quoted path}: {f.chain.joined}"
  | overviewChosen level w h path => s!"reading overview {level} (({w}, {h})) of {quoted path}"
  | rowFailed row f => s!"row {row} failed to transform: {f.chain.joined}"
  | blockSkipped x y f => s!"skipping block ({x}, {y}): {f.chain.joined}"
  | evicted p => s!"evicting transform context {quoted p.source} -> {quoted p.destination}"

end Notice
end RasterWarp
