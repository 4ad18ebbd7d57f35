/-
# Characters that do not show as themselves

Between quotes, what cannot be seen would be misread: controls, format characters, separators,
letters that stand for nothing, private characters, code points that are no characters, and the
marks that combine with the character before them.
-/
import RasterWarp.Text.Combining
import RasterWarp.Text.Unassigned

namespace RasterWarp.Text

/-- Characters beyond ASCII without a glyph: controls, format characters, separators, fillers and
private use. -/
def blankRanges : List (Nat × Nat) := [
  (0x80, 0xa0), (0xad, 0xad), (0x600, 0x605), (0x61c, 0x61c), (0x6dd, 0x6dd), (0x70f, 0x70f),
  (0x890, 0x891), (0x8e2, 0x8e2), (0x115f, 0x1160), (0x1680, 0x1680), (0x180e, 0x180e),
  (0x2000, 0x200f), (0x2028, 0x202f), (0x205f, 0x2064), (0x2066, 0x206f), (0x3000, 0x3000),
  (0x3164, 0x3164), (0xe000, 0xf8ff), (0xfeff, 0xfeff), (0xffa0, 0xffa0), (0xfff9, 0xfffb),
  (0x110bd, 0x110bd), (0x110cd, 0x110cd), (0x13430, 0x1343f), (0x1bca0, 0x1bca3),
  (0x1d173, 0x1d17a), (0xe0001, 0xe0001), (0xe0020, 0xe007f), (0xf0000, 0xffffd),
  (0x100000, 0x10fffd)]

def within (ranges : List (Nat × Nat)) (c : Char) : Bool :=
  ranges.any fun (low, high) => low ≤ c.toNat ∧ c.toNat ≤ high

/-- **Whether a character is written by its number.**  In ASCII these are the controls. -/
def isHidden (c : Char) : Bool :=
  if c.toNat < 128 then c.toNat < 32 ∨ c.toNat = 127
  else within blankRanges c || within combiningRanges c || within unassignedRanges c

end RasterWarp.Text
