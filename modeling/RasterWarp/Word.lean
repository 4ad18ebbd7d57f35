/-
# Sizes in machine words

Sizes, counts and indices are words of 64 bits.  Arithmetic on them is checked, as in builds with
overflow checks: a sum or a product that is not a word ends the computation.  A build without the
checks goes on with the remainder instead, of which nothing is said here.

`word?` is that check, on the number itself: what is computed in words is written as what is
computed in numbers, each step put through the check.

A buffer has less than `bufferBound` bytes.
-/
import RasterWarp.Decimal.Numeral

namespace RasterWarp

open Numeral (wordBound)

/-- **The number as a word,** if it is one. -/
def word? (n : Nat) : Option Nat := if n < wordBound then some n else none

@[simp] theorem word?_eq_some_iff {n m : Nat} : word? n = some m ↔ n < wordBound ∧ n = m := by
  simp [word?]

theorem word?_of_lt {n : Nat} (h : n < wordBound) : word? n = some n := if_pos h

/-- The first number of bytes that no buffer has. -/
def bufferBound : Nat := Nat.pow 2 63

theorem bufferBound_le_wordBound : bufferBound ≤ wordBound := by decide

end RasterWarp
