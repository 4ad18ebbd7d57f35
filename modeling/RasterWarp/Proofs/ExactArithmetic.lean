/-
# Numbers without rounding

`ExactScalar` reads every number of a type as a real number and says that the operations of the
type are those of the reals: nothing is rounded, no number is infinite or undefined.  What is
proved from it holds of the definitions that run, for numbers that behave as one expects of them.

Only the square root is left open: any function will do.  The real numbers are such a type
whatever their square root is (`Scalar.real`), and so are the rationals, which can be computed
with.
-/
import RasterWarp.Scalar
import Mathlib.Algebra.Order.Floor.Semiring
import Mathlib.Data.Rat.Floor
import Mathlib.Algebra.Order.Archimedean.Real.Basic
import Mathlib.Data.Rat.Cast.Order
import Mathlib.Tactic.Linarith
import Mathlib.Tactic.Ring

namespace RasterWarp

/-- **A number type that computes exactly,** with the real number that each of its values is. -/
class ExactScalar (α : Type) [Scalar α] where
  value : α → ℝ
  value_injective : Function.Injective value
  value_zero : value 0 = 0
  value_one : value 1 = 1
  value_ofNat : ∀ n, value (Scalar.ofNat n) = n
  value_ofScientific : ∀ m s e, value (OfScientific.ofScientific m s e : α)
    = OfScientific.ofScientific m s e
  value_add : ∀ a b, value (a + b) = value a + value b
  value_sub : ∀ a b, value (a - b) = value a - value b
  value_mul : ∀ a b, value (a * b) = value a * value b
  value_div : ∀ a b, value (a / b) = value a / value b
  value_neg : ∀ a, value (-a) = -value a
  lt_iff : ∀ a b : α, a < b ↔ value a < value b
  le_iff : ∀ a b : α, a ≤ b ↔ value a ≤ value b
  beq_iff : ∀ a b : α, (a == b) = true ↔ value a = value b
  trunc_eq : ∀ a : α, Scalar.trunc a = ⌊value a⌋₊

namespace ExactScalar

variable {α : Type} [Scalar α] [ExactScalar α]

attribute [simp] value_zero value_one value_ofNat value_ofScientific value_add value_sub value_mul
  value_div value_neg

/-- Equal numbers are equal as values of the type. -/
theorem eq_of_beq {a b : α} (h : (a == b) = true) : a = b :=
  value_injective ((beq_iff a b).mp h)

theorem beq_self (a : α) : (a == a) = true := (beq_iff a a).mpr rfl

theorem value_eq_zero_iff {a : α} : value a = 0 ↔ a = 0 :=
  ⟨fun h => value_injective (h.trans value_zero.symm), fun h => by rw [h, value_zero]⟩

@[simp] theorem bne_self (a : α) : (a != a) = false := by simp [bne, beq_self]

/-- No number is infinite. -/
@[simp] theorem isFinite_eq (a : α) : Scalar.isFinite a = true := by
  refine (beq_iff _ _).mpr ?_
  rw [value_sub, value_zero, sub_self]

@[simp] theorem value_min (a b : α) : value (Scalar.min a b) = min (value a) (value b) := by
  unfold Scalar.min
  simp only [bne_self, Bool.or_false, decide_eq_true_eq, le_iff]
  split
  · rename_i h
    exact (min_eq_left h).symm
  · rename_i h
    exact (min_eq_right (le_of_not_ge h)).symm

@[simp] theorem value_max (a b : α) : value (Scalar.max a b) = max (value a) (value b) := by
  unfold Scalar.max
  simp only [bne_self, Bool.or_false, decide_eq_true_eq, le_iff]
  split
  · rename_i h
    exact (max_eq_left h).symm
  · rename_i h
    exact (max_eq_right (le_of_not_ge h)).symm

@[simp] theorem value_abs (a : α) : value (Scalar.abs a) = |value a| := by
  unfold Scalar.abs
  simp only [lt_iff, value_zero]
  split
  · rename_i h
    rw [value_neg, abs_of_neg h]
  · rename_i h
    exact (abs_of_nonneg (not_lt.mp h)).symm

end ExactScalar

/-! ## The reals and the rationals -/

/-- The real numbers, with any function for the square root. -/
@[reducible]
noncomputable def Scalar.real (sqrt : ℝ → ℝ) : Scalar ℝ where
  beq a b := decide (a = b)
  decLt := inferInstance
  decLe := inferInstance
  ofNat n := n
  trunc a := ⌊a⌋₊
  sqrt
  top? := none

/-- **The real numbers compute exactly.** -/
@[reducible]
noncomputable def ExactScalar.real (sqrt : ℝ → ℝ) : @ExactScalar ℝ (Scalar.real sqrt) :=
  let _ := Scalar.real sqrt
  { value := id
    value_injective := fun _ _ h => h
    value_zero := rfl
    value_one := rfl
    value_ofNat := fun _ => rfl
    value_ofScientific := fun _ _ _ => rfl
    value_add := fun _ _ => rfl
    value_sub := fun _ _ => rfl
    value_mul := fun _ _ => rfl
    value_div := fun _ _ => rfl
    value_neg := fun _ => rfl
    lt_iff := fun _ _ => Iff.rfl
    le_iff := fun _ _ => Iff.rfl
    beq_iff := fun _ _ => decide_eq_true_iff
    trunc_eq := fun _ => rfl }

/-- The rationals, with the root of the nearest lower fraction of squares. -/
instance : Scalar ℚ where
  decLt := inferInstance
  decLe := inferInstance
  ofNat n := n
  trunc a := ⌊a⌋₊
  sqrt a := (a.num.toNat.sqrt : ℚ) / (a.den.sqrt : ℚ)
  top? := none

/-- **The rationals compute exactly.** -/
noncomputable instance : ExactScalar ℚ where
  value a := a
  value_injective := Rat.cast_injective
  value_zero := Rat.cast_zero
  value_one := Rat.cast_one
  value_ofNat n := Rat.cast_natCast n
  value_ofScientific m s e := Rat.cast_ofScientific m s e
  value_add := Rat.cast_add
  value_sub := Rat.cast_sub
  value_mul := Rat.cast_mul
  value_div := Rat.cast_div
  value_neg := Rat.cast_neg
  lt_iff _ _ := Rat.cast_lt.symm
  le_iff _ _ := Rat.cast_le.symm
  beq_iff _ _ := beq_iff_eq.trans Rat.cast_inj.symm
  trunc_eq a := by
    show ⌊a⌋.toNat = ⌊(a : ℝ)⌋.toNat
    rw [Rat.floor_cast]

end RasterWarp
