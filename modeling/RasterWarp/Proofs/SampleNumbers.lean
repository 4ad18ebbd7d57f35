/-
# The numbers of samples

What a `Binary64` stands for: a sign and the number of its pattern (`Binary64.value`), where
infinity counts as the power of two behind the greatest finite number.

* `round` gives the nearest integer, of two that are equally near the one away from zero
  (`nearestAway_round`), and that keeps the order of numbers (`NearestAway.mono`).
* An integer with few enough bits is a double, and so is what a double is rounded to
  (`ofInt_exact`, `ofInt_round`); integers that are not are turned into doubles in their order
  (`value_ofInt_mono`).

The magnitude of a double is the pattern without its sign, and `NearestPatterns` says which
magnitude an integer is given.
-/
import RasterWarp.Proofs.NearestPatterns
import RasterWarp.Binary.Binary64
import Mathlib

namespace RasterWarp

open Binary

/-! ## 1. The nearest integer -/

/-- **The integer nearest to a number,** and of two that are equally near the one further from
zero. -/
structure NearestAway (x : ℚ) (i : ℤ) : Prop where
  closest : ∀ j : ℤ, |x - i| ≤ |x - j|
  away : ∀ j : ℤ, j ≠ i → |x - j| = |x - i| → |j| < |i|

namespace NearestAway

variable {x y : ℚ} {i j : ℤ}

/-- Below zero it is the other way round. -/
theorem neg (h : NearestAway x i) : NearestAway (-x) (-i) := by
  have hflip : ∀ j : ℤ, |-x - j| = |x - (-j : ℤ)| := by
    intro j
    rw [← abs_neg, Int.cast_neg]
    congr 1
    ring
  refine ⟨fun j => ?_, fun j hne heq => ?_⟩
  · rw [hflip, hflip, neg_neg]
    exact h.closest (-j)
  · rw [hflip, hflip, neg_neg] at heq
    have hfurther := h.away (-j) (fun h' => hne (by omega)) heq
    rwa [abs_neg] at hfurther ⊢

/-- **Numbers are rounded in their order.** -/
theorem mono (hx : NearestAway x i) (hy : NearestAway y j) (h : x ≤ y) : i ≤ j := by
  by_contra hless
  have hlt : (j : ℚ) < i := by exact_mod_cast not_le.mp hless
  have hxi := hx.closest j
  have hyj := hy.closest i
  -- both numbers would be halfway between the integers
  have hmiddle : x = y := by
    have hxsq := sq_le_sq.mpr hxi
    have hysq := sq_le_sq.mpr hyj
    nlinarith
  subst hmiddle
  have hi := hx.away j (by omega) (le_antisymm hyj hxi)
  have hj := hy.away i (by omega) (le_antisymm hxi hyj)
  exact lt_asymm hi hj

/-- An integer is nearest to itself, -/
theorem self (i : ℤ) : NearestAway (i : ℚ) i := by
  refine ⟨fun j => ?_, fun j hne heq => ?_⟩
  · rw [sub_self, abs_zero]
    exact abs_nonneg _
  · rw [sub_self, abs_zero, abs_eq_zero, sub_eq_zero] at heq
    exact absurd (by exact_mod_cast heq.symm) hne

/-- and no other is. -/
theorem eq_of_int (h : NearestAway (i : ℚ) j) : j = i := by
  have hclose := h.closest i
  rw [sub_self, abs_zero, abs_nonpos_iff, sub_eq_zero] at hclose
  exact_mod_cast hclose.symm

end NearestAway

/-- **Half more, rounded down,** is the nearest of a number that is not negative. -/
theorem nearestAway_of_floor {x : ℚ} (hx : 0 ≤ x) {n : ℕ} (hlow : (n : ℚ) ≤ x + 1 / 2)
    (hhigh : x + 1 / 2 < n + 1) : NearestAway x n := by
  have hnear : |x - (n : ℤ)| ≤ 1 / 2 := by
    rw [Int.cast_natCast, abs_le]
    constructor <;> linarith
  have hfar : ∀ j : ℤ, j ≠ n →
      1 / 2 ≤ |x - j| ∧ (|x - j| = |x - (n : ℤ)| → |j| < |(n : ℤ)|) := by
    intro j hj
    rw [Int.cast_natCast] at hnear ⊢
    rcases Int.lt_or_gt_of_ne hj with hless | hmore
    · have hle : (j : ℚ) + 1 ≤ n := by exact_mod_cast hless
      rw [abs_of_nonneg (by linarith : 0 ≤ x - j)]
      refine ⟨by linarith, fun heq => ?_⟩
      -- equally near is halfway, which is above zero
      have hhalf : x - j = 1 / 2 := le_antisymm (heq ▸ hnear) (by linarith)
      have hpos : (-1 : ℚ) < j := by linarith
      have hj0 : 0 ≤ j := by
        have : (-1 : ℤ) < j := by exact_mod_cast hpos
        omega
      rw [abs_of_nonneg hj0, Nat.abs_cast]
      exact hless
    · have hle : (n : ℚ) + 1 ≤ j := by exact_mod_cast hmore
      rw [abs_of_neg (by linarith : x - j < 0)]
      exact ⟨by linarith, fun heq => absurd (heq.trans_le hnear) (by linarith)⟩
  refine ⟨fun j => ?_, fun j hne heq => (hfar j hne).2 heq⟩
  rcases eq_or_ne j n with rfl | hne
  · exact le_rfl
  · exact hnear.trans (hfar j hne).1

/-! ## 2. Signs and magnitudes -/

namespace Binary64

theorem magnitude_lt (v : Binary64) : v.magnitude < 2 ^ 63 := Nat.mod_lt _ (Nat.two_pow_pos 63)

theorem bits_ofParts (negative : Bool) {m : ℕ} (hm : m < 2 ^ 63) :
    (ofParts negative m).bits.toNat = (if negative then 2 ^ 63 else 0) + m := by
  show ((if negative then Nat.pow 2 63 else 0) + m) % 2 ^ 64 = _
  have hpow : Nat.pow 2 63 = 2 ^ 63 := rfl
  rw [hpow, Nat.mod_eq_of_lt]
  split <;> omega

theorem isNegative_iff {v : Binary64} : v.isNegative = true ↔ 2 ^ 63 ≤ v.bits.toNat :=
  decide_eq_true_iff

theorem isNegative_ofParts (negative : Bool) {m : ℕ} (hm : m < 2 ^ 63) :
    (ofParts negative m).isNegative = negative := by
  rw [Bool.eq_iff_iff, isNegative_iff, bits_ofParts negative hm]
  split
  · rename_i h
    exact iff_of_true (Nat.le_add_right ..) h
  · rename_i h
    exact iff_of_false (by omega) h

theorem magnitude_ofParts (negative : Bool) {m : ℕ} (hm : m < 2 ^ 63) :
    (ofParts negative m).magnitude = m := by
  have hpow : Nat.pow 2 63 = 2 ^ 63 := rfl
  rw [magnitude, bits_ofParts negative hm, hpow]
  split <;> omega

/-- A double is its sign and its magnitude. -/
theorem ofParts_eq (v : Binary64) : ofParts v.isNegative v.magnitude = v := by
  have hbits : v.bits.toNat < 2 ^ 64 := v.bits.toNat_lt
  have hmagnitude : v.magnitude = v.bits.toNat % 2 ^ 63 := rfl
  have hsame : (ofParts v.isNegative v.magnitude).bits.toNat = v.bits.toNat := by
    rw [bits_ofParts _ v.magnitude_lt]
    split
    · rename_i h
      have := isNegative_iff.mp h
      omega
    · rename_i h
      have := mt isNegative_iff.mpr h
      omega
  exact congrArg Binary64.mk (UInt64.toNat_inj.mp hsame)

theorem infinity_eq : double.infinity = 2047 * 2 ^ 52 := by decide

theorem infinity_lt : double.infinity < 2 ^ 63 := by decide

theorem isNaN_iff {v : Binary64} : v.isNaN = true ↔ double.infinity < v.magnitude :=
  decide_eq_true_iff

theorem isInfinite_iff {v : Binary64} : v.isInfinite = true ↔ v.magnitude = double.infinity :=
  decide_eq_true_iff

/-- **A double that stands for a number.** -/
def Finite (v : Binary64) : Prop := v.magnitude < double.infinity

theorem Finite.isNaN {v : Binary64} (h : v.Finite) : v.isNaN = false :=
  decide_eq_false (Nat.lt_asymm h)

theorem Finite.isInfinite {v : Binary64} (h : v.Finite) : v.isInfinite = false :=
  decide_eq_false (Nat.ne_of_lt h)

theorem isNaN_of_isInfinite {v : Binary64} (h : v.isInfinite = true) : v.isNaN = false :=
  decide_eq_false (isInfinite_iff.mp h ▸ Nat.lt_irrefl _)

/-- A double is undefined, infinite or a number. -/
theorem trichotomy (v : Binary64) : v.isNaN = true ∨ v.isInfinite = true ∨ v.Finite := by
  rcases Nat.lt_trichotomy double.infinity v.magnitude with h | h | h
  · exact .inl (isNaN_iff.mpr h)
  · exact .inr (.inl (isInfinite_iff.mpr h.symm))
  · exact .inr (.inr h)

/-! ## 3. What a double stands for -/

/-- **The number of a double,** with infinity as the power of two behind the greatest one. -/
def value (v : Binary64) : ℚ :=
  if v.isNegative then -double.value v.magnitude else double.value v.magnitude

theorem value_infinity : double.value double.infinity = 2 ^ 1024 := by
  have hparts : double.infinity = 2046 * double.span + double.span := by decide
  have hweight : (double.fractionBits : ℤ) + (double.lowest + (2046 : ℕ)) = (1024 : ℕ) := by decide
  rw [hparts, double.value_least, hweight, zpow_natCast]

theorem abs_value (v : Binary64) : |v.value| = double.value v.magnitude := by
  unfold value
  split
  · rw [abs_neg, abs_of_nonneg (double.value_nonneg _)]
  · rw [abs_of_nonneg (double.value_nonneg _)]

/-- A significand takes up no more than its bits. -/
theorem significand_lt (m : ℕ) : double.significand m < 2 ^ 53 := by
  have hspan : 2 * double.span = 2 ^ 53 := by decide
  obtain ⟨k, m, rfl, hm, hk⟩ := double.exists_parts m
  rw [(double.fields_parts hm hk).1]
  omega

/-! ## 4. Rounding to an integer -/

/-- **`round` gives the nearest integer.** -/
theorem nearestAway_round (v : Binary64) : NearestAway v.value v.round := by
  obtain ⟨m, hm⟩ : ∃ m, m = double.significand v.magnitude := ⟨_, rfl⟩
  obtain ⟨e, he⟩ : ∃ e, e = double.exponent v.magnitude := ⟨_, rfl⟩
  obtain ⟨whole, hwhole⟩ : ∃ whole, whole = if 0 ≤ e then m * Nat.pow 2 e.toNat
      else (2 * m + Nat.pow 2 (-e).toNat) / Nat.pow 2 ((-e).toNat + 1) := ⟨_, rfl⟩
  have hround : v.round = if v.isNegative then -(whole : ℤ) else whole := by
    rw [hwhole, hm, he]
    rfl
  have hnear : NearestAway (double.value v.magnitude) whole := by
    have hvalue : double.value v.magnitude = m * 2 ^ e := by
      rw [hm, he, Format.value]
    rcases le_or_gt 0 e with h | h
    · obtain ⟨n, rfl⟩ := Int.eq_ofNat_of_zero_le h
      rw [if_pos h, Int.toNat_natCast] at hwhole
      have hexact : double.value v.magnitude = whole := by
        rw [hvalue, hwhole, Nat.cast_mul, Format.cast_natPow]
      rw [hexact]
      exact nearestAway_of_floor (Nat.cast_nonneg _) (by linarith) (by linarith)
    · obtain ⟨n, hn⟩ := Int.eq_ofNat_of_zero_le (show 0 ≤ -e by omega)
      obtain rfl : e = -n := by omega
      rw [if_neg (by omega), neg_neg, Int.toNat_natCast] at hwhole
      have hhalf : double.value v.magnitude + 1 / 2
          = ((2 * m + Nat.pow 2 n : ℕ) : ℚ) / (Nat.pow 2 (n + 1) : ℕ) := by
        rw [hvalue, Nat.cast_add, Format.cast_natPow, Format.cast_natPow, Nat.cast_succ, zpow_neg,
          zpow_add_one₀ two_ne_zero]
        field_simp
        push_cast
        ring
      refine nearestAway_of_floor (double.value_nonneg _) ?_ ?_
      · rw [hhalf, hwhole]
        exact Nat.cast_div_le
      · rw [hhalf, hwhole, ← Nat.floor_div_eq_div (K := ℚ)]
        exact Nat.lt_floor_add_one _
  rw [hround, value]
  split
  · exact hnear.neg
  · exact hnear

/-! ## 5. Integers as doubles -/

theorem ofRatio_lt (num : ℕ) : double.ofRatio num 1 < 2 ^ 63 :=
  (double.ofRatio_nearest (by decide) num Nat.one_pos).le_infinity.trans_lt infinity_lt

theorem magnitude_ofInt (i : ℤ) : (ofInt i).magnitude = double.ofRatio i.natAbs 1 :=
  magnitude_ofParts _ (ofRatio_lt _)

theorem isNegative_ofInt (i : ℤ) : (ofInt i).isNegative = decide (i < 0) :=
  isNegative_ofParts _ (ofRatio_lt _)

/-- An integer becomes the double nearest to it. -/
theorem nearest_ofInt (i : ℤ) : double.Nearest |(i : ℚ)| (ofInt i).magnitude := by
  have habs : ((i.natAbs : ℕ) : ℚ) / (1 : ℕ) = |(i : ℚ)| := by
    rw [Nat.cast_one, div_one, Nat.cast_natAbs, Int.cast_abs]
  rw [magnitude_ofInt, ← habs]
  exact double.ofRatio_nearest (by decide) i.natAbs Nat.one_pos

/-- **An integer that has a pattern** becomes a double of that pattern. -/
theorem ofInt_of_value {i : ℤ} {p : ℕ} (hp : p < double.infinity) (h : double.value p = |(i : ℚ)|) :
    (ofInt i).Finite ∧ (ofInt i).magnitude = p ∧ (ofInt i).value = i := by
  have hnear := nearest_ofInt i
  rw [← h] at hnear
  have hpattern := hnear.eq_of_value hp.le
  refine ⟨hpattern.trans_lt hp, hpattern, ?_⟩
  simp only [value, isNegative_ofInt, hpattern, h, decide_eq_true_iff]
  split
  · rename_i hneg
    rw [abs_of_neg (by exact_mod_cast hneg), neg_neg]
  · rename_i hpos
    exact abs_of_nonneg (by exact_mod_cast not_lt.mp hpos)

/-- **An integer with few bits** is a double. -/
theorem ofInt_exact {i : ℤ} (hi : |(i : ℚ)| < 2 ^ 53) :
    (ofInt i).Finite ∧ (ofInt i).value = i := by
  have hspan : ((2 * double.span : ℕ) : ℚ) = 2 ^ 53 := by norm_cast
  have hlowest : double.lowest + (1074 : ℕ) = 0 := by decide
  obtain ⟨p, hp⟩ := double.exists_value_of_int (by rwa [hspan]) hlowest
  have hbelow : p < double.infinity := by
    refine double.value_strictMono.lt_iff_lt.mp ?_
    rw [hp, value_infinity]
    exact hi.trans (pow_lt_pow_right₀ one_lt_two (by omega))
  obtain ⟨hfinite, -, hvalue⟩ := ofInt_of_value hbelow hp
  exact ⟨hfinite, hvalue⟩

/-- **What a number is rounded to** is a double: it has few bits, or the number is an integer. -/
theorem ofInt_round {v : Binary64} (hv : v.Finite) :
    (ofInt v.round).Finite ∧ (ofInt v.round).value = v.round := by
  rcases lt_or_ge |v.value| (2 ^ 52) with hsmall | hlarge
  · refine ofInt_exact ?_
    have hclose := v.nearestAway_round.closest 0
    rw [Int.cast_zero, sub_zero, abs_sub_comm] at hclose
    have hsum := abs_sub_abs_le_abs_sub (v.round : ℚ) v.value
    linarith
  · -- a significand this large has no bits behind the point
    have hexponent : 0 ≤ double.exponent v.magnitude := by
      by_contra hneg
      have hhalf : (2 : ℚ) ^ double.exponent v.magnitude ≤ 2 ^ (-1 : ℤ) :=
        zpow_le_zpow_right₀ one_le_two (by omega)
      have hbits : (double.significand v.magnitude : ℚ) < 2 ^ 53 := by
        exact_mod_cast significand_lt v.magnitude
      have hweight : (0 : ℚ) < 2 ^ double.exponent v.magnitude := zpow_pos two_pos _
      rw [abs_value, Format.value] at hlarge
      have hless := mul_lt_mul_of_pos_right hbits hweight
      have hscaled := mul_le_mul_of_nonneg_left hhalf (by positivity : (0 : ℚ) ≤ 2 ^ 53)
      norm_num at hscaled
      linarith
    obtain ⟨n, hn⟩ := Int.eq_ofNat_of_zero_le hexponent
    obtain ⟨i, hi⟩ : ∃ i : ℤ, v.value = i := by
      have hwhole : double.value v.magnitude
          = ((double.significand v.magnitude * 2 ^ n : ℕ) : ℤ) := by
        rw [Format.value, hn, zpow_natCast]
        push_cast
        rfl
      rcases abs_eq (double.value_nonneg _) |>.mp v.abs_value with h | h
      · exact ⟨_, h.trans hwhole⟩
      · exact ⟨_, h.trans ((congrArg Neg.neg hwhole).trans (Int.cast_neg _).symm)⟩
    have hnear := v.nearestAway_round
    rw [hi] at hnear
    rw [hnear.eq_of_int]
    obtain ⟨hfinite, -, hvalue⟩ := ofInt_of_value hv (hi ▸ v.abs_value.symm)
    exact ⟨hfinite, hvalue⟩

/-- **Integers become doubles in their order.** -/
theorem value_ofInt_mono : Monotone fun i : ℤ => (ofInt i).value := by
  intro i j h
  rcases h.eq_or_lt with rfl | h
  · exact le_rfl
  have hlt : (i : ℚ) < j := by exact_mod_cast h
  have hmono := double.value_strictMono.monotone
  show (ofInt i).value ≤ (ofInt j).value
  simp only [value, isNegative_ofInt, decide_eq_true_iff]
  by_cases hi : i < 0
  · rw [if_pos hi]
    have hi' : (i : ℚ) < 0 := by exact_mod_cast hi
    by_cases hj : j < 0
    · have hj' : (j : ℚ) < 0 := by exact_mod_cast hj
      rw [if_pos hj, neg_le_neg_iff]
      refine hmono ((nearest_ofInt j).le_of_lt (nearest_ofInt i) ?_)
      rw [abs_of_neg hi', abs_of_neg hj']
      linarith
    · rw [if_neg hj]
      have hleft := double.value_nonneg (ofInt i).magnitude
      have hright := double.value_nonneg (ofInt j).magnitude
      linarith
  · have hi' : (0 : ℚ) ≤ i := by exact_mod_cast not_lt.mp hi
    rw [if_neg hi, if_neg (by omega)]
    refine hmono ((nearest_ofInt i).le_of_lt (nearest_ofInt j) ?_)
    rwa [abs_of_nonneg hi', abs_of_nonneg (hi'.trans hlt.le)]

/-- Sixty-four bits are far from infinity. -/
theorem finite_ofInt {i : ℤ} (hi : |(i : ℚ)| ≤ 2 ^ 64) : (ofInt i).Finite := by
  refine lt_of_le_of_ne (nearest_ofInt i).le_infinity fun hinf => ?_
  have hclose := (nearest_ofInt i).closest 0 (Nat.zero_le _)
  have hfar : (2 : ℚ) ^ 66 ≤ double.value double.infinity := by
    rw [value_infinity]
    exact pow_le_pow_right₀ one_le_two (by omega)
  rw [hinf, double.value_zero, sub_zero, abs_abs] at hclose
  have hbelow := (abs_le.mp hclose).1
  linarith

end Binary64
end RasterWarp
