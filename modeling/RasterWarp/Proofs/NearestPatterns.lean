/-
# The pattern nearest to a number

A pattern without its sign stands for a number (`Format.value`), and greater patterns stand for
greater numbers.  The pattern of infinity counts here as the power of two that follows the greatest
finite number, which is where rounding goes over to it.

* Patterns that share a weight are neighbours at a distance of that weight, and this goes on by one
  at each end (`value_parts`): where a significand has grown to twice its least size, it is the
  least one of the next weight.
* `ofRatio_nearest`: the pattern that `ofRatio` finds is the nearest of all up to infinity, and an
  even one where two are equally near.  `Nearest` says so without any of the steps of `ofRatio`.
* So a number that has a pattern is given that pattern (`Nearest.eq_of_value`), and those are the
  numbers of few enough bits (`exists_value`).
-/
import RasterWarp.Binary.Format
import Mathlib.Algebra.Order.Field.Power
import Mathlib.Data.Nat.Log
import Mathlib.Data.Rat.Floor
import Mathlib.Order.Monotone.Basic
import Mathlib.Tactic.FieldSimp
import Mathlib.Tactic.Linarith
import Mathlib.Tactic.Positivity
import Mathlib.Tactic.Ring

namespace RasterWarp.Binary

/-! ## 1. Rounding a quotient to an integer -/

/-- **The integer that a quotient is rounded to** is at most a half away, and even if it is a half
away. -/
theorem nearestEven_near (num : ℕ) {den : ℕ} (hden : 0 < den) :
    |(num : ℚ) / den - nearestEven num den| ≤ 1 / 2 ∧
      (|(num : ℚ) / den - nearestEven num den| = 1 / 2 → nearestEven num den % 2 = 0) := by
  have hpos : (0 : ℚ) < den := by exact_mod_cast hden
  have hsplit : (num : ℚ) / den = (num / den : ℕ) + (num % den : ℕ) / (den : ℚ) := by
    field_simp
    exact_mod_cast (Nat.div_add_mod num den).symm
  have hlow : (0 : ℚ) ≤ (num % den : ℕ) / (den : ℚ) := by positivity
  unfold nearestEven
  simp only
  split
  · rename_i h
    have hless : ((num % den : ℕ) : ℚ) / den < 1 / 2 := by
      rw [div_lt_iff₀ hpos]
      have : (2 : ℚ) * (num % den : ℕ) < den := by exact_mod_cast h
      linarith
    rw [hsplit, add_sub_cancel_left, abs_of_nonneg hlow]
    exact ⟨hless.le, fun heq => absurd heq hless.ne⟩
  · split
    · rename_i h
      have hmore : 1 / 2 < ((num % den : ℕ) : ℚ) / den := by
        rw [lt_div_iff₀ hpos]
        have : (den : ℚ) < 2 * (num % den : ℕ) := by exact_mod_cast h
        linarith
      have hone : ((num % den : ℕ) : ℚ) / den < 1 := by
        rw [div_lt_one hpos]
        exact_mod_cast Nat.mod_lt num hden
      rw [hsplit, Nat.cast_add, Nat.cast_one, abs_of_nonpos (by linarith)]
      exact ⟨by linarith, fun heq => by linarith⟩
    · rename_i h h'
      have hhalf : ((num % den : ℕ) : ℚ) / den = 1 / 2 := by
        rw [div_eq_iff hpos.ne']
        have : (2 : ℚ) * (num % den : ℕ) = den := by
          exact_mod_cast show 2 * (num % den) = den by omega
        linarith
      rw [hsplit, hhalf]
      rcases Nat.mod_two_eq_zero_or_one (num / den) with heven | hodd
      · rw [heven, Nat.add_zero, add_sub_cancel_left]
        norm_num
        exact heven
      · rw [hodd, Nat.cast_add, Nat.cast_one]
        norm_num
        omega

namespace Format

variable (f : Format)

/-! ## 2. The numbers that patterns stand for -/

/-- How many patterns share a weight. -/
def span : ℕ := 2 ^ f.fractionBits

theorem span_pos : 0 < f.span := Nat.two_pow_pos _

theorem span_mul_zpow (e : ℤ) : (f.span : ℚ) * 2 ^ e = 2 ^ (f.fractionBits + e) := by
  rw [zpow_add₀ two_ne_zero, zpow_natCast]
  push_cast [span]
  rfl

/-- **What a pattern stands for.** -/
def value (pattern : ℕ) : ℚ := f.significand pattern * 2 ^ f.exponent pattern

/-- Where a significand and its weight stand in a pattern.  At the least weight a significand may be
less than the least of the others. -/
theorem fields_parts {k m : ℕ} (hm : m < 2 * f.span) (hk : k = 0 ∨ f.span ≤ m) :
    f.significand (k * f.span + m) = m ∧ f.exponent (k * f.span + m) = f.lowest + k := by
  have hspan := f.span_pos
  have hpow : Nat.pow 2 f.fractionBits = f.span := rfl
  unfold significand exponent
  rw [hpow]
  by_cases hlow : k * f.span + m < f.span
  · have hzero : k = 0 := by
      rcases hk with hk | hk
      · exact hk
      · omega
    subst hzero
    rw [if_pos hlow, if_pos hlow]
    simp
  · have hmore : f.span ≤ m := by
      rcases hk with rfl | hk
      · omega
      · exact hk
    obtain ⟨r, rfl⟩ := Nat.exists_eq_add_of_le hmore
    have hsum : k * f.span + (f.span + r) = r + f.span * (k + 1) := by ring
    rw [if_neg hlow, if_neg hlow, hsum, Nat.add_mul_mod_self_left, Nat.add_mul_div_left _ _ hspan,
      Nat.mod_eq_of_lt (by omega), Nat.div_eq_of_lt (by omega)]
    refine ⟨rfl, ?_⟩
    push_cast
    ring

/-- **A significand of any weight,** up to twice the least of that weight. -/
theorem value_parts {k m : ℕ} (hm : m ≤ 2 * f.span) (hk : k = 0 ∨ f.span ≤ m) :
    f.value (k * f.span + m) = m * 2 ^ (f.lowest + k) := by
  have hspan := f.span_pos
  rcases hm.lt_or_eq with hbelow | rfl
  · obtain ⟨hsignificand, hexponent⟩ := f.fields_parts hbelow hk
    rw [value, hsignificand, hexponent]
  · -- it is the least of the next weight
    obtain ⟨hsignificand, hexponent⟩ :=
      f.fields_parts (k := k + 1) (m := f.span) (by omega) (.inr le_rfl)
    have hsum : k * f.span + 2 * f.span = (k + 1) * f.span + f.span := by ring
    rw [value, hsum, hsignificand, hexponent, Nat.cast_succ, ← add_assoc,
      zpow_add_one₀ two_ne_zero]
    push_cast
    ring

/-- The least significand of a weight stands for a power of two. -/
theorem value_least (k : ℕ) :
    f.value (k * f.span + f.span) = 2 ^ (f.fractionBits + (f.lowest + k)) := by
  rw [f.value_parts (Nat.le_mul_of_pos_left _ two_pos) (.inr le_rfl), f.span_mul_zpow]

/-- Every pattern has such parts. -/
theorem exists_parts (p : ℕ) :
    ∃ k m, p = k * f.span + m ∧ m < 2 * f.span ∧ (k = 0 ∨ f.span ≤ m) := by
  have hspan := f.span_pos
  rcases Nat.lt_or_ge p f.span with h | h
  · exact ⟨0, p, by omega, by omega, .inl rfl⟩
  · have hdiv := Nat.div_add_mod p f.span
    have hmod := Nat.mod_lt p hspan
    have hone : 1 ≤ p / f.span := Nat.div_pos h hspan
    obtain ⟨k, hk⟩ := Nat.exists_eq_add_of_le hone
    refine ⟨k, f.span + p % f.span, ?_, by omega, .inr (Nat.le_add_right ..)⟩
    rw [hk] at hdiv
    calc p = f.span * (1 + k) + p % f.span := hdiv.symm
      _ = k * f.span + (f.span + p % f.span) := by ring

/-- **Greater patterns stand for greater numbers.** -/
theorem value_strictMono : StrictMono f.value := by
  refine strictMono_nat_of_lt_succ fun p => ?_
  obtain ⟨k, m, rfl, hm, hk⟩ := f.exists_parts p
  have hweight : (0 : ℚ) < 2 ^ (f.lowest + k) := zpow_pos two_pos _
  rw [f.value_parts hm.le hk, Nat.add_assoc, f.value_parts (Nat.succ_le_of_lt hm) (by omega)]
  push_cast
  linarith

theorem value_zero : f.value 0 = 0 := by
  have h := f.value_parts (k := 0) (m := 0) (Nat.zero_le _) (.inl rfl)
  simpa using h

theorem value_nonneg (p : ℕ) : 0 ≤ f.value p := by
  rw [← f.value_zero]
  exact f.value_strictMono.monotone (Nat.zero_le p)

/-- **Numbers of few enough bits have patterns.**  By induction on how far the exponent is above the
least one: where the significand leaves room, it takes up one more factor of two. -/
theorem exists_value {m : ℕ} (hm : m < 2 * f.span) (k : ℕ) :
    ∃ p, f.value p = m * 2 ^ (f.lowest + k) := by
  induction k generalizing m with
  | zero => exact ⟨_, f.value_parts hm.le (.inl rfl)⟩
  | succ k ih =>
    rcases Nat.lt_or_ge m f.span with hless | hmore
    · obtain ⟨p, hp⟩ := ih (m := 2 * m) (by omega)
      refine ⟨p, ?_⟩
      rw [hp]
      push_cast
      rw [← add_assoc, zpow_add₀ two_ne_zero _ 1, zpow_one]
      ring
    · exact ⟨_, f.value_parts hm.le (.inr hmore)⟩

/-- Among them are the integers below twice the span, if the weight of one is not below the
least. -/
theorem exists_value_of_int {i : ℤ} (hi : |(i : ℚ)| < (2 * f.span : ℕ)) {k : ℕ}
    (hk : f.lowest + k = 0) : ∃ p, f.value p = |(i : ℚ)| := by
  have hcast : ((i.natAbs : ℕ) : ℚ) = |(i : ℚ)| := by rw [Nat.cast_natAbs, Int.cast_abs]
  obtain ⟨p, hp⟩ := f.exists_value (m := i.natAbs) (by exact_mod_cast hcast.trans_lt hi) k
  exact ⟨p, by rw [hp, hk, zpow_zero, mul_one, hcast]⟩

/-! ## 3. The nearest pattern -/

/-- **The pattern nearest to a number,** of all up to that of infinity, and an even one of two that
are equally near. -/
structure Nearest (x : ℚ) (p : ℕ) : Prop where
  le_infinity : p ≤ f.infinity
  closest : ∀ q ≤ f.infinity, |x - f.value p| ≤ |x - f.value q|
  even : ∀ q ≤ f.infinity, q ≠ p → |x - f.value q| = |x - f.value p| → p % 2 = 0

variable {f}

/-- **A number that has a pattern** is nearest to that one only. -/
theorem Nearest.eq_of_value {p q : ℕ} (h : f.Nearest (f.value p) q) (hp : p ≤ f.infinity) :
    q = p := by
  have hclose := h.closest p hp
  rw [sub_self, abs_zero, abs_nonpos_iff, sub_eq_zero] at hclose
  exact (f.value_strictMono.injective hclose).symm

/-- **Of two numbers the greater** has no lesser pattern. -/
theorem Nearest.le_of_lt {x y : ℚ} {p q : ℕ} (hp : f.Nearest x p) (hq : f.Nearest y q)
    (h : x < y) : p ≤ q := by
  by_contra hless
  have hvalue := f.value_strictMono (not_le.mp hless)
  have hx := sq_le_sq.mpr (hp.closest q hq.le_infinity)
  have hy := sq_le_sq.mpr (hq.closest p hp.le_infinity)
  nlinarith

variable (f)

/-- The next pattern is further by the weight, also where a significand is carried. -/
theorem le_value_succ {k m : ℕ} (hm : m ≤ 2 * f.span) (hk : k = 0 ∨ f.span ≤ m) :
    (m + 1) * 2 ^ (f.lowest + k) ≤ f.value (k * f.span + m + 1) := by
  have hspan := f.span_pos
  have hweight : (0 : ℚ) < 2 ^ (f.lowest + k) := zpow_pos two_pos _
  rcases Nat.lt_or_ge m (2 * f.span) with h | h
  · rw [Nat.add_assoc, f.value_parts (Nat.succ_le_of_lt h) (by omega), Nat.cast_succ]
  · obtain rfl : m = 2 * f.span := by omega
    have hcarried : k * f.span + 2 * f.span + 1 = (k + 1) * f.span + (f.span + 1) := by ring
    rw [hcarried, f.value_parts (by omega) (.inr (by omega)), Nat.cast_succ k, ← add_assoc,
      zpow_add_one₀ two_ne_zero]
    push_cast
    linarith

/-- **A significand to which a number is rounded** gives the nearest of all patterns, if the number
is not below those of its weight. -/
theorem value_near {x : ℚ} {k m : ℕ} (hm : m ≤ 2 * f.span)
    (hk : k = 0 ∨ f.span * 2 ^ (f.lowest + k) ≤ x)
    (hnear : |x / 2 ^ (f.lowest + k) - m| ≤ 1 / 2) {q : ℕ} (hq : q ≠ k * f.span + m) :
    |x - f.value (k * f.span + m)| ≤ |x - f.value q| ∧
      (|x - f.value q| = |x - f.value (k * f.span + m)| →
        |x / 2 ^ (f.lowest + k) - m| = 1 / 2) := by
  have hweight : (0 : ℚ) < 2 ^ (f.lowest + k) := zpow_pos two_pos _
  have hnext := f.le_value_succ hm (k := k)
  have hparts := f.value_parts hm (k := k)
  have hbefore : ∀ {m' : ℕ}, m' ≤ 2 * f.span → (k = 0 ∨ f.span ≤ m') →
      f.value (k * f.span + m') = m' * 2 ^ (f.lowest + k) := f.value_parts
  generalize (2 : ℚ) ^ (f.lowest + k) = u at *
  obtain ⟨t, rfl⟩ : ∃ t, x = t * u := ⟨x / u, (div_mul_cancel₀ x hweight.ne').symm⟩
  rw [mul_div_cancel_right₀ t hweight.ne'] at hnear ⊢
  obtain ⟨hleft, hright⟩ := abs_le.mp hnear
  have hk' : k = 0 ∨ (f.span : ℚ) ≤ t := hk.imp_right fun h => le_of_mul_le_mul_right h hweight
  have hspan : k = 0 ∨ f.span ≤ m := by
    refine hk'.imp_right fun h => ?_
    have hlt : (f.span : ℚ) < (m + 1 : ℕ) := by
      push_cast
      linarith
    exact Nat.lt_succ_iff.mp (by exact_mod_cast hlt)
  rw [hparts hspan]
  have hdist : |t * u - m * u| = |t - m| * u := by
    rw [← sub_mul, abs_mul, abs_of_pos hweight]
  -- another pattern is half a weight away, or the number lies on the far side of the nearest
  have hfar : 1 / 2 * u ≤ |t * u - f.value q| ∨ |t - m| * u < |t * u - f.value q| := by
    rcases Nat.lt_or_gt_of_ne hq with hless | hmore
    · rcases le_or_gt (m : ℚ) t with hover | hunder
      · right
        have hbelow := f.value_strictMono hless
        rw [hparts hspan] at hbelow
        have hplace := mul_le_mul_of_nonneg_right hover hweight.le
        rw [← hdist, abs_of_nonneg (by linarith), abs_of_nonneg (by linarith)]
        linarith
      · left
        have hroom : 1 ≤ m ∧ (k = 0 ∨ f.span ≤ m - 1) := by
          rcases hk' with rfl | h
          · exact ⟨by omega, .inl rfl⟩
          · have hlt : f.span < m := by exact_mod_cast h.trans_lt hunder
            exact ⟨by omega, .inr (by omega)⟩
        obtain ⟨m', rfl⟩ := Nat.exists_eq_add_of_le' hroom.1
        have hle := f.value_strictMono.monotone (show q ≤ k * f.span + m' by omega)
        rw [hbefore (by omega) (by simpa using hroom.2)] at hle
        push_cast at hleft
        have hhalf := mul_le_mul_of_nonneg_right (show 1 / 2 ≤ t - m' by linarith) hweight.le
        exact le_abs.mpr (.inl (by linarith))
    · left
      have hle := (hnext hspan).trans
        (f.value_strictMono.monotone (show k * f.span + m + 1 ≤ q by omega))
      have hhalf := mul_le_mul_of_nonneg_right (show 1 / 2 ≤ m + 1 - t by linarith) hweight.le
      exact le_abs.mpr (.inr (by linarith))
  rw [hdist]
  have hscaled := mul_le_mul_of_nonneg_right hnear hweight.le
  rcases hfar with h | h
  · refine ⟨hscaled.trans h, fun heq => le_antisymm hnear ?_⟩
    rw [heq] at h
    exact le_of_mul_le_mul_right h hweight
  · exact ⟨h.le, fun heq => absurd heq h.ne'⟩

/-! ## 4. What `ofRatio` finds -/

theorem cast_natPow (n : ℕ) : ((Nat.pow 2 n : ℕ) : ℚ) = 2 ^ (n : ℤ) := by
  rw [zpow_natCast]
  exact Nat.cast_pow 2 n

/-- A quotient divided by a power of two, as a quotient of naturals. -/
theorem div_zpow_cases (num den : ℕ) (e : ℤ) :
    (num : ℚ) / den / 2 ^ e = if 0 ≤ e then (num : ℚ) / (den * Nat.pow 2 e.toNat : ℕ)
      else ((num * Nat.pow 2 (-e).toNat : ℕ) : ℚ) / den := by
  rcases le_or_gt 0 e with h | h
  · obtain ⟨n, rfl⟩ := Int.eq_ofNat_of_zero_le h
    rw [if_pos h, div_div, Int.toNat_natCast, Nat.cast_mul, cast_natPow]
  · obtain ⟨n, hn⟩ := Int.eq_ofNat_of_zero_le (show 0 ≤ -e by omega)
    obtain rfl : e = -n := by omega
    rw [if_neg (by omega), zpow_neg, div_inv_eq_mul, neg_neg, Int.toNat_natCast,
      div_mul_eq_mul_div, Nat.cast_mul, cast_natPow]

/-- A power of two lies around every number above zero. -/
theorem zpow_log2_le {n : ℕ} (hn : 0 < n) :
    (2 : ℚ) ^ (n.log2 : ℤ) ≤ n ∧ (n : ℚ) < 2 ^ ((n.log2 : ℤ) + 1) := by
  have hlow : (2 : ℚ) ^ n.log2 ≤ n := by exact_mod_cast Nat.log2_self_le hn.ne'
  have hhigh : (n : ℚ) < 2 ^ (n.log2 + 1) := by exact_mod_cast Nat.lt_log2_self
  refine ⟨by rwa [zpow_natCast], ?_⟩
  have hcast : ((n.log2 : ℤ) + 1) = (n.log2 + 1 : ℕ) := by push_cast; rfl
  rwa [hcast, zpow_natCast]

/-- **The power of two that a quotient reaches.** -/
theorem floorLog2_spec {num den : ℕ} (hnum : 0 < num) (hden : 0 < den) :
    (2 : ℚ) ^ floorLog2 num den ≤ num / den ∧ (num : ℚ) / den < 2 ^ (floorLog2 num den + 1) := by
  have hpos : (0 : ℚ) < den := by exact_mod_cast hden
  obtain ⟨hnumlow, hnumhigh⟩ := zpow_log2_le hnum
  obtain ⟨hdenlow, hdenhigh⟩ := zpow_log2_le hden
  obtain ⟨k, hk⟩ : ∃ k : ℤ, k = (num.log2 : ℤ) - den.log2 := ⟨_, rfl⟩
  have hreached : (if 0 ≤ k then den * Nat.pow 2 k.toNat ≤ num
      else den ≤ num * Nat.pow 2 (-k).toNat) ↔ (2 : ℚ) ^ k ≤ num / den := by
    have hone : (2 : ℚ) ^ k ≤ num / den ↔ 1 ≤ (num : ℚ) / den / 2 ^ k :=
      (one_le_div (zpow_pos two_pos k)).symm
    rw [hone, div_zpow_cases]
    split
    · rw [one_le_div (by exact_mod_cast Nat.mul_pos hden (Nat.two_pow_pos _)), Nat.cast_le]
    · rw [one_le_div hpos, Nat.cast_le]
  have hbelow : (num : ℚ) / den < 2 ^ (k + 1) := by
    rw [div_lt_iff₀ hpos]
    calc (num : ℚ) < 2 ^ ((num.log2 : ℤ) + 1) := hnumhigh
      _ = 2 ^ (k + 1) * 2 ^ (den.log2 : ℤ) := by
        rw [← zpow_add₀ two_ne_zero]
        congr 1
        omega
      _ ≤ 2 ^ (k + 1) * den := mul_le_mul_of_nonneg_left hdenlow (zpow_pos two_pos _).le
  have habove : (2 : ℚ) ^ (k - 1) ≤ num / den := by
    rw [le_div_iff₀ hpos]
    calc (2 : ℚ) ^ (k - 1) * den ≤ 2 ^ (k - 1) * 2 ^ ((den.log2 : ℤ) + 1) :=
          mul_le_mul_of_nonneg_left hdenhigh.le (zpow_pos two_pos _).le
      _ = 2 ^ (num.log2 : ℤ) := by
        rw [← zpow_add₀ two_ne_zero]
        congr 1
        omega
      _ ≤ num := hnumlow
  have hfloor : floorLog2 num den = if (if 0 ≤ k then den * Nat.pow 2 k.toNat ≤ num
      else den ≤ num * Nat.pow 2 (-k).toNat) then k else k - 1 := by
    rw [hk]
    rfl
  rw [hfloor]
  by_cases h : (2 : ℚ) ^ k ≤ num / den
  · rw [if_pos (hreached.mpr h)]
    exact ⟨h, hbelow⟩
  · rw [if_neg (fun h' => h (hreached.mp h')), sub_add_cancel]
    exact ⟨habove, not_le.mp h⟩

/-- Infinity is the nearest for all that is nearer to a pattern behind it. -/
theorem Nearest.infinity {x : ℚ} {p : ℕ} (hp : f.infinity < p)
    (h : |x - f.value p| ≤ |x - f.value f.infinity|) : f.Nearest x f.infinity := by
  have hlt := f.value_strictMono hp
  have hover : f.value f.infinity < x := by
    by_contra hunder
    rw [not_lt] at hunder
    rw [abs_of_nonpos (by linarith), abs_of_nonpos (by linarith)] at h
    linarith
  have hcloser : ∀ q < f.infinity, |x - f.value f.infinity| < |x - f.value q| := by
    intro q hq
    have hbelow := f.value_strictMono hq
    rw [abs_of_pos (by linarith), abs_of_pos (by linarith)]
    linarith
  refine ⟨le_rfl, fun q hq => ?_, fun q hq hne heq => ?_⟩
  · rcases hq.eq_or_lt with rfl | hq
    · exact le_rfl
    · exact (hcloser q hq).le
  · exact absurd heq (hcloser q (lt_of_le_of_ne hq hne)).ne'

/-- **The pattern that is found for a quotient is the nearest.** -/
theorem ofRatio_nearest (hfraction : 0 < f.fractionBits) (num : ℕ) {den : ℕ} (hden : 0 < den) :
    f.Nearest ((num : ℚ) / den) (f.ofRatio num den) := by
  rcases Nat.eq_zero_or_pos num with rfl | hnum
  · have hzero : f.ofRatio 0 den = 0 := rfl
    rw [hzero, Nat.cast_zero, zero_div]
    refine ⟨Nat.zero_le _, fun q _ => ?_, fun _ _ _ _ => rfl⟩
    rw [f.value_zero, sub_self, abs_zero]
    exact abs_nonneg _
  obtain ⟨hlow, hhigh⟩ := floorLog2_spec hnum hden
  obtain ⟨e, he⟩ : ∃ e, e = max (floorLog2 num den - f.fractionBits) f.lowest := ⟨_, rfl⟩
  obtain ⟨k, hk⟩ : ∃ k : ℕ, e = f.lowest + k :=
    ⟨(e - f.lowest).toNat, by omega⟩
  obtain ⟨m, hm⟩ : ∃ m, m = if 0 ≤ e then nearestEven num (den * Nat.pow 2 e.toNat)
      else nearestEven (num * Nat.pow 2 (-e).toNat) den := ⟨_, rfl⟩
  have hratio : f.ofRatio num den = min (k * f.span + m) f.infinity := by
    have hunfold : f.ofRatio num den
        = min ((e - f.lowest).toNat * Nat.pow 2 f.fractionBits + m) f.infinity := by
      rw [hm, he, ofRatio, if_neg hnum.ne']
    rw [hunfold, show (e - f.lowest).toNat = k by omega]
    rfl
  -- the significand is the quotient rounded at its weight
  have hround : |(num : ℚ) / den / 2 ^ e - m| ≤ 1 / 2 ∧
      (|(num : ℚ) / den / 2 ^ e - m| = 1 / 2 → m % 2 = 0) := by
    rw [div_zpow_cases, hm]
    split
    · exact nearestEven_near num (Nat.mul_pos hden (Nat.two_pow_pos _))
    · exact nearestEven_near _ hden
  have hweight : (0 : ℚ) < 2 ^ e := zpow_pos two_pos e
  have hspan := f.span_mul_zpow e
  have hbelow : (num : ℚ) / den / 2 ^ e < 2 * f.span := by
    rw [div_lt_iff₀ hweight, mul_assoc, hspan, ← zpow_one_add₀ two_ne_zero]
    exact hhigh.trans_le (zpow_le_zpow_right₀ one_le_two (by omega))
  have hfits : m ≤ 2 * f.span := by
    have hlt : (m : ℚ) < (2 * f.span + 1 : ℕ) := by
      have := (abs_le.mp hround.1).1
      push_cast
      linarith
    exact Nat.lt_succ_iff.mp (by exact_mod_cast hlt)
  have hreached : k = 0 ∨ f.span * 2 ^ (f.lowest + k) ≤ (num : ℚ) / den := by
    rcases Nat.eq_zero_or_pos k with hzero | hpos
    · exact .inl hzero
    · refine .inr ?_
      rw [← hk, hspan, show (f.fractionBits : ℤ) + e = floorLog2 num den by omega]
      exact hlow
  rw [hk] at hround
  have hnear := fun {q} => f.value_near (q := q) hfits hreached hround.1
  rw [hratio]
  rcases Nat.lt_or_ge f.infinity (k * f.span + m) with hover | hunder
  · rw [Nat.min_eq_right hover.le]
    exact Nearest.infinity f hover (hnear hover.ne).1
  · rw [Nat.min_eq_left hunder]
    refine ⟨hunder, fun q _ => ?_, fun q _ hne heq => ?_⟩
    · rcases eq_or_ne q (k * f.span + m) with rfl | hne
      · exact le_rfl
      · exact (hnear hne).1
    · have heven := hround.2 ((hnear hne).2 heq)
      obtain ⟨b, hb⟩ := Nat.exists_eq_add_of_le' hfraction
      have hspaneven : f.span = 2 * 2 ^ b := by rw [span, hb, Nat.pow_succ, Nat.mul_comm]
      rw [hspaneven, Nat.mul_left_comm, Nat.mul_add_mod, heven]

/-- The same of a significand and an exponent. -/
theorem ofDyadic_nearest (hfraction : 0 < f.fractionBits) (m : ℕ) (e : ℤ) :
    f.Nearest (m * 2 ^ e) (f.ofDyadic m e) := by
  unfold ofDyadic
  rcases le_or_gt 0 e with h | h
  · obtain ⟨n, rfl⟩ := Int.eq_ofNat_of_zero_le h
    have hvalue : (m : ℚ) * 2 ^ (n : ℤ) = ((m * Nat.pow 2 n : ℕ) : ℚ) / (1 : ℕ) := by
      rw [Nat.cast_one, div_one, Nat.cast_mul, cast_natPow]
    rw [if_pos h, hvalue]
    exact f.ofRatio_nearest hfraction _ Nat.one_pos
  · obtain ⟨n, hn⟩ := Int.eq_ofNat_of_zero_le (show 0 ≤ -e by omega)
    obtain rfl : e = -n := by omega
    have hvalue : (m : ℚ) * 2 ^ (-(n : ℤ)) = (m : ℚ) / (Nat.pow 2 n : ℕ) := by
      rw [zpow_neg, ← div_eq_mul_inv, cast_natPow]
    rw [if_neg (by omega), hvalue, neg_neg, Int.toNat_natCast]
    exact f.ofRatio_nearest hfraction _ (Nat.two_pow_pos _)

end Format
end RasterWarp.Binary
