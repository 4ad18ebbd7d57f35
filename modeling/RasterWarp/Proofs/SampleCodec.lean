/-
# Encoding and decoding samples

A value goes through a number format in both directions.

* An integer format holds every integer of its range as itself (`decode_encode`), and its patterns
  are those of the integers in it (`encode_decode`).
* Between single and double precision only the magnitude changes (`narrowed`, `widened`).  To widen
  is exact (`value_widened`), so it is undone by narrowing (`narrowed_widened`), and narrowing a
  magnitude that is that of a single is undone by widening (`widened_narrowed`).
* The bytes of a sample are those of its pattern (`SampleType.decode_encode`).
-/
import RasterWarp.Proofs.SampleNumbers
import RasterWarp.Sample
import Mathlib

namespace RasterWarp

open Binary

/-! ## 1. Bytes of numbers -/

namespace Bytes

theorem toNat_lt (l : List UInt8) : toNat l < 256 ^ l.length := by
  induction l with
  | nil => exact Nat.one_pos
  | cons byte rest ih =>
    have hbyte : byte.toNat < 256 := byte.toNat_lt
    rw [toNat, List.length_cons, Nat.pow_succ]
    omega

/-- **The bytes of a number** spell what of it there is room for. -/
theorem toNat_ofNat (size n : ℕ) : toNat (ofNat size n) = n % 256 ^ size := by
  induction size generalizing n with
  | zero => exact (Nat.mod_one n).symm
  | succ size ih =>
    have hbyte : n.toUInt8.toNat = n % 256 := rfl
    rw [ofNat, toNat, ih, hbyte, Nat.pow_succ', Nat.mod_mul]

/-- What bytes spell has those bytes. -/
theorem ofNat_toNat (l : List UInt8) : ofNat l.length (toNat l) = l := by
  induction l with
  | nil => rfl
  | cons byte rest ih =>
    have hbyte : byte.toNat < 256 := byte.toNat_lt
    have hrest : (byte.toNat + 256 * toNat rest) / 256 = toNat rest := by omega
    have hfirst : (byte.toNat + 256 * toNat rest).toUInt8 = byte := by
      refine UInt8.toNat_inj.mp ?_
      show (byte.toNat + 256 * toNat rest) % 256 = _
      omega
    rw [List.length_cons, toNat, ofNat, hfirst, hrest, ih]

/-- The first bytes of a number do not depend on how many follow. -/
theorem take_ofNat (k m n : ℕ) : (ofNat (k + m) n).take k = ofNat k n := by
  induction k generalizing n with
  | zero => rfl
  | succ k ih => rw [Nat.succ_add, ofNat, List.take_succ_cons, ih, ofNat]

/-- Bytes that a number does not reach are zero. -/
theorem getElem?_ofNat_of_lt {size n k : ℕ} (hn : n < 256 ^ k) {i : ℕ} (hk : k ≤ i)
    (hi : i < size) : (ofNat size n)[i]? = some 0 := by
  induction size generalizing n k i with
  | zero => omega
  | succ size ih =>
    cases i with
    | zero =>
      obtain rfl : k = 0 := by omega
      obtain rfl : n = 0 := by simpa using hn
      rfl
    | succ i =>
      rw [ofNat, List.getElem?_cons_succ]
      cases k with
      | zero =>
        obtain rfl : n = 0 := by simpa using hn
        exact ih (k := 0) Nat.one_pos (Nat.zero_le i) (by omega)
      | succ k =>
        refine ih (k := k) ?_ (by omega) (by omega)
        rw [Nat.div_lt_iff_lt_mul (by omega)]
        rwa [Nat.pow_succ] at hn

end Bytes

/-! ## 2. Integer formats -/

namespace Binary64

variable {v : Binary64} (low high : ℤ)

theorem roundWithin_of_isNaN (hv : v.isNaN = true) : v.roundWithin low high = 0 := if_pos hv

theorem roundWithin_of_isInfinite (hv : v.isInfinite = true) :
    v.roundWithin low high = if v.isNegative then low else high := by
  rw [roundWithin, isNaN_of_isInfinite hv, if_neg Bool.false_ne_true, if_pos hv]

theorem roundWithin_of_finite (hv : v.Finite) :
    v.roundWithin low high = max low (min high v.round) := by
  rw [roundWithin, hv.isNaN, hv.isInfinite, if_neg Bool.false_ne_true, if_neg Bool.false_ne_true]

variable {low high}

/-- What is rounded within bounds is within them. -/
theorem roundWithin_mem (hlow : low ≤ 0) (hhigh : 0 ≤ high) (v : Binary64) :
    low ≤ v.roundWithin low high ∧ v.roundWithin low high ≤ high := by
  rcases v.trichotomy with hv | hv | hv
  · rw [roundWithin_of_isNaN low high hv]
    exact ⟨hlow, hhigh⟩
  · rw [roundWithin_of_isInfinite low high hv]
    split <;> omega
  · rw [roundWithin_of_finite low high hv]
    omega

/-- **An integer within the bounds** stays. -/
theorem roundWithin_of_value {i : ℤ} (hlow : low ≤ i) (hhigh : i ≤ high) (hv : v.Finite)
    (h : v.value = i) : v.roundWithin low high = i := by
  have hround := v.nearestAway_round
  rw [h] at hround
  rw [roundWithin_of_finite low high hv, hround.eq_of_int]
  omega

end Binary64

namespace NumberFormat

/-- **The least and the greatest integer of a format,** if it is one of integers. -/
def range? : NumberFormat → Option (ℤ × ℤ)
  | unsigned n => some (0, (256 ^ n - 1 : ℕ))
  | signed n => some (-(256 ^ n / 2 : ℕ), (256 ^ n / 2 - 1 : ℕ))
  | single => none
  | double => none

section Integers

variable {f : NumberFormat} {low high : ℤ} (hrange : f.range? = some (low, high))
  (hsize : 0 < f.size)

include hrange hsize

/-- A format has an integer for each of its patterns, and zero among them. -/
theorem range_spec : low ≤ 0 ∧ 0 ≤ high ∧ high - low + 1 = (256 ^ f.size : ℕ) := by
  cases f with
  | unsigned n =>
    obtain ⟨rfl, rfl⟩ := Prod.mk.inj (Option.some.inj hrange)
    have hpos : 0 < 256 ^ n := Nat.pow_pos (by decide)
    rw [size]
    omega
  | signed n =>
    obtain ⟨rfl, rfl⟩ := Prod.mk.inj (Option.some.inj hrange)
    obtain ⟨k, rfl⟩ := Nat.exists_eq_succ_of_ne_zero (show n ≠ 0 from Nat.pos_iff_ne_zero.mp hsize)
    have hpos : 0 < 256 ^ k := Nat.pow_pos (by decide)
    rw [size, Nat.pow_succ]
    omega
  | single => cases hrange
  | double => cases hrange

/-- The pattern of an integer is the integer modulo the number of patterns. -/
theorem encode_eq (v : Binary64) :
    f.encode v = (v.roundWithin low high % (256 ^ f.size : ℕ)).toNat := by
  obtain ⟨hlow, hhigh, hcount⟩ := range_spec hrange hsize
  obtain ⟨hle, hge⟩ := v.roundWithin_mem hlow hhigh
  cases f with
  | unsigned n =>
    obtain ⟨rfl, rfl⟩ := Prod.mk.inj (Option.some.inj hrange)
    rw [Int.emod_eq_of_lt hle (by omega)]
    rfl
  | signed n =>
    obtain ⟨rfl, rfl⟩ := Prod.mk.inj (Option.some.inj hrange)
    rfl
  | single => cases hrange
  | double => cases hrange

/-- The integer of a pattern. -/
theorem decode_eq {p : ℕ} (hp : p < 256 ^ f.size) :
    f.decode p = .ofInt (if (p : ℤ) ≤ high then p else p - (256 ^ f.size : ℕ)) := by
  obtain ⟨hlow, hhigh, hcount⟩ := range_spec hrange hsize
  cases f with
  | unsigned n =>
    obtain ⟨rfl, rfl⟩ := Prod.mk.inj (Option.some.inj hrange)
    rw [if_pos (by omega)]
    rfl
  | signed n =>
    obtain ⟨rfl, rfl⟩ := Prod.mk.inj (Option.some.inj hrange)
    have hmore : 1 < 256 ^ n := Nat.one_lt_pow (Nat.pos_iff_ne_zero.mp hsize) (by decide)
    have hiff : p < Nat.pow 256 n / 2 ↔ (p : ℤ) ≤ (256 ^ n / 2 - 1 : ℕ) := by
      have hpow : Nat.pow 256 n = 256 ^ n := rfl
      rw [hpow]
      omega
    simp only [decode, hiff]
    rfl
  | single => cases hrange
  | double => cases hrange

/-- A pattern stands for an integer of the range. -/
theorem exists_integer {p : ℕ} (hp : p < 256 ^ f.size) :
    ∃ i, low ≤ i ∧ i ≤ high ∧ f.decode p = .ofInt i := by
  obtain ⟨hlow, hhigh, hcount⟩ := range_spec hrange hsize
  refine ⟨_, ?_, ?_, decode_eq hrange hsize hp⟩
  · split <;> omega
  · split <;> omega

/-- **What is read back of a value** is the integer that it was rounded to. -/
theorem decode_encode (v : Binary64) : f.decode (f.encode v) = .ofInt (v.roundWithin low high) := by
  obtain ⟨hlow, hhigh, hcount⟩ := range_spec hrange hsize
  obtain ⟨hle, hge⟩ := v.roundWithin_mem hlow hhigh
  rw [encode_eq hrange hsize]
  generalize v.roundWithin low high = i at hle hge
  rcases le_or_gt 0 i with hpos | hneg
  · have hpattern : i % (256 ^ f.size : ℕ) = i := Int.emod_eq_of_lt hpos (by omega)
    rw [hpattern, decode_eq hrange hsize (by omega), Int.toNat_of_nonneg hpos, if_pos hge]
  · -- a pattern above the greatest integer stands for one below zero
    have hpattern : i % (256 ^ f.size : ℕ) = i + (256 ^ f.size : ℕ) := by
      rw [← Int.add_emod_right, Int.emod_eq_of_lt (by omega) (by omega)]
    rw [hpattern, decode_eq hrange hsize (by omega), Int.toNat_of_nonneg (by omega),
      if_neg (by omega), add_sub_cancel_right]

/-- **What is written of a pattern's value** is the pattern, if the integers of the format have few
bits. -/
theorem encode_decode (hfew : (256 ^ f.size : ℕ) < 2 ^ 53) {p : ℕ} (hp : p < 256 ^ f.size) :
    f.encode (f.decode p) = p := by
  obtain ⟨hlow, hhigh, hcount⟩ := range_spec hrange hsize
  rw [decode_eq hrange hsize hp, encode_eq hrange hsize]
  obtain ⟨i, hi⟩ : ∃ i, i = if (p : ℤ) ≤ high then (p : ℤ) else p - (256 ^ f.size : ℕ) := ⟨_, rfl⟩
  have hwithin : low ≤ i ∧ i ≤ high := by
    rw [hi]
    split <;> omega
  have hsmall : |(i : ℚ)| < 2 ^ 53 := by
    have habs : |i| < 2 ^ 53 := abs_lt.mpr ⟨by omega, by omega⟩
    exact_mod_cast habs
  obtain ⟨hfinite, hvalue⟩ := Binary64.ofInt_exact hsmall
  rw [← hi, Binary64.roundWithin_of_value hwithin.1 hwithin.2 hfinite hvalue, hi]
  split
  · rw [Int.emod_eq_of_lt (by omega) (by omega), Int.toNat_natCast]
  · rw [Int.sub_emod_right, Int.emod_eq_of_lt (by omega) (by omega), Int.toNat_natCast]

end Integers

end NumberFormat

/-! ## 3. Single precision -/

namespace Binary64

/-- The magnitude of a double in single precision. -/
def narrowed (m : ℕ) : ℕ :=
  if double.infinity < m then single.infinity + (m % 2 ^ 52 / 2 ^ 29 ||| 2 ^ 22)
  else if m = double.infinity then single.infinity
  else single.ofDyadic (double.significand m) (double.exponent m)

/-- The magnitude of a single in double precision. -/
def widened (p : ℕ) : ℕ :=
  if single.infinity < p then double.infinity + (p % 2 ^ 23 ||| 2 ^ 22) * 2 ^ 29
  else if p = single.infinity then double.infinity
  else double.ofDyadic (single.significand p) (single.exponent p)

theorem single_infinity_eq : single.infinity = 255 * 2 ^ 23 := by decide

/-- The top of a payload with the bit that makes it a quiet one. -/
theorem quiet_spec {x : ℕ} (hx : x < 2 ^ 23) :
    2 ^ 22 ≤ (x ||| 2 ^ 22) ∧ (x ||| 2 ^ 22) < 2 ^ 23 ∧ (x ||| 2 ^ 22 ||| 2 ^ 22) = x ||| 2 ^ 22 :=
  ⟨Nat.right_le_or, Nat.or_lt_two_pow hx (by decide), by rw [Nat.or_assoc, Nat.or_self]⟩

/-- **A magnitude is rounded to the nearest,** -/
theorem narrowed_nearest {m : ℕ} (hm : m < double.infinity) :
    single.Nearest (double.value m) (narrowed m) := by
  rw [narrowed, if_neg (Nat.lt_asymm hm), if_neg hm.ne]
  exact single.ofDyadic_nearest (by decide) _ _

theorem narrowed_infinity : narrowed double.infinity = single.infinity := by
  rw [narrowed, if_neg (Nat.lt_irrefl _), if_pos rfl]

/-- and what is not a number stays so, and becomes quiet. -/
theorem narrowed_undefined {m : ℕ} (hm : double.infinity < m) :
    ∃ y, 2 ^ 22 ≤ y ∧ y < 2 ^ 23 ∧ (y ||| 2 ^ 22) = y ∧ narrowed m = single.infinity + y := by
  obtain ⟨hlow, hhigh, hquiet⟩ := quiet_spec (x := m % 2 ^ 52 / 2 ^ 29) (by omega)
  exact ⟨_, hlow, hhigh, hquiet, if_pos hm⟩

theorem narrowed_lt (m : ℕ) : narrowed m < 2 ^ 31 := by
  have hinfinity := single_infinity_eq
  rcases Nat.lt_trichotomy double.infinity m with h | rfl | h
  · obtain ⟨y, -, hhigh, -, hy⟩ := narrowed_undefined h
    omega
  · rw [narrowed_infinity]
    omega
  · have := (narrowed_nearest h).le_infinity
    omega

theorem value_single_infinity : single.value single.infinity = 2 ^ 128 := by
  have hparts : single.infinity = 254 * single.span + single.span := by decide
  have hweight : (single.fractionBits : ℤ) + (single.lowest + (254 : ℕ)) = (128 : ℕ) := by decide
  rw [hparts, single.value_least, hweight, zpow_natCast]

/-- Every single is a double. -/
theorem exists_double_of_single {p : ℕ} (hp : p < single.infinity) :
    ∃ m < double.infinity, double.value m = single.value p := by
  have hspan : 2 * single.span ≤ 2 * double.span := by decide
  have hlowest : double.lowest + (925 : ℕ) = single.lowest := by decide
  obtain ⟨k, n, hparts, hn, hk⟩ := single.exists_parts p
  obtain ⟨m, hm⟩ := double.exists_value (hn.trans_le hspan) (925 + k)
  have hvalue : double.value m = single.value p := by
    rw [hm, hparts, single.value_parts hn.le hk, Nat.cast_add, ← add_assoc, hlowest]
  refine ⟨m, double.value_strictMono.lt_iff_lt.mp ?_, hvalue⟩
  rw [hvalue, value_infinity]
  calc single.value p < single.value single.infinity := single.value_strictMono hp
    _ = 2 ^ 128 := value_single_infinity
    _ ≤ 2 ^ 1024 := pow_le_pow_right₀ one_le_two (by omega)

/-- **To widen is exact.** -/
theorem value_widened {p : ℕ} (hp : p < single.infinity) :
    widened p < double.infinity ∧ double.value (widened p) = single.value p := by
  obtain ⟨m, hm, hvalue⟩ := exists_double_of_single hp
  have hnear := double.ofDyadic_nearest (by decide) (single.significand p) (single.exponent p)
  have hwidened : widened p = double.ofDyadic (single.significand p) (single.exponent p) := by
    rw [widened, if_neg (Nat.lt_asymm hp), if_neg hp.ne]
  rw [← hwidened, ← Format.value, ← hvalue] at hnear
  rw [hnear.eq_of_value hm.le]
  exact ⟨hm, hvalue⟩

theorem widened_infinity : widened single.infinity = double.infinity := by
  rw [widened, if_neg (Nat.lt_irrefl _), if_pos rfl]

theorem widened_undefined {p : ℕ} (hp : single.infinity < p) :
    double.infinity < widened p ∧ widened p < 2 ^ 63 := by
  have hinfinity := infinity_eq
  obtain ⟨hlow, hhigh, -⟩ := quiet_spec (x := p % 2 ^ 23) (by omega)
  rw [widened, if_pos hp]
  omega

theorem widened_lt (p : ℕ) : widened p < 2 ^ 63 := by
  rcases Nat.lt_trichotomy single.infinity p with h | rfl | h
  · exact (widened_undefined h).2
  · rw [widened_infinity]
    exact infinity_lt
  · exact (value_widened h).1.trans infinity_lt

/-- **To narrow undoes it.** -/
theorem narrowed_widened {p : ℕ} (hp : p ≤ single.infinity) : narrowed (widened p) = p := by
  rcases hp.eq_or_lt with rfl | hp
  · rw [widened_infinity, narrowed_infinity]
  · obtain ⟨hfinite, hvalue⟩ := value_widened hp
    have hnear := narrowed_nearest hfinite
    rw [hvalue] at hnear
    exact hnear.eq_of_value hp.le

/-- **A magnitude that is that of a single** is restored. -/
theorem widened_narrowed {m p : ℕ} (hm : m < double.infinity) (hp : p < single.infinity)
    (h : single.value p = double.value m) : widened (narrowed m) = m := by
  have hnear := narrowed_nearest hm
  rw [← h] at hnear
  rw [hnear.eq_of_value hp.le]
  exact double.value_strictMono.injective ((value_widened hp).2.trans h)

/-- **What was narrowed once** is a single, also if it is not a number. -/
theorem narrowed_widened_narrowed (m : ℕ) : narrowed (widened (narrowed m)) = narrowed m := by
  rcases Nat.lt_or_ge double.infinity m with h | h
  · have hinfinity := infinity_eq
    have hsingle := single_infinity_eq
    obtain ⟨y, hlow, hhigh, hquiet, hy⟩ := narrowed_undefined h
    have hpayload : (single.infinity + y) % 2 ^ 23 = y := by omega
    have hwide : widened (single.infinity + y) = double.infinity + y * 2 ^ 29 := by
      rw [widened, if_pos (by omega), hpayload, hquiet]
    have hback : (double.infinity + y * 2 ^ 29) % 2 ^ 52 / 2 ^ 29 = y := by omega
    rw [hy, hwide, narrowed, if_pos (by omega), hback, hquiet]
  · refine narrowed_widened ?_
    rcases h.eq_or_lt with rfl | h
    · exact narrowed_infinity.le
    · exact (narrowed_nearest h).le_infinity

theorem toSingle_eq (v : Binary64) :
    v.toSingle = (if v.isNegative then 2 ^ 31 else 0) + narrowed v.magnitude := by
  have hmagnitude : (if v.isNaN then
      single.infinity + (v.magnitude % Nat.pow 2 52 / Nat.pow 2 29 ||| Nat.pow 2 22)
    else if v.isInfinite then single.infinity
    else single.ofDyadic (double.significand v.magnitude) (double.exponent v.magnitude))
      = narrowed v.magnitude := by
    simp only [narrowed, isNaN_iff, isInfinite_iff]
    rfl
  rw [← hmagnitude]
  rfl

theorem ofSingle_eq (s : Bool) {p : ℕ} (hp : p < 2 ^ 31) :
    ofSingle ((if s then 2 ^ 31 else 0) + p) = ofParts s (widened p) := by
  obtain ⟨n, hn⟩ : ∃ n, n = (if s then 2 ^ 31 else 0) + p := ⟨_, rfl⟩
  have hmagnitude : n % Nat.pow 2 31 = p := by
    have hpow : Nat.pow 2 31 = 2 ^ 31 := rfl
    rw [hn, hpow]
    split <;> omega
  have hsign : decide (Nat.pow 2 31 ≤ n) = s := by
    have hpow : Nat.pow 2 31 = 2 ^ 31 := rfl
    rw [hn, hpow]
    cases s <;> simp
    omega
  have hpattern : ofSingle n = ofParts (decide (Nat.pow 2 31 ≤ n)) (widened (n % Nat.pow 2 31)) :=
    rfl
  rw [← hn, hpattern, hsign, hmagnitude]

/-- What a double becomes in single precision, as a double. -/
theorem ofSingle_toSingle (v : Binary64) :
    ofSingle v.toSingle = ofParts v.isNegative (widened (narrowed v.magnitude)) := by
  rw [toSingle_eq, ofSingle_eq _ (narrowed_lt _)]

/-- Its sign is kept. -/
theorem isNegative_ofSingle_toSingle (v : Binary64) :
    (ofSingle v.toSingle).isNegative = v.isNegative := by
  rw [ofSingle_toSingle, isNegative_ofParts _ (widened_lt _)]

theorem magnitude_ofSingle_toSingle (v : Binary64) :
    (ofSingle v.toSingle).magnitude = widened (narrowed v.magnitude) := by
  rw [ofSingle_toSingle, magnitude_ofParts _ (widened_lt _)]

/-- **Rounding to single precision** is done once. -/
theorem toSingle_ofSingle_toSingle (v : Binary64) :
    (ofSingle v.toSingle).toSingle = v.toSingle := by
  rw [toSingle_eq (ofSingle _), isNegative_ofSingle_toSingle, magnitude_ofSingle_toSingle,
    narrowed_widened_narrowed, ← toSingle_eq]

/-- **A single that is a number or infinite** is restored. -/
theorem toSingle_ofSingle {n : ℕ} (hn : n < 2 ^ 32) (h : (ofSingle n).isNaN = false) :
    (ofSingle n).toSingle = n := by
  obtain ⟨s, p, hp, rfl⟩ : ∃ s p, p < 2 ^ 31 ∧ n = (if s = true then 2 ^ 31 else 0) + p := by
    rcases Nat.lt_or_ge n (2 ^ 31) with hless | hmore
    · exact ⟨false, n, hless, by simp⟩
    · exact ⟨true, n - 2 ^ 31, by omega, by rw [if_pos rfl]; omega⟩
  rw [ofSingle_eq s hp] at h ⊢
  have hbelow : p ≤ single.infinity := by
    by_contra hover
    have hnan := Bool.eq_false_iff.mp h
    rw [ne_eq, isNaN_iff, magnitude_ofParts _ (widened_lt _)] at hnan
    exact hnan (widened_undefined (not_le.mp hover)).1
  rw [toSingle_eq, isNegative_ofParts _ (widened_lt _), magnitude_ofParts _ (widened_lt _),
    narrowed_widened hbelow]

/-- **A double whose number is that of a single** is restored. -/
theorem ofSingle_toSingle_of_value {v : Binary64} (hv : v.Finite) {p : ℕ} (hp : p < single.infinity)
    (h : single.value p = |v.value|) : ofSingle v.toSingle = v := by
  rw [abs_value] at h
  rw [ofSingle_toSingle, widened_narrowed hv hp h, ofParts_eq]

end Binary64

/-! ## 4. Samples -/

/-- A pattern has no more bytes than its format. -/
theorem NumberFormat.encode_lt (f : NumberFormat) (hsize : 0 < f.size) (v : Binary64) :
    f.encode v < 256 ^ f.size := by
  cases hrange : f.range? with
  | some range =>
    rw [encode_eq hrange hsize]
    have hpos : (0 : ℤ) < (256 ^ f.size : ℕ) := by exact_mod_cast Nat.pow_pos (by decide)
    have hnonneg := Int.emod_nonneg (v.roundWithin range.1 range.2) hpos.ne'
    have hless := Int.emod_lt_of_pos (v.roundWithin range.1 range.2) hpos
    omega
  | none =>
    cases f with
    | unsigned n => cases hrange
    | signed n => cases hrange
    | single =>
      have hlt := Binary64.narrowed_lt v.magnitude
      show v.toSingle < 256 ^ 4
      rw [Binary64.toSingle_eq]
      split <;> omega
    | double => exact v.bits.toNat_lt

namespace SampleType

variable {t : SampleType} {f : NumberFormat} (hf : t.number? = some f)

include hf

/-- A number takes one, two, four or eight bytes. -/
theorem size_number : f.size = 1 ∨ f.size = 2 ∨ f.size = 4 ∨ f.size = 8 := by
  cases t <;> cases hf <;> decide

/-- What a sample takes up beside its number. -/
theorem size_eq : t.size = f.size + if t.isComplex then f.size else 0 := by
  have hsize : t.size = if t.isComplex then 2 * f.size else f.size := by rw [size, hf]
  rw [hsize]
  cases t.isComplex
  · rfl
  · exact Nat.two_mul f.size

theorem encode_eq (v : Binary64) : t.encode v = (Bytes.ofNat t.size (f.encode v)).toArray := by
  rw [encode, hf]

theorem decode_eq (bytes : Bytes) :
    t.decode bytes = f.decode (Bytes.toNat (bytes.toList.take f.size)) := by
  rw [decode, hf]

/-- **What is read of the bytes of a value** is what its format makes of it. -/
theorem decode_encode (v : Binary64) : t.decode (t.encode v) = f.decode (f.encode v) := by
  have hsize := size_number hf
  rw [decode_eq hf, encode_eq hf, size_eq hf, Bytes.take_ofNat, Bytes.toNat_ofNat,
    Nat.mod_eq_of_lt (f.encode_lt (by omega) v)]

/-- The imaginary half is zero. -/
theorem getElem?_encode (v : Binary64) {i : ℕ} (hi : f.size ≤ i) (hlt : i < t.size) :
    (t.encode v)[i]? = some 0 := by
  have hsize := size_number hf
  rw [encode_eq hf, List.getElem?_toArray]
  exact Bytes.getElem?_ofNat_of_lt (f.encode_lt (by omega) v) hi hlt

/-- **The pattern of a real sample** stands for its value, and has its bytes. -/
theorem exists_pattern (hreal : t.isComplex = false) {bytes : Bytes}
    (hbytes : bytes.size = t.size) :
    ∃ p, p < 256 ^ f.size ∧ t.decode bytes = f.decode p ∧
      ∀ v, f.encode v = p → t.encode v = bytes := by
  have hwhole : bytes.size = f.size := by
    rw [hbytes, size_eq hf, hreal, if_neg Bool.false_ne_true, Nat.add_zero]
  have hlt := Bytes.toNat_lt bytes.toList
  have hback := Bytes.ofNat_toNat bytes.toList
  rw [Array.length_toList] at hlt hback
  refine ⟨Bytes.toNat bytes.toList, hwhole ▸ hlt, ?_, fun v hv => ?_⟩
  · rw [decode_eq hf, List.take_of_length_le (by rw [Array.length_toList, hwhole])]
  · rw [encode_eq hf, hv, ← hbytes, hback]

end SampleType

end RasterWarp
