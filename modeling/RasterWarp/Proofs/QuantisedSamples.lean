/-
# What is read back of a sample

A value that is written as a sample is quantised to the sample's type.  `NumberFormat.Quantises`
says what that is without the steps of the conversion:

* an integer format takes the nearest integer between its bounds, and zero for what is undefined
  (`Binary64.RoundsWithin`).  The bounds are doubles: the greatest integers of 64 bits are none, and
  count as the powers of two behind them;
* single precision takes the nearest single (`Binary64.RoundsToSingle`), and double precision the
  value itself.

Integer formats keep the order of values, which follows from what they do and not from how
(`RoundsWithin.mono`).  `sample_quantised` puts a sample into a buffer: nothing else changes there,
and what is read back is quantised for good.
-/
import RasterWarp.Proofs.SampleCodec
import RasterWarp.Proofs.SampleCopies
import RasterWarp.Proofs.SampleOrder

namespace RasterWarp

open Binary

/-! ## 1. Quantised values -/

namespace Binary64

/-- **A value rounded to an integer between two bounds.** -/
structure RoundsWithin (low high : ℚ) (v r : Binary64) : Prop where
  finite : r.Finite
  undefined : v.isNaN = true → r.value = 0
  infinite : v.isInfinite = true → r.value = if v.isNegative then low else high
  number : v.Finite → ∃ i : ℤ, NearestAway v.value i ∧ r.value = max low (min high i)

/-- **A value rounded to single precision,** which may be to infinity. -/
structure RoundsToSingle (v r : Binary64) : Prop where
  undefined : v.isNaN = true → r.isNaN = true
  infinite : v.isInfinite = true → r = v
  number : v.Finite → ∃ p, single.Nearest |v.value| p ∧ r.isNegative = v.isNegative ∧
    if p < single.infinity then r.Finite ∧ |r.value| = single.value p else r.isInfinite = true

end Binary64

namespace NumberFormat

/-- The least integer of a format. -/
def least : NumberFormat → ℚ
  | signed n => -(256 ^ n / 2)
  | _ => 0

/-- The greatest integer of a format, as the double nearest to it. -/
def greatest : NumberFormat → ℚ
  | unsigned n => if n = 8 then 2 ^ 64 else 256 ^ n - 1
  | signed n => if n = 8 then 2 ^ 63 else 256 ^ n / 2 - 1
  | _ => 0

/-- **What a format makes of a value.** -/
def Quantises (f : NumberFormat) (v r : Binary64) : Prop :=
  match f with
  | unsigned _ => v.RoundsWithin f.least f.greatest r
  | signed _ => v.RoundsWithin f.least f.greatest r
  | single => v.RoundsToSingle r
  | double => r = v

end NumberFormat

/-! ## 2. Rounding to integers -/

namespace Binary64

variable {low high : ℚ} {v w r r' : Binary64}

theorem abs_value_lt (hv : v.Finite) : |v.value| < double.value double.infinity := by
  rw [abs_value]
  exact double.value_strictMono hv

theorem value_of_isInfinite (hv : v.isInfinite = true) : v.value
    = if v.isNegative then -double.value double.infinity else double.value double.infinity := by
  rw [value, isInfinite_iff.mp hv]

/-- What is rounded within bounds is within them. -/
theorem RoundsWithin.mem (h : v.RoundsWithin low high r) (hlow : low ≤ 0) (hhigh : 0 ≤ high) :
    low ≤ r.value ∧ r.value ≤ high := by
  rcases v.trichotomy with hv | hv | hv
  · rw [h.undefined hv]
    exact ⟨hlow, hhigh⟩
  · rw [h.infinite hv]
    split
    · exact ⟨le_rfl, hlow.trans hhigh⟩
    · exact ⟨hlow.trans hhigh, le_rfl⟩
  · obtain ⟨i, -, hi⟩ := h.number hv
    rw [hi]
    exact ⟨le_max_left _ _, max_le (hlow.trans hhigh) (min_le_left _ _)⟩

/-- **Values are rounded in their order.** -/
theorem RoundsWithin.mono (h : v.RoundsWithin low high r) (h' : w.RoundsWithin low high r')
    (hlow : low ≤ 0) (hhigh : 0 ≤ high) (hvw : v.toFloat ≤ w.toFloat) :
    r.toFloat ≤ r'.toFloat := by
  obtain ⟨hv, hw, hle⟩ := toFloat_le_iff.mp hvw
  refine toFloat_le_iff.mpr ⟨h.finite.isNaN, h'.finite.isNaN, ?_⟩
  have hbounds := h.mem hlow hhigh
  have hbounds' := h'.mem hlow hhigh
  rcases v.trichotomy with hnan | hinf | hfin
  · rw [hv] at hnan
    cases hnan
  · -- an infinite value is rounded to a bound, and a positive one is exceeded by none
    have hvalue := value_of_isInfinite hinf
    have hbound := h.infinite hinf
    cases hs : v.isNegative with
    | true =>
      rw [hbound, hs, if_pos rfl]
      exact hbounds'.1
    | false =>
      rw [hs, if_neg Bool.false_ne_true] at hvalue
      rcases w.trichotomy with hnan' | hinf' | hfin'
      · rw [hw] at hnan'
        cases hnan'
      · have hvalue' := value_of_isInfinite hinf'
        have hpos : 0 < double.value double.infinity := by
          rw [← double.value_zero]
          exact double.value_strictMono (by decide)
        have hs' : w.isNegative = false := by
          by_contra hneg
          rw [Bool.not_eq_false] at hneg
          rw [hneg, if_pos rfl] at hvalue'
          linarith
        rw [h'.infinite hinf', hs', if_neg Bool.false_ne_true]
        exact hbounds.2
      · have hless := abs_lt.mp (abs_value_lt hfin')
        linarith
  · obtain ⟨i, hi, hr⟩ := h.number hfin
    rcases w.trichotomy with hnan' | hinf' | hfin'
    · rw [hw] at hnan'
      cases hnan'
    · have hvalue' := value_of_isInfinite hinf'
      have hless := abs_lt.mp (abs_value_lt hfin)
      rw [h'.infinite hinf']
      split
      · rename_i hneg
        rw [if_pos hneg] at hvalue'
        linarith
      · exact hbounds.2
    · obtain ⟨j, hj, hr'⟩ := h'.number hfin'
      have hij : (i : ℚ) ≤ j := by exact_mod_cast hi.mono hj hle
      rw [hr, hr']
      exact max_le_max_left _ (min_le_min_left _ hij)

section Bounds

variable {a b : ℤ} (ha : a ≤ 0) (hb : 0 ≤ b) (halow : -2 ^ 64 ≤ a) (hbhigh : b ≤ 2 ^ 64)
  (v : Binary64)

include ha hb halow hbhigh

theorem finite_roundWithin : (ofInt (v.roundWithin a b)).Finite := by
  obtain ⟨hlow, hhigh⟩ := v.roundWithin_mem ha hb
  have habs : |v.roundWithin a b| ≤ 2 ^ 64 := abs_le.mpr ⟨by omega, by omega⟩
  exact finite_ofInt (by exact_mod_cast habs)

/-- **`roundWithin` rounds within the doubles of its bounds.** -/
theorem roundsWithin_ofInt :
    v.RoundsWithin (ofInt a).value (ofInt b).value (ofInt (v.roundWithin a b)) := by
  refine ⟨finite_roundWithin ha hb halow hbhigh v, fun hv => ?_, fun hv => ?_,
    fun hv => ⟨v.round, v.nearestAway_round, ?_⟩⟩
  · rw [roundWithin_of_isNaN a b hv, (ofInt_exact (by norm_num)).2, Int.cast_zero]
  · rw [roundWithin_of_isInfinite a b hv]
    split <;> rfl
  · rw [roundWithin_of_finite a b hv, ← (ofInt_round hv).2]
    exact (value_ofInt_mono.map_max).trans (congrArg _ value_ofInt_mono.map_min)

/-- **What was rounded once** is not changed again, if the double of the least integer is that
integer, and that of the greatest is not below it. -/
theorem roundWithin_ofInt_roundWithin (hlow : (ofInt a).value = a)
    (hhigh : (b : ℚ) ≤ (ofInt b).value) :
    (ofInt (v.roundWithin a b)).roundWithin a b = v.roundWithin a b := by
  obtain ⟨hle, hge⟩ := v.roundWithin_mem ha hb
  have hfinite := finite_roundWithin ha hb halow hbhigh v
  have hcases : (ofInt (v.roundWithin a b)).value = v.roundWithin a b ∨ v.roundWithin a b = b := by
    rcases v.trichotomy with hv | hv | hv
    · rw [roundWithin_of_isNaN a b hv]
      exact .inl (ofInt_exact (by norm_num)).2
    · rw [roundWithin_of_isInfinite a b hv]
      split
      · exact .inl hlow
      · exact .inr rfl
    · rw [roundWithin_of_finite a b hv]
      rcases (show max a (min b v.round) = a ∨ max a (min b v.round) = b
        ∨ max a (min b v.round) = v.round by omega) with h | h | h
      · rw [h]
        exact .inl hlow
      · exact .inr h
      · rw [h]
        exact .inl (ofInt_round hv).2
  rcases hcases with hexact | htop
  · exact roundWithin_of_value hle hge hfinite hexact
  · rw [htop] at hfinite ⊢
    have hround := (NearestAway.self b).mono (nearestAway_round _) hhigh
    rw [roundWithin_of_finite a b hfinite]
    omega

end Bounds

/-! ## 3. Rounding to single precision -/

/-- **A value goes to single precision and back.** -/
theorem roundsToSingle (v : Binary64) : v.RoundsToSingle (ofSingle v.toSingle) := by
  refine ⟨fun hv => ?_, fun hv => ?_, fun hv => ⟨narrowed v.magnitude, ?_,
    isNegative_ofSingle_toSingle v, ?_⟩⟩
  · obtain ⟨y, hlow, -, -, hy⟩ := narrowed_undefined (isNaN_iff.mp hv)
    rw [isNaN_iff, magnitude_ofSingle_toSingle]
    exact (widened_undefined (by omega)).1
  · rw [ofSingle_toSingle, isInfinite_iff.mp hv, narrowed_infinity, widened_infinity,
      ← isInfinite_iff.mp hv, ofParts_eq]
  · rw [abs_value]
    exact narrowed_nearest hv
  · split
    · rename_i hless
      rw [abs_value, Finite, magnitude_ofSingle_toSingle]
      exact value_widened hless
    · rename_i hmore
      have hover := (narrowed_nearest hv).le_infinity
      rw [isInfinite_iff, magnitude_ofSingle_toSingle,
        show narrowed v.magnitude = single.infinity by omega, widened_infinity]

end Binary64

/-! ## 4. The doubles of the bounds -/

/-- The powers of two from one on have patterns. -/
theorem value_two_pow (k : ℕ) :
    double.value ((1022 + k) * double.span + double.span) = 2 ^ k := by
  have hweight : (double.fractionBits : ℤ) + (double.lowest + (1022 + k : ℕ)) = k := by
    have hbits : (double.fractionBits : ℤ) = 52 := rfl
    have hlowest : double.lowest = -1074 := by decide
    omega
  rw [double.value_least, hweight, zpow_natCast]

namespace Binary64

/-- An integer that is given the pattern of a power of two becomes that power. -/
theorem value_ofInt_of_two_pow {i : ℤ} {k : ℕ} (hi : 0 ≤ i)
    (h : double.ofRatio i.natAbs 1 = (1022 + k) * double.span + double.span) :
    (ofInt i).value = 2 ^ k := by
  rw [value, isNegative_ofInt, decide_eq_false (by omega), if_neg Bool.false_ne_true,
    magnitude_ofInt, h, value_two_pow]

end Binary64

namespace NumberFormat

variable {f : NumberFormat} {low high : ℤ} (hrange : f.range? = some (low, high))
  (hwidth : f.size = 1 ∨ f.size = 2 ∨ f.size = 4 ∨ f.size = 8)

include hrange hwidth

/-- **The bounds of a format as doubles.**  Those of up to four bytes are doubles themselves, and so
is the least of eight bytes. -/
theorem value_bounds : (Binary64.ofInt low).value = f.least ∧ f.least = low ∧
    (Binary64.ofInt high).value = f.greatest ∧ (high : ℚ) ≤ f.greatest := by
  have exact_of : ∀ {i : ℤ} {x : ℚ}, |(i : ℚ)| < 2 ^ 53 → (i : ℚ) = x →
      (Binary64.ofInt i).value = x := fun hi hx => (Binary64.ofInt_exact hi).2.trans hx
  cases f with
  | unsigned n =>
    obtain ⟨rfl, rfl⟩ := Prod.mk.inj (Option.some.inj hrange)
    have hn : n = 1 ∨ n = 2 ∨ n = 4 ∨ n = 8 := hwidth
    refine ⟨exact_of (by norm_num) Int.cast_zero, Int.cast_zero.symm, ?_⟩
    rcases hn with rfl | rfl | rfl | rfl
    · exact ⟨exact_of (by norm_num) (by norm_num [greatest]), by norm_num [greatest]⟩
    · exact ⟨exact_of (by norm_num) (by norm_num [greatest]), by norm_num [greatest]⟩
    · exact ⟨exact_of (by norm_num) (by norm_num [greatest]), by norm_num [greatest]⟩
    · exact ⟨Binary64.value_ofInt_of_two_pow (by norm_num) (by decide), by norm_num [greatest]⟩
  | signed n =>
    obtain ⟨rfl, rfl⟩ := Prod.mk.inj (Option.some.inj hrange)
    have hn : n = 1 ∨ n = 2 ∨ n = 4 ∨ n = 8 := hwidth
    rcases hn with rfl | rfl | rfl | rfl
    · exact ⟨exact_of (by norm_num) (by norm_num [least]), by norm_num [least],
        exact_of (by norm_num) (by norm_num [greatest]), by norm_num [greatest]⟩
    · exact ⟨exact_of (by norm_num) (by norm_num [least]), by norm_num [least],
        exact_of (by norm_num) (by norm_num [greatest]), by norm_num [greatest]⟩
    · exact ⟨exact_of (by norm_num) (by norm_num [least]), by norm_num [least],
        exact_of (by norm_num) (by norm_num [greatest]), by norm_num [greatest]⟩
    · have hbelow : (1022 + 63) * Binary.double.span + Binary.double.span
          < Binary.double.infinity := by decide
      have hlow : (Binary64.ofInt (-(256 ^ 8 / 2 : ℕ))).value = ((-(256 ^ 8 / 2 : ℕ) : ℤ) : ℚ) :=
        (Binary64.ofInt_of_value hbelow ((value_two_pow 63).trans (by norm_num))).2.2
      exact ⟨hlow.trans (by norm_num [least]), by norm_num [least],
        Binary64.value_ofInt_of_two_pow (by norm_num) (by decide), by norm_num [greatest]⟩
  | single => cases hrange
  | double => cases hrange

/-- Integers take up sixty-four bits at most. -/
theorem range_within : low ≤ 0 ∧ 0 ≤ high ∧ -2 ^ 64 ≤ low ∧ high ≤ 2 ^ 64 := by
  obtain ⟨hlow, hhigh, hcount⟩ := range_spec hrange (by omega)
  have hpow : 256 ^ f.size ≤ 2 ^ 64 :=
    Nat.pow_le_pow_right (n := 256) (by decide) (show f.size ≤ 8 by omega)
  omega

omit hrange

/-- **What is read back of a value** is what its format makes of it. -/
theorem quantises_decode_encode (v : Binary64) : f.Quantises v (f.decode (f.encode v)) := by
  cases hrange : f.range? with
  | some range =>
    obtain ⟨hlow, hhigh, hlowest, hhighest⟩ := range_within hrange hwidth
    obtain ⟨hleast, -, hgreatest, -⟩ := value_bounds hrange hwidth
    have hrounds := Binary64.roundsWithin_ofInt hlow hhigh hlowest hhighest v
    rw [hleast, hgreatest] at hrounds
    rw [decode_encode hrange (by omega)]
    cases f with
    | unsigned n => exact hrounds
    | signed n => exact hrounds
    | single => cases hrange
    | double => cases hrange
  | none =>
    cases f with
    | unsigned n => cases hrange
    | signed n => cases hrange
    | single => exact Binary64.roundsToSingle v
    | double => exact congrArg Binary64.mk (UInt64.ofNat_toNat ..)

/-- **Integers are read back in the order of the values.** -/
theorem Quantises.mono (hinteger : f.range?.isSome) {v w r r' : Binary64}
    (h : f.Quantises v r) (h' : f.Quantises w r') (hvw : v.toFloat ≤ w.toFloat) :
    r.toFloat ≤ r'.toFloat := by
  obtain ⟨range, hrange⟩ := Option.isSome_iff_exists.mp hinteger
  obtain ⟨hlow, hhigh, -⟩ := range_within hrange hwidth
  obtain ⟨-, hexact, -, hover⟩ := value_bounds hrange hwidth
  have hleast : f.least ≤ 0 := hexact.trans_le (by exact_mod_cast hlow)
  have hgreatest : 0 ≤ f.greatest := le_trans (by exact_mod_cast hhigh) hover
  cases f with
  | unsigned n => exact h.mono h' hleast hgreatest hvw
  | signed n => exact h.mono h' hleast hgreatest hvw
  | single => cases hrange
  | double => cases hrange

/-- **What was read back of a value** is written as the same pattern. -/
theorem encode_decode_encode (v : Binary64) :
    f.encode (f.decode (f.encode v)) = f.encode v := by
  cases hrange : f.range? with
  | some range =>
    obtain ⟨hlow, hhigh, hlowest, hhighest⟩ := range_within hrange hwidth
    obtain ⟨hleast, hexact, hgreatest, hover⟩ := value_bounds hrange hwidth
    rw [decode_encode hrange (by omega), encode_eq hrange (by omega), encode_eq hrange (by omega),
      Binary64.roundWithin_ofInt_roundWithin hlow hhigh hlowest hhighest v (hleast.trans hexact)
        (hgreatest ▸ hover)]
  | none =>
    cases f with
    | unsigned n => cases hrange
    | signed n => cases hrange
    | single => exact Binary64.toSingle_ofSingle_toSingle v
    | double => exact congrArg UInt64.toNat (UInt64.ofNat_toNat ..)

end NumberFormat

/-! ## 5. Samples in buffers -/

/-- To write the same bytes twice is to write them once. -/
theorem Bytes.overwrite_again (b : Bytes) (start : ℕ) (piece : Bytes) :
    (b.overwrite start piece).overwrite start piece = b.overwrite start piece := by
  refine Array.ext_getElem? fun i => ?_
  simp only [getElem?_overwrite, size_overwrite]
  split <;> rfl

namespace SampleType

/-- Every known type has numbers. -/
theorem exists_number {t : SampleType} (ht : t ≠ .unknown) : ∃ f, t.number? = some f := by
  cases t <;> first | exact absurd rfl ht | exact ⟨_, rfl⟩

variable {t : SampleType} {b : Bytes} {i : ℕ} (hi : (i + 1) * t.size ≤ b.size)

include hi

theorem set?_eq (v : Binary64) : t.set? b i v = some (b.overwrite (i * t.size) (t.encode v)) := by
  rw [Nat.add_one_mul] at hi
  rw [set?, Bytes.splice?, size_encode, if_pos hi]

/-- What was written is read. -/
theorem get?_overwrite (v : Binary64) :
    t.get? (b.overwrite (i * t.size) (t.encode v)) i = some (t.decode (t.encode v)) := by
  rw [get?_eq, Bytes.piece?_overwrite_one (size_encode t v) hi, if_pos rfl, Option.map_some]

end SampleType

/-- **A sample that is written is quantised, and nothing else is touched.**  Write any value as a
sample of any known type, anywhere in a buffer.

* It is written, and can be read back: what is read is the value as the sample's number format
  quantises it.
* The buffer keeps its size and the bytes outside the sample, and the imaginary half of a complex
  sample is zero.
* To write what was read back changes nothing any more.
* For types of integers, complex ones included, a value that is not greater is read back as one that
  is not greater. -/
theorem sample_quantised {t : SampleType} (ht : t ≠ .unknown) (b : Bytes) {i : ℕ}
    (hi : (i + 1) * t.size ≤ b.size) :
    ∃ f, t.number? = some f ∧
      (∀ v, ∃ written r, t.set? b i v = some written ∧ t.get? written i = some r ∧
        f.Quantises v r ∧ written.size = b.size ∧
        (∀ j, ¬(i * t.size ≤ j ∧ j < (i + 1) * t.size) → written[j]? = b[j]?) ∧
        (∀ j, i * t.size + f.size ≤ j → j < (i + 1) * t.size → written[j]? = some 0) ∧
        t.set? written i r = some written) ∧
      (f.range?.isSome → ∀ v w, v.toFloat ≤ w.toFloat → ∃ written written' r r',
        t.set? b i v = some written ∧ t.get? written i = some r ∧
        t.set? b i w = some written' ∧ t.get? written' i = some r' ∧ r.toFloat ≤ r'.toFloat) := by
  obtain ⟨f, hf⟩ := SampleType.exists_number ht
  have hwidth := SampleType.size_number hf
  have hset := SampleType.set?_eq (b := b) hi
  have hget := SampleType.get?_overwrite (b := b) hi
  refine ⟨f, hf,
    fun v => ⟨_, _, hset v, hget v, ?_, Bytes.size_overwrite .., fun j hj => ?_,
      fun j hj hlt => ?_, ?_⟩,
    fun hinteger v w hvw => ⟨_, _, _, _, hset v, hget v, hset w, hget w, ?_⟩⟩
  · rw [SampleType.decode_encode hf]
    exact NumberFormat.quantises_decode_encode hwidth v
  · rw [Bytes.getElem?_overwrite, SampleType.size_encode, if_neg]
    rw [Nat.add_one_mul] at hj
    omega
  · rw [Nat.add_one_mul] at hlt hi
    rw [Bytes.getElem?_overwrite, SampleType.size_encode, if_pos (by omega),
      SampleType.getElem?_encode hf v (by omega) (by omega)]
  · have hsame : t.encode (t.decode (t.encode v)) = t.encode v := by
      rw [SampleType.decode_encode hf, SampleType.encode_eq hf, SampleType.encode_eq hf,
        NumberFormat.encode_decode_encode hwidth]
    rw [SampleType.set?_eq (by rwa [Bytes.size_overwrite]), hsame, Bytes.overwrite_again]
  · rw [SampleType.decode_encode hf, SampleType.decode_encode hf]
    exact NumberFormat.Quantises.mono hwidth hinteger
      (NumberFormat.quantises_decode_encode hwidth v)
      (NumberFormat.quantises_decode_encode hwidth w) hvw

/-- Two and a half below zero is written as minus three, after a sample that stays. -/
theorem sample_quantised_half : ∃ written r,
    SampleType.cint16.set? #[1, 2, 3, 4, 5, 6, 7, 8] 1 (.ofFloat (-2.5)) = some written ∧
      written = #[1, 2, 3, 4, 253, 255, 0, 0] ∧
      SampleType.cint16.get? written 1 = some r ∧ r = .ofInt (-3) ∧
      (NumberFormat.signed 2).Quantises (.ofFloat (-2.5)) r := by
  obtain ⟨f, hf, hall, -⟩ := sample_quantised (t := .cint16) (by decide)
    #[1, 2, 3, 4, 5, 6, 7, 8] (i := 1) (by decide)
  obtain ⟨written, r, hset, hget, hquantised, -⟩ := hall (.ofFloat (-2.5))
  obtain rfl : NumberFormat.signed 2 = f := Option.some.inj hf
  have hwritten : SampleType.cint16.set? #[1, 2, 3, 4, 5, 6, 7, 8] 1 (.ofFloat (-2.5))
      = some #[1, 2, 3, 4, 253, 255, 0, 0] := by decide +kernel
  obtain rfl := Option.some.inj (hset.symm.trans hwritten)
  have hread : SampleType.cint16.get? #[1, 2, 3, 4, 253, 255, 0, 0] 1 = some (.ofInt (-3)) := by
    decide +kernel
  obtain rfl := Option.some.inj (hget.symm.trans hread)
  exact ⟨_, _, hset, rfl, hget, rfl, hquantised⟩

end RasterWarp
