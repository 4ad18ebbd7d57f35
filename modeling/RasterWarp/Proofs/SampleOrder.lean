/-
# The order of samples

Samples are compared as doubles (`Binary64.toFloat`), and that is how the numbers compare which they
stand for (`toFloat_le_iff`).  A double and its number are both a sign and a magnitude, and anything
that grows with the magnitude from zero on is ordered in the same way (`signed_le_iff`): the place
of a double on its line, and the number.
-/
import RasterWarp.Proofs.Doubles
import RasterWarp.Proofs.SampleNumbers
import Mathlib

namespace RasterWarp

/-- **Greater patterns have greater weights,** or greater significands of the same weight. -/
theorem Binary.Format.fields_strictMono (f : Binary.Format) :
    StrictMono fun p => toLex (f.exponent p, (f.significand p : ℤ)) := by
  refine strictMono_nat_of_lt_succ fun p => ?_
  obtain ⟨k, m, rfl, hm, hk⟩ := f.exists_parts p
  obtain ⟨hsignificand, hexponent⟩ := f.fields_parts hm hk
  have hspan := f.span_pos
  rw [Prod.Lex.toLex_lt_toLex, hsignificand, hexponent]
  rcases Nat.lt_or_ge (m + 1) (2 * f.span) with hbelow | hlast
  · obtain ⟨hsignificand', hexponent'⟩ := f.fields_parts (k := k) hbelow (by omega)
    rw [Nat.add_assoc, hsignificand', hexponent']
    exact .inr ⟨rfl, by omega⟩
  · obtain ⟨-, hexponent'⟩ := f.fields_parts (k := k + 1) (m := f.span) (by omega) (.inr le_rfl)
    have hnext : k * f.span + m + 1 = (k + 1) * f.span + f.span := by
      rw [Nat.add_one_mul]
      omega
    rw [hnext, hexponent']
    exact .inl (by push_cast; omega)

namespace Binary64

open Binary (double)

/-! ## 1. Signs and magnitudes in order -/

/-- **Something of a magnitude with a sign** is ordered as magnitudes with signs are, if it grows
with the magnitude from zero on. -/
theorem signed_le_iff {G : Type*} [AddCommGroup G] [LinearOrder G] [IsOrderedAddMonoid G]
    {g : ℕ → G} {top : ℕ} (hg : StrictMonoOn g (Set.Iic top)) (hzero : g 0 = 0) {p q : ℕ}
    (hp : p ≤ top) (hq : q ≤ top) (s s' : Bool) :
    (if s then -g p else g p) ≤ (if s' then -g q else g q)
      ↔ (if s then -(p : ℤ) else p) ≤ (if s' then -(q : ℤ) else q) := by
  have hnonneg : ∀ {r}, r ≤ top → 0 ≤ g r := fun {r} hr => by
    rw [← hzero]
    exact hg.monotoneOn (Nat.zero_le top) hr (Nat.zero_le r)
  have heq : ∀ {r}, r ≤ top → (g r ≤ 0 ↔ r = 0) := fun {r} hr => by
    rw [← hzero, hg.le_iff_le hr (Nat.zero_le top), Nat.le_zero]
  cases s <;> cases s' <;> simp only [Bool.false_eq_true, if_false, if_true]
  · rw [hg.le_iff_le hp hq, Int.ofNat_le]
  · rw [le_neg_iff_add_nonpos_left]
    constructor
    · intro h
      have hp0 := (heq hp).mp ((le_add_of_nonneg_left (hnonneg hq)).trans h)
      have hq0 := (heq hq).mp ((le_add_of_nonneg_right (hnonneg hp)).trans h)
      omega
    · intro h
      obtain ⟨rfl, rfl⟩ : p = 0 ∧ q = 0 := by omega
      rw [hzero, add_zero]
  · exact iff_of_true ((neg_nonpos.mpr (hnonneg hp)).trans (hnonneg hq)) (by omega)
  · rw [neg_le_neg_iff, neg_le_neg_iff, hg.le_iff_le hq hp, Int.ofNat_le]

/-! ## 2. What is read of a double -/

section Reading

open Float.Model Float.Model.UnpackedFloat

/-- The pattern of a double, as it is read. -/
def word (v : Binary64) : BitVec Float.Model.Format.binary64.numBits := v.bits.toBitVec

/-- The sign of a double, as it is read. -/
def sign (v : Binary64) : Sign := if v.isNegative then .negative else .positive

variable (v : Binary64)

/-- The exponent field of a double, -/
theorem unpackExponent_eq_iff (e : BitVec 11) :
    unpackExponent v.word = e ↔ v.magnitude / 2 ^ 52 = e.toNat := by
  have hmagnitude : v.magnitude = v.bits.toNat % 2 ^ 63 := rfl
  rw [← BitVec.toNat_inj, unpackExponent_def, BitVec.extractLsb'_toNat, hmagnitude,
    Nat.shiftRight_eq_div_pow]
  show v.bits.toNat / 2 ^ 52 % 2 ^ 11 = _ ↔ _
  omega

/-- its mantissa field, -/
theorem unpackMantissa_eq_iff (m : BitVec 52) :
    unpackMantissa v.word = m ↔ v.magnitude % 2 ^ 52 = m.toNat := by
  have hmagnitude : v.magnitude = v.bits.toNat % 2 ^ 63 := rfl
  rw [← BitVec.toNat_inj, unpackMantissa_def, BitVec.extractLsb'_toNat, hmagnitude,
    Nat.shiftRight_eq_div_pow]
  show v.bits.toNat / 2 ^ 0 % 2 ^ 52 = _ ↔ _
  omega

/-- and its sign. -/
theorem ofBitVec_unpackSign : Sign.ofBitVec (unpackSign v.word) = v.sign := by
  have hbits : v.bits.toNat < 2 ^ 64 := v.bits.toNat_lt
  have hbit : (unpackSign v.word).toNat = v.bits.toNat / 2 ^ 63 % 2 ^ 1 := by
    rw [unpackSign_def, BitVec.extractLsb'_toNat, Nat.shiftRight_eq_div_pow]
    rfl
  rw [sign]
  split
  · rename_i h
    have hset := isNegative_iff.mp h
    have hone : unpackSign v.word = 1#1 := BitVec.eq_of_toNat_eq (hbit.trans (by
      rw [BitVec.toNat_ofNat]
      omega))
    rw [hone]
    rfl
  · rename_i h
    have hclear := mt isNegative_iff.mpr h
    have hzero : unpackSign v.word = 0#1 := BitVec.eq_of_toNat_eq (hbit.trans (by
      rw [BitVec.toNat_ofNat]
      omega))
    rw [hzero]
    rfl

/-- What is undefined is undefined where it is read. -/
theorem isNaNBits_word : isNaNBits v.word = v.isNaN := by
  have hlt : v.magnitude < 2 ^ 63 := Nat.mod_lt _ (Nat.two_pow_pos 63)
  have htop : (-1#11).toNat = 2047 := rfl
  rw [Bool.eq_iff_iff, isNaN_iff, infinity_eq, isNaNBits, decide_eq_true_iff, ne_eq,
    unpackExponent_eq_iff, unpackMantissa_eq_iff, htop, BitVec.toNat_zero]
  omega

variable {v}

/-- **What is read** of an infinite double, -/
theorem unpack_infinite (h : v.isInfinite = true) :
    UnpackedFloat.unpack .binary64 v.word = .infinity v.sign := by
  have hmagnitude := (isInfinite_iff.mp h).trans infinity_eq
  have hexponent : unpackExponent v.word = -1#11 := (unpackExponent_eq_iff v _).mpr (by
    rw [hmagnitude]
    rfl)
  have hmantissa : unpackMantissa v.word = 0#52 := (unpackMantissa_eq_iff v _).mpr (by
    rw [hmagnitude]
    rfl)
  unfold UnpackedFloat.unpack
  rw [if_pos hexponent, if_pos hmantissa, ofBitVec_unpackSign]

/-- of a zero, -/
theorem unpack_zero (h : v.magnitude = 0) :
    UnpackedFloat.unpack .binary64 v.word = .zero v.sign := by
  have hexponent : unpackExponent v.word = 0#11 := (unpackExponent_eq_iff v _).mpr (by
    rw [h]
    rfl)
  have hmantissa : unpackMantissa v.word = 0#52 := (unpackMantissa_eq_iff v _).mpr (by
    rw [h]
    rfl)
  unfold UnpackedFloat.unpack
  rw [if_neg (by rw [hexponent]; decide), if_pos hexponent, dif_pos hmantissa, ofBitVec_unpackSign]

/-- and of any other number. -/
theorem unpack_finite (h : v.Finite) (hzero : v.magnitude ≠ 0) :
    ∃ hpos, UnpackedFloat.unpack .binary64 v.word = .finite v.sign
      (double.significand v.magnitude) (double.exponent v.magnitude) hpos := by
  have hspan : Nat.pow 2 double.fractionBits = 2 ^ 52 := rfl
  have hlowest : double.lowest = -1074 := by decide
  have hbias : (Float.Model.Format.binary64.exponentBias : ℤ) = 1023 := rfl
  have hbits : (Float.Model.Format.binary64.mantissaBitsWithoutImplicit : ℤ) = 52 := rfl
  have hexponent := (unpackExponent_eq_iff v (unpackExponent v.word)).mp rfl
  have hmantissa := (unpackMantissa_eq_iff v (unpackMantissa v.word)).mp rfl
  have htop : ¬unpackExponent v.word = -1#11 := fun h' => by
    have := (unpackExponent_eq_iff v _).mp h'
    have htop : (-1#11).toNat = 2047 := rfl
    rw [Finite, infinity_eq] at h
    omega
  by_cases hleast : unpackExponent v.word = 0#11
  · -- no leading bit is left out
    have hless := (unpackExponent_eq_iff v _).mp hleast
    rw [BitVec.toNat_zero] at hless
    have hsignificand : double.significand v.magnitude = (unpackMantissa v.word).toNat := by
      rw [Binary.Format.significand, hspan, if_pos (by omega)]
      omega
    have hweight : double.exponent v.magnitude
        = ((unpackExponent v.word).toNat : ℤ) - (1023 + 52) + 1 := by
      rw [Binary.Format.exponent, hspan, if_pos (by omega), hlowest]
      omega
    have hsome : ¬unpackMantissa v.word = 0#52 := fun h' => hzero (by
      have := (unpackMantissa_eq_iff v _).mp h'
      rw [BitVec.toNat_zero] at this
      omega)
    simp only [hsignificand, hweight]
    unfold UnpackedFloat.unpack
    simp only [hbias, hbits, ofBitVec_unpackSign]
    rw [if_neg htop, if_pos hleast, dif_neg hsome]
    exact ⟨by omega, rfl⟩
  · have hmore : ¬v.magnitude / 2 ^ 52 = 0 := fun h' =>
      hleast ((unpackExponent_eq_iff v _).mpr h')
    have hleading : (1#1 ++ unpackMantissa v.word).toNat
        = 2 ^ 52 + (unpackMantissa v.word).toNat := by
      rw [BitVec.toNat_append, ← Nat.shiftLeft_add_eq_or_of_lt (unpackMantissa v.word).isLt]
      rfl
    have hsignificand : double.significand v.magnitude = (1#1 ++ unpackMantissa v.word).toNat := by
      rw [Binary.Format.significand, hspan, if_neg (by omega), hleading, hmantissa]
    have hweight : double.exponent v.magnitude
        = ((unpackExponent v.word).toNat : ℤ) - (1023 + 52) := by
      rw [Binary.Format.exponent, hspan, if_neg (by omega), hlowest]
      omega
    simp only [hsignificand, hweight]
    unfold UnpackedFloat.unpack
    simp only [hbias, hbits, ofBitVec_unpackSign]
    rw [if_neg htop, if_neg hleast]
    exact ⟨by omega, rfl⟩

end Reading

/-! ## 3. Places and numbers -/

/-- Where a magnitude stands on the line of doubles. -/
def place (m : ℕ) : ℤ ×ₗ ℤ ×ₗ ℤ :=
  if m = 0 then 0
  else if m = double.infinity then toLex (2, toLex (0, 0))
  else toLex (1, toLex (double.exponent m, (double.significand m : ℤ)))

theorem place_strictMonoOn : StrictMonoOn place (Set.Iic double.infinity) := by
  intro p hp q hq hpq
  have hq0 : q ≠ 0 := by omega
  have hpinf : p ≠ double.infinity := by
    have : q ≤ double.infinity := hq
    omega
  unfold place
  rw [if_neg hq0, if_neg hpinf]
  by_cases hp0 : p = 0
  · rw [if_pos hp0]
    have hzero : (0 : ℤ ×ₗ ℤ ×ₗ ℤ) = toLex (0, 0) := rfl
    split
    · rw [hzero, Prod.Lex.toLex_lt_toLex]
      exact .inl two_pos
    · rw [hzero, Prod.Lex.toLex_lt_toLex]
      exact .inl one_pos
  · rw [if_neg hp0]
    split
    · rw [Prod.Lex.toLex_lt_toLex]
      exact .inl one_lt_two
    · rw [Prod.Lex.toLex_lt_toLex]
      exact .inr ⟨rfl, double.fields_strictMono hpq⟩

/-- A sample is stored as a double before it is read. -/
theorem datum_toFloat (v : Binary64) : Double.datum v.toFloat
    = Double.reread (Float.Model.UnpackedFloat.unpack .binary64 v.word) := rfl

/-- **What is read of a double** stands at its magnitude, on the side of its sign. -/
theorem place?_datum (v : Binary64) : Double.place? (Double.datum v.toFloat)
    = if v.isNaN then none
      else some (if v.isNegative then -place v.magnitude else place v.magnitude) := by
  rw [datum_toFloat, Double.reread, Float.Model.UnpackedFloat.pack_unpack, isNaNBits_word]
  rcases v.trichotomy with h | h | h
  · rw [if_pos h, if_pos h]
    exact congrArg Double.place? Double.reread_notANumber
  · have hnan : ¬v.isNaN = true := Bool.eq_false_iff.mp (isNaN_of_isInfinite h)
    have hplace : place double.infinity = toLex (2, toLex (0, 0)) := rfl
    rw [if_neg hnan, if_neg hnan, unpack_infinite h, sign, isInfinite_iff.mp h, hplace]
    cases v.isNegative <;> rfl
  · have hnan : ¬v.isNaN = true := Bool.eq_false_iff.mp h.isNaN
    rw [if_neg hnan, if_neg hnan]
    by_cases hzero : v.magnitude = 0
    · have hplace : place 0 = 0 := rfl
      rw [unpack_zero hzero, hzero, hplace, neg_zero, ite_self]
      rfl
    · obtain ⟨hpos, hread⟩ := unpack_finite h hzero
      rw [hread, place, if_neg hzero, if_neg h.ne, sign]
      cases v.isNegative <;> rfl

/-- **Doubles are compared as their numbers.** -/
theorem toFloat_le_iff {v w : Binary64} : v.toFloat ≤ w.toFloat
    ↔ v.isNaN = false ∧ w.isNaN = false ∧ v.value ≤ w.value := by
  rw [Double.le_iff, Double.le_iff_place, place?_datum, place?_datum]
  by_cases hv : v.isNaN = true
  · simp [hv]
  by_cases hw : w.isNaN = true
  · simp [hw]
  have hvtop : v.magnitude ≤ double.infinity := not_lt.mp (mt isNaN_iff.mpr hv)
  have hwtop : w.magnitude ≤ double.infinity := not_lt.mp (mt isNaN_iff.mpr hw)
  have hplaces := signed_le_iff place_strictMonoOn rfl hvtop hwtop v.isNegative w.isNegative
  have hnumbers := signed_le_iff (double.value_strictMono.strictMonoOn _) double.value_zero
    hvtop hwtop v.isNegative w.isNegative
  rw [if_neg hv, if_neg hw]
  simp only [Option.mem_some_iff, exists_eq_left', hplaces, value, hnumbers,
    Bool.eq_false_iff.mpr hv, Bool.eq_false_iff.mpr hw, true_and]

end Binary64
end RasterWarp
