/-
# The order of double-precision numbers

A `Float` is a bit pattern that is read as a number before each operation and stored as a pattern
after it (`datum`, `reread`).  What the reading gives is infinite, undefined, a zero with a sign, or
a mantissa with an exponent.  Three things are shown of it.

* Comparisons are those of a line, on which everything that is not undefined has its place
  (`le_iff_place`).
* Storing a number keeps its sign (`signed_reread`), and rounding one that is not below the least
  double does not make it zero (`away_round`).  So a natural number above zero is a positive double,
  whatever its size (`away_ofNat`).
* Nothing but infinity comes out negative of a root, or of a quotient of numbers that are not
  negative (`upward_sqrt`, `upward_div`).

Together they make the doubles an `OrderedScalar`.  That a number above another differs from it by
more than nothing (`abs_sub_pos`) holds because what is left is a multiple of the least double.
-/
import RasterWarp.Proofs.OrderedNumbers
import Mathlib

namespace RasterWarp

namespace Double

open Float.Model Float.Model.UnpackedFloat

/-! ## 1. Reading a double -/

/-- **What a double is:** infinite, undefined, zero, or a mantissa and an exponent. -/
def datum (x : Float) : UnpackedFloat := x.toModel.unpack

/-- What is read of a number that has been stored. -/
def reread (u : UnpackedFloat) : UnpackedFloat := unpack .binary64 (pack .binary64 u)

theorem lt_iff {x y : Float} : x < y ↔ (datum x).lt (datum y) = true := by
  show decide ((datum x).lt (datum y) = true) = true ↔ _
  rw [decide_eq_true_iff]

theorem le_iff {x y : Float} : x ≤ y ↔ (datum x).le (datum y) = true := by
  show decide ((datum x).le (datum y) = true) = true ↔ _
  rw [decide_eq_true_iff]

theorem beq_eq (x y : Float) : (x == y) = (datum x).beq (datum y) := rfl

theorem datum_zero : datum 0 = .zero .positive := rfl

theorem datum_sub (x y : Float) :
    datum (x - y) = reread (UnpackedFloat.sub .binary64 (datum x) (datum y)) := rfl

theorem datum_neg (x : Float) : datum (-x) = reread (datum x).neg := rfl

theorem datum_div (x y : Float) :
    datum (x / y) = reread (UnpackedFloat.div .binary64 (datum x) (datum y)) := rfl

theorem datum_sqrt (x : Float) :
    datum x.sqrt = reread (UnpackedFloat.sqrt .binary64 (datum x)) := rfl

@[simp] theorem reread_notANumber : reread .notANumber = .notANumber := rfl

@[simp] theorem reread_infinity (s : Sign) : reread (.infinity s) = .infinity s := by
  cases s <;> rfl

@[simp] theorem reread_zero (s : Sign) : reread (.zero s) = .zero s := by
  cases s <;> rfl

/-! ## 2. The line that doubles stand on -/

/-- Where a number stands: which side of zero and how far, its exponent, its mantissa. -/
def place? : UnpackedFloat → Option (ℤ ×ₗ ℤ ×ₗ ℤ)
  | .notANumber => none
  | .infinity .negative => some (toLex (-2, toLex (0, 0)))
  | .finite .negative m e _ => some (toLex (-1, toLex (-e, -m)))
  | .zero _ => some (toLex (0, toLex (0, 0)))
  | .finite .positive m e _ => some (toLex (1, toLex (e, m)))
  | .infinity .positive => some (toLex (2, toLex (0, 0)))

/-- Exponents are compared before mantissas, -/
theorem isLE_then_compare (e e' : ℤ) (m m' : ℕ) :
    ((compare e e').then (compare m m')).isLE = true ↔ e < e' ∨ e = e' ∧ m ≤ m' := by
  rw [Ordering.isLE_then_iff_or, compare_lt_iff_lt, compare_eq_iff_eq, Nat.isLE_compare]

/-- and the other way round below zero. -/
theorem isGE_then_compare (e e' : ℤ) (m m' : ℕ) :
    ((compare e e').then (compare m m')).isGE = true ↔ e' < e ∨ e = e' ∧ m' ≤ m := by
  rw [← Ordering.isLE_swap, Ordering.swap_then, Int.compare_swap, Nat.compare_swap,
    isLE_then_compare, eq_comm (a := e)]

theorem compare_sign (s s' : Sign) :
    (compare s s').isLE = true ↔ s = .negative ∨ s' = .positive := by
  cases s <;> cases s' <;> simp <;> rfl

/-- **Numbers are compared by their places.** -/
theorem le_iff_place {u v : UnpackedFloat} :
    u.le v = true ↔ ∃ p ∈ place? u, ∃ q ∈ place? v, p ≤ q := by
  rcases u with s | _ | s | ⟨s, m, e, h⟩ <;> rcases v with s' | _ | s' | ⟨s', m', e', h'⟩ <;>
    (try cases s) <;> (try cases s') <;>
    simp [UnpackedFloat.le, UnpackedFloat.compare, place?, Prod.Lex.toLex_le_toLex,
      isLE_then_compare, isGE_then_compare, compare_sign]

theorem then_compare_eq_lt (e e' : ℤ) (m m' : ℕ) :
    (compare e e').then (compare m m') = .lt ↔ e < e' ∨ e = e' ∧ m < m' := by
  rw [Ordering.then_eq_lt, compare_lt_iff_lt, compare_eq_iff_eq, Nat.compare_eq_lt]

theorem then_compare_eq_gt (e e' : ℤ) (m m' : ℕ) :
    (compare e e').then (compare m m') = .gt ↔ e' < e ∨ e = e' ∧ m' < m := by
  rw [Ordering.then_eq_gt, compare_gt_iff_gt, compare_eq_iff_eq, Nat.compare_eq_gt]

theorem lt_iff_place {u v : UnpackedFloat} :
    u.lt v = true ↔ ∃ p ∈ place? u, ∃ q ∈ place? v, p < q := by
  have hsigns : (compare Sign.negative Sign.positive) = .lt := rfl
  rcases u with s | _ | s | ⟨s, m, e, h⟩ <;> rcases v with s' | _ | s' | ⟨s', m', e', h'⟩ <;>
    (try cases s) <;> (try cases s') <;>
    simp [UnpackedFloat.lt, UnpackedFloat.compare, place?, Prod.Lex.toLex_lt_toLex,
      then_compare_eq_lt, then_compare_eq_gt, hsigns]

/-- Of two numbers that have a place one is no further than the other. -/
theorem le_total_of_place {u v : UnpackedFloat} (hu : (place? u).isSome) (hv : (place? v).isSome) :
    u.le v = true ∨ v.le u = true := by
  obtain ⟨p, hp⟩ := Option.isSome_iff_exists.mp hu
  obtain ⟨q, hq⟩ := Option.isSome_iff_exists.mp hv
  rcases le_total p q with h | h
  · exact .inl (le_iff_place.mpr ⟨p, hp, q, hq, h⟩)
  · exact .inr (le_iff_place.mpr ⟨q, hq, p, hp, h⟩)

theorem le_trans_of_le {u v w : UnpackedFloat} (h : u.le v = true) (h' : v.le w = true) :
    u.le w = true := by
  obtain ⟨p, hp, q, hq, hpq⟩ := le_iff_place.mp h
  obtain ⟨q', hq', r, hr, hqr⟩ := le_iff_place.mp h'
  obtain rfl := Option.some.inj (hq.symm.trans hq')
  exact le_iff_place.mpr ⟨p, hp, r, hr, hpq.trans hqr⟩

theorem le_self_iff {x : Float} : x ≤ x ↔ (place? (datum x)).isSome := by
  rw [le_iff, le_iff_place, Option.isSome_iff_exists]
  exact ⟨fun ⟨p, hp, _⟩ => ⟨p, hp⟩, fun ⟨p, hp⟩ => ⟨p, hp, p, hp, le_rfl⟩⟩

/-- Two defined numbers are in one order or in the other. -/
theorem not_lt_iff {x y : Float} (hx : x ≤ x) (hy : y ≤ y) : ¬ y < x ↔ x ≤ y := by
  obtain ⟨p, hp⟩ := Option.isSome_iff_exists.mp (le_self_iff.mp hx)
  obtain ⟨q, hq⟩ := Option.isSome_iff_exists.mp (le_self_iff.mp hy)
  rw [lt_iff, lt_iff_place, le_iff, le_iff_place, hp, hq]
  simp

theorem le_of_lt {x y : Float} (h : x < y) : x ≤ y := by
  rw [lt_iff, lt_iff_place] at h
  obtain ⟨p, hp, q, hq, hpq⟩ := h
  exact le_iff.mpr (le_iff_place.mpr ⟨p, hp, q, hq, hpq.le⟩)

theorem defined_of_le {x y : Float} (h : x ≤ y) : x ≤ x ∧ y ≤ y := by
  rw [le_iff, le_iff_place] at h
  obtain ⟨p, hp, q, hq, -⟩ := h
  exact ⟨le_self_iff.mpr (Option.isSome_of_mem hp), le_self_iff.mpr (Option.isSome_of_mem hq)⟩

/-! ## 3. Numbers of one sign -/

/-- **Infinite or finite with a sign, and not zero.** -/
inductive Away (s : Sign) : UnpackedFloat → Prop
  | infinity : Away s (.infinity s)
  | finite (m : ℕ) (e : ℤ) (h : 0 < m) : Away s (.finite s m e h)

theorem Away.pos {u : UnpackedFloat} (h : Away .positive u) {s : Sign} :
    UnpackedFloat.lt (.zero s) u = true := by
  cases h <;> rfl

/-- Away from zero by a sign, or a zero of that sign. -/
def Signed (s : Sign) (u : UnpackedFloat) : Prop := Away s u ∨ u = .zero s

/-! ## 4. Storing a number -/

/-- Below the greatest exponent a pattern is a number of its sign, -/
theorem signed_unpack (s : Sign) {e : BitVec 11} (m : BitVec 52) (he : e ≠ -1#11) :
    Signed s (UnpackedFloat.unpack .binary64 (packComponents .binary64 s e m)) := by
  simp only [UnpackedFloat.unpack, unpackMantissa_packComponents, unpackExponent_packComponents,
    unpackSign_packComponents, Sign.ofBitVec_toBitVec, if_neg he]
  split
  · split
    · exact .inr rfl
    · exact .inl (.finite ..)
  · exact .inl (.finite ..)

/-- and not zero unless all the rest of it is. -/
theorem away_unpack (s : Sign) {e : BitVec 11} {m : BitVec 52} (he : e ≠ -1#11)
    (h : e ≠ 0#11 ∨ m ≠ 0#52) :
    Away s (UnpackedFloat.unpack .binary64 (packComponents .binary64 s e m)) := by
  simp only [UnpackedFloat.unpack, unpackMantissa_packComponents, unpackExponent_packComponents,
    unpackSign_packComponents, Sign.ofBitVec_toBitVec, if_neg he]
  split
  · rename_i he0
    split
    · rename_i hm0
      exact (h.elim (· he0) (· hm0)).elim
    · exact .finite ..
  · exact .finite ..

/-- **Three ways to store a finite number:** it is too large, has its leading bit left out, or is
kept whole. -/
theorem reread_finite_cases {P : UnpackedFloat → Prop} (s : Sign) (m : ℕ) (e : ℤ) (h : 0 < m)
    (overflow : P (.infinity s))
    (normal : ∀ e' : BitVec 11, e' ≠ -1#11 → e'.toNat = (e + 1075).toNat →
      P (UnpackedFloat.unpack .binary64 (packComponents .binary64 s e' (BitVec.ofNat 52 m))))
    (subnormal : m.log2 ≠ 52 →
      P (UnpackedFloat.unpack .binary64 (packComponents .binary64 s 0#11 (BitVec.ofNat 52 m)))) :
    P (reread (.finite s m e h)) := by
  have hbias :
      (e + Format.binary64.exponentBias + Format.binary64.mantissaBitsWithoutImplicit).toNat
        = (e + 1075).toNat := by
    show (e + (1023 : ℕ) + (52 : ℕ)).toNat = _
    omega
  unfold reread UnpackedFloat.pack
  simp only [hbias]
  split
  · have hinf : UnpackedFloat.unpack .binary64 (packedInfinity .binary64 s) = .infinity s :=
      reread_infinity s
    rw [hinf]
    exact overflow
  · rename_i hsmall
    have hlt : (e + 1075).toNat + 1 < 2 ^ 11 := not_le.mp hsmall
    have hval : (BitVec.ofNat 11 (e + 1075).toNat).toNat = (e + 1075).toNat := by
      rw [BitVec.toNat_ofNat, Nat.mod_eq_of_lt (by omega)]
    split
    · refine normal _ (fun he => ?_) hval
      have := congrArg BitVec.toNat he
      rw [hval] at this
      simp at this
      omega
    · rename_i hlog
      exact subnormal fun h52 => hlog (by rw [h52]; rfl)

/-- A finite number is stored as one of its sign, -/
theorem signed_reread (s : Sign) (m : ℕ) (e : ℤ) (h : 0 < m) :
    Signed s (reread (.finite s m e h)) :=
  reread_finite_cases s m e h (.inl .infinity) (fun _ he _ => signed_unpack s _ he)
    fun _ => signed_unpack s _ (by decide)

/-- and not as zero, if its mantissa has no more bits than there is room for. -/
theorem away_reread (s : Sign) {m : ℕ} {e : ℤ} (h : 0 < m) (hm : m < 2 ^ 53) (he : -1074 ≤ e) :
    Away s (reread (.finite s m e h)) := by
  refine reread_finite_cases s m e h .infinity (fun e' htop hval => ?_) fun hlog => ?_
  · refine away_unpack s htop (.inl fun hzero => ?_)
    rw [hzero, BitVec.toNat_zero] at hval
    omega
  · have hlt : m < 2 ^ 52 := by
      have := (Nat.log2_lt h.ne').mpr hm
      exact (Nat.log2_lt h.ne').mp (by omega)
    refine away_unpack s (by decide) (.inr fun hzero => ?_)
    have hval := congrArg BitVec.toNat hzero
    rw [BitVec.toNat_ofNat, Nat.mod_eq_of_lt hlt, BitVec.toNat_zero] at hval
    omega

/-! ## 5. Rounding -/

/-- A number is rounded to one of its sign. -/
theorem round_shape (s : Sign) (m : ℕ) (e : ℤ) (acc : Accuracy) :
    roundWithAccuracy .binary64 s m e acc = .zero s ∨
      ∃ m' e' h, roundWithAccuracy .binary64 s m e acc = .finite s m' e' h := by
  unfold roundWithAccuracy
  simp only
  split
  · exact .inl rfl
  · rename_i hm
    exact .inr ⟨_, _, Nat.pos_of_ne_zero hm, rfl⟩

theorem signed_round (s : Sign) (m : ℕ) (e : ℤ) (acc : Accuracy) :
    Signed s (reread (roundWithAccuracy .binary64 s m e acc)) := by
  rcases round_shape s m e acc with h | ⟨m', e', h', h⟩ <;> rw [h]
  · exact .inr (reread_zero s)
  · exact signed_reread s m' e' h'

theorem mantissa_shift (em : ExtendedMantissa) (k : ℕ) :
    (em >>> k).mantissa = em.mantissa / 2 ^ k := by
  induction k with
  | zero => exact (Nat.div_one _).symm
  | succ k ih =>
    show (em >>> k).mantissa / 2 = _
    rw [ih, Nat.div_div_eq_div_mul, Nat.pow_succ]

theorem mantissa_ofAccuracy (m : ℕ) (acc : Accuracy) :
    (ExtendedMantissa.ofMantissaAndAccuracy m acc).mantissa = m := by
  rcases acc with _ | _ | _ | _ <;> rfl

theorem le_rounded (m : ℕ) (acc : Accuracy) : m ≤ acc.roundToNearestEven m := by
  rcases acc with _ | _ | _ | _ <;> simp [Accuracy.roundToNearestEven]

theorem target_eq (m : ℕ) (e : ℤ) :
    Format.binary64.targetExponent (totalExponent m e) = max (m.log2 + 1 + e - 53) (-1074) := rfl

/-- **A mantissa that is shifted to where it belongs** has bits left and fits, unless the number is
below the least one. -/
theorem shifted {m : ℕ} {e : ℤ} (hm : 0 < m) (he : -1074 ≤ e + m.log2) (acc : Accuracy) :
    0 < (shiftToTargetExponent .binary64 m e acc).1.mantissa ∧
      (shiftToTargetExponent .binary64 m e acc).1.mantissa < 2 ^ 53 ∧
      -1074 ≤ (shiftToTargetExponent .binary64 m e acc).2 := by
  simp only [shiftToTargetExponent, shiftToExponent, target_eq, mantissa_shift,
    mantissa_ofAccuracy]
  generalize hk : (max ((m.log2 : ℤ) + 1 + e - 53) (-1074) - e).toNat = k
  have hlow : 2 ^ k ≤ m :=
    (Nat.pow_le_pow_right Nat.two_pos (by omega)).trans (Nat.log2_self_le hm.ne')
  have hhigh : m < 2 ^ (53 + k) :=
    Nat.lt_log2_self.trans_le (Nat.pow_le_pow_right Nat.two_pos (by omega))
  refine ⟨Nat.div_pos hlow (Nat.two_pow_pos k), ?_, by omega⟩
  rw [Nat.div_lt_iff_lt_mul (Nat.two_pow_pos k), ← Nat.pow_add]
  exact hhigh

/-- **A number that is not below the least one is not rounded to zero.** -/
theorem away_round (s : Sign) {m : ℕ} {e : ℤ} (hm : 0 < m) (he : -1074 ≤ e + m.log2)
    (acc : Accuracy) : Away s (reread (roundWithAccuracy .binary64 s m e acc)) := by
  obtain ⟨hpos, -, hexp⟩ := shifted hm he acc
  unfold roundWithAccuracy
  simp only
  generalize shiftToTargetExponent .binary64 m e acc = first at hpos hexp
  have hround : 0 < first.1.roundedMantissa := hpos.trans_le (le_rounded _ _)
  obtain ⟨hpos', hfit, hexp'⟩ := shifted hround (e := first.2) (by omega) .exact
  rw [dif_neg hpos'.ne']
  exact away_reread s hpos' hfit hexp'

/-- Nor is one whose exponent is not below the least. -/
theorem away_rounded (s : Sign) {m : ℕ} {e : ℤ} (hm : 0 < m) (he : -1074 ≤ e) :
    Away s (reread (UnpackedFloat.round .binary64 s m e)) := by
  unfold UnpackedFloat.round
  simp only [decreaseExponent, target_eq]
  refine away_round s ?_ ?_ _
  · rw [Nat.shiftLeft_eq]
    exact Nat.mul_pos hm (Nat.two_pow_pos _)
  · omega

/-! ## 6. Finite numbers -/

/-- What is left of a number without itself. -/
theorem sub_self (u : UnpackedFloat) : UnpackedFloat.sub .binary64 u u =
    if u.isFinite then .zero .positive else .notANumber := by
  rcases u with (_ | _) | _ | (_ | _) | ⟨s, m, e, hm⟩
  case finite => simp [UnpackedFloat.sub, UnpackedFloat.normalize, UnpackedFloat.isFinite]
  all_goals rfl

/-- **A number differs from itself by zero** if it is zero or has a mantissa, and only then. -/
theorem isFinite_eq (x : Float) : Scalar.isFinite x = (datum x).isFinite := by
  show (datum (x - x)).beq (datum 0) = _
  rw [datum_sub, sub_self, datum_zero]
  cases (datum x).isFinite <;> rfl

theorem isFinite_of {x : Float} (h : Scalar.isFinite x = true) : (datum x).isFinite = true :=
  isFinite_eq x ▸ h

theorem place_of_isFinite {u : UnpackedFloat} (h : u.isFinite = true) : (place? u).isSome := by
  rcases u with _ | _ | _ | ⟨_ | _, m, e, hm⟩ <;> first | rfl | cases h

theorem beq_self {u : UnpackedFloat} (h : u.isFinite = true) : u.beq u = true := by
  have hnan : u ≠ .notANumber := by
    rintro rfl
    cases h
  exact (beq_iff_ne_notANumber_and_eq u u).mpr ⟨hnan, hnan, .inl rfl⟩

theorem pos_iff {u : UnpackedFloat} (h : u.isFinite = true) (hneg : u.lt (.zero .positive) ≠ true) :
    UnpackedFloat.lt (.zero .positive) u = true ↔ u.beq (.zero .positive) = false := by
  rcases u with _ | _ | _ | ⟨_ | _, m, e, hm⟩
  · cases h
  · cases h
  · exact iff_of_false (fun h => nomatch h) (fun h => nomatch h)
  · exact (hneg rfl).elim
  · exact iff_of_true rfl rfl

/-! ## 7. What is not negative -/

/-- **A number that is not below zero:** it may be undefined. -/
inductive Upward : UnpackedFloat → Prop
  | notANumber : Upward .notANumber
  | zero (s : Sign) : Upward (.zero s)
  | finite (m : ℕ) (e : ℤ) (h : 0 < m) : Upward (.finite .positive m e h)
  | infinity : Upward (.infinity .positive)

theorem upward_iff {u : UnpackedFloat} : Upward u ↔ ¬u.lt (.zero .positive) = true := by
  constructor
  · rintro (_ | _ | _ | _) h <;> cases h
  · intro h
    rcases u with (_ | _) | _ | s | ⟨_ | _, m, e, hm⟩
    · exact (h rfl).elim
    · exact .infinity
    · exact .notANumber
    · exact .zero s
    · exact (h rfl).elim
    · exact .finite m e hm

theorem not_neg_iff {x : Float} : ¬x < 0 ↔ Upward (datum x) := by
  rw [lt_iff, datum_zero, upward_iff]

theorem Signed.upward {u : UnpackedFloat} (h : Signed .positive u) : Upward u := by
  rcases h with ⟨_ | _⟩ | rfl
  · exact .infinity
  · exact .finite ..
  · exact .zero _

theorem upward_sqrt (u : UnpackedFloat) : Upward (reread (u.sqrt .binary64)) := by
  rcases u with (_ | _) | _ | s | ⟨_ | _, m, e, hm⟩ <;> simp only [UnpackedFloat.sqrt]
  · exact .notANumber
  · exact .infinity
  · exact .notANumber
  · exact (reread_zero s).symm ▸ .zero s
  · exact .notANumber
  · exact (signed_round ..).upward

theorem upward_neg {u : UnpackedFloat} (h : u.lt (.zero .positive) = true) :
    Upward (reread u.neg) := by
  rcases u with (_ | _) | _ | s | ⟨_ | _, m, e, hm⟩
  · exact (reread_infinity .positive).symm ▸ .infinity
  · cases h
  · cases h
  · cases h
  · exact (signed_reread .positive m e hm).upward
  · cases h

theorem abs_not_neg (x : Float) : ¬ Scalar.abs x < 0 := by
  unfold Scalar.abs
  split
  · rename_i h
    rw [not_neg_iff, datum_neg]
    exact upward_neg (lt_iff.mp h)
  · assumption

/-- The quotient of two numbers that are not negative is not, if it is finite.  It can be negative
infinity, where the divisor is the zero below zero. -/
theorem upward_div {u v : UnpackedFloat} (hu : Upward u) (hv : Upward v)
    (h : (reread (u.div .binary64 v)).isFinite = true) : Upward (reread (u.div .binary64 v)) := by
  -- what is not rounded is undefined, infinite or zero
  have hinf : ∀ s, ¬(reread (.infinity s)).isFinite = true := fun s hs => by
    rw [reread_infinity] at hs
    cases hs
  have hzero : ∀ s, Upward (reread (.zero s)) := fun s => (reread_zero s).symm ▸ .zero s
  have hnan : Upward (reread .notANumber) := reread_notANumber.symm ▸ .notANumber
  cases hu <;> cases hv <;> simp only [UnpackedFloat.div] at h ⊢
  case finite.finite => exact (signed_round ..).upward
  case zero.finite | zero.infinity | finite.infinity => exact hzero _
  case finite.zero | infinity.zero | infinity.finite => exact (hinf _ h).elim
  all_goals exact hnan

/-! ## 8. Natural numbers -/

/-- An exponent that was read is not below the least one. -/
theorem exponent_unpack {b : BitVec Format.binary64.numBits} {s : Sign} {m : ℕ} {e : ℤ} {hm : 0 < m}
    (h : UnpackedFloat.unpack .binary64 b = .finite s m e hm) : -1074 ≤ e := by
  have hbias : (Format.binary64.exponentBias : ℤ) = 1023 := rfl
  unfold UnpackedFloat.unpack at h
  simp only [hbias] at h
  split at h
  · split at h <;> cases h
  · split at h
    · split at h
      · cases h
      · injection h
        omega
    · rename_i hne
      injection h
      have : (unpackExponent b).toNat ≠ 0 := fun h0 => hne (BitVec.eq_of_toNat_eq h0)
      omega

theorem mul_finite {m m' : ℕ} (e e' : ℤ) (h : 0 < m) (h' : 0 < m') :
    UnpackedFloat.mul .binary64 (.finite .positive m e h) (.finite .positive m' e' h') =
      roundWithAccuracy .binary64 .positive (m * m') (e + e') .exact := rfl

/-- The product of two positive numbers is not rounded to zero, if the second is not below one. -/
theorem away_mul {b : BitVec Format.binary64.numBits} {m : ℕ} {e : ℤ} (hm : 0 < m)
    (h : Away .positive (UnpackedFloat.unpack .binary64 b)) (hone : 0 ≤ e + m.log2) :
    Away .positive (reread (UnpackedFloat.mul .binary64 (UnpackedFloat.unpack .binary64 b)
      (.finite .positive m e hm))) := by
  generalize hu : UnpackedFloat.unpack .binary64 b = u at h
  rcases h with _ | ⟨m', e', hm'⟩
  · exact (reread_infinity .positive).symm ▸ .infinity
  · have hread := exponent_unpack hu
    have hlog : m.log2 ≤ (m' * m).log2 := by
      rw [Nat.le_log2 (Nat.mul_pos hm' hm).ne']
      exact (Nat.log2_self_le hm.ne').trans (Nat.le_mul_of_pos_left m hm')
    rw [mul_finite]
    exact away_round _ (Nat.mul_pos hm' hm) (by omega) _

theorem away_ofUInt64 {n : UInt64} (hn : 0 < n.toNat) : Away .positive (datum n.toFloat) := by
  show Away .positive (reread (UnpackedFloat.normalize .binary64 n.toNat 0 .positive))
  unfold UnpackedFloat.normalize
  have hcmp : compare (n.toNat : ℤ) 0 = .gt := Int.compare_eq_gt.mpr (by omega)
  rw [hcmp]
  exact away_rounded _ (by rwa [Int.toNat_natCast]) (by decide)

/-- **A natural number above zero** is a positive double, however large. -/
theorem away_ofNat {n : ℕ} (hn : 0 < n) : Away .positive (datum (Float.ofNat n)) := by
  show Away .positive (datum (Float.ofScientific n false 0))
  unfold Float.ofScientific
  split
  · rename_i hsmall
    have hval : n.toUInt64.toNat = n := Nat.mod_eq_of_lt (hsmall.1.trans (by decide))
    have hone : datum (Float.ofBits 0x3FF0000000000000)
        = .finite .positive (2 ^ 52) (-52) (by decide) := rfl
    show Away .positive (reread (UnpackedFloat.mul .binary64 (datum n.toUInt64.toFloat)
      (datum (Float.ofBits 0x3FF0000000000000))))
    rw [hone]
    exact away_mul (by decide) (away_ofUInt64 (hval.symm ▸ hn)) (by decide)
  · show Away .positive (reread (UnpackedFloat.ofScientific .binary64 n 0))
    unfold UnpackedFloat.ofScientific
    have hpow : (2 : ℤ) ^ Format.binary64.exponentBits = 2048 := rfl
    rw [dif_neg hn.ne', if_neg (by decide), if_neg (by omega), if_pos le_rfl]
    have hbits : -(Format.binary64.mantissaBits : ℤ) = -53 := rfl
    rw [mul_finite, hbits]
    refine away_round _ (Nat.mul_pos ?_ (by decide)) (by omega) _
    rw [Nat.shiftLeft_eq]
    exact Nat.mul_pos hn (Nat.two_pow_pos _)

/-- A finite natural number by one above zero is a number. -/
theorem le_div_self {m n : ℕ} (hm : Scalar.isFinite (Scalar.ofNat m : Float) = true) (hn : 0 < n) :
    (Scalar.ofNat m / Scalar.ofNat n : Float) ≤ Scalar.ofNat m / Scalar.ofNat n := by
  have hfin := isFinite_of hm
  have haway : Away .positive (datum (Scalar.ofNat n)) := away_ofNat hn
  rw [le_self_iff, datum_div]
  have hsigned (s : Sign) {u : UnpackedFloat} (h : Signed s u) : (place? u).isSome := by
    rcases h with ⟨_ | _⟩ | rfl <;> cases s <;> rfl
  generalize datum (Scalar.ofNat m) = u at hfin
  generalize datum (Scalar.ofNat n) = v at haway
  rcases u with s | _ | s | ⟨s, m, e, hm⟩
  · cases hfin
  · cases hfin
  · cases haway <;> exact hsigned _ (.inr (reread_zero _))
  · cases haway
    · exact hsigned _ (.inr (reread_zero _))
    · exact hsigned _ (signed_round ..)

/-! ## 9. Differences -/

/-- A mantissa that was read has its leading bit in one place, unless the exponent is the least. -/
theorem mantissa_unpack {b : BitVec Format.binary64.numBits} {s : Sign} {m : ℕ} {e : ℤ} {hm : 0 < m}
    (h : UnpackedFloat.unpack .binary64 b = .finite s m e hm) :
    m < 2 ^ 53 ∧ (-1074 < e → 2 ^ 52 ≤ m) := by
  have hbias : (Format.binary64.exponentBias : ℤ) = 1023 := rfl
  have hwidth : (Format.binary64.mantissaBitsWithoutImplicit : ℤ) = 52 := rfl
  have hbits : (unpackMantissa b).toNat < 2 ^ 52 := (unpackMantissa b).isLt
  unfold UnpackedFloat.unpack at h
  simp only [hbias, hwidth] at h
  split at h
  · split at h <;> cases h
  · split at h
    · rename_i hzero
      split at h
      · cases h
      · injection h with _ hmantissa hexponent
        have hexp : (unpackExponent b).toNat = 0 := congrArg BitVec.toNat hzero
        omega
    · injection h with _ hmantissa _
      rw [BitVec.toNat_append] at hmantissa
      have hsum : 1 <<< 52 + (unpackMantissa b).toNat = 1 <<< 52 ||| (unpackMantissa b).toNat :=
        Nat.shiftLeft_add_eq_or_of_lt hbits 1
      have hlead : (1#1).toNat <<< Format.binary64.mantissaBitsWithoutImplicit = 1 <<< 52 := rfl
      rw [hlead, ← hsum] at hmantissa
      have hone : 1 <<< 52 = 2 ^ 52 := rfl
      omega

/-- A finite double above one. -/
theorem exists_datum {y : Float} (hone : 1 < y) (hfinite : Scalar.isFinite y = true) :
    ∃ m e hm, datum y = .finite .positive m e hm := by
  have hlt := lt_iff.mp hone
  have hfin := isFinite_of hfinite
  have hunit : datum 1 = .finite .positive (2 ^ 52) (-52) (by decide) := rfl
  rw [hunit] at hlt
  generalize datum y = u at hlt hfin
  rcases u with (_ | _) | _ | s | ⟨_ | _, m, e, hm⟩
  · cases hlt
  · cases hfin
  · cases hlt
  · cases hlt
  · cases hlt
  · exact ⟨m, e, hm, rfl⟩

/-- **The greater of two positive numbers less the other is positive,** for the difference is not
below the least double. -/
theorem away_sub {b b' : BitVec Format.binary64.numBits} {m m' : ℕ} {e e' : ℤ} {hm : 0 < m}
    {hm' : 0 < m'} (h : UnpackedFloat.unpack .binary64 b = .finite .positive m e hm)
    (h' : UnpackedFloat.unpack .binary64 b' = .finite .positive m' e' hm')
    (hlt : e' < e ∨ e' = e ∧ m' < m) :
    Away .positive (reread (UnpackedFloat.sub .binary64 (.finite .positive m e hm)
      (.finite .positive m' e' hm'))) := by
  have hexp := exponent_unpack h
  have hexp' := exponent_unpack h'
  have hmantissa := (mantissa_unpack h).2
  have hmantissa' := (mantissa_unpack h').1
  have hpos : m' <<< (e' - min e e').toNat < m <<< (e - min e e').toNat := by
    rcases hlt with hlt | ⟨rfl, hlt⟩
    · obtain ⟨k, hk⟩ : ∃ k, (e - min e e').toNat = k + 1 := ⟨(e - min e e').toNat - 1, by omega⟩
      have hzero : (e' - min e e').toNat = 0 := by omega
      rw [hk, hzero, Nat.shiftLeft_zero, Nat.shiftLeft_eq, Nat.pow_succ]
      have htwo : 1 ≤ 2 ^ k := Nat.one_le_two_pow
      have hlarge := hmantissa (by omega)
      calc m' < 2 ^ 52 * 2 := by omega
        _ ≤ m * 2 := Nat.mul_le_mul_right 2 hlarge
        _ ≤ m * (2 ^ k * 2) := Nat.mul_le_mul_left m (by omega)
    · simpa using hlt
  have hdifference : UnpackedFloat.sub .binary64 (.finite .positive m e hm)
      (.finite .positive m' e' hm') = UnpackedFloat.normalize .binary64
        ((m <<< (e - min e e').toNat : ℕ) - (m' <<< (e' - min e e').toNat : ℕ) : ℤ) (min e e')
        .positive := rfl
  rw [hdifference, UnpackedFloat.normalize, Int.compare_eq_gt.mpr (by omega)]
  exact away_rounded .positive (by omega) (le_min hexp hexp')

theorem abs_sub_pos {x y : Float} (hone : 1 < y) (hfinite : Scalar.isFinite y = true)
    (h : y < x) : 0 < Scalar.abs (x - y) := by
  have haway : Away .positive (datum (x - y)) := by
    obtain ⟨m', e', hm', hy⟩ := exists_datum hone hfinite
    rw [lt_iff, lt_iff_place, hy] at h
    rw [datum_sub, hy]
    obtain ⟨p, hp, q, hq, hpq⟩ := h
    cases hp
    generalize hx : datum x = u at hq
    rcases u with (_ | _) | _ | s | ⟨_ | _, m, e, hm⟩ <;> cases hq
    · simp [Prod.Lex.toLex_lt_toLex] at hpq
    · exact (reread_infinity .positive).symm ▸ .infinity
    · simp [Prod.Lex.toLex_lt_toLex] at hpq
    · simp [Prod.Lex.toLex_lt_toLex] at hpq
    · refine away_sub hx hy ?_
      simpa [Prod.Lex.toLex_lt_toLex] using hpq
  have hnot : ¬ x - y < 0 := not_neg_iff.mpr (Signed.upward (.inl haway))
  rw [Scalar.abs, if_neg hnot, lt_iff, datum_zero]
  exact haway.pos

theorem datum_eq_of_le {x y : Float} (hone : 1 < y) (hfinite : Scalar.isFinite y = true)
    (hle : x ≤ y) (hge : y ≤ x) : datum x = datum y := by
  obtain ⟨m', e', hm', hy⟩ := exists_datum hone hfinite
  rw [le_iff, le_iff_place] at hle hge
  obtain ⟨p, hp, q, hq, hpq⟩ := hle
  obtain ⟨q', hq', p', hp', hqp⟩ := hge
  obtain rfl := Option.some.inj (hp.symm.trans hp')
  obtain rfl := Option.some.inj (hq.symm.trans hq')
  obtain rfl := le_antisymm hpq hqp
  rw [hy] at hq ⊢
  generalize datum x = u at hp
  cases hq
  rcases u with (_ | _) | _ | s | ⟨_ | _, m, e, hm⟩ <;> simp [place?] at hp ⊢
  exact ⟨hp.2, hp.1⟩

theorem abs_sub_lt {x y t : Float} (hone : 1 < y) (hfinite : Scalar.isFinite y = true)
    (hle : x ≤ y) (hge : y ≤ x) (ht : 0 < t) : Scalar.abs (x - y) < t := by
  have hzero : datum (x - y) = datum 0 := by
    rw [datum_sub, datum_eq_of_le hone hfinite hle hge, sub_self, isFinite_of hfinite, if_pos rfl,
      reread_zero, datum_zero]
  have hnot : ¬ x - y < 0 := by
    rw [lt_iff, hzero]
    exact fun h => nomatch h
  rw [Scalar.abs, if_neg hnot, lt_iff, hzero]
  exact lt_iff.mp ht

theorem beq_of_le {x y : Float} (hone : 1 < y) (hfinite : Scalar.isFinite y = true)
    (hle : x ≤ y) (hge : y ≤ x) : (x == y) = true := by
  rw [beq_eq, datum_eq_of_le hone hfinite hle hge]
  exact beq_self (isFinite_of hfinite)

end Double

instance : OrderedScalar Float where
  le_trans h h' :=
    Double.le_iff.mpr (Double.le_trans_of_le (Double.le_iff.mp h) (Double.le_iff.mp h'))
  le_total ha hb := by
    rw [Double.le_iff, Double.le_iff]
    exact Double.le_total_of_place (Double.place_of_isFinite (Double.isFinite_of ha))
      (Double.place_of_isFinite (Double.isFinite_of hb))
  bne_self ha := by
    show (!_) = false
    rw [Double.beq_eq, Double.beq_self (Double.isFinite_of ha), Bool.not_true]
  pos_iff ha hneg :=
    Double.lt_iff.trans
      (Double.pos_iff (Double.isFinite_of ha) fun h => hneg (Double.lt_iff.mpr h))
  ofNat_pos hn := Double.lt_iff.mpr (Double.away_ofNat hn).pos
  sqrt_not_neg a := Double.not_neg_iff.mpr (Double.datum_sqrt a ▸ Double.upward_sqrt _)
  div_not_neg {a b} h ha hb := by
    have hfin := Double.isFinite_of h
    rw [Double.datum_div] at hfin
    refine Double.not_neg_iff.mpr ?_
    rw [Double.datum_div]
    exact Double.upward_div (Double.not_neg_iff.mp ha) (Double.not_neg_iff.mp hb) hfin

end RasterWarp
