/-
# How coarse the overview that is read may be

`levelFor` goes through the levels of a band in the order in which the band has them, which need not
be that of their ratios.  What it comes to is decided by the ratios alone (`scanRatios`,
`ratioAt_levelFor`).

Nothing is asked of the arithmetic but that defined numbers are in order and that those which differ
have a distance (`LevelScalar`), so that what is shown holds of doubles as of exact numbers.

With a positive tolerance the ratio of the level never lies above the ratio aimed at, for the scan
goes on from a level below it only to another one that is not above it, and stops at a level that
hits it (`scanRatios_le`).  With a tolerance of zero it does not stop there: no distance is less
than zero.  It has then lost the side of the target that it was on, and runs to the end unless two
neighbours later have the target between them (`lt_scanRatios_iff`).

Main statement: `levelFor_close_iff`, and `levelFor_overruns` for a band where the level that is
read is four times as coarse as it should be, though another one fits exactly.
-/
import RasterWarp.Proofs.Doubles
import RasterWarp.Proofs.InPlace

namespace RasterWarp

open ExactScalar

variable {α : Type} [Scalar α]

/-! ## 1. The scan over ratios -/

/-- **The scan for a level, as one over ratios:** from the ratio `current` through those that
follow. -/
def scanRatios (target tolerance current : α) : List α → α
  | [] => current
  | ratio :: ratios =>
    if current < target && target < ratio then current
    else if Scalar.abs (current - target) < tolerance then current
    else scanRatios target tolerance ratio ratios

/-- The ratios of all levels of a band, full resolution first. -/
def levelRatios (fullWidth : Nat) (widths : List Nat) : List α :=
  1 :: widths.map (levelRatio fullWidth)

/-- From a level on, the scan comes to a level that is there, with the ratio that the scan over
ratios comes to. -/
theorem ratioAt_scanLevels {fullWidth : Nat} {target tolerance : α} {widths : List Nat} :
    ∀ (rest : List Nat) {level : Option Nat} {current : α} {next : Nat},
      widths.drop next = rest → ratioAt fullWidth widths level = .ok current →
        ratioAt fullWidth widths (scanLevels fullWidth target tolerance level current next rest)
          = .ok (scanRatios target tolerance current (rest.map (levelRatio fullWidth)))
  | [], _, _, _, _, hcurrent => hcurrent
  | width :: rest, level, current, next, hdrop, hcurrent => by
    have hnext : next < widths.length := by
      by_contra hend
      rw [List.drop_eq_nil_of_le (Nat.le_of_not_lt hend)] at hdrop
      cases hdrop
    rw [List.drop_eq_getElem_cons hnext] at hdrop
    obtain ⟨rfl, hrest⟩ := List.cons.inj hdrop
    rw [scanLevels, List.map_cons, scanRatios]
    split
    · exact hcurrent
    · split
      · exact hcurrent
      · exact ratioAt_scanLevels rest hrest (ratioAt_some hnext)

/-- **The level that is chosen exists,** and the ratios of the levels decide about its own. -/
theorem ratioAt_levelFor (fullWidth : Nat) (widths : List Nat) (target tolerance : α) :
    ratioAt fullWidth widths (levelFor fullWidth widths target tolerance)
      = .ok (scanRatios target tolerance 1 (widths.map (levelRatio fullWidth))) :=
  ratioAt_scanLevels widths rfl rfl

/-- The scan comes to one of the ratios. -/
theorem scanRatios_mem {target tolerance : α} : ∀ (ratios : List α) {current : α},
    scanRatios target tolerance current ratios ∈ current :: ratios
  | [], _ => List.mem_cons_self
  | ratio :: ratios, current => by
    rw [scanRatios]
    split
    · exact List.mem_cons_self
    · split
      · exact List.mem_cons_self
      · exact List.mem_cons_of_mem _ (scanRatios_mem ratios)

/-! ## 2. Ratios that can be compared -/

/-- **Numbers as far as a scan compares them:** by their order, and by their distance from a finite
target above one.  What is undefined is not `≤` itself. -/
class LevelScalar (α : Type) [Scalar α] : Prop where
  le_trans : ∀ {a b c : α}, a ≤ b → b ≤ c → a ≤ c
  le_of_lt : ∀ {a b : α}, a < b → a ≤ b
  defined : ∀ {a b : α}, a ≤ b → a ≤ a ∧ b ≤ b
  not_lt_iff : ∀ {a b : α}, a ≤ a → b ≤ b → (¬ b < a ↔ a ≤ b)
  abs_not_neg : ∀ a : α, ¬ Scalar.abs a < 0
  abs_sub_pos : ∀ {a b : α}, 1 < b → Scalar.isFinite b = true → b < a → 0 < Scalar.abs (a - b)
  abs_sub_lt : ∀ {a b t : α}, 1 < b → Scalar.isFinite b = true → a ≤ b → b ≤ a → 0 < t →
    Scalar.abs (a - b) < t
  beq_of_le : ∀ {a b : α}, 1 < b → Scalar.isFinite b = true → a ≤ b → b ≤ a → (a == b) = true

/-- Exact numbers are compared so, -/
instance [ExactScalar α] : LevelScalar α where
  le_trans h h' := (le_iff _ _).mpr (((le_iff _ _).mp h).trans ((le_iff _ _).mp h'))
  le_of_lt h := (le_iff _ _).mpr ((lt_iff _ _).mp h).le
  defined _ := ⟨(le_iff _ _).mpr le_rfl, (le_iff _ _).mpr le_rfl⟩
  not_lt_iff _ _ := by rw [lt_iff, le_iff, not_lt]
  abs_not_neg a := by
    rw [lt_iff, value_abs, value_zero, not_lt]
    exact abs_nonneg _
  abs_sub_pos _ _ h := by
    rw [lt_iff, value_abs, value_sub, value_zero, abs_pos]
    exact sub_ne_zero.mpr ((lt_iff _ _).mp h).ne'
  abs_sub_lt _ _ hle hge ht := by
    have heq : value _ = value _ := le_antisymm ((le_iff _ _).mp hle) ((le_iff _ _).mp hge)
    rw [lt_iff, value_zero] at ht
    rwa [lt_iff, value_abs, value_sub, heq, sub_self, abs_zero]
  beq_of_le _ _ hle hge :=
    (beq_iff _ _).mpr (le_antisymm ((le_iff _ _).mp hle) ((le_iff _ _).mp hge))

/-- **and so are doubles.** -/
instance : LevelScalar Float where
  le_trans := OrderedScalar.le_trans
  le_of_lt := Double.le_of_lt
  defined := Double.defined_of_le
  not_lt_iff := Double.not_lt_iff
  abs_not_neg := Double.abs_not_neg
  abs_sub_pos := Double.abs_sub_pos
  abs_sub_lt := Double.abs_sub_lt
  beq_of_le := Double.beq_of_le

/-- As a double, the ratio of a level that has columns is defined. -/
theorem levelRatio_defined {fullWidth width : Nat}
    (hfull : Scalar.isFinite (Scalar.ofNat fullWidth : Float) = true) (hwidth : 0 < width) :
    (levelRatio fullWidth width : Float) ≤ levelRatio fullWidth width :=
  Double.le_div_self hfull hwidth

/-! ## 3. On which side of the target the scan ends -/

section Sides

variable [LevelScalar α] {target tolerance : α}

open LevelScalar

theorem LevelScalar.not_lt_of_le {a b : α} (h : a ≤ b) : ¬ b < a :=
  (not_lt_iff (defined h).1 (defined h).2).mpr h

/-- **With a positive tolerance the scan stays on its side,** by induction on the ratios: it does
not go on from the target itself, and from below only to what is not above. -/
theorem scanRatios_le (htarget : 1 < target) (hfinite : Scalar.isFinite target = true)
    (htolerance : 0 < tolerance) : ∀ (ratios : List α) {current : α},
    (∀ ratio ∈ ratios, ratio ≤ ratio) → current ≤ target →
      scanRatios target tolerance current ratios ≤ target
  | [], _, _, h => h
  | ratio :: ratios, current, hratios, h => by
    rw [scanRatios]
    split
    · exact h
    · rename_i hpasses
      split
      · exact h
      · rename_i hfar
        refine scanRatios_le htarget hfinite htolerance ratios
          (fun r hr => hratios r (List.mem_cons_of_mem _ hr)) ?_
        simp only [Bool.and_eq_true, decide_eq_true_eq, not_and] at hpasses
        obtain ⟨hcurrent, htarget'⟩ := defined h
        refine (not_lt_iff (hratios ratio List.mem_cons_self) htarget').mp (hpasses ?_)
        by_contra hnot
        have hge : target ≤ current := (not_lt_iff htarget' hcurrent).mp hnot
        exact hfar (abs_sub_lt htarget hfinite h hge htolerance)

/-- Two neighbouring ratios have the target strictly between them. -/
def Passes (target a b : α) : Prop := a < target ∧ target < b

/-- **With a tolerance of zero the scan stops only where it passes the target,** so it ends above
just if it never does and the last ratio lies there. -/
theorem lt_scanRatios_iff (htolerance : tolerance ≤ 0) : ∀ (ratios : List α) (current : α),
    target < scanRatios target tolerance current ratios ↔
      List.IsChain (fun a b => ¬ Passes target a b) (current :: ratios) ∧
        target < (current :: ratios).getLast (List.cons_ne_nil _ _)
  | [], current => by simp [scanRatios]
  | ratio :: ratios, current => by
    have hfar : ¬ Scalar.abs (current - target) < tolerance := fun h => by
      obtain ⟨hdistance, -⟩ := defined (le_of_lt h)
      have hnot := (not_lt_iff (defined htolerance).2 hdistance).mp (abs_not_neg (current - target))
      exact not_lt_of_le (le_trans htolerance hnot) h
    rw [scanRatios, if_neg hfar, List.isChain_cons_cons, List.getLast_cons (List.cons_ne_nil _ _)]
    by_cases hpasses : Passes target current ratio
    · have hbelow : ¬ target < current := not_lt_of_le (le_of_lt hpasses.1)
      rw [if_pos (by simpa [Passes] using hpasses)]
      simp only [hbelow, hpasses, not_true_eq_false, false_and]
    · rw [if_neg (by simpa [Passes] using hpasses), lt_scanRatios_iff htolerance ratios ratio]
      simp only [hpasses, not_false_eq_true, true_and]

/-- **The levels of a band that a scan without tolerance runs past:** nowhere do two neighbours,
full resolution included, have the target strictly between them, and the last one lies above it. -/
def Overruns (fullWidth : Nat) (widths : List Nat) (target : α) : Prop :=
  List.IsChain (fun a b => ¬ Passes target a b) (levelRatios fullWidth widths) ∧
    target < (levelRatios fullWidth widths).getLast (List.cons_ne_nil _ _)

/-- A scan that runs past its target has met it exactly. -/
theorem exists_beq_of_isChain (htarget : 1 < target) (hfinite : Scalar.isFinite target = true) :
    ∀ (ratios : List α) {current : α}, (∀ ratio ∈ ratios, ratio ≤ ratio) → current < target →
      List.IsChain (fun a b => ¬ Passes target a b) (current :: ratios) →
        target < (current :: ratios).getLast (List.cons_ne_nil _ _) →
          ∃ ratio ∈ ratios, (ratio == target) = true
  | [], current, _, hbelow, _, hlast => by
    rw [List.getLast_singleton] at hlast
    exact absurd hlast (not_lt_of_le (le_of_lt hbelow))
  | ratio :: ratios, current, hratios, hbelow, hchain, hlast => by
    obtain ⟨hpasses, hchain⟩ := List.isChain_cons_cons.mp hchain
    rw [List.getLast_cons (List.cons_ne_nil _ _)] at hlast
    have hdefined := hratios ratio List.mem_cons_self
    have htarget' := (defined (le_of_lt htarget)).2
    have hle : ratio ≤ target :=
      (not_lt_iff hdefined htarget').mp fun habove => hpasses ⟨hbelow, habove⟩
    by_cases hless : ratio < target
    · obtain ⟨r, hr, heq⟩ := exists_beq_of_isChain htarget hfinite ratios
        (fun r hr => hratios r (List.mem_cons_of_mem _ hr)) hless hchain hlast
      exact ⟨r, List.mem_cons_of_mem _ hr, heq⟩
    · have hge : target ≤ ratio := (not_lt_iff (defined (le_of_lt htarget)).2 hdefined).mp hless
      exact ⟨ratio, List.mem_cons_self, beq_of_le htarget hfinite hle hge⟩

/-- **The level that is read is close enough.**  For a finite target that reduces the source,
whatever the ratios of the overviews are and in whatever order they stand, so long as they are
defined, the level that is chosen exists; and its ratio lies not above the target, or not further
from it than the tolerance, just if the tolerance is positive or the scan does not run past the
target.  It can run past it only if some overview has exactly the ratio aimed at.

Among exact numbers every ratio is defined, and among doubles that of every level with columns
(`levelRatio_defined`). -/
theorem levelFor_close_iff (fullWidth : Nat) (widths : List Nat) {target tolerance : α}
    (htarget : 1 < target) (hfinite : Scalar.isFinite target = true) (htolerance : 0 ≤ tolerance)
    (hratios : ∀ width ∈ widths, (levelRatio fullWidth width : α) ≤ levelRatio fullWidth width) :
    (∃ ratio, ratioAt fullWidth widths (levelFor fullWidth widths target tolerance) = .ok ratio ∧
      (ratio ≤ target ∨ Scalar.abs (ratio - target) ≤ tolerance ↔
        0 < tolerance ∨ ¬ Overruns fullWidth widths target)) ∧
      (Overruns fullWidth widths target →
        ∃ width ∈ widths, (levelRatio fullWidth width == target) = true) := by
  have hall : ∀ ratio ∈ widths.map (levelRatio (α := α) fullWidth), ratio ≤ ratio := by
    intro ratio hratio
    obtain ⟨width, hwidth, rfl⟩ := List.mem_map.mp hratio
    exact hratios width hwidth
  constructor
  · refine ⟨_, ratioAt_levelFor .., ?_⟩
    by_cases hpositive : 0 < tolerance
    · have hle := scanRatios_le htarget hfinite hpositive _ hall (le_of_lt htarget)
      exact iff_of_true (.inl hle) (.inl hpositive)
    · have hzero : tolerance ≤ 0 :=
        (not_lt_iff (defined htolerance).2 (defined htolerance).1).mp hpositive
      have hends : Overruns fullWidth widths target
          ↔ target < scanRatios target tolerance 1 (widths.map (levelRatio fullWidth)) :=
        (lt_scanRatios_iff hzero _ _).symm
      rw [or_iff_right hpositive, hends]
      constructor
      · -- what is above the target is at some distance from it
        rintro (hle | hnear) habove
        · exact not_lt_of_le hle habove
        · exact not_lt_of_le (le_trans hnear hzero) (abs_sub_pos htarget hfinite habove)
      · intro hnot
        obtain ⟨hone, htarget'⟩ := defined (le_of_lt htarget)
        have hmem : scanRatios target tolerance 1 (widths.map (levelRatio fullWidth))
            ∈ 1 :: widths.map (levelRatio fullWidth) := scanRatios_mem _
        refine .inl ((not_lt_iff ?_ htarget').mp hnot)
        rcases List.mem_cons.mp hmem with h | h
        · rwa [h]
        · exact hall _ h
  · rintro ⟨hchain, hlast⟩
    obtain ⟨ratio, hratio, heq⟩ := exists_beq_of_isChain htarget hfinite _ hall htarget hchain hlast
    obtain ⟨width, hwidth, rfl⟩ := List.mem_map.mp hratio
    exact ⟨width, hwidth, heq⟩

end Sides

/-- With a tolerance the first of three overviews is found, which fits exactly. -/
theorem levelFor_close_iff_halved :
    let level := levelFor 800 [400, 200, 100] (2 : ℚ) (1 / 10)
    (1 : ℚ) < 2 ∧ (0 : ℚ) ≤ 1 / 10 ∧ level = some 0 ∧
      ∃ ratio : ℚ, ratioAt 800 [400, 200, 100] level = .ok ratio ∧
        (ratio ≤ 2 ∨ Scalar.abs (ratio - 2) ≤ 1 / 10) := by
  intro level
  have htarget : (1 : ℚ) < 2 := by decide +kernel
  have htolerance : (0 : ℚ) ≤ 1 / 10 := by decide +kernel
  obtain ⟨⟨ratio, hratio, hclose⟩, -⟩ :=
    levelFor_close_iff 800 [400, 200, 100] htarget (by decide +kernel) htolerance
      fun _ _ => le_refl (α := ℚ) _
  exact ⟨htarget, htolerance, by decide +kernel, ratio, hratio,
    hclose.mpr (.inl (by decide +kernel))⟩

/-- **Without a tolerance the level that fits exactly is passed over.**  Settings with an overview
tolerance of zero are accepted; the overview of half the width has the ratio aimed at, and the one
that is read is four times as coarse. -/
theorem levelFor_overruns :
    ∃ c : Config ℚ, c.validate = .ok () ∧ c.overviewTolerance = 0 ∧
      let level := levelFor 800 [400, 200, 100] (2 : ℚ) c.overviewTolerance
      levelRatio 800 400 = (2 : ℚ) ∧ level = some 2 ∧
        ratioAt 800 [400, 200, 100] level = .ok (8 : ℚ) ∧
        ¬ ((8 : ℚ) ≤ 2 ∨ Scalar.abs ((8 : ℚ) - 2) ≤ c.overviewTolerance) := by
  have hvalid : ({ Config.default with overviewTolerance := 0 } : Config ℚ).validate = .ok () := by
    have happrox : (0 : ℚ) ≤ 0.125 := by decide +kernel
    simp [Config.validate, Config.refusal?, Config.default, happrox]
  have hlevel : levelFor 800 [400, 200, 100] (2 : ℚ) 0 = some 2 := by decide +kernel
  have hratio : ratioAt 800 [400, 200, 100] (some 2) = .ok (levelRatio 800 100 : ℚ) :=
    ratioAt_some (by decide)
  have hvalue : levelRatio 800 100 = (8 : ℚ) := by decide +kernel
  refine ⟨{ Config.default with overviewTolerance := 0 }, hvalid, rfl, ?_, hlevel, ?_, ?_⟩
  · decide +kernel
  · rw [← hvalue, ← hratio]
    exact congrArg _ hlevel
  · decide +kernel

end RasterWarp
