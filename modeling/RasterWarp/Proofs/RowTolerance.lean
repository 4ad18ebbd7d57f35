/-
# How far a row is from its images

Of a stretch that is put on a line three points are compared with their images, and the tolerance
bounds what is seen there.  With exact arithmetic and a context whose transforms act point by point,
`transform_near_or_passed` says what that means for an evenly spaced row.  A point is within the
tolerance of its image, unless a line passes over it between its probes (`Lined`): then nobody has
looked at it.  Where the images bend one way along the stretch, a line that is close in the middle
is close everywhere, and the bound is twice the tolerance (`Sags.line_near`).  Where they do not,
there is no bound, and `transform_far` shows a row that is as good as level to its three probes.
-/
import RasterWarp.Proofs.ExactArithmetic
import RasterWarp.Proofs.SegmentedRows
import Mathlib.Analysis.Convex.Function

namespace RasterWarp

/-! ## 1. Lines over values that bend one way -/

/-- **Values that bend one way:** up to a place, none of them lies above the line through two others
around it. -/
def Sags (g : ℕ → ℝ) (n : ℕ) : Prop :=
  ∀ i j k : ℕ, i < j → j < k → k ≤ n → (k - i) * g j ≤ (k - j) * g i + (j - i) * g k

/-- The line through the values at the ends. -/
noncomputable def lineOver (g : ℕ → ℝ) (n : ℕ) (i : ℕ) : ℝ := g 0 + (g n - g 0) / n * i

/-- How far the line lies above a value. -/
noncomputable def gapOver (g : ℕ → ℝ) (n : ℕ) (i : ℕ) : ℝ := lineOver g n i - g i

theorem gapOver_zero (g : ℕ → ℝ) (n : ℕ) : gapOver g n 0 = 0 := by
  simp [gapOver, lineOver]

theorem gapOver_self (g : ℕ → ℝ) {n : ℕ} (hn : 0 < n) : gapOver g n n = 0 := by
  have hpos : (n : ℝ) ≠ 0 := by exact_mod_cast hn.ne'
  simp [gapOver, lineOver, hpos]

/-- **Under what sags the gap is an arch:** a line is the same on both sides, so what the values are
below their lines, the gap is above its own. -/
theorem Sags.arch {g : ℕ → ℝ} {n : ℕ} (hg : Sags g n) {i j k : ℕ} (hij : i < j) (hjk : j < k)
    (hk : k ≤ n) : (k - j) * gapOver g n i + (j - i) * gapOver g n k ≤ (k - i) * gapOver g n j := by
  have hline : (k - j) * lineOver g n i + (j - i) * lineOver g n k = (k - i) * lineOver g n j := by
    unfold lineOver
    ring
  have hsags := hg i j k hij hjk hk
  unfold gapOver
  linarith

/-- **What sags is close to its line everywhere, if it is so in the middle:** within twice the
distance.  The gap between them is an arch over the ends, and falls from the middle to either end no
faster than a line does. -/
theorem Sags.line_near {g : ℕ → ℝ} {n : ℕ} (hg : Sags g n) (hn : 2 ≤ n) {t : ℝ}
    (hmiddle : |gapOver g n (n / 2)| ≤ t) {i : ℕ} (hi : 0 < i) (hin : i < n) :
    |gapOver g n i| ≤ 2 * t := by
  obtain ⟨m, hm⟩ : ∃ m, n / 2 = m := ⟨_, rfl⟩
  rw [hm] at hmiddle
  have hmpos : (0 : ℝ) < m := by exact_mod_cast (show 0 < m by omega)
  have hmlt : (m : ℝ) < n := by exact_mod_cast (show m < n by omega)
  have hhalf : (2 * m : ℝ) ≤ n := by exact_mod_cast (show 2 * m ≤ n by omega)
  have hipos : (0 : ℝ) < i := by exact_mod_cast hi
  have hilt : (i : ℝ) < n := by exact_mod_cast hin
  have ht : 0 ≤ t := le_trans (abs_nonneg _) hmiddle
  have hgap : gapOver g n m ≤ t := (abs_le.mp hmiddle).2
  have hfirst := gapOver_zero g n
  have hlast := gapOver_self g (show 0 < n by omega)
  have habove : 0 ≤ gapOver g n i := by
    have harch := hg.arch hi hin le_rfl
    rw [hfirst, hlast, mul_zero, mul_zero, add_zero, Nat.cast_zero, sub_zero] at harch
    exact nonneg_of_mul_nonneg_right harch (hipos.trans hilt)
  rw [abs_of_nonneg habove]
  rcases lt_trichotomy i m with him | rfl | him
  · -- the middle lies between the place and the end
    have harch := hg.arch him (show m < n by omega) le_rfl
    rw [hlast, mul_zero, add_zero] at harch
    have hbound : (n - m : ℝ) * gapOver g n i ≤ (n - m) * (2 * t) := by
      calc (n - m : ℝ) * gapOver g n i ≤ (n - i) * gapOver g n m := harch
        _ ≤ (n - i) * t := mul_le_mul_of_nonneg_left hgap (by linarith)
        _ ≤ 2 * (n - m) * t := mul_le_mul_of_nonneg_right (by linarith) ht
        _ = (n - m) * (2 * t) := by ring
    exact le_of_mul_le_mul_left hbound (by linarith)
  · linarith
  · -- the middle lies between the beginning and the place
    have harch := hg.arch (show 0 < m by omega) him hin.le
    rw [hfirst, mul_zero, zero_add, Nat.cast_zero, sub_zero, sub_zero] at harch
    have hfar : (i : ℝ) ≤ 2 * m := by exact_mod_cast (show i ≤ 2 * m by omega)
    have hbound : (m : ℝ) * gapOver g n i ≤ m * (2 * t) := by
      calc (m : ℝ) * gapOver g n i ≤ i * gapOver g n m := harch
        _ ≤ i * t := mul_le_mul_of_nonneg_left hgap hipos.le
        _ ≤ 2 * m * t := mul_le_mul_of_nonneg_right hfar ht
        _ = m * (2 * t) := by ring
    exact le_of_mul_le_mul_left hbound hmpos

/-- **A convex function sags** at places that are evenly spaced. -/
theorem sags_of_convexOn {F : ℝ → ℝ} (hF : ConvexOn ℝ Set.univ F) (u step : ℝ) (n : ℕ) :
    Sags (fun i => F (u + i * step)) n := by
  intro i j k hij hjk _
  have hij' : (i : ℝ) < j := by exact_mod_cast hij
  have hjk' : (j : ℝ) < k := by exact_mod_cast hjk
  have hpos : (0 : ℝ) < k - i := by linarith
  -- the place in the middle is a mean of the outer two
  have hleft : 0 ≤ ((k - j) / (k - i) : ℝ) := div_nonneg (by linarith) hpos.le
  have hright : 0 ≤ ((j - i) / (k - i) : ℝ) := div_nonneg (by linarith) hpos.le
  have hsum : ((k - j) / (k - i) + (j - i) / (k - i) : ℝ) = 1 := by
    field_simp
    ring
  have hplace : (k - j) / (k - i) * (u + i * step) + (j - i) / (k - i) * (u + k * step)
      = u + j * step := by
    field_simp
    ring
  have hmean := hF.2 (Set.mem_univ (u + i * step)) (Set.mem_univ (u + k * step)) hleft hright hsum
  simp only [smul_eq_mul, hplace] at hmean
  calc (k - i : ℝ) * F (u + j * step)
      ≤ (k - i) * ((k - j) / (k - i) * F (u + i * step) + (j - i) / (k - i) * F (u + k * step)) :=
        mul_le_mul_of_nonneg_left hmean hpos.le
    _ = (k - j) * F (u + i * step) + (j - i) * F (u + k * step) := by
        field_simp

/-- **A line over a function that bends one way** is close to it everywhere if it is so in the
middle. -/
theorem line_near_of_bend {F : ℝ → ℝ} (hF : ConvexOn ℝ Set.univ F ∨ ConcaveOn ℝ Set.univ F)
    {u step : ℝ} {g : ℕ → ℝ} {n : ℕ} (hg : ∀ i ≤ n, g i = F (u + i * step)) (hn : 2 ≤ n) {t : ℝ}
    (hmiddle : |gapOver g n (n / 2)| ≤ t) {i : ℕ} (hi : 0 < i) (hin : i < n) :
    |gapOver g n i| ≤ 2 * t := by
  rcases hF with hF | hF
  · have hsags : Sags g n := by
      intro i j k hij hjk hk
      rw [hg i (by omega), hg j (by omega), hg k hk]
      exact sags_of_convexOn hF u step n i j k hij hjk hk
    exact hsags.line_near hn hmiddle hi hin
  · -- upside down the function is convex, and so is the line
    have hsags : Sags (fun i => -g i) n := by
      intro i j k hij hjk hk
      show (k - i : ℝ) * -g j ≤ (k - j) * -g i + (j - i) * -g k
      rw [hg i (by omega), hg j (by omega), hg k hk]
      exact sags_of_convexOn hF.neg u step n i j k hij hjk hk
    have hgap : ∀ i, gapOver (fun i => -g i) n i = -gapOver g n i := by
      intro i
      unfold gapOver lineOver
      ring
    have hnear := hsags.line_near hn (t := t) (by rwa [hgap, abs_neg]) hi hin
    rwa [hgap, abs_neg] at hnear

/-! ## 2. Evenly spaced rows -/

variable {α : Type} [Scalar α]

/-- **Points that are within a distance of each other** on both axes. -/
def Point.Near (t : α) (p q : Point α) : Prop :=
  Scalar.abs (p.x - q.x) ≤ t ∧ Scalar.abs (p.y - q.y) ≤ t

/-- **A row of evenly spaced points** at one `y` and one `z`; no two are in the same place. -/
def Batch.EvenlySpaced {n : Nat} (row : Batch α n) : Prop :=
  ∃ start step y z : α, (step == 0) = false ∧ ∀ k (_ : k < n),
    row[k].x = start + Scalar.ofNat k * step ∧ row[k].y = y ∧ row[k].z = z

/-- Flags have no part in images. -/
theorem Context.image?_congr (c : WarpContext α) (d : Direction) {p q : Point α} (hx : p.x = q.x)
    (hy : p.y = q.y) (hz : p.z = q.z) : c.image? d p = c.image? d q := by
  obtain ⟨x, y, z, ok⟩ := p
  obtain ⟨x', y', z', ok'⟩ := q
  obtain rfl : x = x' := hx
  obtain rfl : y = y' := hy
  obtain rfl : z = z' := hz
  unfold image? transform
  rw [Batch.map_single, Batch.map_single]

/-- **A coordinate of the images bends one way** along a batch: it is a convex function of the
position, or a concave one. -/
def Context.BendsOneWay [ExactScalar α] (c : WarpContext α) (d : Direction) {n : Nat}
    (b : Batch α n) (coord : Point α → α) : Prop :=
  ∃ F : ℝ → ℝ, (ConvexOn ℝ Set.univ F ∨ ConcaveOn ℝ Set.univ F) ∧ ∀ k (_ : k < n),
    ∃ q, c.image? d b[k] = some q ∧
      ExactScalar.value (coord q) = F (ExactScalar.value b[k].x)

section Exact

variable [ExactScalar α]

open ExactScalar (value value_injective)

/-- What is evenly spaced is so on every stretch. -/
theorem Batch.EvenlySpaced.part {n : Nat} {row : Batch α n} (hrow : row.EvenlySpaced) (s : Stretch)
    (h : s.start + s.length ≤ n) : (row.part s h).EvenlySpaced := by
  obtain ⟨start, step, y, z, hstep, hpoints⟩ := hrow
  refine ⟨start + Scalar.ofNat s.start * step, step, y, z, hstep, fun k hk => ?_⟩
  obtain ⟨hx, hy, hz⟩ := hpoints (s.start + k) (by omega)
  rw [Batch.getElem_part row s h hk]
  refine ⟨?_, hy, hz⟩
  rw [hx]
  apply value_injective
  simp only [ExactScalar.value_add, ExactScalar.value_mul, ExactScalar.value_ofNat]
  push_cast
  ring

/-- **The value on a line over an evenly spaced row** depends on the number of a point only. -/
theorem value_between_spaced {start step : α} (hstep : (step == 0) = false) {n k : Nat} (hn : 0 < n)
    (p q : α) {first last x : α} (hfirst : first = start + Scalar.ofNat 0 * step)
    (hlast : last = start + Scalar.ofNat n * step) (hx : x = start + Scalar.ofNat k * step) :
    value (between p q (last - first) (x - first)) = value p + (value q - value p) / n * k := by
  have hne : value step ≠ 0 := by
    intro h
    have hzero := (ExactScalar.beq_iff step 0).mpr (h.trans ExactScalar.value_zero.symm)
    rw [hstep] at hzero
    cases hzero
  have hpos : (n : ℝ) ≠ 0 := by exact_mod_cast hn.ne'
  subst hfirst hlast hx
  unfold between
  simp only [ExactScalar.value_add, ExactScalar.value_sub, ExactScalar.value_mul,
    ExactScalar.value_div, ExactScalar.value_ofNat]
  push_cast
  field_simp
  ring

/-! ## 3. Points on a checked line -/

namespace Approximation

variable {a : Approximation (Outcome α) α} {d : Direction} {n : Nat} {b b' : Batch α n}
  {hlong : 5 < n} {p : Batch α 3}

omit [ExactScalar α] in
/-- The points that judge an evenly spaced batch are points of it, but for their flags. -/
theorem image?_judges (hcontext : a.context.Pointwise) (hspaced : b.EvenlySpaced)
    (hprobes : a.context.transform d (b.judges hlong) = .ok p) :
    (∀ _ : 0 < n, a.context.image? d b[0] = some (p.get 0)) ∧
      (∀ _ : (n - 1) / 2 < n, a.context.image? d b[(n - 1) / 2] = some (p.get 1)) ∧
      ∀ _ : n - 1 < n, a.context.image? d b[n - 1] = some (p.get 2) := by
  obtain ⟨start, step, y, z, -, hpoints⟩ := hspaced
  have himage := fun i (hi : i < 3) => hcontext.image?_eq hprobes hi
  obtain ⟨-, hy, hz⟩ := hpoints 0 (by omega)
  obtain ⟨-, hy₁, hz₁⟩ := hpoints ((n - 1) / 2) (by omega)
  obtain ⟨-, hy₂, hz₂⟩ := hpoints (n - 1) (by omega)
  refine ⟨fun _ => himage 0 (by omega), fun _ => ?_, fun _ => ?_⟩
  · refine Eq.trans ?_ (himage 1 (by omega))
    exact Context.image?_congr _ _ rfl (hy₁.trans hy.symm) (hz₁.trans hz.symm)
  · refine Eq.trans ?_ (himage 2 (by omega))
    exact Context.image?_congr _ _ rfl (hy₂.trans hy.symm) (hz₂.trans hz.symm)

/-- The values on a line: they go evenly from the first image to the last. -/
theorem Drawn.value_eq (h : Drawn a.tolerance b b' hlong p) (hspaced : b.EvenlySpaced) {k : Nat}
    (hk : k < n) :
    value b'[k].x =
        value (p.get 0).x + (value (p.get 2).x - value (p.get 0).x) / (n - 1 : ℕ) * k ∧
      value b'[k].y =
        value (p.get 0).y + (value (p.get 2).y - value (p.get 0).y) / (n - 1 : ℕ) * k := by
  obtain ⟨start, step, y, z, hstep, hpoints⟩ := hspaced
  have hx := fun k hk => (hpoints k hk).1
  rw [h.placed k hk]
  constructor
  all_goals
    exact value_between_spaced hstep (by omega) _ _ (hx 0 (by omega)) (hx (n - 1) (by omega))
      (hx k hk)

/-- In the middle the line was checked. -/
theorem Drawn.near_middle (h : Drawn a.tolerance b b' hlong p) (hmiddle : (n - 1) / 2 < n) :
    (b'[(n - 1) / 2]).Near a.tolerance (p.get 1) := by
  rw [h.placed _ (by omega)]
  constructor
  · rw [ExactScalar.le_iff, ← not_lt, ← ExactScalar.lt_iff]
    exact h.close_x
  · rw [ExactScalar.le_iff, ← not_lt, ← ExactScalar.lt_iff]
    exact h.close_y

/-- **The line goes through the outer images** and near the middle one. -/
theorem Drawn.near_image (hcontext : a.context.Pointwise) (htolerance : 0 ≤ a.tolerance)
    (hspaced : b.EvenlySpaced) (hprobes : a.context.transform d (b.judges hlong) = .ok p)
    (h : Drawn a.tolerance b b' hlong p) {k : Nat} (hk : k < n)
    (hjudge : k = 0 ∨ k = (n - 1) / 2 ∨ k = n - 1) :
    ∃ q, a.context.image? d b[k] = some q ∧ q.ok = b'[k].ok ∧ (b'[k]).Near a.tolerance q := by
  obtain ⟨hfirst, hmiddle, hlast⟩ := image?_judges hcontext hspaced hprobes
  obtain ⟨hok, hok₁, hok₂⟩ := h.ok
  have hflag : b'[k].ok = true := by rw [h.placed k hk]
  have hpos : ((n - 1 : ℕ) : ℝ) ≠ 0 := by exact_mod_cast (show n - 1 ≠ 0 by omega)
  have hzero : 0 ≤ value a.tolerance := by
    rw [← ExactScalar.value_zero (α := α), ← ExactScalar.le_iff]
    exact htolerance
  obtain ⟨hx, hy⟩ := h.value_eq hspaced hk
  rcases hjudge with rfl | rfl | rfl
  · refine ⟨p.get 0, hfirst hk, hok.trans hflag.symm, ?_⟩
    constructor
    all_goals
      rw [ExactScalar.le_iff, ExactScalar.value_abs, ExactScalar.value_sub]
      simpa [hx, hy] using hzero
  · exact ⟨p.get 1, hmiddle hk, hok₁.trans hflag.symm, h.near_middle hk⟩
  · refine ⟨p.get 2, hlast hk, hok₂.trans hflag.symm, ?_⟩
    constructor
    all_goals
      rw [ExactScalar.le_iff, ExactScalar.value_abs, ExactScalar.value_sub]
      simpa [hx, hy, hpos] using hzero

/-- **Between the outer points** a coordinate that bends one way is met within twice the
tolerance. -/
theorem near_of_bendsOneWay (hcontext : a.context.Pointwise) (hspaced : b.EvenlySpaced)
    (hprobes : a.context.transform d (b.judges hlong) = .ok p) {coord : Point α → α}
    (hbends : a.context.BendsOneWay d b coord)
    (hvalue : ∀ k (_ : k < n), value (coord b'[k]) =
      value (coord (p.get 0)) +
        (value (coord (p.get 2)) - value (coord (p.get 0))) / (n - 1 : ℕ) * k)
    (hmid : (n - 1) / 2 < n)
    (hnear : Scalar.abs (coord b'[(n - 1) / 2] - coord (p.get 1)) ≤ a.tolerance)
    {k : Nat} (hk : 0 < k) (hkn : k < n - 1) :
    ∃ q, a.context.image? d b[k] = some q ∧
      Scalar.abs (coord b'[k] - coord q) ≤ a.tolerance + a.tolerance := by
  obtain ⟨hfirst, hmiddle, hlast⟩ := image?_judges hcontext hspaced hprobes
  obtain ⟨F, hF, hcurve⟩ := hbends
  obtain ⟨start, step, y, z, -, hpoints⟩ := hspaced
  have hplace : ∀ k (hk : k < n), value b[k].x = value start + k * value step := by
    intro k hk
    rw [(hpoints k hk).1]
    simp
  -- what is known of the images is known of the values of the curve
  let g : ℕ → ℝ := fun k => F (value start + k * value step)
  have hg : ∀ k (hk : k < n) q, a.context.image? d b[k] = some q → value (coord q) = g k := by
    intro k hk q hq
    obtain ⟨q', hq', hvalue⟩ := hcurve k hk
    obtain rfl := Option.some.inj (hq'.symm.trans hq)
    rw [hvalue, hplace k hk]
  have hline : ∀ k (_ : k < n), value (coord b'[k]) = lineOver g (n - 1) k := by
    intro k hk
    rw [hvalue k hk, hg 0 (by omega) _ (hfirst (by omega)),
      hg (n - 1) (by omega) _ (hlast (by omega))]
    rfl
  obtain ⟨q, hq, -⟩ := hcurve k (by omega)
  refine ⟨q, hq, ?_⟩
  rw [ExactScalar.le_iff, ExactScalar.value_abs, ExactScalar.value_sub] at hnear ⊢
  rw [hline _ (by omega), hg _ (by omega) _ (hmiddle hmid)] at hnear
  rw [hline _ (by omega), hg _ (by omega) _ hq, ExactScalar.value_add, ← two_mul]
  exact line_near_of_bend hF (fun _ _ => rfl) (by omega) hnear hk hkn

/-! ## 4. Points of a row -/

/-- **A stretch of a row that is put on a line.** -/
structure Lined (a : Approximation (Outcome α) α) (d : Direction) {n : Nat} (row out : Batch α n)
    (s : Stretch) (p : Batch α 3) : Prop where
  within : s.start + s.length ≤ n
  long : 5 < s.length
  probes : a.context.transform d ((row.part s within).judges long) = .ok p
  drawn : Drawn a.tolerance (row.part s within) (out.part s within) long p

omit [ExactScalar α] in
/-- **Every point of a row is transformed by itself, or is on a checked line.** -/
theorem image?_or_lined (hcontext : a.context.Pointwise) {row out : Batch α n}
    (h : a.transform d row = .ok out) {k : Nat} (hk : k < n) :
    a.context.image? d row[k] = some out[k] ∨
      ∃ s p, a.Lined d row out s p ∧ s.start ≤ k ∧ k < s.start + s.length := by
  have haccounted : a.Accounted .outcome d () row (Execution.outcome.run (a.transform d row) ()) :=
    transform_accounted row
  have hrun : Execution.outcome.run (a.transform d row) () = .ok (out, ()) :=
    Execution.outcome_eq_ok.mpr h
  rw [hrun] at haccounted
  obtain ⟨-, segments, htile, hserved⟩ := haccounted
  obtain ⟨s, hs, hstart, hend⟩ := htile.exists_mem (Nat.zero_le k) hk
  obtain ⟨hin, hs⟩ := hserved s hs
  cases hs with
  | exact _ _ _ hcall =>
    have hlt : k - s.start < s.length := by omega
    have himage := hcontext.image?_eq (Execution.outcome_eq_ok.mp hcall) hlt
    rw [Batch.getElem_part row s hin hlt, Batch.getElem_part out s hin hlt] at himage
    simp only [Nat.add_sub_cancel' hstart] at himage
    exact .inl himage
  | line hlong _ _ p _ hprobes hdrawn =>
    exact .inr ⟨s, p, ⟨hin, hlong, Execution.outcome_eq_ok.mp hprobes, hdrawn⟩, hstart, hend⟩

/-- **The tolerance bounds what was looked at.**  Let the transforms of a context act point by
point, without rounding, and take an evenly spaced row that is transformed.  Then every point of it
is within the tolerance of its own image, and has its flag, unless it lies strictly between the
probed points of a stretch that is put on a line.  There, along an axis on which the images bend one
way over the stretch, it is within twice the tolerance of its image. -/
theorem transform_near_or_passed (hcontext : a.context.Pointwise) (htolerance : 0 ≤ a.tolerance)
    {row out : Batch α n} (hspaced : row.EvenlySpaced) (h : a.transform d row = .ok out) {k : Nat}
    (hk : k < n) :
    (∃ q, a.context.image? d row[k] = some q ∧ q.ok = out[k].ok ∧ (out[k]).Near a.tolerance q) ∨
      ∃ s p, ∃ hs : a.Lined d row out s p, s.start < k ∧ k < s.last ∧ k ≠ s.middle ∧
        (a.context.BendsOneWay d (row.part s hs.within) (·.x) →
          ∃ q, a.context.image? d row[k] = some q ∧
            Scalar.abs (out[k].x - q.x) ≤ a.tolerance + a.tolerance) ∧
        (a.context.BendsOneWay d (row.part s hs.within) (·.y) →
          ∃ q, a.context.image? d row[k] = some q ∧
            Scalar.abs (out[k].y - q.y) ≤ a.tolerance + a.tolerance) := by
  rcases image?_or_lined hcontext h hk with himage | ⟨s, p, hs, hstart, hend⟩
  · refine .inl ⟨out[k], himage, rfl, ?_⟩
    constructor
    all_goals
      rw [ExactScalar.le_iff, ExactScalar.value_abs, ExactScalar.value_sub, sub_self, abs_zero,
        ← ExactScalar.value_zero (α := α), ← ExactScalar.le_iff]
      exact htolerance
  obtain ⟨i, rfl⟩ := Nat.exists_eq_add_of_le hstart
  have hi : i < s.length := by omega
  have hpart := hspaced.part s hs.within
  rw [← Batch.getElem_part row s hs.within hi, ← Batch.getElem_part out s hs.within hi]
  by_cases hjudge : i = 0 ∨ i = (s.length - 1) / 2 ∨ i = s.length - 1
  · exact .inl (hs.drawn.near_image hcontext htolerance hpart hs.probes hi hjudge)
  have hbetween : 0 < i ∧ i < s.length - 1 := by omega
  have hmid : (s.length - 1) / 2 < s.length := by omega
  refine .inr ⟨s, p, hs, by omega, ?_, ?_, fun hbends => ?_, fun hbends => ?_⟩
  · show s.start + i < s.start + (s.length - 1)
    omega
  · show s.start + i ≠ s.start + (s.length - 1) / 2
    omega
  · exact near_of_bendsOneWay hcontext hpart hs.probes hbends
      (fun k hk => (hs.drawn.value_eq hpart hk).1) hmid (hs.drawn.near_middle hmid).1 hbetween.1
      hbetween.2
  · exact near_of_bendsOneWay hcontext hpart hs.probes hbends
      (fun k hk => (hs.drawn.value_eq hpart hk).2) hmid (hs.drawn.near_middle hmid).2 hbetween.1
      hbetween.2

end Approximation

end Exact

/-! ## 5. Rows that bend -/

/-- Points moved along `x` by a function. -/
def BatchTransform.alongX (f : ℚ → ℚ) : Transform ℚ :=
  ⟨fun _ _ b => .ok (b.map fun p => { p with x := f p.x })⟩

theorem BatchTransform.pointwise_alongX (f : ℚ → ℚ) : (alongX f).Pointwise := fun _ =>
  actsAlone_map _

theorem BatchTransform.step_alongX (f : ℚ → ℚ) (d : Direction) (x y z : ℚ) :
    (alongX f).step d #v[⟨x, y, z, true⟩] = .ok #v[⟨f x, y, z, true⟩] := by
  unfold step alongX
  rw [Batch.map_single, Outcome.ok_bind, Batch.map_single, Batch.zipWith_single]
  rfl

/-- A context that moves points along `x` only, by one function and then by another. -/
def Context.curved (f g : ℚ → ℚ) : WarpContext ℚ where
  source := .geolocation (.alongX g)
  reprojection := some (.alongX f)
  destination := .identity
  destinationInverse := .identity

theorem Context.pointwise_curved (f g : ℚ → ℚ) : (Context.curved f g).Pointwise where
  source := by
    intro t h
    obtain rfl := Georeference.geolocation.inj h
    exact BatchTransform.pointwise_alongX g
  reprojection := by
    intro t h
    obtain rfl := Option.some.inj h
    exact BatchTransform.pointwise_alongX f

/-- Its images are the values of the two functions. -/
theorem Context.image?_curved (f g : ℚ → ℚ) (p : Point ℚ) :
    (Context.curved f g).image? .destinationToSource p = some ⟨g (f p.x), p.y, p.z, true⟩ := by
  have hmoved : (GeoTransform.identity : GeoTransform ℚ).moveBatch #v[{ p with ok := true }]
      = #v[⟨p.x, p.y, p.z, true⟩] := by
    simp [GeoTransform.moveBatch, GeoTransform.apply, GeoTransform.identity]
  have hchain : (Context.curved f g).chain .destinationToSource #v[{ p with ok := true }]
      = .ok #v[⟨g (f p.x), p.y, p.z, true⟩] := by
    simp only [chain, curved, reprojectionStep, sourceStep, hmoved, BatchTransform.step_alongX,
      Outcome.ok_bind]
  have hfinite : ∀ x : ℚ, Scalar.isFinite x = true := ExactScalar.isFinite_eq
  unfold image? transform
  rw [Batch.map_single, hchain, Outcome.ok_bind, checkFinite, Batch.map_single, hfinite, hfinite]
  rfl

/-- The centers of the first pixels of a raster. -/
def Batch.centers (n : Nat) : Batch ℚ n := Vector.ofFn fun k => ⟨k.val + 1 / 2, 1 / 2, 0, false⟩

theorem Batch.evenlySpaced_centers (n : Nat) : (Batch.centers n).EvenlySpaced := by
  refine ⟨1 / 2, 1, 1 / 2, 0, by decide +kernel, fun k hk => ?_⟩
  simp only [Batch.centers, Vector.getElem_ofFn, and_self, and_true]
  show (k : ℚ) + 1 / 2 = 1 / 2 + k * 1
  ring

/-- What bends one way does so on every stretch. -/
theorem Context.BendsOneWay.part {α : Type} [Scalar α] [ExactScalar α] {c : WarpContext α}
    {d : Direction} {n : Nat} {b : Batch α n} {coord : Point α → α} (h : c.BendsOneWay d b coord)
    (s : Stretch) (hs : s.start + s.length ≤ n) : c.BendsOneWay d (b.part s hs) coord := by
  obtain ⟨F, hF, hcurve⟩ := h
  refine ⟨F, hF, fun k hk => ?_⟩
  rw [Batch.getElem_part b s hs hk]
  exact hcurve (s.start + k) (by omega)

/-- Level up to a kink, and then steep. -/
def kink (x : ℚ) : ℚ := 10 * max 0 (x - 9 / 2)

theorem bendsOneWay_kink {n : Nat} (b : Batch ℚ n) :
    (Context.curved id kink).BendsOneWay .destinationToSource b (·.x) := by
  refine ⟨fun x => 10 * max 0 (x - 9 / 2), .inl ?_, fun k hk => ?_⟩
  · have hlevel : ConvexOn ℝ Set.univ (fun _ : ℝ => (0 : ℝ)) := convexOn_const 0 convex_univ
    have hsteep : ConvexOn ℝ Set.univ (fun x : ℝ => x - 9 / 2) := by
      refine ⟨convex_univ, fun x _ y _ a b _ _ hab => le_of_eq ?_⟩
      simp only [smul_eq_mul]
      linear_combination (9 / 2) * hab
    exact (hlevel.sup hsteep).smul (by norm_num)
  · refine ⟨_, Context.image?_curved id kink b[k], ?_⟩
    show ((kink b[k].x : ℚ) : ℝ) = 10 * max 0 ((b[k].x : ℝ) - 9 / 2)
    unfold kink
    push_cast
    rfl

/-- **A row with a kink near its end** is put on a line, and one of its points is off by twice the
tolerance, but no more. -/
theorem Approximation.transform_near_or_passed_kink :
    let a : Approximation (Outcome ℚ) ℚ := ⟨.curved id kink, 4⟩
    let row := Batch.centers 6
    a.context.Pointwise ∧ 0 ≤ a.tolerance ∧ row.EvenlySpaced ∧
      ∃ out, a.transform .destinationToSource row = .ok out ∧ out[4].x = 8 ∧
        ∃ q, a.context.image? .destinationToSource row[4] = some q ∧ q.x = 0 ∧
          Scalar.abs (out[4].x - q.x) ≤ a.tolerance + a.tolerance := by
  intro a row
  have hpointwise : a.context.Pointwise := Context.pointwise_curved id kink
  have hspaced : row.EvenlySpaced := Batch.evenlySpaced_centers 6
  have htolerance : 0 ≤ a.tolerance := by decide +kernel
  have hevaluated : (a.transform .destinationToSource row).toOption.map (fun out => out[4].x)
      = some 8 := by
    decide +kernel
  obtain ⟨out, hout, hx⟩ := Option.map_eq_some_iff.mp hevaluated
  have h := Outcome.eq_ok_of_toOption hout
  have himage : a.context.image? .destinationToSource row[4] = some ⟨0, 1 / 2, 0, true⟩ := by
    decide +kernel
  refine ⟨hpointwise, htolerance, hspaced, out, h, hx, _, himage, rfl, ?_⟩
  rcases transform_near_or_passed hpointwise htolerance hspaced h (k := 4) (by decide) with
    ⟨q, hq, -, hnear, -⟩ | ⟨s, p, hs, -, -, -, hbends, -⟩
  · obtain rfl := Option.some.inj (himage.symm.trans hq)
    rw [hx] at hnear
    exact absurd hnear (by decide +kernel)
  · obtain ⟨q, hq, hnear⟩ := hbends ((bendsOneWay_kink row).part s hs.within)
    obtain rfl := Option.some.inj (himage.symm.trans hq)
    exact hnear

/-- The square of the distance from the center of the fifth pixel, -/
def squareFromFifth (x : ℚ) : ℚ := 81 / 4 - 9 * x + x * x

/-- and a valley over such squares that comes back to zero at four pixels from there. -/
def valley (v : ℚ) : ℚ := v * v - 16 * v

/-- **A row that is level where it is looked at.**  Its three probes have the value zero, and it is
put on the line through them.  Nothing there says that a point between two of them is far away. -/
theorem Approximation.transform_far :
    let a : Approximation (Outcome ℚ) ℚ := ⟨.curved squareFromFifth valley, 1 / 8⟩
    let row := Batch.centers 9
    a.context.Pointwise ∧ 0 ≤ a.tolerance ∧ row.EvenlySpaced ∧
      ∃ out q, a.transform .destinationToSource row = .ok out ∧ out[1].ok = true ∧
        a.context.image? .destinationToSource row[1] = some q ∧ q.ok = true ∧
        ¬ out[1].Near a.tolerance q := by
  intro a row
  have hevaluated : (a.transform .destinationToSource row).toOption.map (fun out => out[1])
      = some ⟨0, 1 / 2, 0, true⟩ := by
    decide +kernel
  obtain ⟨out, hout, hpoint⟩ := Option.map_eq_some_iff.mp hevaluated
  have himage : a.context.image? .destinationToSource row[1] = some ⟨-63, 1 / 2, 0, true⟩ := by
    decide +kernel
  refine ⟨Context.pointwise_curved squareFromFifth valley, by decide +kernel,
    Batch.evenlySpaced_centers 9, out, _, Outcome.eq_ok_of_toOption hout, ?_, himage, rfl, ?_⟩
  · rw [hpoint]
  · rw [hpoint]
    rintro ⟨hx, -⟩
    exact absurd hx (by decide +kernel)

end RasterWarp
