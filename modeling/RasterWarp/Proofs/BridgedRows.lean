/-
# Rows that are interpolated

`Approximation.bisect` looks at a row stretch by stretch.  Of a stretch it transforms three points;
if these are in good order it either puts all points of the stretch on the line through the outer
two, or splits the stretch in two, and if they are not it transforms the stretch point by point
(`bisect_treated`).  `Reached` says which stretches it comes to that way.  By induction on the
length of a stretch every point of it is then its own image (`Context.image?`) or lies on the line
over a stretch that was reached and probed (`bisect_traced`), and the points of such a stretch do
lie on its line (`bisect_placed`).

A line carries no flag of the points that it passes over.  So a point that is not transformed by
itself can be taken for one that is: just if a stretch that is not split bridges it (`Bridged`).
`unreachable_unmapped` says that this is the only way.  Everywhere else such a pixel is not mapped,
and holds the value for no data in the output; and `unreachable_mapped_bridged` shows a row where a
line bridges a pixel.
-/
import RasterWarp.Proofs.ContextBalance
import RasterWarp.Proofs.ExactArithmetic
import RasterWarp.Proofs.Opening
import RasterWarp.Proofs.PixelReference
import RasterWarp.Proofs.PointByPoint
import RasterWarp.Proofs.Rendering

namespace RasterWarp

/-! ## 1. Stretches of a row -/

/-- **Some consecutive points of a row.** -/
structure Stretch where
  start : Nat
  length : Nat
deriving DecidableEq, Repr

namespace Stretch

variable (s : Stretch)

/-- The point in the middle of a stretch, where it is split. -/
def middle : Nat := s.start + (s.length - 1) / 2

def last : Nat := s.start + (s.length - 1)

/-- The points before the middle, -/
def left : Stretch := ⟨s.start, (s.length - 1) / 2⟩

/-- and those from the middle on. -/
def right : Stretch := ⟨s.start + (s.length - 1) / 2, s.length - (s.length - 1) / 2⟩

end Stretch

variable {α : Type} [Scalar α]

/-- The line over a stretch of the points `row 0`, `row 1`, … -/
def Probes.chord (p : Probes α) (row : Nat → Point α) (s : Stretch) : Chord α :=
  .through p.first p.last (row s.start).x ((row s.last).x - (row s.start).x)

namespace Approximation

variable (a : Approximation (Outcome α) α) (d : Direction) (row : Nat → Point α)

/-- **A stretch that can be interpolated:** it is long enough, its three points are transformed,
each by itself, and the outer two differ. -/
structure Probed (s : Stretch) (p : Probes α) : Prop where
  long : shortRow < s.length
  first_eq : a.context.image? d (row s.start) = some p.first
  middle_eq : a.context.image? d (row s.middle) = some p.middle
  last_eq : a.context.image? d (row s.last) = some p.last
  ok : p.first.ok = true ∧ p.middle.ok = true ∧ p.last.ok = true
  wide : ((row s.last).x - (row s.start).x == 0) = false

/-- The line over a stretch misses the image of the middle by more than the tolerance. -/
def Misses (s : Stretch) (p : Probes α) : Prop :=
  (p.chord row s).misses a.tolerance (row s.middle).x p.middle = true

/-- **The stretches that a row is divided into,** the whole row first: one that can be interpolated
but is missed by its line is split at the middle. -/
inductive Reached (whole : Stretch) : Stretch → Prop
  | whole : Reached whole whole
  | left {s : Stretch} {p : Probes α} (h : Reached whole s) (hp : a.Probed d row s p)
      (hm : a.Misses row s p) : Reached whole s.left
  | right {s : Stretch} {p : Probes α} (h : Reached whole s) (hp : a.Probed d row s p)
      (hm : a.Misses row s p) : Reached whole s.right

/-- **A stretch that is interpolated.** -/
structure Interpolated (whole s : Stretch) (p : Probes α) : Prop where
  reached : a.Reached d row whole s
  probed : a.Probed d row s p
  close : ¬ a.Misses row s p

/-- **What becomes of a point:** its own image, or its place on the line over its stretch. -/
def Traced (whole : Stretch) (i : Nat) (q : Point α) : Prop :=
  a.context.image? d (row i) = some q ∨
    ∃ s p, a.Interpolated d row whole s p ∧ s.start ≤ i ∧ i < s.start + s.length ∧
      q = (p.chord row s).place (row i).x

/-- **A point that a line passes over:** it lies in a stretch that is interpolated and is none of
the three points that were probed. -/
def Bridged (n i : Nat) : Prop :=
  ∃ s p, a.Interpolated d row ⟨0, n⟩ s p ∧ s.start < i ∧ i < s.last ∧ i ≠ s.middle

/-! ## 2. What is done with a stretch -/

/-- Points that differ in nothing but `x`. -/
def Level (row : Nat → Point α) : Prop :=
  ∀ i j, row i = { row j with x := (row i).x }

variable {a d row}

/-- The images decide: a stretch has only one line. -/
theorem Probed.unique {s : Stretch} {p p' : Probes α} (h : a.Probed d row s p)
    (h' : a.Probed d row s p') : p = p' := by
  obtain ⟨first, middle, last⟩ := p
  obtain ⟨first', middle', last'⟩ := p'
  obtain rfl : first = first' := Option.some.inj (h.first_eq.symm.trans h'.first_eq)
  obtain rfl : middle = middle' := Option.some.inj (h.middle_eq.symm.trans h'.middle_eq)
  obtain rfl : last = last' := Option.some.inj (h.last_eq.symm.trans h'.last_eq)
  rfl

/-- A stretch that was reached is part of the whole. -/
theorem Reached.within {whole s : Stretch} (h : a.Reached d row whole s) :
    whole.start ≤ s.start ∧ s.start + s.length ≤ whole.start + whole.length := by
  induction h with
  | whole => exact ⟨Nat.le_refl _, Nat.le_refl _⟩
  | left h hp hm ih =>
    simp only [Stretch.left]
    omega
  | right h hp hm ih =>
    have hlong := hp.long
    simp only [Stretch.right]
    omega

/-- **A stretch is the whole, or part of one of the halves** that the whole was split into. -/
theorem Reached.cases_half {whole s : Stretch} (h : a.Reached d row whole s) :
    s = whole ∨ ∃ p, a.Probed d row whole p ∧ a.Misses row whole p ∧
      (a.Reached d row whole.left s ∨ a.Reached d row whole.right s) := by
  induction h with
  | whole => exact .inl rfl
  | left h hp hm ih =>
    refine .inr ?_
    rcases ih with rfl | ⟨p, hp', hm', hhalf⟩
    · exact ⟨_, hp, hm, .inl .whole⟩
    · exact ⟨p, hp', hm', hhalf.imp (.left · hp hm) (.left · hp hm)⟩
  | right h hp hm ih =>
    refine .inr ?_
    rcases ih with rfl | ⟨p, hp', hm', hhalf⟩
    · exact ⟨_, hp, hm, .inr .whole⟩
    · exact ⟨p, hp', hm', hhalf.imp (.right · hp hm) (.right · hp hm)⟩

/-- **The points of a batch** are those of a row from some place on. -/
def Cut (row : Nat → Point α) (start : Nat) {len : Nat} (b : Batch α len) : Prop :=
  ∀ k (h : k < len), b[k] = row (start + k)

omit [Scalar α] in
/-- The left part of a cut is one, -/
theorem Cut.take {start len : Nat} {b : Batch α len} (hb : Cut row start b) (m : Nat) :
    Cut row start (b.take m) := by
  intro k hk
  rw [Vector.getElem_take]
  exact hb k (by omega)

omit [Scalar α] in
/-- and so is the right one. -/
theorem Cut.drop {start len : Nat} {b : Batch α len} (hb : Cut row start b) (m : Nat) :
    Cut row (start + m) (b.drop m) := by
  intro k hk
  rw [Vector.getElem_drop, Nat.add_assoc]
  exact hb (m + k) (by omega)

/-- The three points that a stretch is judged by. -/
def probeBatch (row : Nat → Point α) (s : Stretch) : Batch α 3 :=
  #v[row s.start, row s.middle, row s.last]

/-- **The two halves of a stretch,** one after the other. -/
def bisectHalves (a : Approximation (Outcome α) α) (d : Direction) {len : Nat} (b : Batch α len)
    (h : 5 < len) : Outcome α (Batch α len) := do
  let left ← a.bisect d (b.take ((len - 1) / 2))
  let right ← a.bisect d (b.drop ((len - 1) / 2))
  return (left ++ right).cast (by omega)

/-- **What is done with a stretch** whose points are `b`. -/
inductive Treated (a : Approximation (Outcome α) α) (d : Direction) (row : Nat → Point α)
    (start : Nat) {len : Nat} (b : Batch α len) : Prop
  /-- It cannot be interpolated, and is transformed point by point. -/
  | exact (hprobed : ∀ p, ¬ a.Probed d row ⟨start, len⟩ p)
      (h : a.bisect d b = a.context.transform d b)
  /-- Its three points cannot be transformed together. -/
  | refused (e : Interrupt (Failure α))
      (hprobes : a.context.transform d (probeBatch row ⟨start, len⟩) = .error e)
      (h : a.bisect d b = .error e)
  /-- Its line misses the middle, and it is split there. -/
  | split (hlong : 5 < len) (p : Probes α) (hprobed : a.Probed d row ⟨start, len⟩ p)
      (hmisses : a.Misses row ⟨start, len⟩ p) (h : a.bisect d b = a.bisectHalves d b hlong)
  /-- It is put on its line. -/
  | line (p : Probes α) (hprobed : a.Probed d row ⟨start, len⟩ p)
      (hclose : ¬ a.Misses row ⟨start, len⟩ p)
      (h : a.bisect d b = .ok (b.map fun q => (p.chord row ⟨start, len⟩).place q.x))

section Cases

omit [Scalar α] in
/-- Three images are in good order if each of them is. -/
theorem all_ok_iff (probes : Batch α 3) : probes.all (·.ok) = true ↔
    (Probes.ofBatch probes).first.ok = true ∧ (Probes.ofBatch probes).middle.ok = true ∧
      (Probes.ofBatch probes).last.ok = true := by
  rw [Vector.all_eq_true]
  constructor
  · intro hall
    exact ⟨hall 0 (by omega), hall 1 (by omega), hall 2 (by omega)⟩
  · rintro ⟨hfirst, hmiddle, hlast⟩ i hi
    obtain rfl | rfl | rfl : i = 0 ∨ i = 1 ∨ i = 2 := by omega
    · exact hfirst
    · exact hmiddle
    · exact hlast

/-- **What is done with a stretch that is not short,** in terms of the row. -/
theorem bisect_long (hrow : Level row) {start len : Nat} {b : Batch α len} (hb : Cut row start b)
    (hlong : 5 < len) : a.bisect d b =
      if (row (start + (len - 1))).x - (row start).x == 0 then a.context.transform d b else do
        let probes ← a.context.transform d (probeBatch row ⟨start, len⟩)
        if !probes.all (·.ok) then a.context.transform d b
        else
          let p := Probes.ofBatch probes
          let chord := p.chord row ⟨start, len⟩
          if chord.misses a.tolerance (row (start + (len - 1) / 2)).x p.middle then
            a.bisectHalves d b hlong
          else return b.map fun q => chord.place q.x := by
  have hshort : ¬ len ≤ shortRow := Nat.not_le.mpr hlong
  have hfirst : b[0] = row start := hb 0 (by omega)
  have hmiddle := hb ((len - 1) / 2) (by omega)
  have hlast := hb (len - 1) (by omega)
  -- the points that are put together for the stretch are points of the row
  have hpoints : #v[b[0], { b[0] with x := b[(len - 1) / 2].x }, { b[0] with x := b[len - 1].x }]
      = probeBatch row ⟨start, len⟩ := by
    rw [hfirst, hmiddle, hlast, ← hrow, ← hrow]
    rfl
  rw [bisect, dif_neg hshort, ← hpoints]
  simp only [Probes.chord, Stretch.last, ← hfirst, ← hmiddle, ← hlast]
  rfl

variable (hcontext : a.context.Pointwise)

include hcontext

/-- The images of the three points, each by itself. -/
theorem image?_probeBatch {s : Stretch} {probes : Batch α 3}
    (h : a.context.transform d (probeBatch row s) = .ok probes) :
    a.context.image? d (row s.start) = some (Probes.ofBatch probes).first ∧
      a.context.image? d (row s.middle) = some (Probes.ofBatch probes).middle ∧
      a.context.image? d (row s.last) = some (Probes.ofBatch probes).last := by
  have himage := fun i (hi : i < 3) => hcontext.image?_eq h hi
  exact ⟨himage 0 (by omega), himage 1 (by omega), himage 2 (by omega)⟩

variable (hrow : Level row)

include hrow

/-- **Every stretch is treated in one of the four ways.** -/
theorem bisect_treated {start len : Nat} {b : Batch α len} (hb : Cut row start b) :
    a.Treated d row start b := by
  by_cases hshort : len ≤ shortRow
  · refine .exact (fun p hp => Nat.not_lt.mpr hshort hp.long) ?_
    rw [bisect, dif_pos hshort]
  have hlong : 5 < len := Nat.lt_of_not_le hshort
  have hbisect := bisect_long (a := a) (d := d) hrow hb hlong
  by_cases hspan : ((row (start + (len - 1))).x - (row start).x == 0) = true
  · rw [if_pos hspan] at hbisect
    exact .exact (fun p hp => Bool.eq_false_iff.mp hp.wide hspan) hbisect
  rw [if_neg hspan] at hbisect
  cases hprobes : a.context.transform d (probeBatch row ⟨start, len⟩) with
  | error e =>
    rw [hprobes] at hbisect
    exact .refused e hprobes hbisect
  | ok probes =>
    rw [hprobes, Outcome.ok_bind] at hbisect
    obtain ⟨hfirst, hmiddle, hlast⟩ := image?_probeBatch hcontext hprobes
    by_cases hok : probes.all (·.ok) = true
    · have hprobed : a.Probed d row ⟨start, len⟩ (Probes.ofBatch probes) :=
        ⟨hlong, hfirst, hmiddle, hlast, (all_ok_iff probes).mp hok, Bool.eq_false_iff.mpr hspan⟩
      rw [hok, if_neg (by decide)] at hbisect
      by_cases hmisses : a.Misses row ⟨start, len⟩ (Probes.ofBatch probes)
      · exact .split hlong _ hprobed hmisses (hbisect.trans (if_pos hmisses))
      · exact .line _ hprobed hmisses (hbisect.trans (if_neg hmisses))
    · rw [Bool.eq_false_iff.mpr hok, if_pos (by decide)] at hbisect
      refine .exact (fun p hp => hok ((all_ok_iff probes).mpr ?_)) hbisect
      -- the probes are the images, and these are in good order
      rw [Option.some.inj (hfirst.symm.trans hp.first_eq),
        Option.some.inj (hmiddle.symm.trans hp.middle_eq),
        Option.some.inj (hlast.symm.trans hp.last_eq)]
      exact hp.ok

end Cases

/-! ## 3. What becomes of the points of a row -/

/-- The halves of a stretch have an outcome together if each of them has. -/
theorem exists_of_bisectHalves {len : Nat} {b b' : Batch α len} {hlong : 5 < len}
    (h : a.bisectHalves d b hlong = .ok b') :
    ∃ left right, a.bisect d (b.take ((len - 1) / 2)) = .ok left ∧
      a.bisect d (b.drop ((len - 1) / 2)) = .ok right ∧
      b' = (left ++ right).cast (by omega) := by
  obtain ⟨left, hleft, h⟩ := Outcome.exists_of_bind h
  obtain ⟨right, hright, h⟩ := Outcome.exists_of_bind h
  exact ⟨left, right, hleft, hright, (Except.ok.inj h).symm⟩

omit [Scalar α] in
/-- A point of two halves is one of the left, or one of the right. -/
theorem getElem_halves {len m : Nat} (left : Batch α (min m len)) (right : Batch α (len - m))
    (h : min m len + (len - m) = len) (hm : m ≤ len) {k : Nat} (hk : k < len) :
    (∃ hl : k < min m len, ((left ++ right).cast h)[k] = left[k]) ∨
      ∃ hr : k - m < len - m, m ≤ k ∧ ((left ++ right).cast h)[k] = right[k - m] := by
  rw [Vector.getElem_cast, Vector.getElem_append]
  by_cases hsmall : k < m
  · exact .inl ⟨by omega, dif_pos (by omega)⟩
  · refine .inr ⟨by omega, by omega, ?_⟩
    rw [dif_neg (by omega)]
    simp only [Nat.min_eq_left hm]

section Runs

variable (hcontext : a.context.Pointwise) (hrow : Level row)

include hcontext hrow

/-- **Every point of a stretch that was reached is traced,** by induction on its length: of a
stretch that is split both halves are reached. -/
theorem bisect_traced {whole : Stretch} {start len : Nat}
    (hreached : a.Reached d row whole ⟨start, len⟩) {b b' : Batch α len} (hb : Cut row start b)
    (h : a.bisect d b = .ok b') : ∀ k (hk : k < len), a.Traced d row whole (start + k) b'[k] := by
  induction len using Nat.strong_induction_on generalizing start with
  | _ len ih =>
    intro k hk
    cases bisect_treated hcontext hrow hb with
    | exact hprobed hbisect =>
      refine .inl ?_
      rw [← hb k hk]
      exact hcontext.image?_eq (hbisect.symm.trans h) hk
    | refused e hprobes hbisect =>
      rw [hbisect] at h
      cases h
    | split hlong p hprobed hmisses hbisect =>
      rw [hbisect] at h
      obtain ⟨left, right, hleft, hright, rfl⟩ := exists_of_bisectHalves h
      have hreachedLeft : a.Reached d row whole ⟨start, min ((len - 1) / 2) len⟩ := by
        rw [Nat.min_eq_left (by omega)]
        exact .left hreached hprobed hmisses
      have hreachedRight : a.Reached d row whole
          ⟨start + (len - 1) / 2, len - (len - 1) / 2⟩ := .right hreached hprobed hmisses
      rcases getElem_halves left right (by omega) (by omega) hk with ⟨hl, hk'⟩ | ⟨hr, hle, hk'⟩
      · rw [hk']
        exact ih _ (by omega) hreachedLeft (hb.take _) hleft k hl
      · have htraced := ih _ (by omega) hreachedRight (hb.drop _) hright _ hr
        rwa [hk', show start + k = start + (len - 1) / 2 + (k - (len - 1) / 2) by omega]
    | line p hprobed hclose hbisect =>
      rw [hbisect] at h
      obtain rfl := Except.ok.inj h
      rw [Vector.getElem_map, hb k hk]
      exact .inr ⟨_, p, ⟨hreached, hprobed, hclose⟩, Nat.le_add_right .., by simpa using hk, rfl⟩

/-- **The points of a stretch that is interpolated lie on its line,** by induction on the length of
the whole: the stretch is the whole, or part of a half. -/
theorem bisect_placed {start len : Nat} {b b' : Batch α len} (hb : Cut row start b)
    (h : a.bisect d b = .ok b') {s : Stretch} {p : Probes α}
    (hs : a.Interpolated d row ⟨start, len⟩ s p) {k : Nat} (hk : k < len)
    (hstart : s.start ≤ start + k) (hend : start + k < s.start + s.length) :
    b'[k] = (p.chord row s).place (row (start + k)).x := by
  induction len using Nat.strong_induction_on generalizing start k with
  | _ len ih =>
    cases bisect_treated hcontext hrow hb with
    | exact hprobed hbisect =>
      rcases hs.reached.cases_half with rfl | ⟨p', hprobed', -, -⟩
      · exact absurd hs.probed (hprobed p)
      · exact absurd hprobed' (hprobed p')
    | refused e hprobes hbisect =>
      rw [hbisect] at h
      cases h
    | split hlong p₁ hprobed hmisses hbisect =>
      rw [hbisect] at h
      obtain ⟨left, right, hleft, hright, rfl⟩ := exists_of_bisectHalves h
      rcases hs.reached.cases_half with rfl | ⟨-, -, -, hhalf⟩
      · obtain rfl := hprobed.unique hs.probed
        exact absurd hmisses hs.close
      rcases getElem_halves left right (by omega) (by omega) hk with ⟨hl, hk'⟩ | ⟨hr, hle, hk'⟩
      · have hreached : a.Reached d row ⟨start, min ((len - 1) / 2) len⟩ s := by
          rw [Nat.min_eq_left (by omega)]
          refine hhalf.resolve_right fun hright => ?_
          have hwithin := hright.within
          simp only [Stretch.right] at hwithin
          omega
        rw [hk']
        exact ih _ (by omega) (hb.take _) hleft ⟨hreached, hs.probed, hs.close⟩ hl hstart hend
      · have hreached : a.Reached d row ⟨start + (len - 1) / 2, len - (len - 1) / 2⟩ s := by
          refine hhalf.resolve_left fun hleft => ?_
          have hwithin := hleft.within
          simp only [Stretch.left] at hwithin
          omega
        have hindex : start + k = start + (len - 1) / 2 + (k - (len - 1) / 2) := by omega
        rw [hk']
        rw [hindex] at hstart hend ⊢
        exact ih _ (by omega) (hb.drop _) hright ⟨hreached, hs.probed, hs.close⟩ hr hstart hend
    | line p₁ hprobed hclose hbisect =>
      rw [hbisect] at h
      obtain rfl := Except.ok.inj h
      rcases hs.reached.cases_half with rfl | ⟨p', hprobed', hmisses', -⟩
      · obtain rfl := hprobed.unique hs.probed
        rw [Vector.getElem_map, hb k hk]
      · obtain rfl := hprobed.unique hprobed'
        exact absurd hmisses' hclose

/-- **Nothing goes out of place** along a row. -/
theorem bisect_in_place {start len : Nat} {b : Batch α len} (hb : Cut row start b) (f : Fault) :
    a.bisect d b ≠ .error (.fault f) := by
  induction len using Nat.strong_induction_on generalizing start with
  | _ len ih =>
    intro h
    cases bisect_treated hcontext hrow hb with
    | exact hprobed hbisect => exact (hcontext.transform d).in_place b f (hbisect.symm.trans h)
    | refused e hprobes hbisect =>
      obtain rfl := Except.error.inj (hbisect.symm.trans h)
      exact (hcontext.transform d).in_place _ f hprobes
    | split hlong p hprobed hmisses hbisect =>
      rw [hbisect] at h
      rcases Outcome.fault_of_bind h with h | ⟨left, -, h⟩
      · exact ih _ (by omega) (hb.take _) h
      · rcases Outcome.fault_of_bind h with h | ⟨right, -, h⟩
        · exact ih _ (by omega) (hb.drop _) h
        · cases h
    | line p hprobed hclose hbisect =>
      rw [hbisect] at h
      cases h

/-- **Every point of a row is traced,** whether the row is interpolated or not. -/
theorem transform_traced {n : Nat} {b b' : Batch α n} (hb : Cut row 0 b)
    (h : a.transform d b = .ok b') {k : Nat} (hk : k < n) : a.Traced d row ⟨0, n⟩ k b'[k] := by
  have hn : 0 < n := by omega
  rw [transform, dif_pos hn] at h
  split at h
  · have hpoint : b[k] = row k := by simpa only [Nat.zero_add] using hb k hk
    refine .inl ?_
    rw [← hpoint]
    exact hcontext.image?_eq h hk
  · have htraced := bisect_traced hcontext hrow .whole hb h k hk
    rwa [Nat.zero_add] at htraced

theorem transform_in_place {n : Nat} {b : Batch α n} (hb : Cut row 0 b) (f : Fault) :
    a.transform d b ≠ .error (.fault f) := by
  intro h
  unfold transform at h
  split at h
  · split at h
    · exact (hcontext.transform d).in_place b f h
    · exact bisect_in_place hcontext hrow hb f h
  · cases h

end Runs

/-- **A point with a flag** is transformed by itself, or a line passes over it. -/
theorem Traced.reaches {n i : Nat} {q : Point α} (h : a.Traced d row ⟨0, n⟩ i q)
    (hq : q.ok = true) : a.context.Reaches d (row i) ∨ a.Bridged d row n i := by
  rcases h with himage | ⟨s, p, hs, hstart, hend, -⟩
  · exact .inl ⟨q, himage, hq⟩
  obtain ⟨hfirst, hmiddle, hlast⟩ := hs.probed.ok
  by_cases hi : i = s.start
  · subst hi
    exact .inl ⟨_, hs.probed.first_eq, hfirst⟩
  by_cases hi : i = s.last
  · subst hi
    exact .inl ⟨_, hs.probed.last_eq, hlast⟩
  by_cases hi : i = s.middle
  · subst hi
    exact .inl ⟨_, hs.probed.middle_eq, hmiddle⟩
  · refine .inr ⟨s, p, hs, ?_, ?_, hi⟩
    · omega
    · have hlast : s.last = s.start + (s.length - 1) := rfl
      omega

/-- A line passes over a point of a row only if the row as a whole can be interpolated. -/
theorem Bridged.exists_probed {n i : Nat} (h : a.Bridged d row n i) :
    ∃ p, a.Probed d row ⟨0, n⟩ p := by
  obtain ⟨s, p, hs, -⟩ := h
  rcases hs.reached.cases_half with rfl | ⟨p', hp', -⟩
  · exact ⟨p, hs.probed⟩
  · exact ⟨p', hp'⟩

end Approximation

/-! ## 4. The pixels of a window -/

/-- The center of a pixel of a window, as it is put into a batch. -/
def Window.centerPoint (w : Window) (row col : Nat) : Point α :=
  ⟨(w.center col row).1, (w.center col row).2, 0, false⟩

section Window

variable {a : Approximation (Outcome α) α} (hcontext : a.context.Pointwise)

/-- The centers of one row of a window are level, -/
theorem Window.level_centerPoint (w : Window) (row : Nat) :
    Approximation.Level (w.centerPoint row : Nat → Point α) := by
  intro i j
  rfl

/-- and the batch of them holds them in order. -/
theorem Window.cut_rowCenters (w : Window) (row : Nat) :
    Approximation.Cut (w.centerPoint row : Nat → Point α) 0 (w.rowCenters row) := by
  intro k hk
  rw [Nat.zero_add]
  exact Vector.getElem_ofFn hk

include hcontext

/-- **A pixel with a source** is transformed by itself, or a line passes over it. -/
theorem reaches_of_sourceUnder? {w : Window} {g : Tiling} {row col : Nat} (hcol : col < w.width)
    (h : (sourceUnder? (a.transform .destinationToSource) w g row col).isSome) :
    a.context.Reaches .destinationToSource (w.centerPoint row col) ∨
      a.Bridged .destinationToSource (w.centerPoint row) w.width col := by
  unfold sourceUnder? at h
  cases hrow : a.transform .destinationToSource (w.rowCenters row) with
  | error e =>
    simp only [hrow] at h
    cases h
  | ok points =>
    simp only [hrow, Vector.getElem?_eq_getElem hcol, Option.bind_some] at h
    have htraced := Approximation.transform_traced hcontext (w.level_centerPoint row)
      (w.cut_rowCenters row) hrow hcol
    refine htraced.reaches ?_
    unfold pixelUnder? at h
    split at h
    · rename_i hflag
      exact ((Bool.and_eq_true _ _).mp hflag).1
    · cases h

/-- **A pixel that a line passes over** has the source that its place on the line has, in every row
that could be transformed. -/
theorem sourceUnder?_interpolated {w : Window} {row col : Nat} {points : Batch α w.width}
    (hrow : a.transform .destinationToSource (w.rowCenters row) = .ok points)
    (hlevel : Approximation.isLevel (w.rowCenters row) (w.centerPoint row 0 : Point α) = true)
    {s : Stretch} {p : Probes α}
    (hs : a.Interpolated .destinationToSource (w.centerPoint row) ⟨0, w.width⟩ s p)
    (hstart : s.start ≤ col) (hend : col < s.start + s.length) (g : Tiling) :
    sourceUnder? (a.transform .destinationToSource) w g row col
      = pixelUnder? g ((p.chord (w.centerPoint row) s).place (w.centerPoint row col).x) := by
  obtain ⟨-, hin⟩ := hs.reached.within
  have hlong := hs.probed.long
  simp only [Nat.zero_add] at hin
  have hwidth : Approximation.shortRow < w.width := by omega
  have hcol : col < w.width := by omega
  have hfirst : (w.rowCenters row : Batch α w.width)[0] = w.centerPoint row 0 :=
    w.cut_rowCenters row 0 (by omega)
  have hbisect : a.bisect .destinationToSource (w.rowCenters row) = .ok points := by
    rw [Approximation.transform, dif_pos (by omega), hfirst, hlevel, if_neg (by simpa)] at hrow
    exact hrow
  have hplaced := Approximation.bisect_placed hcontext (w.level_centerPoint row)
    (w.cut_rowCenters row) hbisect hs hcol (by omega) (by omega)
  rw [Nat.zero_add] at hplaced
  unfold sourceUnder?
  simp only [hrow, Vector.getElem?_eq_getElem hcol, Option.bind_some, hplaced]

/-- **Pixels that cannot be transformed.**  Let the transforms of a context act point by point.
Then there is a plan for every window that is not empty, whatever the tolerance and the tiling are,
if sizes fit.  Take a pixel whose center is not transformed by itself.  Unless a line passes
over it,

* it is in no pair of the plan, and
* in the output of a warp with that context it holds the value for no data.

If a line does pass over it, in a row that could be transformed, it is in the plan just if its place
on the line has a source pixel. -/
theorem unreachable_unmapped {w : Window} (hw : w.isEmpty = false) :
    (∀ g : Tiling, PlanFits w g → ∃ plan notices,
        planReads (a.transform .destinationToSource) w g = .ok (plan, notices)) ∧
      (∀ row < w.height, ∀ col < w.width,
        ¬ a.context.Reaches .destinationToSource (w.centerPoint row col) →
        ¬ a.Bridged .destinationToSource (w.centerPoint row) w.width col →
          (∀ (g : Tiling) (plan : ReadPlan) (notices : List (Notice α)),
            planReads (a.transform .destinationToSource) w g = .ok (plan, notices) →
              row * w.width + col ∉ plan.destinations) ∧
          ∀ (c : Config α) (o : Opened α) (v : Rendering α) (cached : Bool),
            v.MadeOf c o a.context → c.approxTolerance = a.tolerance → v.window = w →
              (v.output o cached).data.piece? v.layer.type.warpedType.size (row * w.width + col)
                = some (v.layer.type.warpedType.encode v.noData)) ∧
      ∀ row < w.height, ∀ points,
        a.transform .destinationToSource (w.rowCenters row) = .ok points →
        Approximation.isLevel (w.rowCenters row) (w.centerPoint row 0 : Point α) = true →
        ∀ s p, a.Interpolated .destinationToSource (w.centerPoint row) ⟨0, w.width⟩ s p →
        ∀ col, s.start ≤ col → col < s.start + s.length →
          ∀ (g : Tiling) (plan : ReadPlan) (notices : List (Notice α)),
            planReads (a.transform .destinationToSource) w g = .ok (plan, notices) →
              (row * w.width + col ∈ plan.destinations ↔ (pixelUnder? g
                ((p.chord (w.centerPoint row) s).place (w.centerPoint row col).x)).isSome) := by
  refine ⟨fun g hfits => ?_, ?_, ?_⟩
  · refine (exists_planReads _ hw hfits).resolve_right fun ⟨row, _, f, hfault, _⟩ => ?_
    exact Approximation.transform_in_place hcontext (w.level_centerPoint row)
      (w.cut_rowCenters row) f hfault
  · intro row hrow col hcol hreaches hbridged
    have hnone : ∀ g, sourceUnder? (a.transform .destinationToSource) w g row col = none := by
      intro g
      refine Option.not_isSome_iff_eq_none.mp fun hsome => ?_
      rcases reaches_of_sourceUnder? hcontext hcol hsome with h | h
      · exact hreaches h
      · exact hbridged h
    constructor
    · intro g plan notices hplan hmem
      have hsome := ((partitions_of_planReads hplan).occurs_iff row hrow col hcol).mp hmem
      rw [hnone g] at hsome
      cases hsome
    · intro c o v cached hmade htolerance hwindow
      subst hwindow
      have htransform : (⟨a.context, c.approxTolerance⟩ : Approximation (Outcome α) α) = a := by
        rw [htolerance]
      have hpiece := hmade.piece?_output hrow hcol
      rw [htransform, referenceSample, hnone v.layer.grid] at hpiece
      exact hpiece
  · intro row hrow points hpoints hlevel s p hs col hstart hend g plan notices hplan
    obtain ⟨-, hin⟩ := hs.reached.within
    simp only [Nat.zero_add] at hin
    rw [(partitions_of_planReads hplan).occurs_iff row hrow col (by omega),
      sourceUnder?_interpolated hcontext hpoints hlevel hs hstart hend g]

end Window

/-- The identity, except that points whose `x` lies in an interval are not transformed. -/
def Context.holed (low high : ℚ) : WarpContext ℚ where
  source := .affine .identity .identity
  reprojection := some ⟨fun _ _ b => .ok (b.map fun p =>
    { p with ok := decide (p.x < low) || decide (high < p.x) })⟩
  destination := .identity
  destinationInverse := .identity

theorem Context.pointwise_holed (low high : ℚ) : (Context.holed low high).Pointwise where
  source := by
    intro t h
    cases h
  reprojection := by
    intro t h d
    obtain rfl := Option.some.inj h
    exact actsAlone_map _

/-- Nine samples in a row, in blocks of four. -/
def Layer.strip : Layer :=
  (Layer.ofFn 9 1 .byte fun x _ => .ofInt (10 + x : Nat)).setBlocks 4 1

/-- A row with a hole in its middle is taken point by point, and the hole is found. -/
theorem unreachable_unmapped_middle :
    let c : Config ℚ := .default
    let o : Opened ℚ := Request.rational.opened c (.ofBand ⟨.strip, []⟩) ⟨.strip, []⟩
    let a : Approximation (Outcome ℚ) ℚ := ⟨.holed 4 5, c.approxTolerance⟩
    let w : Window := ⟨0, 0, 9, 1⟩
    a.context.Pointwise ∧ w.isEmpty = false ∧
      ¬ a.context.Reaches .destinationToSource (w.centerPoint 0 4) ∧
      ¬ a.Bridged .destinationToSource (w.centerPoint 0) w.width 4 ∧
      (∃ plan notices, planReads (a.transform .destinationToSource) w Layer.strip.grid
          = .ok (plan, notices) ∧ 4 ∉ plan.destinations) ∧
      ∃ v : Rendering ℚ, v.MadeOf c o a.context ∧ v.window = w ∧ v.layer = Layer.strip ∧
        (v.output o false).data.piece? 1 4 = some (SampleType.byte.encode v.noData) := by
  intro c o a w
  have himage : a.context.image? .destinationToSource (w.centerPoint 0 4)
      = some ⟨9 / 2, 1 / 2, 0, false⟩ := by decide +kernel
  have hreaches : ¬ a.context.Reaches .destinationToSource (w.centerPoint 0 4) := by
    rw [Context.reaches_iff himage]
    exact Bool.false_ne_true
  have hbridged : ¬ a.Bridged .destinationToSource (w.centerPoint 0) w.width 4 := by
    intro hbridged
    obtain ⟨p, hp⟩ : ∃ p, a.Probed .destinationToSource (w.centerPoint 0) ⟨0, 9⟩ p :=
      hbridged.exists_probed
    exact hreaches ⟨p.middle, hp.middle_eq, hp.ok.2.1⟩
  have hfits : Layer.strip.Fits 9 1 := by decide
  have hwindow : w.FitsIn 9 1 := by constructor <;> decide
  obtain ⟨hplans, hpixels, -⟩ :=
    unreachable_unmapped (Context.pointwise_holed 4 5) (a := a) (w := w) rfl
  obtain ⟨plan, notices, hplan⟩ := hplans Layer.strip.grid (hfits.planFits hwindow)
  obtain ⟨hunmapped, houtput⟩ := hpixels 0 (by decide) 4 (by decide) hreaches hbridged
  have hlevel : o.band.level? none = some Layer.strip := rfl
  obtain ⟨v, hmade, hwindow, hlayer⟩ :=
    exists_rendering c hlevel (by decide) hfits hwindow hplan
  refine ⟨Context.pointwise_holed 4 5, rfl, hreaches, hbridged,
    ⟨plan, notices, hplan, hunmapped _ plan notices hplan⟩, v, hmade, hwindow, hlayer, ?_⟩
  have hpiece := houtput c o v false hmade rfl hwindow
  rw [hlayer] at hpiece
  exact hpiece

/-- **A row with a hole that no probe hits is put on a line.**  The second pixel is not transformed
by itself, and yet it is mapped, and the output holds the sample beneath it, not the value for no
data. -/
theorem unreachable_mapped_bridged :
    let a : Approximation (Outcome ℚ) ℚ := ⟨.holed 1 2, 1 / 8⟩
    let w : Window := ⟨0, 0, 9, 1⟩
    let l := Layer.strip
    a.context.Pointwise ∧ 0 ≤ a.tolerance ∧ w.isEmpty = false ∧
      ¬ a.context.Reaches .destinationToSource (w.centerPoint 0 1) ∧
      ∃ plan notices s, planReads (a.transform .destinationToSource) w l.grid
          = .ok (plan, notices) ∧ 1 ∈ plan.destinations ∧
        scatterBlocks (α := ℚ) l l.grid plan.groups .byte
          (SampleType.byte.fill (Bytes.zeros 9) (.ofInt 0)) = .ok s ∧
        s.output.piece? 1 1 ≠ some (SampleType.byte.encode (.ofInt 0)) := by
  intro a w l
  have himage : a.context.image? .destinationToSource (w.centerPoint 0 1)
      = some ⟨3 / 2, 1 / 2, 0, false⟩ := by decide +kernel
  have hreaches : ¬ a.context.Reaches .destinationToSource (w.centerPoint 0 1) := by
    rw [Context.reaches_iff himage]
    exact Bool.false_ne_true
  have hevaluated : ((planReads (a.transform .destinationToSource) w l.grid).toOption.bind fun r =>
      (scatterBlocks (α := ℚ) l l.grid r.1.groups .byte
        (SampleType.byte.fill (Bytes.zeros 9) (.ofInt 0))).toOption.map fun s =>
          (r.1.destinations, s.output.piece? 1 1)) = some (List.range 9, some #[11]) := by
    decide +kernel
  obtain ⟨⟨plan, notices⟩, hplan, h⟩ := Option.bind_eq_some_iff.mp hevaluated
  obtain ⟨s, hs, h⟩ := Option.map_eq_some_iff.mp h
  obtain ⟨hdestinations, hpiece⟩ := Prod.mk.inj h
  have hmem : 1 ∈ plan.destinations := by
    rw [hdestinations]
    decide
  have hkept : s.output.piece? 1 1 ≠ some (SampleType.byte.encode (.ofInt 0)) := by
    rw [hpiece]
    decide +kernel
  exact ⟨Context.pointwise_holed 1 2, by decide +kernel, rfl, hreaches, plan, notices, s,
    Outcome.eq_ok_of_toOption hplan, hmem, Outcome.eq_ok_of_toOption hs, hkept⟩

end RasterWarp
