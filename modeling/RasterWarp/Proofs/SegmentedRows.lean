/-
# Rows as segments

An approximated row is the work of two functions that know nothing of each other's points: the
context, which transforms a batch, and the line through two of its images.  `transform_segmented`
says how they share a row.  The row falls into consecutive segments, none of them empty, and each
holds either what one call of the context makes of the segment's own points, or the points of a line
that was checked against the image of the segment's middle (`Served`).

Nothing is asked of the context.  Its calls may read and change something that the points do not
show (`Execution`), so that a call says nothing of another one, not even of one on the same points.
What a segment holds is therefore the result of a call in a state that the calls of the row lead to
(`Leads`).

The proof follows the recursion: halves that fall into segments make a row that does
(`Segmented.halves`), and with them comes an outcome for every call on the way
(`bisect_accounted`).
-/
import RasterWarp.Proofs.BridgedRows

namespace RasterWarp

/-! ## 1. Calls with effects -/

/-- **How the calls of a monad happen:** each begins in a state that it may read and change, and
ends in an outcome. -/
structure Execution (m : Type → Type) [Monad m] (σ α : Type) where
  run : {β : Type} → m β → σ → Outcome α (β × σ)
  run_pure : ∀ {β : Type} (b : β) (s : σ), run (pure b) s = .ok (b, s)
  run_bind : ∀ {β γ : Type} (x : m β) (k : β → m γ) (s : σ),
    run (x >>= k) s = run x s >>= fun (b, s') => run (k b) s'

namespace Execution

variable {σ α : Type}

/-- Calls that depend on their points only. -/
def outcome : Execution (Outcome α) Unit α where
  run x _ := x.map (·, ())
  run_pure _ _ := rfl
  run_bind x _ _ := by cases x <;> rfl

/-- Calls that read and change a state of any kind. -/
def stateful : Execution (StateT σ (Outcome α)) σ α where
  run x s := x.run s
  run_pure _ _ := rfl
  run_bind _ _ _ := rfl

theorem outcome_eq_ok {β : Type} {x : Outcome α β} {b : β} {s s' : Unit} :
    outcome.run x s = .ok (b, s') ↔ x = .ok b := by
  cases x with
  | ok b' =>
    show Except.ok (b', ()) = Except.ok (b, s') ↔ _
    simp
  | error i =>
    show Except.error i = Except.ok (b, s') ↔ _
    simp

end Execution

/-! ## 2. Segments of a row -/

variable {α : Type}

/-- **The points of a batch on a stretch.** -/
def Batch.part {n : Nat} (b : Batch α n) (s : Stretch) (h : s.start + s.length ≤ n) :
    Batch α s.length :=
  Vector.ofFn fun k =>
    have := k.isLt
    b[s.start + k.val]

/-- A stretch of what is left of a row after its first points, in the row. -/
def Stretch.shift (s : Stretch) (m : Nat) : Stretch := ⟨m + s.start, s.length⟩

namespace Batch

variable {n m : Nat} (b : Batch α n) (s : Stretch)

theorem getElem_part (h : s.start + s.length ≤ n) {k : Nat} (hk : k < s.length) :
    (b.part s h)[k] = b[s.start + k] :=
  Vector.getElem_ofFn hk

/-- The whole of a row is a part of it. -/
theorem part_whole (h : 0 + n ≤ n) : b.part ⟨0, n⟩ h = b := by
  refine Vector.ext fun k hk => ?_
  rw [getElem_part b ⟨0, n⟩ h hk]
  simp only [Nat.zero_add]

/-- Parts of the beginning of a row are parts of the row, -/
theorem part_take (h : s.start + s.length ≤ min m n) (h' : s.start + s.length ≤ n) :
    Batch.part (b.take m) s h = b.part s h' := by
  refine Vector.ext fun k hk => ?_
  rw [getElem_part _ s h hk, getElem_part b s h' hk, Vector.getElem_take]

/-- and so are parts of what is left behind it. -/
theorem part_drop (h : s.start + s.length ≤ n - m)
    (h' : (s.shift (min m n)).start + (s.shift (min m n)).length ≤ n) :
    Batch.part (b.drop m) s h = b.part (s.shift (min m n)) h' := by
  refine Vector.ext fun k (hk : k < s.length) => ?_
  refine (getElem_part _ s h hk).trans
    (Eq.trans ?_ (getElem_part b (s.shift (min m n)) h' hk).symm)
  rw [Vector.getElem_drop]
  congr 1
  show m + (s.start + k) = min m n + s.start + k
  omega

/-- What is put together of two halves has the parts of the left one, -/
theorem part_halves_left {p q : Nat} (left : Batch α p) (right : Batch α q) (hn : p + q = n)
    (h : s.start + s.length ≤ p) (h' : s.start + s.length ≤ n) :
    Batch.part ((left ++ right).cast hn) s h' = left.part s h := by
  refine Vector.ext fun k hk => ?_
  rw [getElem_part _ s h' hk, getElem_part left s h hk, Vector.getElem_cast,
    Vector.getElem_append_left]

/-- and behind it those of the right one. -/
theorem part_halves_right {p q : Nat} (left : Batch α p) (right : Batch α q) (hn : p + q = n)
    (h : s.start + s.length ≤ q) (h' : (s.shift p).start + (s.shift p).length ≤ n) :
    Batch.part ((left ++ right).cast hn) (s.shift p) h' = right.part s h := by
  refine Vector.ext fun k (hk : k < s.length) => ?_
  have hbehind : p ≤ (s.shift p).start + k := by
    show p ≤ p + s.start + k
    omega
  refine (getElem_part _ (s.shift p) h' hk).trans
    (Eq.trans ?_ (getElem_part right s h hk).symm)
  rw [Vector.getElem_cast, Vector.getElem_append_right _ hbehind]
  congr 1
  show p + s.start + k - p = s.start + k
  omega

end Batch

namespace Stretch

/-- **Consecutive stretches,** none of them empty, from one place to another. -/
def Tile : List Stretch → Nat → Nat → Prop
  | [], i, j => i = j
  | s :: rest, i, j => s.start = i ∧ 0 < s.length ∧ Tile rest (i + s.length) j

theorem Tile.append : ∀ {l l' : List Stretch} {i j k : Nat}, Tile l i j → Tile l' j k →
    Tile (l ++ l') i k
  | [], _, _, _, _, h, h' => h ▸ h'
  | _ :: _, _, _, _, _, ⟨hstart, hpos, h⟩, h' => ⟨hstart, hpos, h.append h'⟩

theorem Tile.shift (m : Nat) : ∀ {l : List Stretch} {i j : Nat}, Tile l i j →
    Tile (l.map (·.shift m)) (m + i) (m + j)
  | [], _, _, h => congrArg (m + ·) h
  | s :: _, i, _, ⟨hstart, hpos, h⟩ => by
    refine ⟨congrArg (m + ·) hstart, hpos, ?_⟩
    have hrest := h.shift m
    rwa [← Nat.add_assoc] at hrest

/-- **A place lies on one of the stretches** that lead past it. -/
theorem Tile.exists_mem : ∀ {l : List Stretch} {i j : Nat}, Tile l i j → ∀ {k : Nat}, i ≤ k →
    k < j → ∃ s ∈ l, s.start ≤ k ∧ k < s.start + s.length
  | [], _, _, h, k, hle, hlt => by
    have : _ = _ := h
    omega
  | s :: l, i, j, ⟨hstart, _, h⟩, k, hle, hlt => by
    by_cases hk : k < i + s.length
    · exact ⟨s, List.mem_cons_self, by omega, by omega⟩
    · obtain ⟨s', hs', hin⟩ := h.exists_mem (Nat.le_of_not_lt hk) hlt
      exact ⟨s', List.mem_cons_of_mem _ hs', hin⟩

end Stretch

/-- The three points that a batch is judged by: its first, middle and last `x`, at the first `y` and
the first `z`. -/
def Batch.judges {n : Nat} (b : Batch α n) (h : 5 < n) : Batch α 3 :=
  #v[b[0], { b[0] with x := b[(n - 1) / 2].x }, { b[0] with x := b[n - 1].x }]

variable [Scalar α]

/-- The value at a distance of `t` on the line that goes from `p` to `q` over a span. -/
def between (p q span t : α) : α := p + (q - p) / span * t

namespace Approximation

/-- **Points on a checked line.**  The outer two of the points that judge a batch are apart, the
images `p` of the three are transformed, the line through the outer two images is not further than
the tolerance from the middle one, and every point is on that line. -/
structure Drawn (tolerance : α) {n : Nat} (b b' : Batch α n) (h : 5 < n) (p : Batch α 3) :
    Prop where
  wide : (b[n - 1].x - b[0].x == 0) = false
  ok : p[0].ok = true ∧ p[1].ok = true ∧ p[2].ok = true
  close_x : ¬ tolerance < Scalar.abs (between p[0].x p[2].x (b[n - 1].x - b[0].x)
    (b[(n - 1) / 2].x - b[0].x) - p[1].x)
  close_y : ¬ tolerance < Scalar.abs (between p[0].y p[2].y (b[n - 1].x - b[0].x)
    (b[(n - 1) / 2].x - b[0].x) - p[1].y)
  placed : ∀ k (_ : k < n), b'[k] =
    ⟨between p[0].x p[2].x (b[n - 1].x - b[0].x) (b[k].x - b[0].x),
      between p[0].y p[2].y (b[n - 1].x - b[0].x) (b[k].x - b[0].x),
      between p[0].z p[2].z (b[n - 1].x - b[0].x) (b[k].x - b[0].x), true⟩

variable {m : Type → Type} [Monad m] {σ : Type} (e : Execution m σ α) (a : Approximation m α)
  (d : Direction)

/-- **The states that calls of the context lead to.** -/
inductive Leads (s₀ : σ) : σ → Prop
  | refl : Leads s₀ s₀
  | call {n : Nat} {b b' : Batch α n} {s s' : σ} (h : Leads s₀ s)
      (hcall : e.run (a.context.transform d b) s = .ok (b', s')) : Leads s₀ s'

/-- **What a batch comes to:** the result of one call of the context on it, or a checked line. -/
inductive Served (s₀ : σ) {n : Nat} (b b' : Batch α n) : Prop
  | exact (s s' : σ) (hs : a.Leads e d s₀ s)
      (h : e.run (a.context.transform d b) s = .ok (b', s'))
  | line (hlong : 5 < n) (s s' : σ) (p : Batch α 3) (hs : a.Leads e d s₀ s)
      (hprobes : e.run (a.context.transform d (b.judges hlong)) s = .ok (p, s'))
      (h : Drawn a.tolerance b b' hlong p)

/-- **A row that falls into segments,** each of which comes to one of the two. -/
def Segmented (s₀ : σ) {n : Nat} (row out : Batch α n) : Prop :=
  ∃ segments, Stretch.Tile segments 0 n ∧ ∀ s ∈ segments,
    ∃ h : s.start + s.length ≤ n, a.Served e d s₀ (row.part s h) (out.part s h)

/-- **The failure of a call of the context.** -/
def Failed (s₀ : σ) (i : Interrupt (Failure α)) : Prop :=
  ∃ (n : Nat) (b : Batch α n) (s : σ), a.Leads e d s₀ s ∧
    e.run (a.context.transform d b) s = .error i

/-- **An outcome of a row that is accounted for:** segments, or the failure of a call. -/
def Accounted (s₀ : σ) {n : Nat} (row : Batch α n) : Outcome α (Batch α n × σ) → Prop
  | .ok (out, s) => a.Leads e d s₀ s ∧ a.Segmented e d s₀ row out
  | .error i => a.Failed e d s₀ i

variable {e a d} {s₀ s₁ : σ}

theorem Leads.trans (h : a.Leads e d s₀ s₁) {s : σ} (hs : a.Leads e d s₁ s) :
    a.Leads e d s₀ s := by
  induction hs with
  | refl => exact h
  | call _ hcall ih => exact ih.call hcall

/-- What is so from a later state on is so from an earlier one on: of what a batch comes to, -/
theorem Served.of_leads (h : a.Leads e d s₀ s₁) {n : Nat} {b b' : Batch α n}
    (hb : a.Served e d s₁ b b') : a.Served e d s₀ b b' := by
  cases hb with
  | exact s s' hs hcall => exact .exact s s' (h.trans hs) hcall
  | line hlong s s' p hs hprobes hdrawn => exact .line hlong s s' p (h.trans hs) hprobes hdrawn

/-- of segments, -/
theorem Segmented.of_leads (h : a.Leads e d s₀ s₁) {n : Nat} {row out : Batch α n}
    (hrow : a.Segmented e d s₁ row out) : a.Segmented e d s₀ row out := by
  obtain ⟨segments, htile, hserved⟩ := hrow
  refine ⟨segments, htile, fun s hs => ?_⟩
  obtain ⟨hin, hs⟩ := hserved s hs
  exact ⟨hin, hs.of_leads h⟩

/-- of failures, -/
theorem Failed.of_leads (h : a.Leads e d s₀ s₁) {i : Interrupt (Failure α)}
    (hi : a.Failed e d s₁ i) : a.Failed e d s₀ i := by
  obtain ⟨n, b, s, hs, hcall⟩ := hi
  exact ⟨n, b, s, h.trans hs, hcall⟩

/-- and of outcomes. -/
theorem Accounted.of_leads (h : a.Leads e d s₀ s₁) {n : Nat} {row : Batch α n}
    {x : Outcome α (Batch α n × σ)} (hx : a.Accounted e d s₁ row x) : a.Accounted e d s₀ row x := by
  cases x with
  | ok done => exact ⟨h.trans hx.1, hx.2.of_leads h⟩
  | error i => exact Failed.of_leads h hx

/-- A batch that comes to one of the two is a segment by itself. -/
theorem Served.segmented {n : Nat} (hn : 0 < n) {row out : Batch α n}
    (h : a.Served e d s₀ row out) : a.Segmented e d s₀ row out := by
  refine ⟨[⟨0, n⟩], ⟨rfl, hn, Nat.zero_add n⟩, fun s hs => ?_⟩
  obtain rfl := List.mem_singleton.mp hs
  refine ⟨Nat.le_of_eq (Nat.zero_add n), ?_⟩
  rw [Batch.part_whole, Batch.part_whole]
  exact h

/-- **Halves that fall into segments** make a row that does: the segments of the right half stand
behind those of the left. -/
theorem Segmented.halves {n m : Nat} {row : Batch α n} {left : Batch α (min m n)}
    {right : Batch α (n - m)} (hleft : a.Segmented e d s₀ (row.take m) left)
    (hright : a.Segmented e d s₀ (row.drop m) right) (h : min m n + (n - m) = n) :
    a.Segmented e d s₀ row ((left ++ right).cast h) := by
  obtain ⟨segments, htile, hserved⟩ := hleft
  obtain ⟨segments', htile', hserved'⟩ := hright
  refine ⟨segments ++ segments'.map (·.shift (min m n)), ?_, fun s hs => ?_⟩
  · have hshifted := htile'.shift (min m n)
    rw [Nat.add_zero, h] at hshifted
    exact htile.append hshifted
  rcases List.mem_append.mp hs with hs | hs
  · obtain ⟨hin, hs⟩ := hserved s hs
    have hwithin : s.start + s.length ≤ n := by omega
    rw [Batch.part_take row s hin hwithin] at hs
    exact ⟨hwithin, by rwa [Batch.part_halves_left s left right h hin hwithin]⟩
  · obtain ⟨s, hs', rfl⟩ := List.mem_map.mp hs
    obtain ⟨hin, hs⟩ := hserved' s hs'
    have hwithin : (s.shift (min m n)).start + (s.shift (min m n)).length ≤ n := by
      show min m n + s.start + s.length ≤ n
      omega
    rw [Batch.part_drop row s hin hwithin] at hs
    exact ⟨hwithin, by rwa [Batch.part_halves_right s left right h hin hwithin]⟩

/-! ## 3. Outcomes -/

/-- A call of the context accounts for its own outcome. -/
theorem accounted_call {n : Nat} (hn : 0 < n) (row : Batch α n) :
    a.Accounted e d s₀ row (e.run (a.context.transform d row) s₀) := by
  cases hcall : e.run (a.context.transform d row) s₀ with
  | ok result =>
    exact ⟨Leads.refl.call hcall, (Served.exact s₀ result.2 .refl hcall).segmented hn⟩
  | error i => exact ⟨n, row, s₀, .refl, hcall⟩

omit [Scalar α] in
/-- The first points of a row and the rest are all its points. -/
theorem min_add_rest (m n : Nat) : min m n + (n - m) = n := by omega

/-- **What is done with a batch that is not short.** -/
theorem bisect_of_long {n : Nat} (row : Batch α n) (h : 5 < n) : a.bisect d row =
    if row[n - 1].x - row[0].x == 0 then a.context.transform d row else do
      let p ← a.context.transform d (row.judges h)
      if !p.all (·.ok) then a.context.transform d row
      else
        let chord := Chord.through p[0] p[2] row[0].x (row[n - 1].x - row[0].x)
        if chord.misses a.tolerance row[(n - 1) / 2].x p[1] then do
          let left ← a.bisect d (row.take ((n - 1) / 2))
          let right ← a.bisect d (row.drop ((n - 1) / 2))
          return (left ++ right).cast (min_add_rest _ n)
        else return row.map fun q => chord.place q.x := by
  have hshort : ¬ n ≤ shortRow := Nat.not_le.mpr h
  rw [bisect, dif_neg hshort]
  rfl

omit [Monad m] in
/-- A line that does not miss the middle is a checked one. -/
theorem drawn_of_close {n : Nat} {row : Batch α n} {h : 5 < n} {p : Batch α 3}
    (hwide : (row[n - 1].x - row[0].x == 0) = false) (hok : p.all (·.ok) = true)
    (hclose : (Chord.through p[0] p[2] row[0].x (row[n - 1].x - row[0].x)).misses a.tolerance
      row[(n - 1) / 2].x p[1] = false) :
    Drawn a.tolerance row (row.map fun q =>
      (Chord.through p[0] p[2] row[0].x (row[n - 1].x - row[0].x)).place q.x) h p := by
  obtain ⟨hx, hy⟩ := Bool.or_eq_false_iff.mp hclose
  constructor
  · exact hwide
  · exact (all_ok_iff p).mp hok
  · exact of_decide_eq_false hx
  · exact of_decide_eq_false hy
  · intro k hk
    rw [Vector.getElem_map]
    rfl

/-- **Halves that are accounted for,** one after the other: the row falls into their segments, and
the first failure of the two is the failure of the row. -/
theorem accounted_halves {n m : Nat} (row : Batch α n)
    (hleft : a.Accounted e d s₀ (row.take m) (e.run (a.bisect d (row.take m)) s₀))
    (hright : ∀ s, a.Accounted e d s (row.drop m) (e.run (a.bisect d (row.drop m)) s))
    (h : min m n + (n - m) = n) :
    a.Accounted e d s₀ row (e.run (do
      let left ← a.bisect d (row.take m)
      let right ← a.bisect d (row.drop m)
      return (left ++ right).cast h) s₀) := by
  rw [e.run_bind]
  cases hl : e.run (a.bisect d (row.take m)) s₀ with
  | error i =>
    rw [hl] at hleft
    exact hleft
  | ok leftDone =>
  obtain ⟨left, s⟩ := leftDone
  rw [hl] at hleft
  obtain ⟨hleads, hleft⟩ := hleft
  have hright := (hright s).of_leads hleads
  rw [Outcome.ok_bind]
  show a.Accounted e d s₀ row (e.run (a.bisect d (row.drop m) >>= _) s)
  rw [e.run_bind]
  cases hr : e.run (a.bisect d (row.drop m)) s with
  | error i =>
    rw [hr] at hright
    exact hright
  | ok rightDone =>
  obtain ⟨right, s'⟩ := rightDone
  rw [hr] at hright
  obtain ⟨hleads', hright⟩ := hright
  rw [Outcome.ok_bind]
  show a.Accounted e d s₀ row (e.run (pure ((left ++ right).cast h)) s')
  rw [e.run_pure]
  exact ⟨hleads', hleft.halves hright h⟩

/-- **Every outcome of a bisection is accounted for,** by induction on the length: halves that are
transformed make a row that is, and the first failure on the way is the failure of the row. -/
theorem bisect_accounted (s₀ : σ) {n : Nat} (hn : 0 < n) (row : Batch α n) :
    a.Accounted e d s₀ row (e.run (a.bisect d row) s₀) := by
  induction n using Nat.strong_induction_on generalizing s₀ with
  | _ n ih =>
    by_cases hshort : n ≤ shortRow
    · rw [bisect, dif_pos hshort]
      exact accounted_call hn row
    have hlong : 5 < n := Nat.lt_of_not_le hshort
    rw [bisect_of_long row hlong]
    cases hwide : row[n - 1].x - row[0].x == 0 with
    | true => exact accounted_call hn row
    | false =>
    rw [if_neg Bool.false_ne_true, e.run_bind]
    cases hprobes : e.run (a.context.transform d (row.judges hlong)) s₀ with
    | error i => exact ⟨3, _, s₀, .refl, hprobes⟩
    | ok probed =>
    obtain ⟨p, s⟩ := probed
    have hleads : a.Leads e d s₀ s := Leads.refl.call hprobes
    rw [Outcome.ok_bind]
    dsimp only
    cases hok : p.all (·.ok) with
    | false => exact (accounted_call hn row).of_leads hleads
    | true =>
    rw [Bool.not_true, if_neg Bool.false_ne_true]
    cases hmisses : (Chord.through p[0] p[2] row[0].x (row[n - 1].x - row[0].x)).misses a.tolerance
        row[(n - 1) / 2].x p[1] with
    | false =>
      rw [if_neg Bool.false_ne_true, e.run_pure]
      have hdrawn := drawn_of_close (h := hlong) hwide hok hmisses
      exact ⟨hleads, (Served.line hlong s₀ s p .refl hprobes hdrawn).segmented hn⟩
    | true =>
      rw [if_pos rfl]
      have hleft := ih (min ((n - 1) / 2) n) (by omega) s (by omega)
      have hright := fun s => ih (n - (n - 1) / 2) (by omega) s (by omega)
      exact (accounted_halves row (hleft _) (hright · _) _).of_leads hleads

/-- A row that is short or not level is left to the context. -/
theorem transform_of_uneven {n : Nat} (row : Batch α n) (hn : 0 < n)
    (h : n ≤ 5 ∨ ∃ k, ∃ _ : k < n, (row[k].y == row[0].y) = false ∨ (row[k].z == row[0].z) = false) :
    a.transform d row = a.context.transform d row := by
  rw [transform, dif_pos hn, if_pos]
  rcases h with hshort | ⟨k, hk, huneven⟩
  · simp [shortRow, hshort]
  · refine Bool.or_eq_true_iff.mpr (.inr ?_)
    rw [Bool.not_eq_true', Bool.eq_false_iff]
    intro hlevel
    have hboth := (Bool.and_eq_true _ _).mp (Vector.all_eq_true.mp hlevel k hk)
    rcases huneven with hy | hz
    · exact absurd hboth.1 (Bool.eq_false_iff.mp hy)
    · exact absurd hboth.2 (Bool.eq_false_iff.mp hz)

/-- Every outcome of a row is accounted for. -/
theorem transform_accounted {n : Nat} (row : Batch α n) :
    a.Accounted e d s₀ row (e.run (a.transform d row) s₀) := by
  unfold transform
  split
  · rename_i hn
    split
    · exact accounted_call hn row
    · exact bisect_accounted s₀ hn row
  · rename_i hempty
    obtain rfl : n = 0 := by omega
    rw [e.run_pure]
    exact ⟨.refl, [], rfl, nofun⟩

/-- **Every point of a row is transformed once,** by the context or by a checked line.  Whatever a
context does in its calls, in either direction and with any tolerance:

* a row that is transformed falls into consecutive segments, none of them empty, each of which holds
  the result of one call of the context on the segment's points, or the points of a line that was
  checked at the segment's middle;
* a row fails only with the failure of a call of the context;
* and a row that is not empty, but has five points at most or more than one `y` or `z`, is
  transformed by one call on all of it. -/
theorem transform_segmented (e : Execution m σ α) (a : Approximation m α) (d : Direction) {n : Nat}
    (row : Batch α n) (s : σ) :
    (∀ out s', e.run (a.transform d row) s = .ok (out, s') → a.Segmented e d s row out) ∧
      (∀ i, e.run (a.transform d row) s = .error i → a.Failed e d s i) ∧
      ∀ _ : 0 < n, n ≤ 5 ∨ (∃ k, ∃ _ : k < n,
          (row[k].y == row[0].y) = false ∨ (row[k].z == row[0].z) = false) →
        e.run (a.transform d row) s = e.run (a.context.transform d row) s := by
  have haccounted : a.Accounted e d s row (e.run (a.transform d row) s) := transform_accounted row
  refine ⟨fun out s' h => ?_, fun i h => ?_, fun hn h => ?_⟩
  · rw [h] at haccounted
    exact haccounted.2
  · rw [h] at haccounted
    exact haccounted
  · rw [transform_of_uneven row hn h]

end Approximation

/-- The squares of the numbers, by a context that counts its calls. -/
def Context.squaring : Context (StateT Nat (Outcome ℚ)) ℚ where
  source := .affine .identity .identity
  reprojection := some ⟨fun _ _ b => do
    modify (· + 1)
    return b.map fun p => { p with x := p.x * p.x }⟩
  destination := .identity
  destinationInverse := .identity

/-- Nine squares are taken in three calls: one judges them, and one is for each half. -/
theorem Approximation.transform_segmented_squares :
    let a : Approximation (StateT Nat (Outcome ℚ)) ℚ := ⟨.squaring, 1 / 8⟩
    let row : Batch ℚ 9 := Vector.ofFn fun k => ⟨k.val, 0, 0, false⟩
    ∃ out, Execution.stateful.run (a.transform .destinationToSource row) 0 = .ok (out, 3) ∧
      a.Segmented Execution.stateful .destinationToSource 0 row out := by
  intro a row
  have hrun : (Execution.stateful.run (a.transform .destinationToSource row) 0).toOption
      = some (row.map fun p => ⟨p.x * p.x, 0, 0, true⟩, 3) := by
    decide +kernel
  have hok := Outcome.eq_ok_of_toOption hrun
  have hsegmented := (transform_segmented Execution.stateful a .destinationToSource row 0).1
  exact ⟨_, hok, hsegmented _ _ hok⟩

end RasterWarp
