/-
# Transforms that act point by point

A transform takes points in batches, and nothing says that a point is treated alike in every batch.
For most transforms it is: a call that succeeds does to each point what a call on that point alone
does (`ActsAlone`).  What acts alone stays so when it is put together: one after the other
(`ActsAlone.bind`), with the flags of the steps before (`BatchTransform.Pointwise.step`), and so
along the chain of a context (`Context.Pointwise.transform`).

For such a context the image of a point is a matter of the point (`Context.image?`), and batches
enter only through the question whether a call fails as a whole.
-/
import RasterWarp.Engine

namespace RasterWarp

/-! ## 1. Acting on each point alone -/

section Alone

variable {α β γ : Type}

/-- Two calls have an outcome only if each of them has. -/
theorem Outcome.exists_of_bind {x : Outcome α β} {k : β → Outcome α γ} {c : γ}
    (h : x >>= k = .ok c) : ∃ b, x = .ok b ∧ k b = .ok c := by
  cases x with
  | ok b => exact ⟨b, rfl, h⟩
  | error e => cases h

/-- A call that is seen to have a result has it. -/
theorem Outcome.eq_ok_of_toOption {x : Outcome α β} {b : β} (h : x.toOption = some b) :
    x = .ok b := by
  cases x with
  | ok b' => exact congrArg Except.ok (Option.some.inj h)
  | error e => cases h

/-- Two calls go out of place only if one of them does. -/
theorem Outcome.fault_of_bind {x : Outcome α β} {k : β → Outcome α γ} {f : Fault}
    (h : x >>= k = .error (.fault f)) :
    x = .error (.fault f) ∨ ∃ b, x = .ok b ∧ k b = .error (.fault f) := by
  cases x with
  | ok b => exact .inr ⟨b, rfl, h⟩
  | error e => exact .inl (congrArg Except.error (Except.error.inj h))

/-- All points of a batch in good order. -/
def Batch.fresh {n : Nat} (b : Batch α n) : Batch α n := b.map fun p => { p with ok := true }

@[simp] theorem Batch.fresh_fresh {n : Nat} (b : Batch α n) : b.fresh.fresh = b.fresh := by
  simp [fresh]

theorem Batch.map_single (f : Point α → Point α) (p : Point α) :
    (#v[p] : Batch α 1).map f = #v[f p] := by
  simp

theorem Batch.zipWith_single (f : Point α → Point α → Point α) (p q : Point α) :
    (#v[p] : Batch α 1).zipWith f #v[q] = #v[f p q] := by
  simp

/-- **What acts on each point alone:** a call that succeeds does to every point of its batch what a
call on that point does, and no call goes out of place. -/
structure ActsAlone (run : {n : Nat} → Batch α n → Outcome α (Batch α n)) : Prop where
  alone : ∀ {n : Nat} {b b' : Batch α n}, run b = .ok b' → ∀ i (h : i < n),
    run #v[b[i]] = .ok #v[b'[i]]
  in_place : ∀ {n : Nat} (b : Batch α n) (f : Fault), run b ≠ .error (.fault f)

/-- One function applied to every point acts alone. -/
theorem actsAlone_map (f : Point α → Point α) :
    ActsAlone fun {n} (b : Batch α n) => .ok (b.map f) where
  alone := by
    intro n b b' h i hi
    obtain rfl := Except.ok.inj h
    rw [Vector.getElem_map, Batch.map_single]
  in_place := by
    intro n b f h
    cases h

variable {first second : {n : Nat} → Batch α n → Outcome α (Batch α n)}

/-- **One after the other** act alone if both do. -/
theorem ActsAlone.bind (hf : ActsAlone first) (hs : ActsAlone second) :
    ActsAlone fun {n} (b : Batch α n) => first b >>= second where
  alone := by
    intro n b b' h i hi
    obtain ⟨mid, hmid, h⟩ := Outcome.exists_of_bind h
    rw [hf.alone hmid i hi, Outcome.ok_bind]
    exact hs.alone h i hi
  in_place := by
    intro n b f h
    rcases Outcome.fault_of_bind h with h | ⟨mid, -, h⟩
    · exact hf.in_place b f h
    · exact hs.in_place mid f h

/-- **A transform that acts point by point,** in both directions. -/
def BatchTransform.Pointwise (t : Transform α) : Prop :=
  ∀ d, ActsAlone fun {n} (b : Batch α n) => t.run d b

/-- A step of a chain does if its transform does: the flags are those of the points. -/
theorem BatchTransform.Pointwise.step {t : Transform α} (h : t.Pointwise) (d : Direction) :
    ActsAlone fun {n} (b : Batch α n) => t.step d b where
  alone := by
    intro n b b' hstep i hi
    unfold BatchTransform.step at hstep ⊢
    obtain ⟨moved, hrun, hmoved⟩ := Outcome.exists_of_bind hstep
    obtain rfl := Except.ok.inj hmoved
    have halone := (h d).alone hrun i hi
    rw [Vector.getElem_map] at halone
    rw [Batch.map_single, halone, Vector.getElem_zipWith, Outcome.ok_bind]
    exact congrArg Except.ok (Batch.zipWith_single ..)
  in_place := by
    intro n b f hstep
    unfold BatchTransform.step at hstep
    rcases Outcome.fault_of_bind hstep with hrun | ⟨moved, -, hmoved⟩
    · exact (h d).in_place _ f hrun
    · cases hmoved

end Alone

/-! ## 2. Contexts -/

namespace Context

variable {α : Type} [Scalar α]

omit [Scalar α] in
/-- **A context put together from transforms that act point by point.** -/
structure Pointwise (c : WarpContext α) : Prop where
  source : ∀ t, c.source = .geolocation t → t.Pointwise
  reprojection : ∀ t, c.reprojection = some t → t.Pointwise

/-- Moving a batch along an affine map acts alone. -/
theorem actsAlone_moveBatch (g : GeoTransform α) :
    ActsAlone fun {n} (b : Batch α n) => .ok (g.moveBatch b) :=
  actsAlone_map _

namespace Pointwise

variable {c : WarpContext α} (h : c.Pointwise)

include h

theorem sourceStep (d : Direction) : ActsAlone fun {n} (b : Batch α n) => c.sourceStep d b := by
  unfold Context.sourceStep
  cases hsource : c.source with
  | affine map inverse =>
    cases d with
    | sourceToDestination => exact actsAlone_moveBatch map
    | destinationToSource => exact actsAlone_moveBatch inverse
  | geolocation t => exact (h.source t hsource).step d

omit [Scalar α] in
theorem reprojectionStep (d : Direction) :
    ActsAlone fun {n} (b : Batch α n) => c.reprojectionStep d b := by
  unfold Context.reprojectionStep
  cases hstep : c.reprojection with
  | none =>
    constructor
    · intro n b b' hb i hi
      obtain rfl := Except.ok.inj hb
      rfl
    · intro n b f hb
      cases hb
  | some t => exact (h.reprojection t hstep).step d

/-- **The whole chain acts on each point alone.** -/
theorem transform (d : Direction) : ActsAlone fun {n} (b : Batch α n) => c.transform d b := by
  have hends := actsAlone_map (fun p : Point α => { p with ok := true })
  have hcheck := actsAlone_map fun p : Point α =>
    { p with ok := p.ok && Scalar.isFinite p.x && Scalar.isFinite p.y }
  cases d with
  | destinationToSource =>
    have hgrid := actsAlone_moveBatch c.destination
    exact hends.bind (((hgrid.bind (h.reprojectionStep _)).bind (h.sourceStep _)).bind hcheck)
  | sourceToDestination =>
    have hgrid := actsAlone_moveBatch c.destinationInverse
    exact hends.bind (((h.sourceStep _).bind ((h.reprojectionStep _).bind hgrid)).bind hcheck)

end Pointwise

/-- **The image of a point by itself,** if a call on it succeeds; the image has a flag. -/
def image? (c : WarpContext α) (d : Direction) (p : Point α) : Option (Point α) :=
  (c.transform d #v[p]).toOption.map (·.head)

/-- Whether a point is transformed by itself. -/
def Reaches (c : WarpContext α) (d : Direction) (p : Point α) : Prop :=
  ∃ q, c.image? d p = some q ∧ q.ok = true

/-- The flag of the image says it. -/
theorem reaches_iff {c : WarpContext α} {d : Direction} {p q : Point α}
    (h : c.image? d p = some q) : c.Reaches d p ↔ q.ok = true := by
  constructor
  · rintro ⟨q', hq', hok⟩
    rw [h] at hq'
    obtain rfl := Option.some.inj hq'
    exact hok
  · intro hok
    exact ⟨q, h, hok⟩

/-- **A call that succeeds gives every point its image.** -/
theorem Pointwise.image?_eq {c : WarpContext α} (h : c.Pointwise) {d : Direction} {n : Nat}
    {b b' : Batch α n} (hb : c.transform d b = .ok b') {i : Nat} (hi : i < n) :
    c.image? d b[i] = some b'[i] := by
  have halone := (h.transform d).alone hb i hi
  unfold image?
  rw [halone]
  rfl

end Context
end RasterWarp
