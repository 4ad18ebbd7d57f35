/-
# Programs that write in place

The functions of the library answer with new values.  Whoever reads a block into a buffer of his
own, or scatters blocks into an output, has it written in place: piece by piece, and what an
interrupt finds written stays written.  An `InPlace` program says so.  It has its own state, and it
leaves one also when it fails.

A program *gives* what a function answers (`Gives`) if it leaves the value where there is one and is
interrupted as the function is where there is none.  A loop over a list gives the fold over it
(`Gives.loop`), so a program is compared with its function step by step.
-/
import RasterWarp.Failure

namespace RasterWarp

variable {σ τ ι α β γ : Type}

/-- **A program that works on a state in place.**  An interrupt does not take back what was written
before it. -/
abbrev InPlace (σ α β : Type) := ExceptT (Interrupt (Failure α)) (StateM σ) β

namespace InPlace

/-- What a program answers, and the state that it leaves. -/
def apply (p : InPlace σ α β) (s : σ) : Outcome α β × σ := Id.run (p.run.run s)

/-- A program on a part of the state. -/
def within (part : τ → σ) (put : τ → σ → τ) (p : InPlace σ α β) : InPlace τ α β :=
  ExceptT.mk fun t => pure ((p.apply (part t)).1, put t (p.apply (part t)).2)

/-! ## 1. What programs leave -/

section Apply

variable (s : σ)

@[simp] theorem apply_pure (b : β) : (pure b : InPlace σ α β).apply s = (.ok b, s) := rfl

@[simp] theorem apply_throw (e : Interrupt (Failure α)) :
    (throw e : InPlace σ α β).apply s = (.error e, s) := rfl

@[simp] theorem apply_raise (c : Cause α) :
    (Cause.raise c : InPlace σ α β).apply s = (.error (.failure c.failure), s) := rfl

@[simp] theorem apply_lift (x : Outcome α β) : (liftM x : InPlace σ α β).apply s = (x, s) := rfl

@[simp] theorem apply_get : (get : InPlace σ α σ).apply s = (.ok s, s) := rfl

@[simp] theorem apply_set (s' : σ) : (set s' : InPlace σ α PUnit).apply s = (.ok ⟨⟩, s') := rfl

@[simp] theorem apply_modify (f : σ → σ) :
    (modify f : InPlace σ α PUnit).apply s = (.ok ⟨⟩, f s) := rfl

@[simp] theorem apply_within (part : τ → σ) (put : τ → σ → τ) (p : InPlace σ α β) (t : τ) :
    (p.within part put).apply t = ((p.apply (part t)).1, put t (p.apply (part t)).2) := rfl

/-- The second of two goes on from what the first left, unless that was interrupted. -/
@[simp] theorem apply_bind (p : InPlace σ α β) (k : β → InPlace σ α γ) :
    (p >>= k).apply s =
      match p.apply s with
      | (.ok b, s') => (k b).apply s'
      | (.error e, s') => (.error e, s') := by
  have hrun : (p >>= k).apply s = Id.run ((ExceptT.bindCont k (p.apply s).1).run (p.apply s).2) :=
    rfl
  rw [hrun]
  rcases p.apply s with ⟨e | b, s'⟩ <;> rfl

end Apply

/-! ## 2. Programs and functions -/

/-- **A program that gives an outcome in place:** it leaves the value if there is one, and is
interrupted in the same way if there is none.  What it leaves then is not said. -/
def Gives (p : InPlace σ α Unit) (s : σ) : Outcome α σ → Prop
  | .ok s' => p.apply s = (.ok (), s')
  | .error e => (p.apply s).1 = .error e

namespace Gives

variable {p : InPlace σ α Unit} {s : σ} {o : Outcome α σ}

/-- The second of two goes on from the value that the first gives. -/
theorem bind {k : Unit → InPlace σ α Unit} {f : σ → Outcome α σ} (hp : p.Gives s o)
    (hk : ∀ s', o = .ok s' → (k ()).Gives s' (f s')) : (p >>= k).Gives s (o >>= f) := by
  cases o with
  | error e =>
    show ((p >>= k).apply s).1 = .error e
    rw [apply_bind]
    rcases hleft : p.apply s with ⟨answer, left⟩
    obtain rfl : answer = .error e := (congrArg Prod.fst hleft).symm.trans hp
    rfl
  | ok mid =>
    have hstep : p.apply s = (.ok (), mid) := hp
    have happly : (p >>= k).apply s = (k ()).apply mid := by rw [apply_bind, hstep]
    have hrest := hk mid rfl
    show (p >>= k).Gives s (f mid)
    unfold Gives at hrest ⊢
    rw [happly]
    exact hrest

/-- A program that looks at its state first. -/
theorem of_get {k : σ → InPlace σ α Unit} (h : (k s).Gives s o) : (get >>= k).Gives s o := by
  cases o with
  | error e => exact h
  | ok s' => exact h

/-- A program that asks for something outside its state first. -/
theorem of_lift {x : Outcome α β} {k : β → InPlace σ α Unit} {f : β → Outcome α σ}
    (h : ∀ b, x = .ok b → (k b).Gives s (f b)) :
    ((liftM x : InPlace σ α β) >>= k).Gives s (x >>= f) := by
  cases x with
  | error e => exact rfl
  | ok b =>
    have happly : ((liftM (.ok b : Outcome α β) : InPlace σ α β) >>= k).apply s
        = (k b).apply s := by
      rw [apply_bind, apply_lift]
    show Gives _ s (f b)
    have hrest := h b rfl
    unfold Gives at hrest ⊢
    rw [happly]
    exact hrest

/-- What a program gives on a part of the state is put back. -/
theorem within {part : τ → σ} {put : τ → σ → τ} {t : τ} (hp : p.Gives (part t) o) :
    (p.within part put).Gives t (o.map (put t)) := by
  cases o with
  | error e => exact hp
  | ok s' =>
    have hstep : p.apply (part t) = (.ok (), s') := hp
    show (p.within part put).apply t = (.ok (), put t s')
    rw [apply_within, hstep]

/-- The rest of the state is brought up to date after it. -/
theorem within_modify {part : τ → σ} {put : τ → σ → τ} {t : τ} (hp : p.Gives (part t) o)
    (f : τ → τ) :
    (p.within part put >>= fun _ => modify f).Gives t (o.map fun s => f (put t s)) := by
  have hstored : (p.within part put).Gives t (o.map (put t)) := hp.within
  have hdone := hstored.bind (k := fun _ => modify f) (f := fun t => .ok (f t)) fun _ _ => rfl
  cases o with
  | error e => exact hdone
  | ok s' => exact hdone

/-- **A loop gives the fold over its list,** if its body gives the step from every state that the
fold comes to.  By induction on the list. -/
theorem loop (Inv : σ → Prop) {body : ι → InPlace σ α Unit} {f : σ → ι → Outcome α σ}
    (hbody : ∀ x s, Inv s → (body x).Gives s (f s x))
    (hinv : ∀ x s s', Inv s → f s x = .ok s' → Inv s') (xs : List ι) {s : σ} (hs : Inv s) :
    (forM xs body).Gives s (xs.foldlM f s) := by
  induction xs generalizing s with
  | nil => exact rfl
  | cons x xs ih =>
    rw [List.forM_cons, List.foldlM_cons]
    refine (hbody x s hs).bind ?_
    intro s' hs'
    exact ih (hinv x s s' hs hs')

end Gives

/-- **A loop over numbers** completes and keeps an invariant, if every turn does. -/
theorem loop_range (body : Nat → InPlace σ α Unit) (Inv : Nat → σ → Prop) (n : Nat)
    (hstep : ∀ i < n, ∀ s, Inv i s → ∃ s', (body i).apply s = (.ok (), s') ∧ Inv (i + 1) s') {s : σ}
    (h : Inv 0 s) : ∃ s', (forM (List.range n) body).apply s = (.ok (), s') ∧ Inv n s' := by
  induction n with
  | zero => exact ⟨s, rfl, h⟩
  | succ n ih =>
    obtain ⟨mid, hmid, hinv⟩ := ih fun i hi => hstep i (Nat.lt_succ_of_lt hi)
    obtain ⟨s', hs', hinv'⟩ := hstep n (Nat.lt_succ_self n) mid hinv
    refine ⟨s', ?_, hinv'⟩
    simp only [List.range_succ, List.forM_append, apply_bind, hmid, List.forM_cons, List.forM_nil,
      hs', apply_pure]

end InPlace
end RasterWarp
