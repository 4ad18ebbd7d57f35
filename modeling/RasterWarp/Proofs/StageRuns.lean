/-
# Runs of stages

Rendering is a sequence of stages that note what they meet.  A stage comes to a value, to a status
or to a fault, whatever was noted before it (`Yields`, `Fails`, `Faults`), and so does a sequence.
The other way round, a sequence that came to a value did so stage by stage (`exists_of_run_bind`).

Choosing a level is the one stage that changes the context of a warp, and all that it changes is
the geotransform of the source (`contextAfter_cases`).
-/
import RasterWarp.Warp.Stages

namespace RasterWarp

/-! ## 1. Stages one after the other -/

section Stages

variable {α β γ : Type}

/-- **A stage that comes to a value,** whatever was noted before. -/
def Yields (x : Noting α β) (b : β) : Prop := ∀ log, ∃ log', x.run.run log = (.ok b, log')

/-- **A stage that fails with a status,** whatever was noted before. -/
def Fails (x : Noting α β) (s : Status) : Prop :=
  ∀ log, ∃ f log', x.run.run log = (.error (.failure ⟨s, f⟩), log')

/-- **A stage that faults on a size,** whatever was noted before. -/
def Faults (x : Noting α β) : Prop :=
  ∀ log, ∃ (f : Fault) (log' : List (Notice α)), f.OfSize ∧
    x.run.run log = (.error (.fault f), log')

theorem run_bind (x : Noting α β) (k : β → Noting α γ) (log : List (Notice α)) :
    (x >>= k).run.run log = match x.run.run log with
      | (.ok b, log') => (k b).run.run log'
      | (.error e, log') => (.error e, log') := by
  unfold ExceptT.run StateT.run
  simp only [Bind.bind, ExceptT.bind, ExceptT.mk, StateT.bind, ExceptT.bindCont]
  cases x log with
  | mk result log' => cases result <;> rfl

theorem Yields.pure (b : β) : Yields (Pure.pure b : Noting α β) b := fun log => ⟨log, rfl⟩

theorem yields_note (n : List (Notice α)) : Yields (note n) () := fun log => ⟨log ++ n, rfl⟩

theorem yields_stage (s : Status) (b : β) : Yields (stage s (.ok b) : Noting α β) b :=
  fun log => ⟨log, rfl⟩

theorem fails_stage (s : Status) (f : Failure α) :
    Fails (stage s (.error (.failure f)) : Noting α β) s := fun log => ⟨f, log, rfl⟩

theorem faults_stage (s : Status) {f : Fault} (hf : f.OfSize) :
    Faults (stage s (.error (.fault f)) : Noting α β) := fun log => ⟨f, log, hf, rfl⟩

theorem Yields.bind {x : Noting α β} {b : β} (hx : Yields x b) {k : β → Noting α γ} {c : γ}
    (hk : Yields (k b) c) : Yields (x >>= k) c := by
  intro log
  obtain ⟨log', hlog⟩ := hx log
  rw [run_bind, hlog]
  exact hk log'

theorem Yields.bind_fails {x : Noting α β} {b : β} (hx : Yields x b) {k : β → Noting α γ}
    {s : Status} (hk : Fails (k b) s) : Fails (x >>= k) s := by
  intro log
  obtain ⟨log', hlog⟩ := hx log
  rw [run_bind, hlog]
  exact hk log'

theorem Fails.bind {x : Noting α β} {s : Status} (hx : Fails x s) (k : β → Noting α γ) :
    Fails (x >>= k) s := by
  intro log
  obtain ⟨f, log', hlog⟩ := hx log
  rw [run_bind, hlog]
  exact ⟨f, log', rfl⟩

theorem Yields.bind_faults {x : Noting α β} {b : β} (hx : Yields x b) {k : β → Noting α γ}
    (hk : Faults (k b)) : Faults (x >>= k) := by
  intro log
  obtain ⟨log', hlog⟩ := hx log
  rw [run_bind, hlog]
  exact hk log'

theorem Faults.bind {x : Noting α β} (hx : Faults x) (k : β → Noting α γ) : Faults (x >>= k) := by
  intro log
  obtain ⟨f, log', hf, hrun⟩ := hx log
  rw [run_bind, hrun]
  exact ⟨f, log', hf, rfl⟩

/-- **A stage that comes to a value** if it is `ready`, and to a status if it is not; only if sizes
do not fit may it come to a fault. -/
def ComesTo (ready fits : Prop) (s : Status) (x : Noting α β) : Prop :=
  (ready ∧ ∃ b, Yields x b) ∨ (¬ ready ∧ Fails x s) ∨ (¬ fits ∧ Faults x)

/-- So does a sequence that begins with a value. -/
theorem Yields.bind_comesTo {ready fits : Prop} {s : Status} {x : Noting α β} {b : β}
    (hx : Yields x b) {k : β → Noting α γ} (hk : ComesTo ready fits s (k b)) :
    ComesTo ready fits s (x >>= k) := by
  rcases hk with ⟨hready, c, hc⟩ | ⟨hready, hfails⟩ | ⟨hsizes, hfaults⟩
  · exact .inl ⟨hready, c, hx.bind hc⟩
  · exact .inr (.inl ⟨hready, hx.bind_fails hfails⟩)
  · exact .inr (.inr ⟨hsizes, hx.bind_faults hfaults⟩)

/-- A sequence that begins with a fault of a size does not fit. -/
theorem comesTo_of_fault {ready fits : Prop} {s t : Status} {x : Outcome α β} {f : Fault}
    (hf : f.OfSize) (hx : x = .error (.fault f)) (hsizes : ¬ fits) (k : β → Noting α γ) :
    ComesTo ready fits s (stage t x >>= k) := by
  rw [hx]
  exact .inr (.inr ⟨hsizes, (faults_stage t hf).bind k⟩)

/-- A stage that fails has no value, -/
theorem Fails.not_ok {x : Noting α β} {s : Status} (h : Fails x s) {b : β} :
    (x.run.run []).1 ≠ .ok b := by
  obtain ⟨f, log, hrun⟩ := h []
  rw [hrun]
  exact nofun

/-- and one that comes to a value has no other. -/
theorem Yields.eq {x : Noting α β} {b b' : β} (h : Yields x b)
    (hb' : (x.run.run []).1 = .ok b') : b' = b := by
  obtain ⟨log, hrun⟩ := h []
  rw [hrun] at hb'
  exact (Except.ok.inj hb').symm

/-! ## 2. Sequences that came to a value -/

variable {log log' : List (Notice α)}

/-- A sequence of stages has a value only if each of them has. -/
theorem exists_of_run_bind {x : Noting α β} {k : β → Noting α γ} {c : γ}
    (h : (x >>= k).run.run log = (.ok c, log')) :
    ∃ b mid, x.run.run log = (.ok b, mid) ∧ (k b).run.run mid = (.ok c, log') := by
  rw [run_bind] at h
  cases hx : x.run.run log with
  | mk result mid =>
    rw [hx] at h
    cases result with
    | ok b => exact ⟨b, mid, rfl, h⟩
    | error e => cases h

/-- What a run came to, it came to with some notices. -/
theorem exists_log {x : Noting α β} {result : Except (Interrupt (StageError α)) β}
    (h : (x.run.run log).1 = result) : ∃ log', x.run.run log = (result, log') :=
  ⟨_, Prod.ext h rfl⟩

theorem eq_ok_of_run_stage {s : Status} {x : Outcome α β} {b : β}
    (h : (stage s x : Noting α β).run.run log = (.ok b, log')) : x = .ok b := by
  cases x with
  | ok b' => cases h; rfl
  | error e => cases h

theorem eq_ok_of_during {t : Task α} {x : Outcome α β} {b : β}
    (h : Outcome.during t x = .ok b) : x = .ok b := by
  cases x with
  | ok b' => exact h
  | error e => cases h

theorem eq_ok_of_attempt {x : Except (Failure α) β} {b : β} (h : attempt x = .ok b) :
    x = .ok b := by
  cases x with
  | ok b' => cases h; rfl
  | error f => cases h

end Stages

/-! ## 3. The context of a level -/

section Levels

variable {α : Type} [Scalar α] {c : Config α} {o : Opened α} {context bound : WarpContext α}
  {log log' : List (Notice α)}

/-- A level that was selected has the context, or binds it to a map of its own. -/
theorem context_of_selectLevel {overview : Option Nat} {layer : Layer}
    (h : (selectLevel o context overview).run.run log = (.ok (layer, bound), log')) :
    bound = context ∨ ∃ map, context.setSource map = .ok bound := by
  cases overview with
  | none =>
    cases h
    exact .inl rfl
  | some level =>
    unfold selectLevel at h
    obtain ⟨found, mid, -, h⟩ := exists_of_run_bind h
    obtain ⟨⟨map, bound'⟩, mid', hbound, h⟩ := exists_of_run_bind h
    obtain ⟨-, mid'', -, h⟩ := exists_of_run_bind h
    cases h
    have hbound := eq_ok_of_attempt (eq_ok_of_run_stage hbound)
    unfold atOverview at hbound
    simp only at hbound
    split at hbound
    · rename_i bound' hset
      cases hbound
      exact .inr ⟨_, hset⟩
    · cases hbound

/-- **A rendering ends with the context that it began with,** or with that context bound to the map
of an overview. -/
theorem contextAfter_cases (c : Config α) (o : Opened α) (context : WarpContext α) :
    contextAfter c o context = context ∨
      ∃ map, context.setSource map = .ok (contextAfter c o context) := by
  unfold contextAfter
  cases hrun : (chooseLevel c o context).run.run [] with
  | mk result log =>
    cases result with
    | error e => exact .inl rfl
    | ok level =>
      unfold chooseLevel at hrun
      obtain ⟨suggested, mid, -, hrun⟩ := exists_of_run_bind hrun
      obtain ⟨⟨layer, bound⟩, mid', hlevel, hrun⟩ := exists_of_run_bind hrun
      cases hrun
      exact context_of_selectLevel hlevel

end Levels

end RasterWarp
