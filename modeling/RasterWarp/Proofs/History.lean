/-
# Warping does not depend on history

What a warp comes to can be told before it has run: from the dataset as it is seen under the
path, and from what the engine answers (`Phase.outlook`).  No step of the invocation changes its
outlook (`Phase.step_follows`), be it a step that finds a context in the cache or one that has it
made, and nothing that others do changes it either, as long as the dataset stays
(`System.step_outlook`).  Two runs that begin with the same outlook therefore end alike, whatever
happened before them or between their steps (`warp_without_history`).

Only what may differ between a context found and one made is left out of a result before it is
compared (`observed`): whether the context came from the cache, and the wording of a failure.
-/
import RasterWarp.Proofs.ReadCounts
import RasterWarp.Proofs.SharedRuns
import RasterWarp.ScratchPool

namespace RasterWarp

/-! ## 1. What a warp comes to -/

section Outlook

variable {ε α : Type}

/-- **What is compared of a result:** all of an output but where its context came from, and the
status of a failure. -/
def observed : Staged α Output → Except (Interrupt Status) Output
  | .ok o => .ok { o with metrics := { o.metrics with cached := false } }
  | .error (.failure e) => .error (.failure e.status)
  | .error (.fault f) => .error (.fault f)

variable [Scalar α]

/-- What a warp comes to with the context that it gets. -/
def rendered (c : Config α) (o : Opened α) : Outcome α (WarpContext α) →
    Except (Interrupt Status) Output
  | .ok context => observed (((render c o context).run.run []).1.map (·.output o false))
  | .error (.failure _) => .error (.failure .transformFailure)
  | .error (.fault f) => .error (.fault f)

variable [Engine ε α]

/-- **The context that an engine makes for an opened source.** -/
def contextFor (e : ε) (o : Opened α) : Outcome α (WarpContext α) :=
  match o.request.geolocation, o.request.destinationCrs? with
  | some options, crs =>
    (Engine.geolocatedContext e o.crs options crs o.request.destination).1
  | none, none => (Engine.affineContext e o.crs o.source none o.request.destination).1
  | none, some crs =>
    match CrsPair.new o.crs crs with
    | .ok _ => (Engine.affineContext e o.crs o.source (some crs) o.request.destination).1
    | .error f => .error (.failure f)

/-- **What an invocation comes to,** given what is registered and what the engine answers. -/
def Phase.outlook (e : ε) (c : Config α) (rasters : Registry α) :
    Phase α → Except (Interrupt Status) Output
  | requested r =>
    match (openSource c rasters r).1 with
    | .ok o => rendered c o (contextFor e o)
    | .error i => observed (.error i)
  | opened o key =>
    rendered c o
      (Engine.affineContext e key.source o.source (some key.destination) o.request.destination).1
  | missed o key =>
    rendered c o
      (Engine.affineContext e key.source o.source (some key.destination) o.request.destination).1
  | created o _ context => rendered c o (.ok context)
  | holding o context _ => rendered c o (.ok context)
  | finished result => observed result

/-! ## 2. Counts of reads and other names for a task -/

omit [Scalar α] [Engine ε α] in
/-- The result of a stage whose value is changed afterwards. -/
theorem run_map {β γ : Type} (f : β → γ) (m : Noting α β) (log : List (Notice α)) :
    ((f <$> m).run.run log).1 = (m.run.run log).1.map f := by
  show (ExceptT.run (f <$> m) log).1 = _
  rw [ExceptT.run_map]
  rfl

omit [Engine ε α] in
theorem rendered_unread (c : Config α) (o : Opened α) (x : Outcome α (WarpContext α)) :
    rendered c o.unread x = rendered c o x := by
  cases x with
  | error i => cases i <;> rfl
  | ok context =>
    unfold rendered
    simp only
    rw [← run_map, ← run_map, output_unread]

omit [Engine ε α] in
theorem rendered_during (c : Config α) (o : Opened α) (t : Task α)
    (x : Outcome α (WarpContext α)) : rendered c o (Outcome.during t x) = rendered c o x := by
  cases x with
  | error i => cases i <;> rfl
  | ok context => rfl

/-- **What is asked for is all that matters of a registry,** and counts of reads do not. -/
theorem Phase.outlook_congr {e : ε} {c : Config α} {rasters rasters' : Registry α} {p : Phase α}
    (h : ∀ r, p = .requested r → rasters.showing r.path = rasters'.showing r.path) :
    p.outlook e c rasters = p.outlook e c rasters' := by
  cases p with
  | requested r =>
    have hopen := openSource_congr c (h r rfl)
    unfold outlook
    simp only
    cases ho : (openSource c rasters r).1 with
    | error i =>
      cases ho' : (openSource c rasters' r).1 with
      | error i' => rw [ho, ho'] at hopen; cases hopen; rfl
      | ok o' => rw [ho, ho'] at hopen; cases hopen
    | ok o =>
      cases ho' : (openSource c rasters' r).1 with
      | error i' => rw [ho, ho'] at hopen; cases hopen
      | ok o' =>
        have hunread : o.unread = o'.unread := by
          rw [ho, ho'] at hopen
          exact Except.ok.inj hopen
        have hcontext : contextFor e o.unread = contextFor e o'.unread := by rw [hunread]
        simp only
        rw [← rendered_unread, ← rendered_unread c o', hunread]
        exact congrArg _ hcontext
  | opened o key => rfl
  | missed o key => rfl
  | created o key context => rfl
  | holding o context cached => rfl
  | finished result => rfl

end Outlook

/-! ## 3. One step of an invocation -/

section Step

variable {ε α : Type} [Scalar α] [Engine ε α]

/-- An invocation that looks for contexts under its own pair, and puts there what belongs there. -/
def Phase.Sound (e₀ : ε) : Phase α → Prop
  | opened o key => key.source = o.crs
  | missed o key => key.source = o.crs
  | created o key context => key.source = o.crs ∧ CachedFor e₀ key context
  | _ => True

/-- **What one step of an invocation preserves.** -/
structure Phase.Follows (e₀ : ε) (c : Config α) (s : Shared ε α) (p : Phase α)
    (s' : Shared ε α) (p' : Phase α) : Prop where
  shared : s'.Sound e₀
  sound : p'.Sound e₀
  /-- The datasets stay, but for counts of reads. -/
  showing : ∀ path, s'.rasters.showing path = s.rasters.showing path
  begun : ∀ r, p' ≠ .requested r
  rank : p'.rank ≤ p.rank - 1
  outlook : ∀ rasters, p'.outlook e₀ c rasters = p.outlook e₀ c s.rasters

namespace Phase

variable {e₀ : ε} {c : Config α} {s : Shared ε α}

/-- Going on with a context, or ending for want of one, is what the outlook says. -/
theorem acquire_outlook (o : Opened α) (cached : Bool) (x : Outcome α (WarpContext α))
    (rasters : Registry α) : (acquire o cached x).outlook e₀ c rasters = rendered c o x := by
  cases x with
  | error i => cases i <;> rfl
  | ok context => rfl

omit [Scalar α] in
theorem acquire_begun (o : Opened α) (cached : Bool) (x : Outcome α (WarpContext α))
    (r : Request α) : acquire o cached x ≠ .requested r := by
  cases x with
  | error i => cases i <;> exact nofun
  | ok context => exact nofun

omit [Scalar α] in
theorem acquire_rank (o : Opened α) (cached : Bool) (x : Outcome α (WarpContext α)) :
    (acquire o cached x).rank ≤ 1 := by
  cases x with
  | error i => cases i <;> exact Nat.zero_le _
  | ok context => exact Nat.le_refl _

theorem acquire_sound (o : Opened α) (cached : Bool) (x : Outcome α (WarpContext α)) :
    (acquire o cached x).Sound e₀ := by
  cases x with
  | error i => cases i <;> trivial
  | ok context => trivial

/-- Going on with a context makes the next phase a good one, if what is shared is. -/
theorem acquire_follows (s : Shared ε α) (p : Phase α) {s' : Shared ε α} (hs' : s'.Sound e₀)
    (hshowing : ∀ path, s'.rasters.showing path = s.rasters.showing path) (hrank : 2 ≤ p.rank)
    (o : Opened α) (cached : Bool) (x : Outcome α (WarpContext α))
    (hx : rendered c o x = p.outlook e₀ c s.rasters) :
    Follows e₀ c s p s' (acquire o cached x) where
  shared := hs'
  sound := acquire_sound o cached x
  showing := hshowing
  begun := acquire_begun o cached x
  rank := by
    have := acquire_rank o cached x
    omega
  outlook rasters := by rw [acquire_outlook, hx]

/-- **Looking a context up.**  A context that is found is bound to the request, and that is the
context that the engine would make: it carries the step of the pair, and everything else in it is
replaced. -/
theorem lookUp_follows (hs : s.Sound e₀) {o : Opened α} {key : CrsPair}
    (hkey : key.source = o.crs) :
    Follows e₀ c s (opened o key) (lookUp s o key).1 (lookUp s o key).2 := by
  unfold lookUp
  cases hget : s.cache.get key with
  | mk found cache =>
    have hcache := hs.cache.get key
    rw [hget] at hcache
    cases found with
    | none => exact ⟨hs, hkey, fun _ => rfl, nofun, Nat.le_refl _, fun _ => rfl⟩
    | some context =>
      have hfound : CachedFor e₀ key context := hs.cache.found (by rw [hget])
      obtain ⟨map, inverse, hsource, -⟩ := hfound.source
      obtain ⟨t, ht, hanswer⟩ := hfound.step
      have hs' : ({ s with cache } : Shared ε α).Sound e₀ := ⟨hs.engine, hcache⟩
      refine acquire_follows s (opened o key) hs' (fun _ => rfl) (Nat.le_add_left 2 2) o
        true _ ?_
      rw [rendered_during, Context.boundTo_eq_affine hsource, ht]
      simp only [outlook, Engine.affineContext, Engine.stepTo, hanswer]
      rfl

/-- **Having a context made.**  The engine answers as it did at the start, and what is to be kept
of the answer may stand under the pair. -/
theorem create_follows (hsteady : Engine.Steady e₀) (hs : s.Sound e₀) {o : Opened α}
    {key : CrsPair} (hkey : key.source = o.crs) :
    Follows e₀ c s (missed o key) (create s o key).1 (create s o key).2 := by
  have hanswer := hsteady.affineContext_eq hs.engine key.source o.source (some key.destination)
    o.request.destination
  have hengine := hs.engine.affineContext key.source o.source (some key.destination)
    o.request.destination
  unfold create
  rw [← hkey]
  cases hcall : Engine.affineContext s.engine key.source o.source (some key.destination)
      o.request.destination with
  | mk context engine =>
    rw [hcall] at hanswer hengine
    have hs' : ({ s with engine } : Shared ε α).Sound e₀ := ⟨hengine, hs.cache⟩
    have hrendered : rendered c o context = (missed o key).outlook e₀ c s.rasters :=
      congrArg (rendered c o) hanswer
    cases context with
    | error i =>
      exact acquire_follows s (missed o key) hs' (fun _ => rfl) (Nat.le_succ 2) o false
        (.error i) hrendered
    | ok context =>
      simp only
      cases hchanges : context.changesCrs with
      | false =>
        exact ⟨hs', trivial, fun _ => rfl, nofun, Nat.le_succ 1, fun _ => hrendered⟩
      | true =>
        exact ⟨hs', ⟨hkey, cachedFor_of_affineContext hanswer.symm hchanges⟩, fun _ => rfl, nofun,
          Nat.le_refl 2, fun _ => hrendered⟩

/-- **Putting a context into the cache.** -/
theorem store_follows (hs : s.Sound e₀) {o : Opened α} {key : CrsPair} {context : WarpContext α}
    (hcontext : CachedFor e₀ key context) :
    Follows e₀ c s (created o key context) (store s o key context).1
      (store s o key context).2 where
  shared := ⟨EngineFrom.releaseAll _ hs.engine, hs.cache.put hcontext⟩
  sound := trivial
  showing _ := rfl
  begun := nofun
  rank := Nat.le_refl _
  outlook _ := rfl

/-- **Computing the output.**  It changes counts of reads, and marks the output only where that is
not compared. -/
theorem finish_follows (hs : s.Sound e₀) (o : Opened α) (context : WarpContext α)
    (cached : Bool) :
    Follows e₀ c s (holding o context cached) (finish c s o context cached).1
      (finish c s o context cached).2 := by
  unfold finish
  cases hrun : (render c o context).run.run [] with
  | mk result notices =>
    refine ⟨⟨hs.engine.release _, hs.cache⟩, trivial, fun path => ?_, nofun, Nat.le_refl _,
      fun _ => ?_⟩
    · cases result with
      | error i => rfl
      | ok r => exact Registry.showing_credit ..
    · unfold outlook rendered
      simp only [hrun]
      cases result with
      | error i => cases i <;> rfl
      | ok r => rfl

omit [Scalar α] in
/-- A pair has the systems that it was made of. -/
theorem eq_of_crsPair {source destination : String} {key : CrsPair}
    (h : CrsPair.new (α := α) source destination = .ok key) : key = ⟨source, destination⟩ := by
  unfold CrsPair.new at h
  split at h
  · cases h
  · split at h
    · cases h
    · exact (Except.ok.inj h).symm

/-- **Starting on an opened source.** -/
theorem start_follows (hsteady : Engine.Steady e₀) {s' : Shared ε α} (hs' : s'.Sound e₀)
    (hshowing : ∀ path, s'.rasters.showing path = s.rasters.showing path) {r : Request α}
    {o : Opened α} (ho : (openSource c s.rasters r).1 = .ok o) :
    Follows e₀ c s (requested r) (start s' o).1 (start s' o).2 := by
  have houtlook : (requested r).outlook e₀ c s.rasters = rendered c o (contextFor e₀ o) := by
    unfold outlook
    simp only [ho]
  unfold start
  unfold contextFor at houtlook
  cases hg : o.request.geolocation with
  | some options =>
    have hanswer := hsteady.geolocatedContext_eq hs'.engine o.crs options
      o.request.destinationCrs? o.request.destination
    have hengine := hs'.engine.geolocatedContext o.crs options o.request.destinationCrs?
      o.request.destination
    have hnext : (Shared.mk s'.rasters _ s'.cache s'.log).Sound e₀ := ⟨hengine, hs'.cache⟩
    simp only [hg] at houtlook ⊢
    rw [← hanswer] at houtlook
    exact acquire_follows s (requested r) hnext hshowing (Nat.le_add_left 2 3) o false _
      houtlook.symm
  | none =>
    cases hd : o.request.destinationCrs? with
    | none =>
      have hanswer := hsteady.affineContext_eq hs'.engine o.crs o.source none
        o.request.destination
      have hengine := hs'.engine.affineContext o.crs o.source none o.request.destination
      have hnext : (Shared.mk s'.rasters _ s'.cache s'.log).Sound e₀ := ⟨hengine, hs'.cache⟩
      simp only [hg, hd] at houtlook ⊢
      rw [← hanswer] at houtlook
      exact acquire_follows s (requested r) hnext hshowing (Nat.le_add_left 2 3) o false _
        houtlook.symm
    | some crs =>
      simp only [hg, hd] at houtlook ⊢
      cases hkey : CrsPair.new (α := α) o.crs crs with
      | error f =>
        rw [hkey] at houtlook
        exact acquire_follows s (requested r) hs' hshowing (Nat.le_add_left 2 3) o false _
          houtlook.symm
      | ok key =>
        rw [hkey] at houtlook
        obtain rfl := eq_of_crsPair hkey
        refine ⟨hs', rfl, hshowing, fun r' h => ?_, Nat.le_refl 4, fun _ => houtlook.symm⟩
        cases h

/-- **One step of an invocation** changes nothing of what it comes to, and leaves what it shares
with others in good order. -/
theorem step_follows (hsteady : Engine.Steady e₀) (hs : s.Sound e₀) {p : Phase α}
    (hp : p.Sound e₀) (hbegun : p.rank ≠ 0) : Follows e₀ c s p (p.step c s).1 (p.step c s).2 := by
  cases p with
  | requested r =>
    have hshowing : ∀ path, (openSource c s.rasters r).2.showing path = s.rasters.showing path := by
      intro path
      unfold openSource
      cases checkRequest r <;> rfl
    cases hopen : openSource c s.rasters r with
    | mk opened rasters =>
      rw [hopen] at hshowing
      simp only [step, hopen]
      have hs' : ({ s with rasters } : Shared ε α).Sound e₀ := ⟨hs.engine, hs.cache⟩
      have hfirst : (openSource c s.rasters r).1 = opened := by rw [hopen]
      cases opened with
      | ok o => exact start_follows hsteady hs' hshowing hfirst
      | error i =>
        refine ⟨hs', trivial, hshowing, nofun, Nat.zero_le _, fun _ => ?_⟩
        unfold outlook
        simp only [hfirst]
  | opened o key => exact lookUp_follows hs hp
  | missed o key => exact create_follows hsteady hs hp
  | created o key context => exact store_follows hs hp.2
  | holding o context cached => exact finish_follows hs o context cached
  | finished result => exact absurd rfl hbegun

omit [Scalar α] in
/-- An invocation with no step left is finished. -/
theorem finished_of_rank {p : Phase α} (h : p.rank = 0) : ∃ result, p = finished result := by
  cases p with
  | finished result => exact ⟨result, rfl⟩
  | _ => cases h

/-- Steps without a pause, by induction on their number. -/
theorem steps_outlook (hsteady : Engine.Steady e₀) : ∀ (l : List Nat) {s : Shared ε α}
    {p : Phase α}, s.Sound e₀ → p.Sound e₀ →
      let ended := l.foldl (fun (s, p) _ => p.step c s) (s, p)
      ended.2.rank ≤ p.rank - l.length ∧
        ended.2.outlook e₀ c ended.1.rasters = p.outlook e₀ c s.rasters
  | [], _, _, _, _ => ⟨Nat.le_refl _, rfl⟩
  | _ :: l, s, p, hs, hp => by
    by_cases hrank : p.rank = 0
    · obtain ⟨result, rfl⟩ := finished_of_rank hrank
      have hstay := steps_outlook hsteady l hs hp
      refine ⟨Nat.le_trans hstay.1 ?_, hstay.2⟩
      rw [hrank, Nat.zero_sub]
      exact Nat.zero_le _
    · have hstep := step_follows (c := c) hsteady hs hp hrank
      have hrest := steps_outlook hsteady l hstep.shared hstep.sound
      refine ⟨Nat.le_trans hrest.1 ?_, hrest.2.trans (hstep.outlook _)⟩
      have := hstep.rank
      rw [List.length_cons]
      omega

/-- **An invocation that takes all its steps** ends as its outlook says. -/
theorem run_outlook (hsteady : Engine.Steady e₀) (hs : s.Sound e₀) {p : Phase α}
    (hp : p.Sound e₀) :
    ∃ result, (p.run c s).2.result? = some result ∧
      observed result = p.outlook e₀ c s.rasters := by
  obtain ⟨hrank, houtlook⟩ := steps_outlook (c := c) hsteady (List.range p.rank) hs hp
  rw [List.length_range, Nat.sub_self, Nat.le_zero_eq] at hrank
  obtain ⟨result, hresult⟩ := finished_of_rank hrank
  refine ⟨result, ?_, ?_⟩
  · rw [run, hresult]
    rfl
  · rw [← houtlook, hresult]
    rfl

end Phase

/-- A step of a measurement leaves what is shared in good order, and the cache alone. -/
theorem ExtentPhase.step_shared {e₀ : ε} {c : Config α} {s : Shared ε α} (hs : s.Sound e₀)
    (p : ExtentPhase α) : (p.step c s).1.Sound e₀ ∧
      ∀ path, (p.step c s).1.rasters.showing path = s.rasters.showing path := by
  cases p with
  | requested r =>
    simp only [step, start]
    split
    · exact ⟨hs, fun _ => rfl⟩
    · simp only [Registry.openView]
      split
      · exact ⟨⟨hs.engine, hs.cache⟩, fun _ => rfl⟩
      · rename_i view _
        have hengine := hs.engine.affineContext
          ((view.dataset.projection.filter (!·.isEmpty)).getD c.fallbackProjection)
          (view.dataset.geoTransform.getD .identity) (some r.crs) .identity
        split <;> exact ⟨⟨hengine, hs.cache⟩, fun _ => rfl⟩
  | holding r raster context => exact ⟨⟨hs.engine.release _, hs.cache⟩, fun _ => rfl⟩
  | finished result => exact ⟨hs, fun _ => rfl⟩

end Step

/-! ## 4. One move of a system -/

section Systems

variable {ε α : Type} [Scalar α] [Engine ε α] {e₀ : ε}

/-- **A system in good order.** -/
structure System.Sound (e₀ : ε) (s : System ε α) : Prop where
  shared : s.shared.Sound e₀
  jobs : ∀ c p, Job.warp c p ∈ s.jobs → p.Sound e₀

/-- Whether a move is a step of invocation `i`. -/
def Move.advances (i : Nat) : Move α → Bool
  | advance j => j == i
  | _ => false

omit [Scalar α] [Engine ε α] in
theorem Move.advances_self (i : Nat) : (advance i : Move α).advances i = true := beq_self_eq_true i

namespace System

theorem sound_start (rasters : Registry α) (e₀ : ε) (capacity : Nat) (log : List (Notice α)) :
    (start rasters e₀ capacity log).Sound e₀ where
  shared := ⟨.start, .new e₀ capacity⟩
  jobs _ _ h := by cases h

/-- A step of a job leaves what is shared in good order, and the job as well. -/
theorem job_step {s : System ε α} (hsteady : Engine.Steady e₀) (hs : s.Sound e₀) {job : Job α}
    (hjob : job ∈ s.jobs) : (job.step s.shared).1.Sound e₀ ∧
      (∀ path, (job.step s.shared).1.rasters.showing path = s.shared.rasters.showing path) ∧
      ∀ c p, (job.step s.shared).2 = .warp c p → p.Sound e₀ := by
  cases job with
  | warp c p =>
    have hp := hs.jobs c p hjob
    by_cases hrank : p.rank = 0
    · obtain ⟨result, rfl⟩ := Phase.finished_of_rank hrank
      refine ⟨hs.shared, fun _ => rfl, fun c' p' h => ?_⟩
      obtain ⟨-, rfl⟩ := Job.warp.inj h
      trivial
    · have hstep := Phase.step_follows (c := c) hsteady hs.shared hp hrank
      refine ⟨hstep.shared, hstep.showing, fun c' p' h => ?_⟩
      obtain ⟨-, rfl⟩ := Job.warp.inj h
      exact hstep.sound
  | measurement c p =>
    obtain ⟨hshared, hshowing⟩ := ExtentPhase.step_shared (c := c) hs.shared p
    refine ⟨hshared, hshowing, fun c' p' h => ?_⟩
    have hkind : Job.measurement c (p.step c s.shared).2 = .warp c' p' := h
    cases hkind

/-- **Every move keeps a system in good order.** -/
theorem sound_step {s : System ε α} (hsteady : Engine.Steady e₀) (hs : s.Sound e₀)
    (m : Move α) : (s.step m).Sound e₀ := by
  cases m with
  | begin c r =>
    refine ⟨hs.shared, fun c' p h => ?_⟩
    rcases List.mem_append.mp h with h | h
    · exact hs.jobs c' p h
    · cases List.mem_singleton.mp h
      trivial
  | measure c r =>
    refine ⟨hs.shared, fun c' p h => ?_⟩
    rcases List.mem_append.mp h with h | h
    · exact hs.jobs c' p h
    · cases List.mem_singleton.mp h
  | advance i =>
    unfold step
    simp only
    cases hi : s.jobs[i]? with
    | none => exact hs
    | some job =>
      obtain ⟨hshared, -, hjob⟩ := job_step hsteady hs (List.mem_of_getElem? hi)
      refine ⟨hshared, fun c p h => ?_⟩
      rcases List.mem_or_eq_of_mem_set h with h | h
      · exact hs.jobs c p h
      · exact hjob c p h.symm
  | get key => exact ⟨⟨hs.shared.engine, hs.shared.cache.get key⟩, hs.jobs⟩
  | remove key =>
    exact ⟨⟨EngineFrom.releaseAll _ hs.shared.engine, hs.shared.cache.without key⟩, hs.jobs⟩
  | clear => exact ⟨⟨EngineFrom.releaseAll _ hs.shared.engine, nofun⟩, hs.jobs⟩
  | giveBack context => exact ⟨⟨hs.shared.engine.release context, hs.shared.cache⟩, hs.jobs⟩
  | register path d => exact ⟨⟨hs.shared.engine, hs.shared.cache⟩, hs.jobs⟩

theorem sound_run (hsteady : Engine.Steady e₀) : ∀ (moves : List (Move α))
    {s : System ε α}, s.Sound e₀ → (s.run moves).Sound e₀
  | [], _, hs => hs
  | m :: moves, _, hs => sound_run hsteady moves (sound_step hsteady hs m)

/-- **A move leaves what an invocation comes to as it is,** also when it is a step of another
invocation, as long as no dataset takes the place of the one still to be opened. -/
theorem step_outlook {s : System ε α} (hsteady : Engine.Steady e₀) (hs : s.Sound e₀) {i : Nat}
    {c : Config α} {p : Phase α} (hi : s.jobs[i]? = some (.warp c p)) (m : Move α)
    (hm : ∀ r d, p = .requested r → m ≠ .register r.path d) :
    ∃ p', (s.step m).jobs[i]? = some (.warp c p') ∧
      p'.outlook e₀ c (s.step m).shared.rasters = p.outlook e₀ c s.shared.rasters ∧
      (∀ r, p' = .requested r → p = .requested r) ∧
      p'.rank ≤ p.rank - if m.advances i then 1 else 0 := by
  cases m with
  | begin c' r =>
    exact ⟨p, (List.getElem?_append_left (List.getElem?_eq_some_iff.mp hi).1).trans hi, rfl,
      fun _ h => h, Nat.le_refl _⟩
  | measure c' r =>
    exact ⟨p, (List.getElem?_append_left (List.getElem?_eq_some_iff.mp hi).1).trans hi, rfl,
      fun _ h => h, Nat.le_refl _⟩
  | advance j =>
    unfold step
    simp only
    by_cases hj : j = i
    · subst hj
      have hlt := (List.getElem?_eq_some_iff.mp hi).1
      simp only [hi, Job.step]
      rw [List.getElem?_set_self hlt, if_pos (Move.advances_self j)]
      refine ⟨_, rfl, ?_⟩
      by_cases hrank : p.rank = 0
      · obtain ⟨result, rfl⟩ := Phase.finished_of_rank hrank
        exact ⟨rfl, fun _ h => h, Nat.zero_le _⟩
      · have hstep := Phase.step_follows (c := c) hsteady hs.shared
          (hs.jobs c p (List.mem_of_getElem? hi)) hrank
        exact ⟨hstep.outlook _, fun r h => absurd h (hstep.begun r), hstep.rank⟩
    · have hother : ¬ (Move.advance j : Move α).advances i = true :=
        fun h => hj (beq_iff_eq.mp h)
      rw [if_neg hother]
      cases hjob : s.jobs[j]? with
      | none => exact ⟨p, hi, rfl, fun _ h => h, Nat.le_refl _⟩
      | some job =>
        obtain ⟨-, hshowing, -⟩ := job_step hsteady hs (List.mem_of_getElem? hjob)
        simp only
        rw [List.getElem?_set_ne hj]
        exact ⟨p, hi, Phase.outlook_congr fun r _ => hshowing r.path, fun _ h => h, Nat.le_refl _⟩
  | get key => exact ⟨p, hi, rfl, fun _ h => h, Nat.le_refl _⟩
  | remove key => exact ⟨p, hi, rfl, fun _ h => h, Nat.le_refl _⟩
  | clear => exact ⟨p, hi, rfl, fun _ h => h, Nat.le_refl _⟩
  | giveBack context => exact ⟨p, hi, rfl, fun _ h => h, Nat.le_refl _⟩
  | register path d =>
    refine ⟨p, hi, Phase.outlook_congr fun r hr => ?_, fun _ h => h, Nat.le_refl _⟩
    exact Registry.showing_insert _ (fun h : r.path = path => hm r d hr (by rw [h])) d

/-- **So do any moves,** by induction on them. -/
theorem run_outlook (hsteady : Engine.Steady e₀) {i : Nat} {c : Config α} {path : String} :
    ∀ (moves : List (Move α)) {s : System ε α} {p : Phase α}, s.Sound e₀ →
      s.jobs[i]? = some (.warp c p) → (∀ r, p = .requested r → r.path = path) →
      (∀ d, .register path d ∉ moves) →
      ∃ p', (s.run moves).jobs[i]? = some (.warp c p') ∧
        p'.outlook e₀ c (s.run moves).shared.rasters = p.outlook e₀ c s.shared.rasters ∧
        p'.rank ≤ p.rank - moves.countP (·.advances i)
  | [], _, p, _, hi, _, _ => ⟨p, hi, rfl, Nat.le_refl _⟩
  | m :: moves, s, p, hs, hi, hpath, hmoves => by
    have hm : ∀ r d, p = .requested r → m ≠ .register r.path d := by
      rintro r d hr rfl
      exact hmoves d (hpath r hr ▸ List.mem_cons_self)
    obtain ⟨p', hi', houtlook, hrequested, hrank⟩ := step_outlook hsteady hs hi m hm
    obtain ⟨p'', hi'', houtlook', hrank'⟩ := run_outlook hsteady moves (sound_step hsteady hs m) hi'
      (fun r hr => hpath r (hrequested r hr)) fun d hd => hmoves d (List.mem_cons_of_mem _ hd)
    refine ⟨p'', hi'', houtlook'.trans houtlook, Nat.le_trans hrank' ?_⟩
    rw [List.countP_cons]
    omega

end System

/-! ## 5. History does not matter -/

/-- **Warping does not depend on history.**  Take any state that any run leads to from an empty
cache, begin a warp there, and let anything happen that leaves its dataset in place: steps of other
invocations in between, removals and lookups in the cache.

* The warp is at some phase, and finished after five steps of its own.
* If it is finished, a warp that begins in the same state on an empty cache, whatever the cache's
  capacity, and on the engine at any time, ends too and with the same result, up to where the
  context came from and how a failure is worded.

In every such state, every context of the cache is one of an affine source with the step that the
engine makes for its pair, and with inverses that fit its maps.  Nor do scratch buffers carry
anything from one warp to the next: what a pool gives, or that it gives none, depends on the size
asked for alone. -/
theorem warp_without_history {e₀ : ε} (hsteady : Engine.Steady e₀) {s : System ε α}
    (hs : s.Reachable e₀) (c : Config α) (r : Request α) {moves : List (Move α)}
    (hmoves : ∀ d, .register r.path d ∉ moves) :
    (∀ entry ∈ s.shared.cache.entries, CachedFor e₀ entry.key entry.context) ∧
      (∀ (pool : ScratchPool) (size : Nat), (pool.acquire size).1
        = if size < bufferBound then .ok (Bytes.zeros size) else .error .capacity) ∧
      ∃ p, ((s.step (.begin c r)).run moves).jobs[s.jobs.length]? = some (.warp c p) ∧
        (5 ≤ moves.countP (·.advances s.jobs.length) → ∃ result, p.result? = some result) ∧
        ∀ result, p.result? = some result → ∀ e, EngineFrom e₀ e → ∀ capacity log, ∃ fresh,
          ((Phase.requested r).run c ⟨s.shared.rasters, e, .new capacity, log⟩).2.result?
              = some fresh ∧
            observed result = observed fresh := by
  obtain ⟨rasters, capacity, log, before, rfl⟩ := hs
  have hsound := System.sound_run hsteady before (System.sound_start rasters e₀ capacity log)
  generalize (System.start rasters e₀ capacity log).run before = s at hsound ⊢
  refine ⟨hsound.shared.cache, fun pool size => congrArg Prod.fst (pool.acquire_eq size), ?_⟩
  have hbegun : (s.step (.begin c r)).jobs[s.jobs.length]? = some (.warp c (.requested r)) :=
    List.getElem?_concat_length
  obtain ⟨p, hp, houtlook, hrank⟩ := System.run_outlook hsteady moves
    (System.sound_step hsteady hsound (.begin c r)) hbegun
    (fun r' h => by cases h; rfl) hmoves
  refine ⟨p, hp, fun hsteps => ?_, fun result hresult e he capacity log => ?_⟩
  · have hzero : p.rank = 0 := by
      have hfive : (Phase.requested r).rank = 5 := rfl
      omega
    obtain ⟨result, rfl⟩ := Phase.finished_of_rank hzero
    exact ⟨result, rfl⟩
  · have hfresh : (⟨s.shared.rasters, e, .new capacity, log⟩ : Shared ε α).Sound e₀ :=
      ⟨he, .new e₀ capacity⟩
    obtain ⟨fresh, hrun, hobserved⟩ := Phase.run_outlook (c := c) hsteady hfresh
      (p := .requested r) trivial
    refine ⟨fresh, hrun, ?_⟩
    cases p with
    | finished result' =>
      cases hresult
      exact houtlook.trans hobserved.symm
    | _ => cases hresult

end Systems

/-- A small dataset taken from one system to another. -/
def Request.across : Request Float where
  path := "ramp"
  sourceCrs := some "A"
  source := none
  geolocation := none
  destinationCrs := some "B"
  destination := .identity
  width := 3
  height := 2
  band := 1
  srsCf := false

/-- A system in which one warp has filled the cache and another has looked its context up. -/
def System.warm : System (AffineEngine Float) Float :=
  (System.start (Registry.empty.insert "ramp"
      (Dataset.ofBand ⟨.ofFn 3 2 .byte fun x y => .ofInt (x + y : Nat), []⟩))
    (AffineEngine.empty.register "A" "B" .identity) 4 []).run
    ([.begin .default .across] ++ List.replicate 5 (.advance 0)
      ++ [.begin .default .across, .advance 1, .advance 1])

/-- A warp on a cache that others have filled and are using, against one on an empty cache. -/
theorem warp_without_history_warm :
    System.warm.Reachable (AffineEngine.empty.register "A" "B" .identity) ∧
      ∃ result fresh,
        ((System.warm.step (.begin .default .across)).run
            (.advance 1 :: List.replicate 5 (.advance System.warm.jobs.length))).jobs[
              System.warm.jobs.length]? = some (.warp .default (.finished result)) ∧
        ((Phase.requested .across).run .default
          ⟨System.warm.shared.rasters, (AffineEngine.empty.register "A" "B" .identity :
            AffineEngine Float), .new 1, []⟩).2.result? = some fresh ∧
        observed result = observed fresh := by
  have hreachable : System.warm.Reachable (AffineEngine.empty.register "A" "B" .identity) :=
    ⟨_, _, _, _, rfl⟩
  have hmoves : ∀ d, (.register Request.across.path d : Move Float)
      ∉ .advance 1 :: List.replicate 5 (.advance System.warm.jobs.length) := by
    intro d hd
    rcases List.mem_cons.mp hd with h | h
    · cases h
    · cases (List.mem_replicate.mp h).2
  obtain ⟨-, -, p, hp, hended, hsame⟩ := warp_without_history (AffineEngine.steady _) hreachable
    .default .across hmoves
  have hcount : 5 ≤ (Move.advance 1 ::
      List.replicate 5 (Move.advance System.warm.jobs.length) : List (Move Float)).countP
        (·.advances System.warm.jobs.length) := by
    rw [List.countP_cons, List.countP_replicate, if_pos (Move.advances_self _)]
    exact Nat.le_add_right _ _
  obtain ⟨result, hresult⟩ := hended hcount
  obtain ⟨fresh, hfresh, heq⟩ := hsame result hresult _ .start 1 []
  refine ⟨hreachable, result, fresh, ?_, hfresh, heq⟩
  cases p with
  | finished result' => cases hresult; exact hp
  | _ => cases hresult

end RasterWarp
