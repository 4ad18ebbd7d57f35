/-
# Uses that are counted while invocations race

Between looking a context up and putting one into the cache an invocation leaves the cache alone,
and others may do both in the meantime.  What invocations ask of the cache is still one sequence of
operations, in the order of the moves (`System.asked`), and the cache of a run is the one that
these operations lead to (`cache_run`).  So its history explains it (`explained_run`): an entry was
used once for the put that it comes from and then once for every lookup.

A put always begins anew.  `uses_since_last_put` says that nothing else makes a count smaller, and
that the one who puts had found nothing under the pair, before someone else put there what it
replaces; `uses_lost_raced` is a run in which this happens.
-/
import RasterWarp.Proofs.CacheHistory
import RasterWarp.Proofs.ContextBalance

namespace RasterWarp

variable {ε α : Type}

/-! ## 1. What is asked of the cache -/

namespace ContextCache

variable {γ : Type}

/-- A lookup that finds nothing leaves the cache as it was. -/
theorem get_absent {c : ContextCache γ} {k : CrsPair} (h : c.find? k = none) :
    (c.get k).2 = c := by
  have habsent := find?_eq_none.mp h
  have hentries : c.entries.map (fun e => if e.key == k then { e with uses := e.uses + 1 } else e)
      = c.entries.map id := by
    refine List.map_congr_left fun e he => ?_
    rw [if_neg (by simpa using habsent e he), id_eq]
  rw [List.map_id] at hentries
  unfold get
  rw [hentries]

theorem after_append (c : ContextCache γ) (ops ops' : List (CacheOp γ)) :
    c.after (ops ++ ops') = (c.after ops).after ops' :=
  List.foldl_append

/-- **What an operation does to the uses under a pair** that keeps having an entry. -/
inductive Counted (k : CrsPair) (e e' : CachedContext γ) (op : Option (CacheOp γ)) : Prop
  /-- It was found, which is a use more. -/
  | hit (h : op = some (.get k)) (he : e' = { e with uses := e.uses + 1 })
  /-- It was put anew. -/
  | replaced (h : op = some (.put k e'.context)) (he : e'.uses = 1)
  /-- Something else was asked, or nothing. -/
  | kept (h : op ≠ some (.get k)) (he : e' = e)

/-- **One operation** counts as its kind says. -/
theorem counted_apply {c : ContextCache γ} {op : CacheOp γ} {k : CrsPair} {e e' : CachedContext γ}
    (h : c.find? k = some e) (h' : (c.apply op).cache.find? k = some e') :
    Counted k e e' (some op) := by
  cases op with
  | put key context =>
    have hfound : (c.put key context).cache.find? k = some e' := h'
    rw [find?_put] at hfound
    split at hfound
    · rename_i hkey
      subst hkey
      obtain rfl := Option.some.inj hfound
      exact .replaced rfl rfl
    · split at hfound
      · cases hfound
      · exact .kept nofun (Option.some.inj (hfound.symm.trans h))
  | get key =>
    have hfound : (c.get key).2.find? k = some e' := h'
    rw [find?_get, h, Option.map_some] at hfound
    obtain rfl := Option.some.inj hfound
    by_cases hkey : k = key
    · subst hkey
      exact .hit rfl (if_pos rfl)
    · refine .kept (fun heq => ?_) (if_neg hkey)
      cases heq
      exact hkey rfl
  | remove key =>
    have hfound : (c.remove key).cache.find? k = some e' := h'
    rw [find?_remove] at hfound
    split at hfound
    · cases hfound
    · exact .kept nofun (Option.some.inj (hfound.symm.trans h))
  | clear =>
    have hfound : c.clear.cache.find? k = some e' := h'
    cases hfound

end ContextCache

/-- What the next step of a warp asks of the cache. -/
def Phase.asked : Phase α → Option (CacheOp (WarpContext α))
  | opened _ key => some (.get key)
  | created _ key context => some (.put key context)
  | _ => none

/-- The pair under which a warp has found nothing. -/
def Phase.missing? : Phase α → Option CrsPair
  | missed _ key => some key
  | created _ key _ => some key
  | _ => none

/-- A measurement asks nothing, -/
def Job.asked : Job α → Option (CacheOp (WarpContext α))
  | warp _ p => p.asked
  | measurement .. => none

/-- and misses nothing. -/
def Job.missing? : Job α → Option CrsPair
  | warp _ p => p.missing?
  | measurement .. => none

/-- What a move asks of the cache. -/
def System.askedBy (s : System ε α) : Move α → Option (CacheOp (WarpContext α))
  | .advance i => s.jobs[i]?.bind Job.asked
  | .get key => some (.get key)
  | .remove key => some (.remove key)
  | .clear => some .clear
  | _ => none

/-- **What is asked of the cache** in the course of a run. -/
def System.asked [Scalar α] [Engine ε α] (s : System ε α) :
    List (Move α) → List (CacheOp (WarpContext α))
  | [] => []
  | m :: moves => (s.askedBy m).toList ++ (s.step m).asked moves

/-! ## 2. One step -/

/-- **What a step of a warp does:** to the cache, what it asks; and if it leaves the warp without an
entry under a pair, there was none or the warp knew it. -/
structure Phase.Asks (s : Shared ε α) (p : Phase α) (s' : Shared ε α) (p' : Phase α) : Prop where
  cache_eq : s'.cache = s.cache.after p.asked.toList
  missing : ∀ k, p'.missing? = some k →
    p.missing? = some k ∨ p.asked = some (.get k) ∧ s.cache.find? k = none

namespace Phase

/-- A warp that goes on with a context, or ends, misses nothing. -/
theorem missing?_acquire (o : Opened α) (cached : Bool) (context : Outcome α (WarpContext α)) :
    (acquire o cached context).missing? = none := by
  cases context with
  | error i => cases i <;> rfl
  | ok context => rfl

/-- A step that asks nothing and misses nothing. -/
theorem Asks.quiet {s s' : Shared ε α} {p p' : Phase α} (hcache : s'.cache = s.cache)
    (hasked : p.asked = none) (hmissing : p'.missing? = none) : Asks s p s' p' where
  cache_eq := by
    rw [hasked, hcache]
    rfl
  missing := by
    intro k hk
    rw [hmissing] at hk
    cases hk

variable [Scalar α] [Engine ε α]

theorem requested_asks (s : Shared ε α) (r : Request α) (o : Opened α) :
    Asks s (requested r) (start s o).1 (start s o).2 := by
  cases hg : o.request.geolocation with
  | some options =>
    simp only [start, hg]
    exact .quiet rfl rfl (missing?_acquire ..)
  | none =>
    cases hd : o.request.destinationCrs? with
    | none =>
      simp only [start, hg, hd]
      exact .quiet rfl rfl (missing?_acquire ..)
    | some crs =>
      simp only [start, hg, hd]
      cases CrsPair.new (α := α) o.crs crs with
      | ok key => exact .quiet rfl rfl rfl
      | error f => exact .quiet rfl rfl (missing?_acquire o false (.error (.failure f)))

omit [Engine ε α] in
theorem lookUp_asks (s : Shared ε α) (o : Opened α) (key : CrsPair) :
    Asks s (opened o key) (lookUp s o key).1 (lookUp s o key).2 := by
  cases hfound : s.cache.find? key with
  | none =>
    have habsent := ContextCache.get_absent hfound
    have hlookUp : lookUp s o key = (s, missed o key) := by
      simp only [lookUp, ContextCache.get, hfound, Option.map_none]
    rw [hlookUp]
    constructor
    · exact habsent.symm
    · intro k hk
      obtain rfl : key = k := Option.some.inj hk
      exact .inr ⟨rfl, hfound⟩
  | some e =>
    have hget : (s.cache.get key).1 = some e.context := by
      simp only [ContextCache.get, hfound, Option.map_some]
    cases hcall : s.cache.get key with
    | mk found cache =>
      rw [hcall] at hget
      obtain rfl : found = some e.context := hget
      simp only [lookUp, hcall]
      constructor
      · exact (congrArg Prod.snd hcall).symm
      · intro k hk
        rw [missing?_acquire] at hk
        cases hk

theorem create_asks (s : Shared ε α) (o : Opened α) (key : CrsPair) :
    Asks s (missed o key) (create s o key).1 (create s o key).2 := by
  unfold create
  cases Engine.affineContext s.engine o.crs o.source (some key.destination)
      o.request.destination with
  | mk answer engine =>
    cases answer with
    | error i => exact .quiet rfl rfl (missing?_acquire o false (.error i))
    | ok context =>
      simp only
      split
      · exact ⟨rfl, fun k hk => .inl hk⟩
      · exact .quiet rfl rfl rfl

/-- **One step of a warp.** -/
theorem step_asks (c : Config α) (s : Shared ε α) (p : Phase α) :
    Asks s p (p.step c s).1 (p.step c s).2 := by
  cases p with
  | requested r =>
    cases hopen : openSource c s.rasters r with
    | mk opening rasters =>
      simp only [step, hopen]
      cases opening with
      | error e => exact .quiet rfl rfl rfl
      | ok o =>
        have hstart := requested_asks { s with rasters } r o
        exact ⟨hstart.cache_eq, hstart.missing⟩
  | opened o key => exact lookUp_asks s o key
  | missed o key => exact create_asks s o key
  | created o key context =>
    constructor
    · rfl
    · intro k hk
      cases hk
  | holding o context cached => exact .quiet rfl rfl rfl
  | finished result => exact .quiet rfl rfl rfl

end Phase

section Jobs

variable [Scalar α] [Engine ε α]

/-- A step of a measurement leaves the cache alone. -/
theorem ExtentPhase.cache_step (c : Config α) (s : Shared ε α) (p : ExtentPhase α) :
    (p.step c s).1.cache = s.cache := by
  cases p with
  | requested r =>
    simp only [step, start]
    split
    · rfl
    · split
      · rfl
      · split <;> rfl
  | holding r raster context => rfl
  | finished result => rfl

/-- **A step of an invocation** does to the cache what it asks. -/
theorem Job.cache_step (s : Shared ε α) (job : Job α) :
    (job.step s).1.cache = s.cache.after job.asked.toList := by
  cases job with
  | warp c p => exact (p.step_asks c s).cache_eq
  | measurement c p => exact p.cache_step c s

/-- **What an invocation misses** after a step it missed before, or looks up now in vain. -/
theorem Job.missing_step (s : Shared ε α) (job : Job α) {k : CrsPair}
    (h : (job.step s).2.missing? = some k) :
    job.missing? = some k ∨ job.asked = some (.get k) ∧ s.cache.find? k = none := by
  cases job with
  | warp c p => exact (p.step_asks c s).missing k h
  | measurement c p => cases h

omit [Scalar α] [Engine ε α] in
/-- What an invocation is about to put, it misses. -/
theorem Job.missing_of_put {job : Job α} {k : CrsPair} {x : WarpContext α}
    (h : job.asked = some (.put k x)) : job.missing? = some k := by
  cases job with
  | warp c p =>
    cases p with
    | created o key context =>
      cases h
      rfl
    | _ => cases h
  | measurement c p => cases h

end Jobs

/-! ## 3. Runs -/

namespace System

variable [Scalar α] [Engine ε α]

/-- **A move** does to the cache what it asks. -/
theorem cache_step (s : System ε α) (m : Move α) :
    (s.step m).shared.cache = s.shared.cache.after (s.askedBy m).toList := by
  cases m with
  | advance i =>
    cases hi : s.jobs[i]? with
    | none =>
      simp only [step, askedBy, hi]
      rfl
    | some job =>
      simp only [step, askedBy, hi, Option.bind_some]
      exact job.cache_step s.shared
  | _ => rfl

/-- **So does a run,** by induction on its moves. -/
theorem cache_run : ∀ (moves : List (Move α)) (s : System ε α),
    (s.run moves).shared.cache = s.shared.cache.after (s.asked moves)
  | [], _ => rfl
  | m :: moves, s => by
    have hrest := cache_run moves (s.step m)
    rw [cache_step] at hrest
    rw [asked, ContextCache.after_append, ← hrest]
    rfl

/-- **The cache of a run is explained by what was asked of it.** -/
theorem explained_run (rasters : Registry α) (engine : ε) (capacity : Nat) (log : List (Notice α))
    (moves : List (Move α)) :
    let s₀ := start rasters engine capacity log
    (s₀.run moves).shared.cache.Explained
      ((ContextCache.new capacity).history (s₀.asked moves)) := by
  intro s₀
  rw [cache_run]
  exact (ContextCache.explained_new capacity).after (s₀.asked moves)

omit [Scalar α] [Engine ε α] in
/-- A new invocation misses nothing, and the others miss what they missed. -/
theorem missing_begun {jobs : List (Job α)} {new job : Job α} (hnew : new.missing? = none)
    {i : Nat} {k : CrsPair} (hi : (jobs ++ [new])[i]? = some job) (hk : job.missing? = some k) :
    ∃ old, jobs[i]? = some old ∧ old.missing? = some k := by
  by_cases hold : i < jobs.length
  · rw [List.getElem?_append_left hold] at hi
    exact ⟨job, hi, hk⟩
  · rw [List.getElem?_append_right (Nat.le_of_not_lt hold)] at hi
    obtain rfl := List.mem_singleton.mp (List.mem_of_getElem? hi)
    rw [hnew] at hk
    cases hk

/-- **What an invocation misses after a move** it missed before, or it has looked it up in vain. -/
theorem missing_step (s : System ε α) (m : Move α) {i : Nat} {job : Job α} {k : CrsPair}
    (hi : (s.step m).jobs[i]? = some job) (hk : job.missing? = some k) :
    (∃ old, s.jobs[i]? = some old ∧ old.missing? = some k) ∨
      m = .advance i ∧ s.askedBy m = some (.get k) ∧ s.shared.cache.find? k = none := by
  cases m with
  | begin c r => exact .inl (missing_begun rfl hi hk)
  | measure c r => exact .inl (missing_begun rfl hi hk)
  | advance j =>
    cases hj : s.jobs[j]? with
    | none =>
      simp only [step, hj] at hi
      exact .inl ⟨job, hi, hk⟩
    | some old =>
      simp only [step, hj] at hi
      by_cases hij : j = i
      · subst hij
        have hlt : j < s.jobs.length := (List.getElem?_eq_some_iff.mp hj).1
        rw [List.getElem?_set_self hlt] at hi
        obtain rfl := Option.some.inj hi
        rcases old.missing_step s.shared hk with hmissing | ⟨hasked, hnone⟩
        · exact .inl ⟨old, hj, hmissing⟩
        · refine .inr ⟨rfl, ?_, hnone⟩
          rw [askedBy, hj, Option.bind_some, hasked]
      · rw [List.getElem?_set_ne hij] at hi
        exact .inl ⟨job, hi, hk⟩
  | _ => exact .inl ⟨job, hi, hk⟩

/-- **An invocation has looked a pair up in vain** at some moment of a run. -/
def LookedUp (s₀ : System ε α) (moves : List (Move α)) (i : Nat) (k : CrsPair) : Prop :=
  ∃ before after, moves = before ++ .advance i :: after ∧
    (s₀.run before).askedBy (.advance i) = some (.get k) ∧
    (s₀.run before).shared.cache.find? k = none

theorem run_concat (s : System ε α) (moves : List (Move α)) (m : Move α) :
    s.run (moves ++ [m]) = (s.run moves).step m := by
  simp only [run, List.foldl_append, List.foldl_cons, List.foldl_nil]

/-- **Whoever misses a pair has looked it up in vain,** by induction on the moves. -/
theorem lookedUp_of_missing {s₀ : System ε α} (hjobs : s₀.jobs = []) (moves : List (Move α)) :
    ∀ {i : Nat} {job : Job α} {k : CrsPair}, (s₀.run moves).jobs[i]? = some job →
      job.missing? = some k → s₀.LookedUp moves i k := by
  induction moves using List.reverseRecOn with
  | nil =>
    intro i job k hi hk
    rw [run, List.foldl_nil, hjobs] at hi
    cases hi
  | append_singleton moves m ih =>
    intro i job k hi hk
    rw [run_concat] at hi
    rcases missing_step _ m hi hk with ⟨old, hold, hmissing⟩ | ⟨rfl, hasked, hnone⟩
    · obtain ⟨before, after, rfl, hasked, hnone⟩ := ih hold hmissing
      exact ⟨before, after ++ [m], by simp, hasked, hnone⟩
    · exact ⟨moves, [], rfl, hasked, hnone⟩

end System

/-! ## 4. What a race costs -/

section Races

variable [Scalar α] [Engine ε α]

/-- **Uses are counted from the last put on.**  Take any run of invocations that share a cache, with
any operations on the cache from outside.

* The cache has an entry under a pair, used so and so often, exactly if the history says so: its
  context was put there, nothing has taken it away since, and it was used once and then once for
  every lookup.
* One move more counts a use if the pair is looked up, begins anew if a context is put under it, and
  leaves the entry as it is otherwise.
* Only an invocation puts, and one that has looked the pair up in vain. -/
theorem uses_since_last_put (rasters : Registry α) (engine : ε) (capacity : Nat)
    (log : List (Notice α)) (moves : List (Move α)) :
    let s₀ := System.start rasters engine capacity log
    let s := s₀.run moves
    (∀ k x uses, s.shared.cache.find? k = some ⟨k, x, uses⟩ ↔
        Holds ((ContextCache.new capacity).history (s₀.asked moves)) k x uses) ∧
      (∀ (m : Move α) (k : CrsPair) (e e' : CachedContext (WarpContext α)),
        s.shared.cache.find? k = some e → (s.step m).shared.cache.find? k = some e' →
          ContextCache.Counted k e e' (s.askedBy m)) ∧
      ∀ (m : Move α) (k : CrsPair) (x : WarpContext α), s.askedBy m = some (.put k x) →
        ∃ i, m = .advance i ∧ s₀.LookedUp moves i k := by
  intro s₀ s
  refine ⟨(System.explained_run rasters engine capacity log moves).found_iff, ?_, ?_⟩
  · intro m k e e' h h'
    rw [System.cache_step] at h'
    cases hasked : s.askedBy m with
    | none =>
      rw [hasked] at h'
      exact .kept nofun (Option.some.inj (h'.symm.trans h))
    | some op =>
      rw [hasked] at h'
      exact ContextCache.counted_apply h h'
  · intro m k x hput
    cases m with
    | advance i =>
      obtain ⟨job, hjob, hasked⟩ := Option.bind_eq_some_iff.mp hput
      exact ⟨i, rfl, System.lookedUp_of_missing rfl moves hjob (Job.missing_of_put hasked)⟩
    | _ => cases hput

end Races

/-- Two warps have looked for a context and found none; one has put its own, a third has found
that, and the second has had its own made. -/
def Moves.raced : List (Move ℚ) :=
  List.replicate 3 (.begin .default .rational)
    ++ [0, 1, 2, 0, 1, 0, 0, 2, 1].map .advance

/-- The put of the second warp begins anew, though the entry had been used twice. -/
theorem uses_since_last_put_raced :
    let s := System.quiet.run Moves.raced
    let k : CrsPair := ⟨"A", "B"⟩
    ∃ e e', s.shared.cache.find? k = some e ∧
      (s.step (.advance 1)).shared.cache.find? k = some e' ∧
      ContextCache.Counted k e e' (s.askedBy (.advance 1)) ∧ (e.uses, e'.uses) = (2, 1) ∧
      System.quiet.LookedUp Moves.raced 1 k := by
  intro s k
  have huses : s.shared.cache.uses? k = some 2 := by decide +kernel
  have huses' : (s.step (.advance 1)).shared.cache.uses? k = some 1 := by decide +kernel
  obtain ⟨e, he, hused⟩ := Option.map_eq_some_iff.mp huses
  obtain ⟨e', he', hused'⟩ := Option.map_eq_some_iff.mp huses'
  obtain ⟨-, hcounted, hputs⟩ := uses_since_last_put Registry.ramp
    (AffineEngine.empty.register "A" "B" .identity : AffineEngine ℚ) 4 [] Moves.raced
  have hcount := hcounted (.advance 1) k e e' he he'
  refine ⟨e, e', he, he', hcount, by rw [hused, hused'], ?_⟩
  cases hcount with
  | hit h heq =>
    rw [heq, hused] at hused'
    cases hused'
  | kept h heq =>
    rw [heq, hused] at hused'
    cases hused'
  | replaced h heq =>
    obtain ⟨i, hi, hlooked⟩ := hputs (.advance 1) k e'.context h
    cases hi
    exact hlooked

/-- Whether an event is a put under a pair. -/
def CacheEvent.puts {γ : Type} (e : CacheEvent γ) (k : CrsPair) : Bool :=
  match e.op with
  | .put k' _ => k' == k
  | _ => false

/-- Whether an event takes away an entry: another had to make room, or it was asked to. -/
def CacheEvent.takesAway {γ : Type} (e : CacheEvent γ) : Bool :=
  e.evicted.isSome ||
    match e.op with
    | .put .. => false
    | .get _ => false
    | .remove _ => true
    | .clear => true

/-- **Uses are lost where two invocations miss a pair one after the other.**  Nothing is taken away
in the run and the pair is looked up with success once since a context was first put under it, and
yet the entry, which was used twice before the last move, was used once after it. -/
theorem uses_lost_raced :
    let s := System.quiet.run Moves.raced
    let k : CrsPair := ⟨"A", "B"⟩
    let past := (ContextCache.new 4).history (System.quiet.asked (Moves.raced ++ [.advance 1]))
    past.all (!·.takesAway) = true ∧
      1 + (past.dropWhile (!·.puts k)).countP (·.asks k) = 2 ∧
      s.shared.cache.uses? k = some 2 ∧ (s.step (.advance 1)).shared.cache.uses? k = some 1 := by
  intro s k past
  exact ⟨by decide +kernel, by decide +kernel, by decide +kernel, by decide +kernel⟩

end RasterWarp
