/-
# One step for each pair of systems

A warper that serves one request after the other asks its engine for a step between two systems only
if it finds no context under their pair.  What an invocation does to the cache and to the count of
the engine is settled when it comes to hold its context (`Obtained`): it found the context, or had
it made and put it into the cache, or had it made and left the cache alone, since the systems have
one name or none is named.  Nothing that happens to the invocation afterwards takes it back.

As long as there is room for every pair, the cache holds the pairs of the invocations so far, and
the engine has counted them (`Kept`).  So `steps_made_once` tells from the requests alone how many
steps an engine of affine maps makes, and which invocations find their context.
-/
import RasterWarp.Proofs.CacheHistory
import RasterWarp.Proofs.ContextBalance
import RasterWarp.Proofs.History
import RasterWarp.Proofs.MadeContexts
import RasterWarp.Proofs.Opening
import RasterWarp.Proofs.PointByPoint
import RasterWarp.Proofs.RenderedParts
import Mathlib.Data.Finset.Card
import Mathlib.Logic.Function.Iterate

namespace RasterWarp

variable {ε α : Type}

/-! ## 1. Invocations one after the other -/

/-- **The source of a request:** its system is that of the request, of the dataset or of the
settings. -/
def Opened.Resolves (c : Config α) (r : Request α) (o : Opened α) : Prop :=
  o.request = r ∧ o.crs = r.crsIn o.dataset c.fallbackProjection

/-- The systems that a source is taken between, if the request names a destination. -/
def Opened.pair? (o : Opened α) : Option CrsPair :=
  o.request.destinationCrs?.map fun destination => ⟨o.crs, destination⟩

/-- **The pair that a context is kept under:** none if the two systems have one name. -/
def Opened.kept? (o : Opened α) : Option CrsPair :=
  o.pair?.filter fun k => k.source ≠ k.destination

/-- **What an invocation came to:** its source, whether it found a context in the cache, and its
result. -/
structure Visit (α : Type) where
  opened : Opened α
  cached : Bool
  result? : Option (Staged α Output)

/-- The pairs of some invocations that contexts are kept under, in order. -/
def keptPairs (visits : List (Visit α)) : List CrsPair := visits.filterMap (·.opened.kept?)

section Runs

variable [Scalar α] [Engine ε α]

/-- One step of an invocation and of what it works on. -/
def Phase.advance (c : Config α) (x : Shared ε α × Phase α) : Shared ε α × Phase α :=
  x.2.step c x.1

/-- The source of an invocation that holds a context, and where it has that from. -/
def Phase.holding? : Phase α → Option (Opened α × Bool)
  | holding o _ cached => some (o, cached)
  | _ => none

/-- **The source of an invocation that comes to hold a context,** and where it has that from. -/
def Phase.acquired? (c : Config α) (s : Shared ε α) (p : Phase α) : Option (Opened α × Bool) :=
  (List.range p.rank).findSome? fun n => ((advance c)^[n] (s, p)).2.holding?

/-- **One invocation that acquires its context,** and what is shared after it. -/
def Shared.visit? (c : Config α) (s : Shared ε α) (r : Request α) :
    Option (Visit α × Shared ε α) :=
  ((Phase.requested r).acquired? c s).map fun (o, cached) =>
    let ended := (Phase.requested r).run c s
    (⟨o, cached, ended.2.result?⟩, ended.1)

/-- **Invocations one after the other,** each of which acquires its context. -/
def Shared.visits? (c : Config α) : Shared ε α → List (Request α) →
    Option (List (Visit α) × Shared ε α)
  | s, [] => some ([], s)
  | s, r :: rs => do
    let (v, s') ← s.visit? c r
    let (visits, s'') ← s'.visits? c rs
    return (v :: visits, s'')

namespace Phase

variable {c : Config α} {s : Shared ε α}

/-- All steps of an invocation, as steps of one kind. -/
theorem run_eq_iterate (p : Phase α) : p.run c s = (advance c)^[p.rank] (s, p) := by
  have hfold := List.foldl_const (advance c) (s, p) (List.range p.rank)
  rw [List.length_range] at hfold
  exact hfold

/-- **An invocation that comes to hold a context** ends by computing the output with it. -/
theorem run_of_reached {p : Phase α} {n : Nat} (hn : n < p.rank) {t : Shared ε α} {o : Opened α}
    {context : WarpContext α} {cached : Bool}
    (h : (advance c)^[n] (s, p) = (t, holding o context cached)) :
    p.run c s = finish c t o context cached := by
  obtain ⟨k, hk⟩ := Nat.exists_eq_add_of_lt hn
  -- what comes after the output is a finished invocation
  have hfixed : advance c (finish c t o context cached) = finish c t o context cached := rfl
  rw [run_eq_iterate, hk, show n + k + 1 = k + 1 + n by omega, Function.iterate_add_apply, h,
    Function.iterate_succ_apply]
  exact Function.iterate_fixed hfixed k

end Phase

/-- **An invocation that acquires its context** holds it at some time, and ends with the output that
it computes then. -/
theorem Shared.exists_of_visit? {c : Config α} {s s' : Shared ε α} {r : Request α} {v : Visit α}
    (h : s.visit? c r = some (v, s')) : ∃ n t context,
      (Phase.advance c)^[n] (s, .requested r) = (t, .holding v.opened context v.cached) ∧
        (s', v.result?) = ((Phase.finish c t v.opened context v.cached).1,
          (Phase.finish c t v.opened context v.cached).2.result?) := by
  obtain ⟨⟨o, cached⟩, hacquired, h⟩ := Option.map_eq_some_iff.mp h
  obtain ⟨rfl, rfl⟩ := Prod.mk.inj h
  obtain ⟨n, hn, hholding⟩ := List.exists_of_findSome?_eq_some hacquired
  cases hreached : (Phase.advance c)^[n] (s, Phase.requested r) with
  | mk t p =>
    rw [hreached] at hholding
    cases p with
    | holding o' context cached' =>
      obtain ⟨rfl, rfl⟩ := Prod.mk.inj (Option.some.inj hholding)
      have hrun := Phase.run_of_reached (List.mem_range.mp hn) hreached
      exact ⟨n, t, context, hreached, by rw [hrun]⟩
    | _ => cases hholding

end Runs

/-! ## 2. What an engine of affine maps counts -/

section Engines

variable [Scalar α]

/-- **A step that is answered** is none between systems of one name, and one more otherwise. -/
theorem AffineEngine.crsStep_ok {e e' : AffineEngine α} {source destination : String}
    {step : Option (Transform α)} (h : e.crsStep source destination = (.ok step, e')) :
    (source = destination ∧ step = none ∧ e'.created = e.created) ∨
      (source ≠ destination ∧ step.isSome ∧ e'.created = e.created + 1) := by
  unfold crsStep at h
  split at h
  · cases h
  · split at h
    · rename_i hsame
      cases h
      exact .inl ⟨hsame, rfl, rfl⟩
    · rename_i hdiffer
      split at h
      · cases h
        exact .inr ⟨hdiffer, rfl, rfl⟩
      · cases h

/-- **A context that is made for two systems** has a step, and one more is counted, if they
differ. -/
theorem AffineEngine.affineContext_ok {e e' : AffineEngine α} {crs destinationCrs : String}
    {source destination : GeoTransform α} {context : WarpContext α}
    (h : Engine.affineContext e crs source (some destinationCrs) destination = (.ok context, e')) :
    (crs = destinationCrs ∧ context.changesCrs = false ∧ e'.created = e.created) ∨
      (crs ≠ destinationCrs ∧ context.changesCrs = true ∧ e'.created = e.created + 1) := by
  have hcall : Engine.affineContext e crs source (some destinationCrs) destination
      = ((e.crsStep crs destinationCrs).1.bind fun step =>
          attempt (Context.affine source step destination), (e.crsStep crs destinationCrs).2) := rfl
  rw [hcall] at h
  cases hstep : e.crsStep crs destinationCrs with
  | mk answer engine =>
    rw [hstep] at h
    obtain ⟨hcontext, rfl⟩ := Prod.mk.inj h
    obtain ⟨step, rfl, hcontext⟩ := Outcome.exists_of_bind hcontext
    obtain ⟨-, -, -, -, rfl⟩ := Context.inverses_of_affine (eq_ok_of_attempt hcontext)
    rcases AffineEngine.crsStep_ok hstep with ⟨hsame, rfl, hcreated⟩ | ⟨hdiffer, hsome, hcreated⟩
    · exact .inl ⟨hsame, rfl, hcreated⟩
    · exact .inr ⟨hdiffer, hsome, hcreated⟩

theorem AffineEngine.created_releaseAll : ∀ (contexts : List (WarpContext α)) (e : AffineEngine α),
    (Engine.releaseAll e contexts).created = e.created
  | [], _ => rfl
  | context :: contexts, e => created_releaseAll contexts (Engine.release e context)

end Engines

/-! ## 3. What an invocation does until it holds a context -/

section Steps

variable [Scalar α] (base s : Shared (AffineEngine α) α)

/-- Cache and count are what they were. -/
def Unchanged : Prop := s.cache = base.cache ∧ s.engine.created = base.engine.created

/-- **How an invocation came to hold a context,** and what it did to the cache and to the count of
the engine; the last argument says whether the context was found. -/
inductive Obtained (o : Opened α) : Bool → Prop
  | found {key : CrsPair} (hkey : o.pair? = some key) (hin : base.cache.contains key = true)
      (hcache : s.cache = (base.cache.get key).2)
      (hcreated : s.engine.created = base.engine.created) : Obtained o true
  | made {key : CrsPair} {context : WarpContext α} (hkey : o.kept? = some key)
      (hout : base.cache.contains key = false)
      (hcache : s.cache = (base.cache.put key context).cache)
      (hcreated : s.engine.created = base.engine.created + 1) : Obtained o false
  | unkept (hkey : o.kept? = none) (hsame : Unchanged base s) : Obtained o false

/-- **What a request without geolocation arrays has done at each phase,** from a base on. -/
def Phase.Accounts (c : Config α) (r : Request α) : Phase α → Prop
  | requested r' => r' = r ∧ Unchanged base s
  | opened o key => o.Resolves c r ∧ o.pair? = some key ∧ Unchanged base s
  | missed o key => o.Resolves c r ∧ o.pair? = some key ∧ base.cache.contains key = false ∧
      Unchanged base s
  | created o key _ => o.Resolves c r ∧ o.kept? = some key ∧ base.cache.contains key = false ∧
      s.cache = base.cache ∧ s.engine.created = base.engine.created + 1
  | holding o _ cached => o.Resolves c r ∧ Obtained base s o cached
  | finished _ => True

namespace Phase

variable {base s} {c : Config α} {r : Request α}

omit [Scalar α] in
theorem acquire_accounts {o : Opened α} (ho : o.Resolves c r) {cached : Bool}
    {answer : Outcome α (WarpContext α)}
    (h : ∀ context, answer = .ok context → Obtained base s o cached) :
    (acquire o cached answer).Accounts base s c r := by
  cases answer with
  | error i => cases i <;> trivial
  | ok context => exact ⟨ho, h context rfl⟩

/-- What is opened is the source of the request. -/
theorem resolves_of_openSource {rasters : Registry α} {o : Opened α}
    (h : (openSource c rasters r).1 = .ok o) : o.Resolves c r := by
  cases hrefusal : r.refusal? with
  | some cause =>
    obtain ⟨f, hf⟩ := openSource_refused c rasters r hrefusal
    rw [hf] at h
    cases h
  | none =>
    rw [openSource_of_served c rasters hrefusal] at h
    cases hview : rasters.view (r.query c.subdataset).1 with
    | error f =>
      rw [hview] at h
      cases h
    | ok v =>
      rw [hview] at h
      have hfill : fillIn c r v (r.query c.subdataset).2 = .ok o := h
      unfold fillIn at hfill
      cases hband : selectBand v (r.query c.subdataset).2 with
      | error f =>
        rw [hband] at hfill
        cases hfill
      | ok selected =>
        rw [hband] at hfill
        cases hfill
        exact ⟨rfl, rfl⟩

omit [Scalar α] in
/-- A pair of two names is kept. -/
theorem kept?_of_pair? {o : Opened α} {key : CrsPair} (hkey : o.pair? = some key) :
    o.crs = key.source ∧ o.kept? = if key.source = key.destination then none else some key := by
  obtain ⟨destinationCrs, -, rfl⟩ := Option.map_eq_some_iff.mp hkey
  refine ⟨rfl, ?_⟩
  unfold Opened.kept?
  rw [hkey, Option.filter_some]
  simp only [decide_not, Bool.not_eq_true', decide_eq_false_iff_not, ite_not]

variable {o : Opened α} (ho : o.Resolves c r)

include ho

theorem start_accounts (hplain : r.geolocation = none) (h : Unchanged base s) :
    (start s o).2.Accounts base (start s o).1 c r := by
  rw [← ho.1] at hplain
  cases hd : o.request.destinationCrs? with
  | none =>
    have hpair : o.pair? = none := by
      unfold Opened.pair?
      rw [hd]
      rfl
    have hkept : o.kept? = none := by
      unfold Opened.kept?
      rw [hpair]
      rfl
    simp only [start, hplain, hd]
    exact acquire_accounts ho fun context _ => .unkept hkept h
  | some destinationCrs =>
    simp only [start, hplain, hd]
    cases hkey : CrsPair.new (α := α) o.crs destinationCrs with
    | error f => trivial
    | ok key =>
      refine ⟨ho, ?_, h⟩
      unfold Opened.pair?
      rw [hd, eq_of_crsPair hkey]
      rfl

theorem lookUp_accounts {key : CrsPair} (hkey : o.pair? = some key) (h : Unchanged base s) :
    (lookUp s o key).2.Accounts base (lookUp s o key).1 c r := by
  obtain ⟨hcache, hcreated⟩ := h
  unfold lookUp
  cases hget : s.cache.get key with
  | mk found cache =>
    have hfound : (s.cache.find? key).map (·.context) = found := congrArg Prod.fst hget
    have hcontains : base.cache.contains key = found.isSome := by
      rw [← hcache, ← hfound, Option.isSome_map]
      rfl
    cases found with
    | none => exact ⟨ho, hkey, hcontains, hcache, hcreated⟩
    | some context =>
      refine acquire_accounts ho fun _ _ => .found hkey hcontains ?_ hcreated
      rw [← hcache, hget]

theorem create_accounts {key : CrsPair} (hkey : o.pair? = some key)
    (hout : base.cache.contains key = false) (h : Unchanged base s) :
    (create s o key).2.Accounts base (create s o key).1 c r := by
  obtain ⟨hcache, hcreated⟩ := h
  obtain ⟨hcrs, hkept⟩ := kept?_of_pair? hkey
  unfold create
  cases hcall : Engine.affineContext s.engine o.crs o.source (some key.destination)
      o.request.destination with
  | mk answer engine =>
    cases answer with
    | error i =>
      simp only
      exact acquire_accounts ho fun _ hanswer => by cases hanswer
    | ok context =>
      simp only
      rcases AffineEngine.affineContext_ok hcall with
        ⟨hsame, hchanges, hengine⟩ | ⟨hdiffer, hchanges, hengine⟩
      · rw [hchanges, if_neg Bool.false_ne_true]
        rw [hcrs] at hsame
        rw [if_pos hsame] at hkept
        exact ⟨ho, .unkept hkept ⟨hcache, hengine.trans hcreated⟩⟩
      · rw [hchanges, if_pos rfl]
        rw [hcrs] at hdiffer
        rw [if_neg hdiffer] at hkept
        exact ⟨ho, hkept, hout, hcache, hengine.trans (congrArg (· + 1) hcreated)⟩

omit ho in
/-- **One step** goes on with what was done before. -/
theorem step_accounts (hplain : r.geolocation = none) {p : Phase α} (h : p.Accounts base s c r) :
    (p.step c s).2.Accounts base (p.step c s).1 c r := by
  cases p with
  | requested r' =>
    obtain ⟨rfl, hsame⟩ := h
    cases hopen : openSource c s.rasters r' with
    | mk opening rasters =>
      simp only [step, hopen]
      cases opening with
      | error i => trivial
      | ok o =>
        have ho : o.Resolves c r' := resolves_of_openSource (congrArg Prod.fst hopen)
        exact start_accounts ho hplain hsame
  | opened o key => exact lookUp_accounts h.1 h.2.1 h.2.2
  | missed o key => exact create_accounts h.1 h.2.1 h.2.2.1 h.2.2.2
  | created o key context =>
    obtain ⟨ho, hkey, hout, hcache, hcreated⟩ := h
    refine ⟨ho, .made hkey hout (congrArg (fun c => (c.put key context).cache) hcache) ?_⟩
    exact (AffineEngine.created_releaseAll _ _).trans hcreated
  | holding o context cached =>
    unfold step finish
    trivial
  | finished result => trivial

omit ho in
/-- So do any number of steps, by induction on them. -/
theorem iterate_accounts (hplain : r.geolocation = none) {p : Phase α} (h : p.Accounts base s c r)
    (n : Nat) : ((advance c)^[n] (s, p)).2.Accounts base ((advance c)^[n] (s, p)).1 c r := by
  induction n with
  | zero => exact h
  | succ n ih =>
    rw [Function.iterate_succ_apply']
    exact step_accounts hplain ih

end Phase

omit [Scalar α] in
/-- What changes neither the cache nor the count changes nothing about that. -/
theorem Obtained.congr {base s s' : Shared (AffineEngine α) α} {o : Opened α} {cached : Bool}
    (h : Obtained base s o cached) (hcache : s'.cache = s.cache)
    (hcreated : s'.engine.created = s.engine.created) : Obtained base s' o cached := by
  cases h with
  | found hkey hin hget hcount => exact .found hkey hin (hcache.trans hget) (hcreated.trans hcount)
  | made hkey hout hput hcount => exact .made hkey hout (hcache.trans hput) (hcreated.trans hcount)
  | unkept hkey hsame => exact .unkept hkey ⟨hcache.trans hsame.1, hcreated.trans hsame.2⟩

/-- **An invocation that acquires its context** did so for the source of its request, did to the
cache and to the count of the engine what its way to the context says, and reports in its output
whether it found it. -/
theorem Shared.obtained_of_visit? {c : Config α} {s s' : Shared (AffineEngine α) α} {r : Request α}
    {v : Visit α} (hplain : r.geolocation = none) (h : s.visit? c r = some (v, s')) :
    v.opened.Resolves c r ∧ Obtained s s' v.opened v.cached ∧
      ∀ output, v.result? = some (.ok output) → output.metrics.cached = v.cached := by
  obtain ⟨n, t, context, hreached, hended⟩ := Shared.exists_of_visit? h
  obtain ⟨rfl, hresult⟩ := Prod.mk.inj hended
  have hrequested : (Phase.requested r).Accounts s s c r := ⟨rfl, rfl, rfl⟩
  have haccounts := Phase.iterate_accounts hplain hrequested n
  rw [hreached] at haccounts
  obtain ⟨hresolves, hobtained⟩ := haccounts
  refine ⟨hresolves, hobtained.congr rfl rfl, fun output houtput => ?_⟩
  rw [hresult, Phase.result_finish] at houtput
  have hrendered := Option.some.inj houtput
  cases hrun : ((render c v.opened context).run.run []).1 with
  | error i =>
    rw [hrun] at hrendered
    cases hrendered
  | ok rendering =>
    rw [hrun] at hrendered
    cases hrendered
    rfl

end Steps

/-! ## 4. A cache with room for every pair -/

namespace ContextCache

variable {γ : Type} {c : ContextCache γ}

theorem contains_iff_mem_keys (k : CrsPair) :
    c.contains k = true ↔ k ∈ c.entries.map (·.key) := by
  simp only [contains, find?, List.find?_isSome, List.mem_map, beq_iff_eq]

/-- A cache has as many entries as pairs. -/
theorem length_eq_card (h : c.Distinct) : c.length = (c.entries.map (·.key)).toFinset.card := by
  rw [List.toFinset_card_of_nodup h, List.length_map]
  rfl

theorem contains_get (k k' : CrsPair) : (c.get k).2.contains k' = c.contains k' := by
  unfold contains
  rw [find?_get, Option.isSome_map]

/-- **A put where there is room** adds its pair and takes none away. -/
theorem contains_put (k k' : CrsPair) (x : γ) (hroom : c.length < c.capacity) :
    (c.put k x).cache.contains k' = true ↔ k' = k ∨ c.contains k' = true := by
  have hevicted := put_replaces hroom.le k x (.inr hroom)
  unfold contains
  rw [find?_put, hevicted]
  by_cases hkey : k' = k
  · simp [hkey]
  · simp [hkey]

end ContextCache

/-- **Cache and count after some invocations,** from an empty cache on. -/
structure Kept (s₀ : Shared (AffineEngine α) α) (past : List (Visit α))
    (s : Shared (AffineEngine α) α) : Prop where
  distinct : s.cache.Distinct
  capacity_eq : s.cache.capacity = s₀.cache.capacity
  contains_iff : ∀ k, s.cache.contains k = true ↔ k ∈ keptPairs past
  created_eq : s.engine.created = s₀.engine.created + (keptPairs past).toFinset.card

namespace Kept

variable {s₀ s s' : Shared (AffineEngine α) α} {past : List (Visit α)} {v : Visit α}

/-- Nothing is kept at first. -/
theorem nil (hempty : s₀.cache.entries = []) : Kept s₀ [] s₀ where
  distinct := by
    unfold ContextCache.Distinct
    rw [hempty]
    exact List.nodup_nil
  capacity_eq := rfl
  contains_iff k := by
    rw [ContextCache.contains_iff_mem_keys, hempty]
    rfl
  created_eq := rfl

/-- The pairs after one invocation more. -/
theorem mem_keptPairs_concat (past : List (Visit α)) (v : Visit α) (k : CrsPair) :
    k ∈ keptPairs (past ++ [v]) ↔ k ∈ keptPairs past ∨ v.opened.kept? = some k := by
  simp only [keptPairs, List.filterMap_append, List.mem_append, List.mem_filterMap,
    List.mem_singleton, exists_eq_left]

/-- Pairs that are kept are of two names. -/
theorem differ_of_mem {k : CrsPair} (h : k ∈ keptPairs past) : k.source ≠ k.destination := by
  obtain ⟨v, -, hkept⟩ := List.mem_filterMap.mp h
  have := (Option.filter_eq_some_iff.mp hkept).2
  simpa using this

/-- The cache has as many entries as there are pairs. -/
theorem length_eq (h : Kept s₀ past s) : s.cache.length = (keptPairs past).toFinset.card := by
  rw [ContextCache.length_eq_card h.distinct]
  congr 1
  ext k
  rw [List.mem_toFinset, List.mem_toFinset, ← ContextCache.contains_iff_mem_keys, h.contains_iff]

/-- What adds no pair and makes no step changes nothing. -/
theorem of_same_pairs {past' : List (Visit α)} (h : Kept s₀ past s)
    (hpairs : ∀ k, k ∈ keptPairs past' ↔ k ∈ keptPairs past) (hdistinct : s'.cache.Distinct)
    (hcapacity : s'.cache.capacity = s.cache.capacity)
    (hcontains : ∀ k, s'.cache.contains k = s.cache.contains k)
    (hcreated : s'.engine.created = s.engine.created) : Kept s₀ past' s' where
  distinct := hdistinct
  capacity_eq := hcapacity.trans h.capacity_eq
  contains_iff k := by rw [hcontains, h.contains_iff, hpairs]
  created_eq := by
    have hfinset : (keptPairs past').toFinset = (keptPairs past).toFinset := by
      ext k
      rw [List.mem_toFinset, List.mem_toFinset, hpairs]
    rw [hcreated, h.created_eq, hfinset]

/-- **What puts a new pair into the cache** makes one step for it, if there is room. -/
theorem of_new_pair {past' : List (Visit α)} (h : Kept s₀ past s) {key : CrsPair}
    {context : WarpContext α} (hpairs : ∀ k, k ∈ keptPairs past' ↔ k ∈ keptPairs past ∨ key = k)
    (hnew : key ∉ keptPairs past) (hroom : (keptPairs past').toFinset.card ≤ s₀.cache.capacity)
    (hcache : s'.cache = (s.cache.put key context).cache)
    (hcreated : s'.engine.created = s.engine.created + 1) : Kept s₀ past' s' := by
  have hfinset : (keptPairs past').toFinset = insert key (keptPairs past).toFinset := by
    ext k
    rw [List.mem_toFinset, Finset.mem_insert, List.mem_toFinset, hpairs, or_comm, eq_comm]
  have hcard : (keptPairs past').toFinset.card = (keptPairs past).toFinset.card + 1 := by
    rw [hfinset, Finset.card_insert_of_notMem (mt List.mem_toFinset.mp hnew)]
  have hfree : s.cache.length < s.cache.capacity := by
    rw [h.length_eq, h.capacity_eq]
    omega
  constructor
  · exact hcache ▸ h.distinct.put key context
  · rw [hcache, ContextCache.capacity_put, h.capacity_eq]
  · intro k
    rw [hcache, ContextCache.contains_put key k context hfree, h.contains_iff, hpairs, or_comm,
      eq_comm]
  · rw [hcard, hcreated, h.created_eq, Nat.add_assoc]

/-- **One invocation more.**  Where there is room for its pair, it finds a context just if its pair
is kept already. -/
theorem concat (h : Kept s₀ past s) (hobtained : Obtained s s' v.opened v.cached)
    (hroom : (keptPairs (past ++ [v])).toFinset.card ≤ s₀.cache.capacity) :
    Kept s₀ (past ++ [v]) s' ∧
      (v.cached = true ↔ ∃ k ∈ keptPairs past, v.opened.kept? = some k) := by
  have hpairs := mem_keptPairs_concat past v
  obtain ⟨o, cached, result⟩ := v
  simp only at hobtained hpairs ⊢
  cases hobtained with
  | @found key hkey hin hcache hcreated =>
    have hmem := (h.contains_iff key).mp hin
    have hkept : o.kept? = some key := by
      rw [(Phase.kept?_of_pair? hkey).2, if_neg (differ_of_mem hmem)]
    refine ⟨h.of_same_pairs (fun k => ?_) (hcache ▸ h.distinct.get key) ?_ (fun k => ?_) hcreated,
      fun _ => ⟨key, hmem, hkept⟩, fun _ => rfl⟩
    · -- the pair is among the earlier ones
      rw [hpairs, hkept, Option.some.injEq]
      exact ⟨fun hk => hk.elim id fun heq => heq ▸ hmem, .inl⟩
    · rw [hcache]
      rfl
    · rw [hcache, ContextCache.contains_get]
  | @made key context hkept hout hcache hcreated =>
    have hnew : key ∉ keptPairs past := by
      rw [← h.contains_iff, hout]
      exact Bool.false_ne_true
    simp only [hkept, Option.some.injEq] at hpairs ⊢
    refine ⟨h.of_new_pair hpairs hnew hroom hcache hcreated, nofun, ?_⟩
    rintro ⟨k, hk, rfl⟩
    exact absurd hk hnew
  | unkept hkept hsame =>
    obtain ⟨hcache, hcreated⟩ := hsame
    simp only [hkept, reduceCtorEq, or_false, and_false, exists_false] at hpairs ⊢
    have hsteady := h.of_same_pairs hpairs (hcache ▸ h.distinct) (by rw [hcache])
      (fun k => by rw [hcache]) hcreated
    exact ⟨hsteady, trivial⟩

end Kept

/-! ## 5. Whole runs -/

/-- A run of several invocations is one invocation and the run of the others. -/
theorem Shared.exists_of_visits?_cons [Scalar α] [Engine ε α] {c : Config α} {s s' : Shared ε α}
    {r : Request α} {rs : List (Request α)} {visits : List (Visit α)}
    (h : s.visits? c (r :: rs) = some (visits, s')) :
    ∃ v next rest, s.visit? c r = some (v, next) ∧ next.visits? c rs = some (rest, s') ∧
      visits = v :: rest := by
  obtain ⟨⟨v, next⟩, hv, h⟩ := Option.bind_eq_some_iff.mp h
  obtain ⟨⟨rest, last⟩, hrest, h⟩ := Option.bind_eq_some_iff.mp h
  cases h
  exact ⟨v, next, rest, hv, hrest, rfl⟩

/-- **A run keeps cache and count in step with its pairs,** by induction on the requests; every
invocation is about the source of its request, and finds its context just if its pair was kept
before. -/
theorem Kept.run [Scalar α] {c : Config α} {s₀ s' : Shared (AffineEngine α) α} :
    ∀ (rs : List (Request α)) {s : Shared (AffineEngine α) α} {past visits : List (Visit α)},
      (∀ r ∈ rs, r.geolocation = none) → Kept s₀ past s → s.visits? c rs = some (visits, s') →
      (keptPairs (past ++ visits)).toFinset.card ≤ s₀.cache.capacity →
        Kept s₀ (past ++ visits) s' ∧ List.Forall₂ (fun r v => v.opened.Resolves c r) rs visits ∧
          ∀ before v after, visits = before ++ v :: after →
            (v.cached = true ↔ ∃ k ∈ keptPairs (past ++ before), v.opened.kept? = some k) ∧
              ∀ output, v.result? = some (.ok output) → output.metrics.cached = v.cached
  | [], s, past, visits, _, h, hvisits, _ => by
    cases hvisits
    rw [List.append_nil]
    exact ⟨h, .nil, fun before v after hnil => by simp at hnil⟩
  | r :: rs, s, past, visits, hplain, h, hvisits, hroom => by
    obtain ⟨v, next, rest, hv, hrest, rfl⟩ := Shared.exists_of_visits?_cons hvisits
    rw [List.append_cons] at hroom ⊢
    obtain ⟨hresolves, hobtained, hreported⟩ :=
      Shared.obtained_of_visit? (hplain r List.mem_cons_self) hv
    have hsub : (keptPairs (past ++ [v])).toFinset ⊆ (keptPairs (past ++ [v] ++ rest)).toFinset := by
      intro k hk
      rw [List.mem_toFinset] at hk ⊢
      unfold keptPairs at hk ⊢
      rw [List.filterMap_append]
      exact List.mem_append_left _ hk
    obtain ⟨hnext, hcached⟩ := h.concat hobtained ((Finset.card_le_card hsub).trans hroom)
    obtain ⟨hkept, hsources, hothers⟩ :=
      Kept.run rs (fun r' hr' => hplain r' (List.mem_cons_of_mem _ hr')) hnext hrest hroom
    refine ⟨hkept, .cons hresolves hsources, fun before w after hsplit => ?_⟩
    cases before with
    | nil =>
      obtain ⟨rfl, -⟩ := List.cons.inj hsplit
      rw [List.append_nil]
      exact ⟨hcached, hreported⟩
    | cons first before =>
      obtain ⟨rfl, hrest'⟩ := List.cons.inj hsplit
      rw [List.append_cons]
      exact hothers before w after hrest'

section Moments

variable [Scalar α] {c : Config α}

/-- Steps leave what is shared in good order, by induction on their number. -/
theorem Phase.iterate_sound [Engine ε α] {e₀ : ε} (hsteady : Engine.Steady e₀) {s : Shared ε α}
    {p : Phase α} (hs : s.Sound e₀) (hp : p.Sound e₀) (n : Nat) :
    ((advance c)^[n] (s, p)).1.Sound e₀ ∧ ((advance c)^[n] (s, p)).2.Sound e₀ := by
  induction n with
  | zero => exact ⟨hs, hp⟩
  | succ n ih =>
    rw [Function.iterate_succ_apply']
    by_cases hended : ((advance c)^[n] (s, p)).2.rank = 0
    · obtain ⟨result, hresult⟩ := finished_of_rank hended
      cases hx : (advance c)^[n] (s, p) with
      | mk t q =>
        rw [hx] at ih hresult
        obtain rfl : q = finished result := hresult
        exact ih
    · have hstep := step_follows (c := c) hsteady ih.1 ih.2 hended
      exact ⟨hstep.shared, hstep.sound⟩

/-- So do invocations, by induction on the requests. -/
theorem Shared.sound_of_visits? [Engine ε α] {e₀ : ε} (hsteady : Engine.Steady e₀)
    {s' : Shared ε α} : ∀ (rs : List (Request α)) {s : Shared ε α} {visits : List (Visit α)},
      s.Sound e₀ → s.visits? c rs = some (visits, s') → s'.Sound e₀
  | [], s, _, hs, h => by
    cases h
    exact hs
  | r :: rs, s, _, hs, h => by
    obtain ⟨v, next, rest, hv, hrest, rfl⟩ := Shared.exists_of_visits?_cons h
    refine sound_of_visits? hsteady rs ?_ hrest
    obtain ⟨⟨o, cached⟩, -, hended⟩ := Option.map_eq_some_iff.mp hv
    obtain ⟨-, rfl⟩ := Prod.mk.inj hended
    rw [Phase.run_eq_iterate]
    have hrequested : (Phase.requested r).Sound e₀ := trivial
    exact (Phase.iterate_sound hsteady hs hrequested _).1

/-- **No context is kept under a pair of one name,** for which an engine of affine maps makes no
step. -/
theorem SoundCache.differ {e₀ : AffineEngine α} {cache : ContextCache (WarpContext α)}
    (h : SoundCache e₀ cache) {k : CrsPair} (hk : cache.contains k = true) :
    k.source ≠ k.destination := by
  obtain ⟨entry, hentry, rfl⟩ := List.mem_map.mp ((ContextCache.contains_iff_mem_keys k).mp hk)
  obtain ⟨t, -, hstep⟩ := (h entry hentry).step
  cases hcall : e₀.crsStep entry.key.source entry.key.destination with
  | mk answer e =>
    have hanswer : answer = .ok (some t) := (congrArg Prod.fst hcall).symm.trans hstep
    rw [hanswer] at hcall
    rcases AffineEngine.crsStep_ok hcall with ⟨-, hnone, -⟩ | ⟨hdiffer, -, -⟩
    · cases hnone
    · exact hdiffer

end Moments

/-- **An engine of affine maps makes one step for each pair of systems.**  Take requests without
geolocation arrays, served one after the other from an empty cache, each of which comes to hold its
context, whatever happens to it then.  If there is room for the pairs of two names that they are
about,

* every invocation is about the source of its request, in the system that the request, the dataset
  or the settings name;
* the engine has counted as many steps as there are such pairs;
* an invocation finds its context in the cache just if its pair is one of them and occurred before,
  and an output says so;
* the cache holds these pairs, and no other;
* and not even while another invocation is under way does it hold a pair of one name. -/
theorem steps_made_once [Scalar α] {c : Config α} {s₀ s : Shared (AffineEngine α) α}
    {rs : List (Request α)} {visits : List (Visit α)} (hempty : s₀.cache.entries = [])
    (hplain : ∀ r ∈ rs, r.geolocation = none) (hvisits : s₀.visits? c rs = some (visits, s))
    (hroom : (keptPairs visits).toFinset.card ≤ s₀.cache.capacity) :
    List.Forall₂ (fun r v => v.opened.Resolves c r) rs visits ∧
      s.engine.created = s₀.engine.created + (keptPairs visits).toFinset.card ∧
      (∀ before v after, visits = before ++ v :: after →
        (v.cached = true ↔ ∃ k ∈ keptPairs before, v.opened.kept? = some k) ∧
          ∀ output, v.result? = some (.ok output) → output.metrics.cached = v.cached) ∧
      (∀ k, s.cache.contains k = true ↔ k ∈ keptPairs visits) ∧
      ∀ r n k, ((Phase.advance c)^[n] (s, .requested r)).1.cache.contains k = true →
        k.source ≠ k.destination := by
  obtain ⟨hkept, hsources, hfound⟩ := Kept.run rs hplain (Kept.nil hempty) hvisits hroom
  have hsteady := AffineEngine.steady s₀.engine
  have hsound : s₀.Sound s₀.engine := by
    refine ⟨.start, fun entry hentry => ?_⟩
    rw [hempty] at hentry
    cases hentry
  have hended := Shared.sound_of_visits? hsteady rs hsound hvisits
  refine ⟨hsources, hkept.created_eq, hfound, hkept.contains_iff, fun r n k hk => ?_⟩
  have hrequested : (Phase.requested r).Sound s₀.engine := trivial
  exact (Phase.iterate_sound hsteady hended hrequested n).1.cache.differ hk

/-- A raster without pixels, in one of two systems. -/
def Registry.vacant : Registry ℚ :=
  Registry.empty.insert "ramp"
    { Dataset.ofBand ⟨.ofFn 0 0 .byte fun _ _ => .ofInt 0, []⟩ with projection := some "A" }

/-- It is asked for in its own system, in the other, in none, in its own as if it came from the
other, and once more in the other. -/
def Request.tour : List (Request ℚ) :=
  [{ rational with destinationCrs := some "A" }, rational, { rational with destinationCrs := none },
    { rational with sourceCrs := some "B", destinationCrs := some "A" }, rational]

/-- Five invocations are about two pairs of two names.  The last one finds its context, and says
so. -/
theorem steps_made_once_tour :
    let s₀ : Shared (AffineEngine ℚ) ℚ :=
      ⟨.vacant, AffineEngine.empty.register "A" "B" .identity, .new 2, []⟩
    s₀.cache.entries = [] ∧ (∀ r ∈ Request.tour, r.geolocation = none) ∧
      ∃ visits s, s₀.visits? .default Request.tour = some (visits, s) ∧
        (keptPairs visits).toFinset.card ≤ s₀.cache.capacity ∧
        s.engine.created = 0 + (keptPairs visits).toFinset.card ∧ s.engine.created = 2 ∧
        visits.map (·.cached) = [false, false, false, false, true] ∧
        visits.map (fun v => v.result?.bind fun r => r.toOption.map (·.metrics.cached))
          = [some false, some false, some false, some false, some true] ∧
        s.cache.contains ⟨"A", "B"⟩ = true ∧ s.cache.contains ⟨"A", "A"⟩ = false := by
  intro s₀
  have hplain : ∀ r ∈ Request.tour, r.geolocation = none := by
    intro r hr
    simp only [Request.tour, List.mem_cons, List.not_mem_nil, or_false] at hr
    rcases hr with rfl | rfl | rfl | rfl | rfl <;> rfl
  have hevaluated : (s₀.visits? .default Request.tour).map (fun x =>
      (keptPairs x.1, x.2.engine.created, x.1.map (·.cached),
        x.1.map fun v => v.result?.bind fun r => r.toOption.map (·.metrics.cached)))
        = some ([⟨"A", "B"⟩, ⟨"B", "A"⟩, ⟨"A", "B"⟩], 2, [false, false, false, false, true],
          [some false, some false, some false, some false, some true]) := by
    decide +kernel
  obtain ⟨⟨visits, s⟩, hvisits, hvalues⟩ := Option.map_eq_some_iff.mp hevaluated
  obtain ⟨hpairs, hvalues⟩ := Prod.mk.inj hvalues
  obtain ⟨hcreated, hvalues⟩ := Prod.mk.inj hvalues
  obtain ⟨hcached, hreported⟩ := Prod.mk.inj hvalues
  have hroom : (keptPairs visits).toFinset.card ≤ s₀.cache.capacity := by
    rw [hpairs]
    decide
  obtain ⟨-, hcount, -, hcontains, -⟩ := steps_made_once rfl hplain hvisits hroom
  refine ⟨rfl, hplain, visits, s, hvisits, hroom, hcount, hcreated, hcached, hreported, ?_, ?_⟩
  · rw [hcontains, hpairs]
    decide
  · rw [Bool.eq_false_iff, ne_eq, hcontains, hpairs]
    decide

end RasterWarp
