/-
# What the steps of a chain report

A context keeps one flag for each point, and up to two transforms have a say in it.  Here the calls
that a context makes are written down as they are made: a chain is a list of links, and `reports`
lists what each link answers to the points where the link before left them.  A link gets all points
in good order, whatever the flags are so far, so a flag that it leaves alone counts as success.

* A call of a context fails as a whole exactly if one of its links does, and otherwise it is
  concluded from the reports (`transform_eq_reports`): a point ends where the last link left it, and
  is flagged if every link reported success and the place is finite.
* Where each transform treats each point by itself, so does the context (`TreatsEach.transform`):
  one function of a point stands behind all its calls, and how points are put into batches does not
  matter.

`TreatsEach` asks for less than acting on each point alone: it says nothing about calls that fail,
so a transform may refuse a large batch and accept its halves.  `transform_alike_in_parts` therefore
speaks of the calls that do not fail.
-/
import RasterWarp.Proofs.PointByPoint

namespace RasterWarp

variable {α : Type}

/-! ## 1. Reports joined -/

namespace Batch

variable {n : Nat}

/-- What is reported of the points of a batch, under the flags of both. -/
def joined (b report : Batch α n) : Batch α n :=
  b.zipWith (fun before after => { after with ok := before.ok && after.ok }) report

theorem fresh_joined (b report : Batch α n) : (b.joined report).fresh = report.fresh := by
  refine Vector.ext fun i hi => ?_
  simp [fresh, joined]

/-- **Reports joined one after the other:** the last of them says where a point is, and all of them
together whether it is in good order.  By induction on the reports. -/
theorem getElem_foldl_joined (rs : List (Batch α n)) (b : Batch α n) {i : Nat} (hi : i < n) :
    (rs.foldl joined b)[i]
      = { (rs.getLast?.getD b)[i] with ok := b[i].ok && rs.all fun r => r[i].ok } := by
  induction rs generalizing b with
  | nil => simp
  | cons r rs ih =>
    rw [List.foldl_cons, ih (b.joined r), List.getLast?_cons, Option.getD_some]
    cases hlast : rs.getLast? with
    | none => simp [joined, Bool.and_assoc]
    | some last => simp [joined, Bool.and_assoc]

end Batch

/-! ## 2. Links and their reports -/

/-- **One link of a chain:** a geotransform, or a transform that is asked. -/
inductive Link (α : Type) where
  | map (g : GeoTransform α)
  | ask (t : Transform α)

namespace Link

variable [Scalar α] {n : Nat}

/-- **What a link reports of a batch:** where each point goes, under a flag of the link's own. -/
def report (l : Link α) (d : Direction) (b : Batch α n) : Outcome α (Batch α n) :=
  match l with
  | map g => .ok (g.moveBatch b.fresh)
  | ask t => t.run d b.fresh

/-- A link does not look at the flags that it is given. -/
theorem report_congr (l : Link α) (d : Direction) {b b' : Batch α n} (h : b.fresh = b'.fresh) :
    l.report d b = l.report d b' := by
  unfold report
  rw [h]

/-- One link of a chain, with its report added to the flags. -/
def take (l : Link α) (d : Direction) (b : Batch α n) : Outcome α (Batch α n) :=
  (l.report d b).map b.joined

/-- A geotransform accepts every point. -/
theorem take_map (g : GeoTransform α) (d : Direction) (b : Batch α n) :
    (map g).take d b = .ok (g.moveBatch b) := by
  refine congrArg Except.ok (Vector.ext fun i hi => ?_)
  simp [Batch.joined, Batch.fresh, GeoTransform.moveBatch]

theorem take_ask (t : Transform α) (d : Direction) (b : Batch α n) :
    (ask t).take d b = t.step d b := by
  show (t.run d b.fresh).map b.joined = t.run d b.fresh >>= fun moved => .ok (b.joined moved)
  cases t.run d b.fresh with
  | error e => rfl
  | ok r => rfl

/-- **The reports of a list of links,** each on the points where the one before left them. -/
def reports (d : Direction) : List (Link α) → Batch α n → Outcome α (List (Batch α n))
  | [], _ => .ok []
  | l :: links, b => do
    let r ← l.report d b
    return r :: (← reports d links r)

/-- The links of a list one after the other. -/
def walk (d : Direction) (links : List (Link α)) (b : Batch α n) : Outcome α (Batch α n) :=
  links.foldlM (fun b l => l.take d b) b

theorem reports_congr (d : Direction) (links : List (Link α)) {b b' : Batch α n}
    (h : b.fresh = b'.fresh) : reports d links b = reports d links b' := by
  cases links with
  | nil => rfl
  | cons l links => simp only [reports, l.report_congr d h]

/-- **A walk is concluded from its reports,** and fails as a whole where one of them does.  By
induction on the links: the flags of those before make no difference to the rest. -/
theorem walk_eq (d : Direction) (links : List (Link α)) (b : Batch α n) :
    walk d links b = (reports d links b).map fun rs => rs.foldl Batch.joined b := by
  induction links generalizing b with
  | nil => rfl
  | cons l links ih =>
    have hwalk : walk d (l :: links) b = (l.report d b).map b.joined >>= walk d links := rfl
    have hreports : reports d (l :: links) b
        = l.report d b >>= fun r => (reports d links r).map (r :: ·) := rfl
    rw [hwalk, hreports]
    cases l.report d b with
    | error e => rfl
    | ok r =>
      show walk d links (b.joined r) = ((reports d links r).map (r :: ·)).map _
      rw [ih, reports_congr d links (b.fresh_joined r)]
      cases reports d links r with
      | error e => rfl
      | ok rs => rfl

end Link

/-! ## 3. The chain of a context -/

namespace Context

variable [Scalar α] (c : WarpContext α) (d : Direction) {n : Nat} (b : Batch α n)

omit [Scalar α] in
/-- The link of the source end. -/
def sourceLink : Link α :=
  match c.source, d with
  | .affine map _, .sourceToDestination => .map map
  | .affine _ inverse, .destinationToSource => .map inverse
  | .geolocation t, _ => .ask t

omit [Scalar α] in
/-- **The links in the order of a direction.** -/
def links : Direction → List (Link α)
  | .destinationToSource =>
    .map c.destination :: (c.reprojection.toList.map .ask ++ [c.sourceLink .destinationToSource])
  | .sourceToDestination =>
    c.sourceLink .sourceToDestination
      :: (c.reprojection.toList.map .ask ++ [.map c.destinationInverse])

/-- **What each step of the chain reports of a batch,** in the order of a direction. -/
def reports : Outcome α (List (Batch α n)) := Link.reports d (c.links d) b

theorem take_sourceLink : (c.sourceLink d).take d b = c.sourceStep d b := by
  unfold sourceLink sourceStep
  cases c.source with
  | affine map inverse =>
    cases d with
    | sourceToDestination => exact Link.take_map map _ b
    | destinationToSource => exact Link.take_map inverse _ b
  | geolocation t => exact Link.take_ask t d b

theorem walk_reprojection (links : List (Link α)) :
    Link.walk d (c.reprojection.toList.map .ask ++ links) b
      = c.reprojectionStep d b >>= Link.walk d links := by
  unfold reprojectionStep
  cases c.reprojection with
  | none => rfl
  | some t =>
    have hwalk : Link.walk d (.ask t :: links) b
        = (Link.ask t).take d b >>= Link.walk d links := rfl
    rw [Link.take_ask] at hwalk
    exact hwalk

/-- **The chain takes its links one after the other.** -/
theorem chain_eq_walk : c.chain d b = Link.walk d (c.links d) b := by
  have hsingle : ∀ (l : Link α) (b : Batch α n), Link.walk d [l] b = l.take d b := by
    intro l b
    show l.take d b >>= pure = l.take d b
    exact bind_pure _
  have hcons : ∀ (l : Link α) (links : List (Link α)),
      Link.walk d (l :: links) b = l.take d b >>= Link.walk d links := fun _ _ => rfl
  cases d with
  | destinationToSource =>
    simp only [links, chain, hcons, Link.take_map, Outcome.ok_bind, walk_reprojection]
    congr 1
    funext b'
    rw [hsingle, take_sourceLink]
  | sourceToDestination =>
    simp only [links, chain, hcons, take_sourceLink]
    congr 1
    funext b'
    rw [walk_reprojection]
    congr 1
    funext b''
    rw [hsingle, Link.take_map]
    rfl

/-- What a point becomes of which the last link said where it is, and all links together whether
they accepted it. -/
def concluded (p : Point α) (accepted : Bool) : Point α :=
  { p with ok := accepted && Scalar.isFinite p.x && Scalar.isFinite p.y }

/-- **A call is concluded from the reports of its links,** and fails as a whole exactly where one of
them does. -/
theorem transform_eq_reports : c.transform d b
    = (c.reports d b).map fun rs => checkFinite (rs.foldl Batch.joined b.fresh) := by
  have htransform : c.transform d b
      = c.chain d b.fresh >>= fun ends => .ok (checkFinite ends) := rfl
  have hfresh : c.reports d b.fresh = c.reports d b :=
    Link.reports_congr d _ b.fresh_fresh
  rw [htransform, chain_eq_walk, Link.walk_eq]
  show (Except.map _ (c.reports d b.fresh)) >>= _ = _
  rw [hfresh]
  cases c.reports d b with
  | error e => rfl
  | ok rs => rfl

variable {c d b}

/-- Nor does a call look at the flags that it is given. -/
theorem transform_congr {b b' : Batch α n} (h : b.fresh = b'.fresh) :
    c.transform d b = c.transform d b' := by
  have htransform : ∀ b : Batch α n,
      c.transform d b = c.chain d b.fresh >>= fun ends => .ok (checkFinite ends) := fun _ => rfl
  rw [htransform, htransform, h]

/-- The last link of a chain reports too. -/
theorem exists_getLast_reports {rs : List (Batch α n)} (hrs : c.reports d b = .ok rs) :
    ∃ last, rs.getLast? = some last := by
  have hcons : ∀ (l : Link α) (links : List (Link α)), Link.reports d (l :: links) b ≠ .ok [] := by
    intro l links h
    obtain ⟨r, -, h⟩ := Outcome.exists_of_bind h
    obtain ⟨rest, -, h⟩ := Outcome.exists_of_bind h
    cases h
  cases rs with
  | nil => cases d <;> exact (hcons _ _ hrs).elim
  | cons r rs => exact ⟨_, List.getLast?_cons⟩

/-- What a call makes of each point that no step failed on as a whole. -/
theorem getElem_of_transform {rs : List (Batch α n)} {b' : Batch α n} (hrs : c.reports d b = .ok rs)
    (hb' : c.transform d b = .ok b') {i : Nat} (hi : i < n) :
    b'[i] = concluded (rs.getLast?.getD b)[i] (rs.all fun r => r[i].ok) := by
  rw [transform_eq_reports, hrs] at hb'
  obtain rfl := Except.ok.inj hb'
  simp only [checkFinite, Vector.getElem_map, Batch.getElem_foldl_joined _ _ hi, concluded]
  cases hlast : rs.getLast? with
  | none => simp [Batch.fresh]
  | some r => simp [Batch.fresh]

end Context

/-! ## 4. One function of a point -/

/-- **What treats each point by itself:** one function of a point, its flag included, stands behind
all calls that do not fail. -/
def TreatsEach (run : {n : Nat} → Batch α n → Outcome α (Batch α n)) : Prop :=
  ∃ f : Point α → Point α, ∀ {n : Nat} {b b' : Batch α n}, run b = .ok b' → b' = b.map f

namespace TreatsEach

theorem of_map (f : Point α → Point α) : TreatsEach fun {n} (b : Batch α n) => .ok (b.map f) :=
  ⟨f, fun h => (Except.ok.inj h).symm⟩

/-- One after the other treat each point by itself if both do. -/
theorem bind {first second : {n : Nat} → Batch α n → Outcome α (Batch α n)}
    (hf : TreatsEach first) (hs : TreatsEach second) :
    TreatsEach fun {n} (b : Batch α n) => first b >>= second := by
  obtain ⟨f, hf⟩ := hf
  obtain ⟨g, hg⟩ := hs
  refine ⟨fun p => g (f p), fun h => ?_⟩
  obtain ⟨mid, hmid, h⟩ := Outcome.exists_of_bind h
  obtain rfl := hf hmid
  rw [hg h, Vector.map_map]
  rfl

end TreatsEach

/-- **A transform that treats each point by itself,** in both directions. -/
def BatchTransform.TreatsEach (t : Transform α) : Prop :=
  ∀ d, RasterWarp.TreatsEach fun {n} (b : Batch α n) => t.run d b

namespace Context

/-- **A context whose transforms treat each point by itself.** -/
structure TreatsEach (c : WarpContext α) : Prop where
  source : ∀ t, c.source = .geolocation t → t.TreatsEach
  reprojection : ∀ t, c.reprojection = some t → t.TreatsEach

end Context

variable [Scalar α]

namespace Link

/-- A link treats each point by itself if it does not ask a transform that does not. -/
theorem treatsEach {l : Link α} (h : ∀ t, l = .ask t → t.TreatsEach) (d : Direction) :
    TreatsEach fun {n} (b : Batch α n) => l.take d b := by
  have hreport : TreatsEach fun {n} (b : Batch α n) => l.report d b := by
    cases l with
    | map g =>
      obtain ⟨f, hf⟩ : ∃ f : Point α → Point α, ∀ {n} (b : Batch α n), g.moveBatch b = b.map f :=
        ⟨_, fun _ => rfl⟩
      refine ⟨fun p => f { p with ok := true }, fun hb => ?_⟩
      obtain rfl := Except.ok.inj hb
      simp [hf, Batch.fresh]
    | ask t =>
      obtain ⟨f, hf⟩ := h t rfl d
      refine ⟨fun p => f { p with ok := true }, fun hb => ?_⟩
      rw [hf hb]
      simp [Batch.fresh]
  obtain ⟨f, hf⟩ := hreport
  refine ⟨fun p => { f p with ok := p.ok && (f p).ok }, fun {n b b'} hb => ?_⟩
  have hb : (l.report d b).map b.joined = .ok b' := hb
  cases hr : l.report d b with
  | error e =>
    rw [hr] at hb
    cases hb
  | ok r =>
    rw [hr] at hb
    obtain rfl := Except.ok.inj hb
    obtain rfl := hf hr
    refine Vector.ext fun i hi => ?_
    simp [Batch.joined]

/-- So does a list of links.  By induction on the list. -/
theorem treatsEach_walk {links : List (Link α)} (h : ∀ t, .ask t ∈ links → t.TreatsEach)
    (d : Direction) : TreatsEach fun {n} (b : Batch α n) => walk d links b := by
  induction links with
  | nil => exact ⟨id, fun hb => by rw [Vector.map_id]; exact (Except.ok.inj hb).symm⟩
  | cons l links ih =>
    have hl : TreatsEach fun {n} (b : Batch α n) => l.take d b :=
      treatsEach (fun t ht => h t (ht ▸ List.mem_cons_self)) d
    exact hl.bind (ih fun t ht => h t (List.mem_cons_of_mem l ht))

end Link

namespace Context

variable {c : WarpContext α}

omit [Scalar α] in
/-- The transforms that a chain asks are those of the context. -/
theorem TreatsEach.of_mem_links (hc : c.TreatsEach) {d : Direction} {t : Transform α}
    (ht : .ask t ∈ c.links d) : t.TreatsEach := by
  have hsource : .ask t = c.sourceLink d → t.TreatsEach := by
    intro h
    unfold sourceLink at h
    cases hs : c.source with
    | affine map inverse => cases d <;> simp [hs] at h
    | geolocation t' =>
      simp only [hs, Link.ask.injEq] at h
      exact h ▸ hc.source t' hs
  have hstep : .ask t ∈ c.reprojection.toList.map Link.ask → t.TreatsEach := by
    intro h
    obtain ⟨t', ht', heq⟩ := List.mem_map.mp h
    obtain rfl := Link.ask.inj heq
    exact hc.reprojection t' (Option.mem_toList.mp ht')
  cases d with
  | destinationToSource =>
    simp only [links, List.mem_cons, reduceCtorEq, false_or, List.mem_append, List.not_mem_nil,
      or_false] at ht
    exact ht.elim hstep hsource
  | sourceToDestination =>
    simp only [links, List.mem_cons, reduceCtorEq, List.mem_append, List.not_mem_nil,
      or_false] at ht
    exact ht.elim hsource hstep

/-- **The whole chain treats each point by itself.** -/
theorem TreatsEach.transform (hc : c.TreatsEach) (d : Direction) :
    RasterWarp.TreatsEach fun {n} (b : Batch α n) => c.transform d b := by
  have hfresh := TreatsEach.of_map fun p : Point α => { p with ok := true }
  have hcheck := TreatsEach.of_map fun p : Point α =>
    { p with ok := p.ok && Scalar.isFinite p.x && Scalar.isFinite p.y }
  have hlinks : ∀ t, .ask t ∈ c.links d → t.TreatsEach := fun t ht => hc.of_mem_links ht
  have hwalk := Link.treatsEach_walk hlinks d
  obtain ⟨f, hf⟩ := hfresh.bind (hwalk.bind hcheck)
  refine ⟨f, fun {n b b'} hb => hf ?_⟩
  rw [← hb]
  show (Link.walk d (c.links d) b.fresh >>= _) = c.chain d b.fresh >>= _
  rw [chain_eq_walk]
  rfl

/-- **A batch taken in parts,** one call for each, and what they answer put together. -/
def transformParts (c : WarpContext α) (d : Direction) (parts : List (Σ n, Batch α n)) :
    Outcome α (List (Point α)) := do
  let moved ← parts.mapM fun part => do return (← c.transform d part.2).toList
  return moved.flatten

/-- A call on which no step fails as a whole. -/
def Completes (c : WarpContext α) (d : Direction) {n : Nat} (b : Batch α n) : Prop :=
  ∃ rs, c.reports d b = .ok rs

/-- Such a call has an answer. -/
theorem Completes.transform {d : Direction} {n : Nat} {b : Batch α n} (h : c.Completes d b) :
    ∃ b', c.transform d b = .ok b' := by
  obtain ⟨rs, hrs⟩ := h
  rw [transform_eq_reports, hrs]
  exact ⟨_, rfl⟩

/-- **Parts are moved as one function of a point says.**  By induction on the parts. -/
theorem transformParts_eq {d : Direction} {f : Point α → Point α}
    (hf : ∀ {n : Nat} {b b' : Batch α n}, c.transform d b = .ok b' → b' = b.map f)
    {parts : List (Σ n, Batch α n)} (h : ∀ part ∈ parts, c.Completes d part.2) :
    c.transformParts d parts = .ok ((parts.flatMap fun part => part.2.toList).map f) := by
  have hmoved : (parts.mapM fun part => do return (← c.transform d part.2).toList)
      = (.ok (parts.map fun part => part.2.toList.map f) : Outcome α (List (List (Point α)))) := by
    induction parts with
    | nil => rfl
    | cons part parts ih =>
      obtain ⟨b', hb'⟩ := (h part List.mem_cons_self).transform
      rw [List.mapM_cons, ih fun p hp => h p (List.mem_cons_of_mem part hp), hb']
      obtain rfl := hf hb'
      show Except.ok ((part.2.map f).toList :: _) = _
      rw [Vector.toList_map]
      rfl
  unfold transformParts
  rw [hmoved, List.map_flatMap]
  rfl

end Context

/-! ## 5. Batches do not matter -/

/-- **A point succeeds only if every step succeeds for it, and batches are irrelevant.**  Take a
context whose transforms treat each point by itself, in either direction, and a batch with any flags
on which no step of the chain fails as a whole.

* The call has an answer, and each point gets there what it gets in a batch of its own, with
  whatever flag it is handed over: the place where the last step left it, under a flag.
* The flag says that every step reported success for it and that both coordinates are finite.  A
  failure that one step reports is never made good by another.
* A division of the batch into parts has the same answer, put together. -/
theorem transform_alike_in_parts {c : WarpContext α} (hc : c.TreatsEach) (d : Direction) {n : Nat}
    {b : Batch α n} {rs : List (Batch α n)} (hrs : c.reports d b = .ok rs) :
    ∃ b', c.transform d b = .ok b' ∧
      (∀ i (_ : i < n),
        (∀ ok, c.Completes d #v[{ b[i] with ok }] →
          c.transform d #v[{ b[i] with ok }] = .ok #v[b'[i]]) ∧
        (∃ last ∈ rs.getLast?, b'[i].x = last[i].x ∧ b'[i].y = last[i].y ∧ b'[i].z = last[i].z) ∧
        (b'[i].ok = true ↔ (∀ r ∈ rs, r[i].ok = true) ∧ Scalar.isFinite b'[i].x = true ∧
          Scalar.isFinite b'[i].y = true) ∧
        ∀ r ∈ rs, r[i].ok = false → b'[i].ok = false) ∧
      ∀ parts : List (Σ k, Batch α k), (parts.flatMap fun part => part.2.toList) = b.toList →
        (∀ part ∈ parts, c.Completes d part.2) → c.transformParts d parts = .ok b'.toList := by
  obtain ⟨f, hf⟩ := hc.transform d
  obtain ⟨b', hb'⟩ := Context.Completes.transform ⟨rs, hrs⟩
  refine ⟨b', hb', fun i hi => ?_, fun parts hparts hcomplete => ?_⟩
  · obtain ⟨last, hlast⟩ := Context.exists_getLast_reports hrs
    have hpoint := Context.getElem_of_transform hrs hb' hi
    rw [hlast, Option.getD_some] at hpoint
    refine ⟨fun ok hcomplete => ?_, ⟨last, hlast, ?_⟩, ?_, fun r hr hfailed => ?_⟩
    · obtain ⟨single, hsingle⟩ := hcomplete.transform
      have hflag : c.transform d #v[{ b[i] with ok }] = c.transform d #v[b[i]] :=
        Context.transform_congr (by simp [Batch.fresh])
      rw [hflag] at hsingle ⊢
      obtain rfl := hf hsingle
      obtain rfl := hf hb'
      rw [hsingle, Batch.map_single, Vector.getElem_map]
    · rw [hpoint]
      exact ⟨rfl, rfl, rfl⟩
    · rw [hpoint]
      simp [Context.concluded, and_assoc]
    · rw [hpoint, Bool.eq_false_iff]
      intro hok
      simp only [Context.concluded, Bool.and_eq_true, List.all_eq_true] at hok
      rw [hok.1.1 r hr] at hfailed
      cases hfailed
  · obtain rfl := hf hb'
    rw [Context.transformParts_eq hf hcomplete, hparts, Vector.toList_map]

/-- **Two steps over doubles:** the first accepts places up to ten and leaves all where they are;
the second takes the inverse of `x` and leaves the flags alone. -/
def Context.inverting : WarpContext Float where
  source := .geolocation ⟨fun _ _ b => .ok (b.map fun p => { p with x := 1 / p.x })⟩
  reprojection := some (CrsMap.identity.validOn ⟨0, 0, 10, 10⟩).toBatchTransform
  destination := .identity
  destinationInverse := .identity

theorem Context.treatsEach_inverting : Context.inverting.TreatsEach where
  source := by
    intro t h d
    obtain rfl := Georeference.geolocation.inj h
    exact .of_map _
  reprojection := by
    intro t h d
    obtain rfl := Option.some.inj h
    exact .of_map _

/-- The first of three points succeeds, the second ends at no finite place, and the third is refused
by the first step and left alone by the second.  They fare the same in two parts. -/
theorem transform_alike_in_parts_inverting :
    let c := Context.inverting
    let b : Batch Float 3 := #v[⟨4, 5, 0, false⟩, ⟨0, 5, 0, true⟩, ⟨20, 5, 0, true⟩]
    let parts : List (Σ k, Batch Float k) :=
      [⟨2, #v[⟨4, 5, 0, false⟩, ⟨0, 5, 0, true⟩]⟩, ⟨1, #v[⟨20, 5, 0, true⟩]⟩]
    c.TreatsEach ∧ c.Completes .destinationToSource b ∧
      ∃ b', c.transform .destinationToSource b = .ok b' ∧
        c.transform .destinationToSource #v[⟨20, 5, 0, true⟩] = .ok #v[b'[2]] ∧
        c.transformParts .destinationToSource parts = .ok b'.toList ∧
        b'.toList.map (·.ok) = [true, false, false] := by
  intro c b parts
  obtain ⟨rs, hrs⟩ : c.Completes .destinationToSource b := ⟨_, rfl⟩
  obtain ⟨b', hb', hpoints, hparts⟩ :=
    transform_alike_in_parts Context.treatsEach_inverting .destinationToSource hrs
  have hflags : (c.transform .destinationToSource b).toOption.map (fun b' => b'.toList.map (·.ok))
      = some [true, false, false] := by
    decide +kernel
  rw [hb'] at hflags
  refine ⟨Context.treatsEach_inverting, ⟨rs, hrs⟩, b', hb', (hpoints 2 (by decide)).1 true ⟨_, rfl⟩,
    hparts parts rfl ?_, Option.some.inj hflags⟩
  intro part hpart
  rcases List.mem_cons.mp hpart with rfl | hpart
  · exact ⟨_, rfl⟩
  · obtain rfl := List.mem_singleton.mp hpart
    exact ⟨_, rfl⟩

end RasterWarp
