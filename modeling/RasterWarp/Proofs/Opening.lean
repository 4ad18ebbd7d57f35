/-
# What opening comes to

Opening the source of a request ends in one of five ways, told from the request, the settings and
what is registered: the request is refused (`openSource_refused`), no dataset is registered under
its path (`openSource_unregistered`), the driver of the dataset is not allowed
(`openSource_driverRefused`), the dataset lacks the band (`openSource_lacking`), or there is an
opened source, and it is the one of `Request.opened` (`openSource_opened`).

A subdataset is asked for its band by a number written out in an option and read back from there.
That the number survives (`Numeral.toWord?_ofList_toDigits`) is why a subdataset is opened as any
other dataset is, up to its drivers.
-/
import RasterWarp.Warp.Invocation
import Mathlib.Algebra.Order.Ring.Nat

namespace RasterWarp

/-! ## 1. Counts that are written out and read back -/

namespace Numeral

theorem digit?_digitChar : ∀ d < 10, digit? 10 d.digitChar = some d := by decide

theorem digits_append (base : Nat) : ∀ (cs cs' : List Char) (value : Nat),
    digits base value (cs ++ cs')
      = (digits base value cs).bind fun value => digits base value cs'
  | [], _, _ => rfl
  | c :: cs, cs', value => by
    simp only [List.cons_append, digits]
    cases digit? base c with
    | none => rfl
    | some d =>
      simp only
      split
      · exact digits_append base cs cs' _
      · rfl

/-- **The decimal digits of a count spell it,** by induction on the count without its last
digit. -/
theorem digits_toDigits (n : Nat) (h : n < wordBound) :
    digits 10 0 (Nat.toDigits 10 n) = .ok n := by
  induction n using Nat.strong_induction_on with
  | _ n ih =>
    by_cases hlt : n < 10
    · rw [Nat.toDigits_of_lt_base hlt]
      simp only [digits, digit?_digitChar n hlt, Nat.zero_mul, Nat.zero_add, if_pos h]
    · have hlast : n % 10 < 10 := Nat.mod_lt _ (by decide)
      have hn : n / 10 * 10 + n % 10 = n := by omega
      rw [Nat.toDigits_of_base_le (by decide) (Nat.le_of_not_lt hlt), digits_append,
        ih (n / 10) (by omega) (by omega)]
      simp only [Except.bind, digits, digit?_digitChar _ hlast, hn, if_pos h]

theorem ne_plus_of_mem_toDigits {n : Nat} {c : Char} (h : c ∈ Nat.toDigits 10 n) : c ≠ '+' := by
  rintro rfl
  exact absurd (Nat.isDigit_of_mem_toDigits (by decide) (by decide) h) (by decide)

/-- **A count that is written out is read back.** -/
theorem toWord?_ofList_toDigits {n : Nat} (h : n < wordBound) :
    toWord? (String.ofList (Nat.toDigits 10 n)) = .ok n := by
  unfold toWord?
  rw [String.toList_ofList]
  split
  · rename_i hnone
    exact absurd hnone Nat.toDigits_ne_nil
  · rename_i hplus
    exact absurd rfl (ne_plus_of_mem_toDigits (hplus ▸ List.mem_singleton_self _))
  · rename_i hplus
    exact absurd rfl (ne_plus_of_mem_toDigits (hplus ▸ List.mem_cons_self))
  · exact digits_toDigits n h

end Numeral

/-! ## 2. The band that a query asks for -/

namespace Request

variable {α : Type}

/-- The option that asks for a band, before and after its equals sign. -/
theorem keyValue?_bandQuery (n : Nat) : DatasetQuery.keyValue? s!"band_query={n}"
    = some ("band_query", String.ofList (Nat.toDigits 10 n)) := by
  have htext : s!"band_query={n}" = "band_query=" ++ n.repr := rfl
  have hlist : (s!"band_query={n}").toList = "band_query=".toList ++ Nat.toDigits 10 n := by
    rw [htext, String.toList_append, Nat.toList_repr]
  unfold DatasetQuery.keyValue?
  rw [hlist]
  rfl

/-- The first option of a subdataset's query is about something else, the second asks for the
band. -/
theorem option?_bandQuery (path : String) (drivers : List String) (n : Nat) (last : String) :
    DatasetQuery.option? ⟨path, drivers, ["md_query=no", s!"band_query={n}", last]⟩ "band_query"
      = some (String.ofList (Nat.toDigits 10 n)) := by
  have hfirst : DatasetQuery.keyValue? "md_query=no" = some ("md_query", "no") := by decide
  have hother : sameIgnoringCase "md_query" "band_query" = false := by decide
  have hsame : sameIgnoringCase "band_query" "band_query" = true := by decide
  simp only [DatasetQuery.option?, List.findSome?_cons, hfirst, hother, keyValue?_bandQuery, hsame,
    if_true, Bool.false_eq_true, if_false]

/-- **A subdataset is asked for the band of the request,** and any other dataset for none in
particular. -/
theorem onlyBand_query (r : Request α) (rule : SubdatasetRule) (h : r.band < Numeral.wordBound) :
    (r.query rule).1.onlyBand (α := α)
      = .ok (if rule.accepts r.path then some r.band else none) := by
  unfold query
  split
  · unfold DatasetQuery.onlyBand
    simp only [option?_bandQuery, Numeral.toWord?_ofList_toDigits h]
  · rfl

/-! ## 3. The four ways in which opening ends -/

/-- **A request for nothing:** no pixels, no band or no path. -/
def Refused (r : Request α) : Prop :=
  r.width = 0 ∨ r.height = 0 ∨ r.band = 0 ∨ r.path = ""

instance (r : Request α) : Decidable r.Refused := inferInstanceAs (Decidable (_ ∨ _ ∨ _ ∨ _))

theorem refusal?_eq_none (r : Request α) : r.refusal? = none ↔ ¬ r.Refused := by
  unfold refusal? Refused
  by_cases hsize : r.width = 0 ∨ r.height = 0
  · rw [if_pos hsize]
    simp only [reduceCtorEq, false_iff, not_not]
    exact hsize.elim .inl fun hheight => .inr (.inl hheight)
  · rw [if_neg hsize]
    obtain ⟨hwidth, hheight⟩ := not_or.mp hsize
    by_cases hband : r.band = 0
    · simp [hband]
    · by_cases hpath : r.path = "" <;> simp [hband, hpath, hwidth, hheight]

/-- A request that is not refused asks for a band and for pixels. -/
theorem ne_zero_of_served {r : Request α} (h : r.refusal? = none) :
    r.width ≠ 0 ∧ r.height ≠ 0 ∧ r.band ≠ 0 := by
  have hserved := r.refusal?_eq_none.mp h
  unfold Refused at hserved
  omega

/-- **A dataset that may not be opened for a request:** the path is that of a subdataset, there is
a list of drivers for those, and the dataset's driver is not on it. -/
def DriverRefused (r : Request α) (rule : SubdatasetRule) (d : Dataset α) : Prop :=
  rule.accepts r.path ∧ rule.drivers ≠ [] ∧
    ∀ driver ∈ rule.drivers, sameIgnoringCase driver d.driver = false

instance (r : Request α) (rule : SubdatasetRule) (d : Dataset α) :
    Decidable (r.DriverRefused rule d) :=
  inferInstanceAs (Decidable (_ ∧ _ ∧ _))

/-- **The source of a request,** given the dataset and its band. -/
def opened [Scalar α] (r : Request α) (c : Config α) (d : Dataset α) (b : Band) : Opened α where
  request := r
  dataset := d
  position := r.band
  band := b
  crs := r.crsIn d c.fallbackProjection
  source := (r.source <|> d.geoTransform).getD .identity

theorem query_path (r : Request α) (rule : SubdatasetRule) : (r.query rule).1.path = r.path := by
  unfold query
  split <;> rfl

/-- The check of drivers that a query asks for. -/
theorem driverRefused_iff (r : Request α) (rule : SubdatasetRule) (d : Dataset α) :
    (!(r.query rule).1.drivers.isEmpty
      && !(r.query rule).1.drivers.any (sameIgnoringCase · d.driver)) = true
      ↔ r.DriverRefused rule d := by
  unfold query DriverRefused
  split
  · rename_i haccepts
    simp [haccepts]
  · rename_i haccepts
    simp [haccepts, DatasetQuery.ofPath]

/-- **What a query finds of a dataset:** nothing if its driver is refused, else one band or all. -/
theorem view_query (r : Request α) (rule : SubdatasetRule) (h : r.band < Numeral.wordBound)
    {rasters : Registry α} {d : Dataset α} (hd : rasters.find? r.path = some d) :
    (r.DriverRefused rule d → ∃ f, rasters.view (r.query rule).1 = .error f) ∧
      (¬ r.DriverRefused rule d → rasters.view (r.query rule).1
        = .ok ⟨d, if rule.accepts r.path then some r.band else none⟩) := by
  have hcheck := r.driverRefused_iff rule d
  unfold Registry.view
  rw [r.query_path rule, hd]
  simp only
  refine ⟨fun hrefused => ⟨_, if_pos (hcheck.mpr hrefused)⟩, fun hallowed => ?_⟩
  rw [if_neg fun hrefused => hallowed (hcheck.mp hrefused), r.onlyBand_query rule h]
  rfl

/-- **The band of a request stands at its own number,** whether it is seen by itself or not. -/
theorem selectBand_query (r : Request α) (rule : SubdatasetRule) (hband : r.band ≠ 0)
    (d : Dataset α) :
    let v : DatasetView α := ⟨d, if rule.accepts r.path then some r.band else none⟩
    (∀ b, d.bands[r.band - 1]? = some b → selectBand v (r.query rule).2 = .ok (r.band, b)) ∧
      (d.bands[r.band - 1]? = none → ∃ f, selectBand v (r.query rule).2 = .error f) := by
  have hposition : (⟨d, if rule.accepts r.path then some r.band else none⟩
      : DatasetView α).position (r.query rule).2 = .ok r.band := by
    unfold query DatasetView.position
    cases rule.accepts r.path <;> rfl
  unfold selectBand DatasetView.band
  simp only [hposition, bind, Except.bind, if_neg hband]
  refine ⟨fun b hb => ?_, fun hnone => ?_⟩
  · rw [hb]
    rfl
  · rw [hnone]
    exact ⟨_, rfl⟩

end Request

section Opening

variable {α : Type} [Scalar α] (c : Config α) (rasters : Registry α) (r : Request α)

/-- **A request that is refused opens nothing.** -/
theorem openSource_refused {cause : Cause α} (h : r.refusal? = some cause) :
    ∃ f, openSource c rasters r = (.error (.failure ⟨.invalidRequest, f⟩), rasters) := by
  unfold openSource checkRequest
  rw [h]
  exact ⟨_, rfl⟩

variable {r} (hserved : r.refusal? = none)

include hserved

/-- A request that is not refused asks for its dataset. -/
theorem openSource_of_served : openSource c rasters r =
    ((do
      let view ← Outcome.stage .openFailure (Outcome.during (.opening r.path)
        (attempt (rasters.view (r.query c.subdataset).1)))
      fillIn c r view (r.query c.subdataset).2),
      { rasters with requests := rasters.requests ++ [(r.query c.subdataset).1] }) := by
  unfold openSource checkRequest
  rw [hserved]
  rfl

/-- **A dataset that is not there cannot be opened.** -/
theorem openSource_unregistered (h : rasters.find? r.path = none) :
    ∃ f, (openSource c rasters r).1 = .error (.failure ⟨.openFailure, f⟩) := by
  have hview : rasters.view (r.query c.subdataset).1
      = .error (Cause.failure (.notRegistered r.path)) := by
    unfold Registry.view
    rw [r.query_path, h]
  rw [openSource_of_served c rasters hserved, hview]
  exact ⟨_, rfl⟩

variable (hword : r.band < Numeral.wordBound) {d : Dataset α}
  (hd : rasters.find? r.path = some d)

include hword hd

/-- **Nor can one whose driver is refused.** -/
theorem openSource_driverRefused (h : r.DriverRefused c.subdataset d) :
    ∃ f, (openSource c rasters r).1 = .error (.failure ⟨.openFailure, f⟩) := by
  obtain ⟨f, hview⟩ := (r.view_query c.subdataset hword hd).1 h
  rw [openSource_of_served c rasters hserved, hview]
  exact ⟨_, rfl⟩

variable (hallowed : ¬ r.DriverRefused c.subdataset d)

include hallowed

/-- A dataset that is opened is asked for the band. -/
theorem openSource_allowed : (openSource c rasters r).1
    = fillIn c r ⟨d, if c.subdataset.accepts r.path then some r.band else none⟩
        (r.query c.subdataset).2 := by
  have hview := (r.view_query c.subdataset hword hd).2 hallowed
  rw [openSource_of_served c rasters hserved, hview]
  rfl

/-- **The band may be missing.** -/
theorem openSource_lacking (h : d.bands[r.band - 1]? = none) :
    ∃ f, (openSource c rasters r).1 = .error (.failure ⟨.bandNotFound, f⟩) := by
  obtain ⟨f, hselect⟩ := (r.selectBand_query c.subdataset (r.ne_zero_of_served hserved).2.2 d).2 h
  rw [openSource_allowed c rasters hserved hword hd hallowed]
  unfold fillIn
  rw [hselect]
  exact ⟨_, rfl⟩

/-- **Otherwise the source is opened,** with what the request left open filled in. -/
theorem openSource_opened {b : Band} (hb : d.bands[r.band - 1]? = some b) :
    (openSource c rasters r).1 = .ok (r.opened c d b) := by
  have hselect := (r.selectBand_query c.subdataset (r.ne_zero_of_served hserved).2.2 d).1 b hb
  rw [openSource_allowed c rasters hserved hword hd hallowed]
  unfold fillIn
  rw [hselect]
  rfl

omit hserved hallowed in
/-- **What was opened is the source of the request,** if its dataset and its band are known. -/
theorem opened_of_ok {b : Band} (hb : d.bands[r.band - 1]? = some b) {o : Opened α}
    (ho : (openSource c rasters r).1 = .ok o) : r.refusal? = none ∧ o = r.opened c d b := by
  cases hrefusal : r.refusal? with
  | some cause =>
    obtain ⟨f, hf⟩ := openSource_refused c rasters r hrefusal
    rw [hf] at ho
    cases ho
  | none =>
    by_cases hdriver : r.DriverRefused c.subdataset d
    · obtain ⟨f, hf⟩ := openSource_driverRefused c rasters hrefusal hword hd hdriver
      rw [hf] at ho
      cases ho
    · rw [openSource_opened c rasters hrefusal hword hd hdriver hb] at ho
      exact ⟨rfl, (Except.ok.inj ho).symm⟩

end Opening

/-! ## 4. The first step of a warp -/

namespace Phase

variable {ε α : Type} [Scalar α] [Engine ε α] (c : Config α) (s : Shared ε α)

/-- A warp that has ended takes no more steps. -/
theorem steps_finished (s : Shared ε α) (result : Staged α Output) : ∀ l : List Nat,
    l.foldl (fun (s, p) _ => step c s p) (s, finished result) = (s, finished result)
  | [] => rfl
  | _ :: l => steps_finished s result l

/-- A warp takes one step, and then four at most. -/
theorem run_requested (r : Request α) : (requested r).run c s
    = [1, 2, 3, 4].foldl (fun (s, p) _ => step c s p) (step c s (requested r)) := rfl

variable {c s}

/-- A warp that has ended with its first step stays so, -/
theorem run_of_finished {r : Request α} {s' : Shared ε α} {result : Staged α Output}
    (h : step c s (requested r) = (s', finished result)) :
    (requested r).run c s = (s', finished result) := by
  rw [run_requested, h, steps_finished]

/-- and one that has a context by then ends with the next. -/
theorem run_of_holding {r : Request α} {s' : Shared ε α} {o : Opened α} {context : WarpContext α}
    {cached : Bool} (h : step c s (requested r) = (s', holding o context cached)) :
    (requested r).run c s = finish c s' o context cached := by
  rw [run_requested, h]
  exact steps_finished c _ _ [2, 3, 4]

variable (c s)

/-- It ends with the output that its context renders. -/
theorem result_finish (o : Opened α) (context : WarpContext α) (cached : Bool) :
    (finish c s o context cached).2.result?
      = some (((render c o context).run.run []).1.map (·.output o cached)) := rfl

/-- **A warp that cannot open its source ends there.** -/
theorem run_of_error {r : Request α} {e : Interrupt (StageError α)}
    (h : (openSource c s.rasters r).1 = .error e) : (requested r).run c s
      = ({ s with rasters := (openSource c s.rasters r).2 }, finished (.error e)) := by
  cases hopen : openSource c s.rasters r with
  | mk opening rasters =>
    rw [hopen] at h
    obtain rfl : opening = .error e := h
    refine run_of_finished ?_
    simp only [step, hopen]

/-- A warp with an output has opened its source. -/
theorem exists_opened {r : Request α} {output : Output}
    (h : ((requested r).run c s).2.result? = some (.ok output)) :
    ∃ o, (openSource c s.rasters r).1 = .ok o := by
  cases ho : (openSource c s.rasters r).1 with
  | ok o => exact ⟨o, rfl⟩
  | error e =>
    rw [run_of_error c s ho] at h
    cases h

end Phase
end RasterWarp
