/-
# A band asked for through a subdataset

The path of a subdataset is opened with the number of a band among its options, and the band is then
asked for as the first one.  Any other path is opened without options and asked for the band by its
number.  On the way through the options the number is written out in decimal digits behind a key,
the key is looked for without regard to case, what follows the first equals sign is read as a number
again, and the view that was opened counts its one band from 1.

* `query_of_accepts`, `query_of_not_accepts`: what the two kinds of paths are opened with.
* `exists_band_error`: a view of one band has no other.
* `subdataset_shows_band`: both ways lead to the same band at the same place in the dataset, and
  both end where the dataset does not have it.
-/
import RasterWarp.Proofs.Opening

namespace RasterWarp

variable {α : Type}

/-! ## 1. Paths of both kinds -/

namespace Request

variable (r : Request α) {rule : SubdatasetRule}

/-- A subdataset is asked for its first band. -/
theorem query_of_accepts (h : rule.accepts r.path = true) : (r.query rule).2 = 1 := by
  rw [query, if_pos h]

/-- Any other dataset is opened by its path alone, and asked for the band of the request. -/
theorem query_of_not_accepts (h : rule.accepts r.path = false) :
    r.query rule = (DatasetQuery.ofPath r.path, r.band) := by
  rw [query, if_neg (Bool.eq_false_iff.mp h)]

/-- A driver that is listed, in whatever case, is not refused. -/
theorem not_driverRefused {d : Dataset α} (h : rule.drivers = [] ∨
    ∃ driver ∈ rule.drivers, sameIgnoringCase driver d.driver = true) :
    ¬ r.DriverRefused rule d := by
  rintro ⟨-, hlist, hnone⟩
  rcases h with hempty | ⟨driver, hmem, hsame⟩
  · exact hlist hempty
  · exact Bool.false_ne_true ((hnone driver hmem).symm.trans hsame)

/-- **A dataset whose driver is not refused is opened,** at the band of the request or as a
whole. -/
theorem openView_query (hword : r.band < Numeral.wordBound) {rasters : Registry α} {d : Dataset α}
    (hd : rasters.find? r.path = some d) (hdriver : ¬ r.DriverRefused rule d) :
    (rasters.openView (r.query rule).1).1
      = .ok ⟨d, if rule.accepts r.path then some r.band else none⟩ :=
  (r.view_query rule hword hd).2 hdriver

end Request

/-! ## 2. Bands of a view -/

/-- **A view of one band has no other.** -/
theorem DatasetView.exists_band_error (d : Dataset α) (n : Nat) {index : Nat} (h : index ≠ 1) :
    ∃ f, (⟨d, some n⟩ : DatasetView α).band index = .error f := by
  have hposition : (⟨d, some n⟩ : DatasetView α).position index
      = .error (Cause.failure (.notTheQueriedBand index)) := if_neg h
  unfold band
  rw [hposition]
  exact ⟨_, rfl⟩

namespace Request

variable (r : Request α) (rule : SubdatasetRule) (hband : r.band ≠ 0) (d : Dataset α)

include hband

/-- **What the view of a request shows** is the dataset's band under the number of the request. -/
theorem selectBand_eq_ok_iff (found : Nat × Band) :
    selectBand (⟨d, if rule.accepts r.path then some r.band else none⟩ : DatasetView α)
        (r.query rule).2 = .ok found
      ↔ ∃ b, d.bands[r.band - 1]? = some b ∧ (r.band, b) = found := by
  obtain ⟨hfound, hmissing⟩ := r.selectBand_query rule hband d
  cases hb : d.bands[r.band - 1]? with
  | some b => simp [hfound b hb]
  | none =>
    obtain ⟨f, hf⟩ := hmissing hb
    simp [hf]

/-- It shows none exactly beyond the last band. -/
theorem selectBand_fails_iff :
    (∃ f, selectBand (⟨d, if rule.accepts r.path then some r.band else none⟩ : DatasetView α)
        (r.query rule).2 = .error f)
      ↔ d.bands.length < r.band := by
  obtain ⟨hfound, hmissing⟩ := r.selectBand_query rule hband d
  cases hb : d.bands[r.band - 1]? with
  | some b =>
    obtain ⟨hlt, -⟩ := List.getElem?_eq_some_iff.mp hb
    rw [hfound b hb]
    exact iff_of_false (fun ⟨f, hf⟩ => nomatch hf) (by omega)
  | none =>
    have hlast := List.getElem?_eq_none_iff.mp hb
    exact iff_of_true (hmissing hb) (by omega)

end Request

/-! ## 3. Both ways to a band -/

/-- **A subdataset shows the band that was asked for.**  Register a dataset under a path that a rule
takes for that of a subdataset, and under another that it does not, where the rule lists the
dataset's driver or none at all.  Ask for any band that a machine word can count, in either way of
reading coordinate systems.

* Opening never fails: the options say which band is asked for, under both paths there is a view.
* The band that the one view has first is the one that the other has under the number, at the same
  place in the dataset.  Where there is none, both fail, and that is beyond the dataset's last band.
* The view of the subdataset has no other band. -/
theorem subdataset_shows_band (rasters : Registry α) (rule : SubdatasetRule) (r : Request α)
    (path : String) {d : Dataset α} (haccepts : rule.accepts r.path = true)
    (hd : rasters.find? r.path = some d) (hother : rule.accepts path = false)
    (hwhole : rasters.find? path = some d)
    (hdriver : rule.drivers = [] ∨
      ∃ driver ∈ rule.drivers, sameIgnoringCase driver d.driver = true)
    (hband : 1 ≤ r.band) (hword : r.band < Numeral.wordBound) :
    let whole : Request α := { r with path }
    (r.query rule).1.onlyBand (α := α) = .ok (some r.band) ∧
      ∃ v w, (rasters.openView (r.query rule).1).1 = .ok v ∧
        (rasters.openView (whole.query rule).1).1 = .ok w ∧ (whole.query rule).2 = r.band ∧
        (∀ found, selectBand v (r.query rule).2 = .ok found ↔ selectBand w r.band = .ok found) ∧
        ((∃ f, selectBand v (r.query rule).2 = .error f) ↔ ∃ f, selectBand w r.band = .error f) ∧
        ((∃ f, selectBand w r.band = .error f) ↔ d.bands.length < r.band) ∧
        ∀ index, index ≠ (r.query rule).2 → ∃ f, v.band index = .error f := by
  intro whole
  have hasked : (r.query rule).1.onlyBand (α := α) = .ok (some r.band) := by
    rw [r.onlyBand_query rule hword, if_pos haccepts]
  have hopened := r.openView_query hword hd (r.not_driverRefused hdriver)
  have hopened' := whole.openView_query hword hwhole (whole.not_driverRefused hdriver)
  have hshown := r.selectBand_eq_ok_iff rule (Nat.ne_of_gt hband) d
  have hshown' := whole.selectBand_eq_ok_iff rule (Nat.ne_of_gt hband) d
  have hmissing := r.selectBand_fails_iff rule (Nat.ne_of_gt hband) d
  have hmissing' := whole.selectBand_fails_iff rule (Nat.ne_of_gt hband) d
  have hnumber : (whole.query rule).2 = r.band := by rw [whole.query_of_not_accepts hother]
  rw [hnumber] at hshown' hmissing'
  refine ⟨hasked, _, _, hopened, hopened', hnumber, fun found => (hshown found).trans
    (hshown' found).symm, hmissing.trans hmissing'.symm, hmissing', fun index hindex => ?_⟩
  rw [r.query_of_accepts haccepts] at hindex
  rw [if_pos haccepts]
  exact DatasetView.exists_band_error d r.band hindex

/-- A raster of two bands. -/
def Dataset.twofold : Dataset Float :=
  { Dataset.new 3 2 with
    driver := "NETCDF"
    bands := [⟨.zeros 3 2 .byte, []⟩, ⟨.zeros 3 2 .int16, []⟩] }

/-- The raster under the path of a subdataset and under another. -/
def Registry.twofold : Registry Float :=
  (Registry.empty.insert "NETCDF:ramp.nc:t" .twofold).insert "ramp" .twofold

/-- The second band of the subdataset. -/
def Request.nested : Request Float where
  path := "NETCDF:ramp.nc:t"
  sourceCrs := none
  source := none
  geolocation := none
  destinationCrs := none
  destination := .identity
  width := 3
  height := 2
  band := 2
  srsCf := true

/-- The second band through the options, by a rule that writes the driver in another case. -/
theorem subdataset_shows_band_second :
    SubdatasetRule.default.accepts Request.nested.path = true ∧
      ∃ v w b, (Registry.twofold.openView (Request.nested.query .default).1).1 = .ok v ∧
        (Registry.twofold.openView (DatasetQuery.ofPath "ramp")).1 = .ok w ∧
        selectBand v 1 = .ok (2, b) ∧ selectBand w 2 = .ok (2, b) := by
  have haccepts : SubdatasetRule.default.accepts Request.nested.path = true := by decide
  obtain ⟨-, v, w, hv, hw, -, hsame, -⟩ := subdataset_shows_band Registry.twofold .default .nested
    "ramp" haccepts rfl (by decide) rfl (.inr ⟨"netCDF", by decide, by decide⟩)
    (by decide) (by decide)
  obtain rfl : (⟨.twofold, none⟩ : DatasetView Float) = w := Except.ok.inj hw
  exact ⟨haccepts, v, _, ⟨.zeros 3 2 .int16, []⟩, hv, hw, (hsame _).mpr rfl, rfl⟩

end RasterWarp
