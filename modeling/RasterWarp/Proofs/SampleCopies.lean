/-
# Copies of samples in place, all or nothing

`copySamples` answers with a new buffer.  Here samples are copied into a buffer that somebody else
owns: after a check up front, either all their bytes at once, where both types are the same, or one
sample after the other, each read by its number in the one buffer and written under the same number
in the other.  A read or a write that goes out of range would leave what was written before it.

* The loop has one closed form: after `i` samples the destination begins with the first `i` of them
  as `convertSamples` gives them, and the rest of it is as before (`apply_copyByValue`).
* So the check up front decides alone, and the copy in place is `copySamples`
  (`apply_copyInPlace_of_refused`, `apply_copyInPlace`).
* `copy_all_or_nothing` says what that comes to, sample by sample: each is what a copy of that
  sample alone would give, and nothing else is written.
-/
import RasterWarp.Proofs.AtomicScatter

namespace RasterWarp

variable {α : Type}

/-! ## 1. Beginnings of buffers -/

namespace Bytes

/-- What was written is carried on where it ends. -/
theorem overwrite_append (b p q : Bytes) :
    (b.overwrite 0 p).overwrite p.size q = b.overwrite 0 (p ++ q) := by
  refine Array.ext_getElem? fun i => ?_
  simp only [getElem?_overwrite, size_overwrite, Array.size_append, Nat.zero_le, true_and,
    Nat.zero_add, Nat.sub_zero]
  by_cases hq : p.size ≤ i ∧ i < p.size + q.size ∧ i < b.size
  · rw [if_pos hq, if_pos ⟨hq.2.1, hq.2.2⟩, Array.getElem?_append_right hq.1]
  · rw [if_neg hq]
    by_cases hp : i < p.size ∧ i < b.size
    · rw [if_pos hp, if_pos (by omega), Array.getElem?_append_left hp.1]
    · rw [if_neg hp, if_neg (by omega)]

/-- A buffer that was written to from its start is what was written and the rest of it. -/
theorem overwrite_zero {b p : Bytes} (h : p.size ≤ b.size) :
    b.overwrite 0 p = p ++ b.extract p.size b.size := by
  refine Array.ext_getElem? fun i => ?_
  simp only [getElem?_overwrite, Nat.zero_le, true_and, Nat.zero_add, Nat.sub_zero]
  by_cases hp : i < p.size
  · rw [if_pos ⟨hp, by omega⟩, Array.getElem?_append_left hp]
  · rw [if_neg (by omega), Array.getElem?_append_right (by omega), Array.getElem?_extract]
    by_cases hb : i < b.size
    · rw [if_pos (by omega), Nat.add_sub_cancel' (by omega)]
    · rw [if_neg (by omega), Array.getElem?_eq_none (by omega)]

theorem concat_succ (n : Nat) (f : Nat → Bytes) : concat (n + 1) f = concat n f ++ f n := by
  simp only [concat, List.range_succ, List.foldl_append, List.foldl_cons, List.foldl_nil]

end Bytes

namespace SampleType

/-- Sample `i` is the value of piece `i`. -/
theorem get?_eq (t : SampleType) (b : Bytes) (i : Nat) :
    t.get? b i = (b.piece? t.size i).map t.decode := rfl

/-- Whole samples held are whole samples that fit. -/
theorem div_size_lt_iff {t : SampleType} (h : t ≠ .unknown) (size count : Nat) :
    size / t.size < count ↔ size < count * t.size :=
  Nat.div_lt_iff_lt_mul (size_pos h)

end SampleType

/-! ## 2. The copy in place -/

/-- What keeps samples from being copied, in the order in which it is looked for. -/
def copyRefusal? (source : Bytes) (sourceType : SampleType) (destination : Bytes)
    (destinationType : SampleType) (count : Nat) : Option (Interrupt (Failure α)) :=
  if sourceType = .unknown ∨ destinationType = .unknown then
    some (.failure (Cause.failure .unknownSamples))
  else if source.size < count * sourceType.size then
    some ((Cause.shortSource source.size count sourceType).refusing (count * sourceType.size))
  else if destination.size < count * destinationType.size then
    some ((Cause.shortDestination destination.size count destinationType).refusing
      (count * destinationType.size))
  else none

/-- Copies the first bytes of a buffer as they are. -/
def copyByBytes (source : Bytes) (size : Nat) : InPlace Bytes α Unit := do
  let run ← inRange (α := α) (source.slice? 0 size)
  let destination ← get
  set (← inRange (α := α) (destination.splice? 0 run))

/-- Copies one sample by its value, under its number. -/
def copyValueAt (source : Bytes) (sourceType destinationType : SampleType) (i : Nat) :
    InPlace Bytes α Unit := do
  let value ← inRange (α := α) (sourceType.get? source i)
  let destination ← get
  set (← inRange (α := α) (destinationType.set? destination i value))

/-- Copies samples by their values, one after the other. -/
def copyByValue (source : Bytes) (sourceType destinationType : SampleType) (count : Nat) :
    InPlace Bytes α Unit :=
  forM (List.range count) (copyValueAt source sourceType destinationType)

/-- **Copies samples in place,** after the check of what can be seen up front. -/
def copyInPlace (source : Bytes) (sourceType destinationType : SampleType) (count : Nat) :
    InPlace Bytes α Unit := do
  let destination ← get
  match copyRefusal? (α := α) source sourceType destination destinationType count with
  | some e => throw e
  | none =>
    if sourceType = destinationType then copyByBytes source (count * sourceType.size)
    else copyByValue source sourceType destinationType count

section Copy

variable {source destination : Bytes} {A B : SampleType} {count : Nat}

/-- **What a copy is refused for.** -/
theorem copyRefusal?_eq_none_iff :
    copyRefusal? (α := α) source A destination B count = none
      ↔ ¬(A = .unknown ∨ B = .unknown ∨ source.size / A.size < count
          ∨ destination.size / B.size < count) := by
  unfold copyRefusal?
  by_cases hknown : A = .unknown ∨ B = .unknown
  · rw [if_pos hknown]
    simp only [reduceCtorEq, false_iff, not_not]
    exact hknown.elim .inl fun h => .inr (.inl h)
  · rw [if_neg hknown]
    obtain ⟨hA, hB⟩ := not_or.mp hknown
    rw [SampleType.div_size_lt_iff hA, SampleType.div_size_lt_iff hB]
    simp only [hA, hB, false_or]
    split
    · rename_i h
      simp [h]
    · rename_i h
      split
      · rename_i h'
        simp [h']
      · rename_i h'
        simp [h, h']

/-- Known types and buffers that are large enough are all that a copy asks for. -/
theorem copyRefusal?_eq_none_iff_fits :
    copyRefusal? (α := α) source A destination B count = none
      ↔ A ≠ .unknown ∧ B ≠ .unknown ∧ count * A.size ≤ source.size
          ∧ count * B.size ≤ destination.size := by
  simp only [copyRefusal?_eq_none_iff, not_or]
  refine and_congr_right fun hA => and_congr_right fun hB => ?_
  rw [SampleType.div_size_lt_iff hA, SampleType.div_size_lt_iff hB, Nat.not_lt, Nat.not_lt]

/-- The function is refused for the same. -/
theorem copySamples_of_refused {e : Interrupt (Failure α)}
    (h : copyRefusal? source A destination B count = some e) :
    copySamples source A destination B count = .error e := by
  unfold copyRefusal? at h
  unfold copySamples
  split at h
  · rename_i hknown
    obtain rfl := Option.some.inj h
    rw [if_pos hknown]
    rfl
  · rename_i hknown
    rw [if_neg hknown]
    split at h
    · rename_i hshort
      obtain rfl := Option.some.inj h
      rw [if_pos hshort]
    · rename_i hshort
      rw [if_neg hshort]
      split at h
      · rename_i hroom
        obtain rfl := Option.some.inj h
        rw [if_pos hroom]
      · cases h

/-- **What is refused is refused before anything is written.** -/
theorem apply_copyInPlace_of_refused {e : Interrupt (Failure α)}
    (h : copyRefusal? source A destination B count = some e) :
    (copyInPlace source A B count).apply destination = (.error e, destination) := by
  simp [copyInPlace, h]

/-- What is copied, where nothing is refused. -/
def copiedSamples (source : Bytes) (A B : SampleType) (count : Nat) : Bytes :=
  if A = B then source.extract 0 (count * A.size) else convertSamples A B source count

theorem size_convertSamples (source : Bytes) (A B : SampleType) (count : Nat) :
    (convertSamples A B source count).size = count * B.size :=
  Bytes.size_concat fun _ => SampleType.size_encode ..

variable (hsource : count * A.size ≤ source.size) (hroom : count * B.size ≤ destination.size)

include hsource

theorem size_copiedSamples : (copiedSamples source A B count).size = count * B.size := by
  unfold copiedSamples
  split
  · rename_i heq
    rw [Array.size_extract, ← heq]
    omega
  · exact size_convertSamples ..

include hroom

/-- One turn of the loop. -/
theorem apply_copyValueAt {i : Nat} (hi : i < count) :
    (copyValueAt (α := α) source A B i).apply
        (destination.overwrite 0 (convertSamples A B source i))
      = (.ok (), destination.overwrite 0 (convertSamples A B source (i + 1))) := by
  have hread : A.get? source i
      = some (A.decode (source.extract (i * A.size) (i * A.size + A.size))) := by
    have hend := end_le_start hi A.size
    rw [SampleType.get?, Bytes.slice?_eq_some _ (by omega), Option.map_some]
  have hwrite : ∀ v, B.set? (destination.overwrite 0 (convertSamples A B source i)) i v
      = some (destination.overwrite 0 (convertSamples A B source i ++ B.encode v)) := by
    intro v
    have hend := end_le_start hi B.size
    have hsize := size_convertSamples source A B i
    have hcarried := destination.overwrite_append (convertSamples A B source i) (B.encode v)
    rw [hsize] at hcarried
    rw [SampleType.set?, Bytes.splice?, SampleType.size_encode, Bytes.size_overwrite,
      if_pos (by omega), hcarried]
  have hsucc : convertSamples A B source (i + 1) = convertSamples A B source i
      ++ B.encode (A.decode (source.extract (i * A.size) (i * A.size + A.size))) :=
    Bytes.concat_succ ..
  simp [copyValueAt, hread, hwrite, hsucc]

/-- **The loop over the samples** completes, and writes what the function gives. -/
theorem apply_copyByValue : (copyByValue (α := α) source A B count).apply destination
    = (.ok (), destination.overwrite 0 (convertSamples A B source count)) := by
  have hnone : destination = destination.overwrite 0 (convertSamples A B source 0) := rfl
  obtain ⟨written, hrun, rfl⟩ := InPlace.loop_range (copyValueAt (α := α) source A B)
    (fun i written => written = destination.overwrite 0 (convertSamples A B source i)) count
    (fun i hi written hwritten => ⟨_, hwritten ▸ apply_copyValueAt hsource hroom hi, rfl⟩) hnone
  exact hrun

/-- **A copy that is not refused** completes. -/
theorem apply_copyInPlace (h : copyRefusal? (α := α) source A destination B count = none) :
    (copyInPlace (α := α) source A B count).apply destination
      = (.ok (), destination.overwrite 0 (copiedSamples source A B count)) := by
  have hstart : (copyInPlace (α := α) source A B count).apply destination
      = (if A = B then copyByBytes (α := α) source (count * A.size)
          else copyByValue source A B count).apply destination := by
    simp [copyInPlace, h]
  rw [hstart, copiedSamples]
  by_cases heq : A = B
  · have hslice : source.slice? 0 (count * A.size) = some (source.extract 0 (count * A.size)) := by
      rw [Bytes.slice?_eq_some _ (by omega), Nat.zero_add]
    have hsplice : destination.splice? 0 (source.extract 0 (count * A.size))
        = some (destination.overwrite 0 (source.extract 0 (count * A.size))) := by
      subst heq
      rw [Bytes.splice?, Array.size_extract, if_pos (by omega)]
    rw [if_pos heq, if_pos heq]
    simp [copyByBytes, hslice, hsplice]
  · rw [if_neg heq, if_neg heq, apply_copyByValue hsource hroom]

/-- It gives what the function gives. -/
theorem copySamples_eq (h : copyRefusal? (α := α) source A destination B count = none) :
    copySamples source A destination B count
      = (.ok (destination.overwrite 0 (copiedSamples source A B count)) : Outcome α Bytes) := by
  have hsize := size_copiedSamples (B := B) hsource
  have hwhole := Bytes.overwrite_zero (b := destination) (p := copiedSamples source A B count)
    (by omega)
  rw [hsize] at hwhole
  obtain ⟨hA, hB, -⟩ := copyRefusal?_eq_none_iff_fits.mp h
  have hknown : ¬(A = .unknown ∨ B = .unknown) := not_or.mpr ⟨hA, hB⟩
  unfold copySamples
  rw [if_neg hknown, if_neg (Nat.not_lt.mpr hsource), if_neg (Nat.not_lt.mpr hroom), hwhole]
  rfl

/-- **Each sample of a copy** is the sample of the source, converted by itself. -/
theorem piece?_copied {i : Nat} (hi : i < count) {sample : Bytes}
    (hsample : source.piece? A.size i = some sample) :
    (destination.overwrite 0 (copiedSamples source A B count)).piece? B.size i
      = some (convertSample A B sample) := by
  have hsize := size_copiedSamples (B := B) hsource
  have hpiece := Bytes.piece?_overwrite (j := 0) hsize (by rwa [Nat.zero_add]) i
  rw [Nat.zero_mul, if_pos ⟨Nat.zero_le i, by rwa [Nat.zero_add]⟩, Nat.sub_zero] at hpiece
  rw [hpiece, copiedSamples, convertSample]
  by_cases heq : A = B
  · have hslice : source.slice? (0 * A.size) (count * A.size)
        = some (source.extract 0 (count * A.size)) := by
      rw [Nat.zero_mul, Bytes.slice?_eq_some _ (by omega), Nat.zero_add]
    rw [if_pos heq, if_pos heq, ← heq, Bytes.piece?_slice? hslice hi, Nat.zero_add, hsample]
  · have hfound := Bytes.piece?_concat_append
      (f := fun i => B.encode (A.decode (source.extract (i * A.size) (i * A.size + A.size))))
      (fun _ => SampleType.size_encode ..) count #[] i hi
    have hend := end_le_start hi A.size
    rw [Bytes.piece?, Bytes.slice?_eq_some _ (by omega)] at hsample
    obtain rfl := Option.some.inj hsample
    rw [if_neg heq, if_neg heq, convertSamples]
    rwa [Array.append_empty] at hfound

omit hsource hroom in
/-- **A sample that is copied alone** takes the whole of its place. -/
theorem apply_copyInPlace_one (hA : A ≠ .unknown) (hB : B ≠ .unknown) {sample place : Bytes}
    (hsample : sample.size = A.size) (hplace : place.size = B.size) :
    (copyInPlace (α := α) sample A B 1).apply place = (.ok (), convertSample A B sample) := by
  have hfit : 1 * A.size ≤ sample.size ∧ 1 * B.size ≤ place.size := by omega
  have hrefusal : copyRefusal? (α := α) sample A place B 1 = none :=
    copyRefusal?_eq_none_iff_fits.mpr ⟨hA, hB, hfit⟩
  have hfunction := copySamples_one (α := α) hA hB hsample hplace
  rw [copySamples_eq hfit.1 hfit.2 hrefusal] at hfunction
  rw [apply_copyInPlace hfit.1 hfit.2 hrefusal, Except.ok.inj hfunction]

end Copy

/-- **With sizes that are words,** a refusal is a failure. -/
theorem exists_failure_of_refused {e : Interrupt (Failure α)}
    (h : copyRefusal? source A destination B count = some e)
    (hA : count * A.size < Numeral.wordBound) (hB : count * B.size < Numeral.wordBound) :
    ∃ f, e = .failure f := by
  unfold copyRefusal? at h
  rw [Cause.refusing_of_lt hA, Cause.refusing_of_lt hB] at h
  split at h
  · exact ⟨_, (Option.some.inj h).symm⟩
  · split at h
    · exact ⟨_, (Option.some.inj h).symm⟩
    · split at h
      · exact ⟨_, (Option.some.inj h).symm⟩
      · cases h

/-! ## 3. All or nothing -/

/-- **A copy is all or nothing, and stays within its samples.**  Copy any number of samples of any
type from a buffer into another one in place.

* It ends early exactly if one of the types is unknown, or one of the buffers holds fewer samples of
  its type; then the destination is as before, and what ended it is what ends the function.  It is
  a failure, as long as the bytes of the samples are as many as a word can tell.
* Otherwise it leaves what the function gives, of the size that the destination had.  Each sample is
  what a copy of that sample alone gives, whatever the place held that it is copied to: the bytes
  themselves between equal types, and else the encoding of the value.  The bytes behind the samples
  are as before. -/
theorem copy_all_or_nothing (source destination : Bytes) (A B : SampleType) (count : Nat) :
    let copy := (copyInPlace (α := α) source A B count).apply destination
    ((∃ e, copy.1 = .error e) ↔ A = .unknown ∨ B = .unknown ∨ source.size / A.size < count
        ∨ destination.size / B.size < count) ∧
      (∀ e, copy.1 = .error e → copy.2 = destination ∧
        copySamples source A destination B count = .error e ∧
        (count * A.size < Numeral.wordBound → count * B.size < Numeral.wordBound →
          ∃ f, e = .failure f)) ∧
      (copy.1 = .ok () →
        copySamples source A destination B count = (.ok copy.2 : Outcome α Bytes) ∧
        copy.2.size = destination.size ∧
        (∀ i < count, ∃ sample converted, source.piece? A.size i = some sample ∧
          copy.2.piece? B.size i = some converted ∧ (A = B → converted = sample) ∧
          (A ≠ B → ∃ v, A.get? source i = some v ∧ converted = B.encode v) ∧
          ∀ place : Bytes, place.size = B.size →
            (copyInPlace (α := α) sample A B 1).apply place = (.ok (), converted)) ∧
        ∀ j, count * B.size ≤ j → copy.2[j]? = destination[j]?) := by
  intro copy
  cases hrefusal : copyRefusal? (α := α) source A destination B count with
  | some e =>
    have hcopy : copy = (.error e, destination) := apply_copyInPlace_of_refused hrefusal
    have hrefused : A = .unknown ∨ B = .unknown ∨ source.size / A.size < count
        ∨ destination.size / B.size < count := by
      by_contra hserved
      rw [copyRefusal?_eq_none_iff.mpr hserved] at hrefusal
      cases hrefusal
    rw [hcopy]
    refine ⟨iff_of_true ⟨_, rfl⟩ hrefused, fun _ he => ?_, fun h => nomatch h⟩
    obtain rfl := Except.error.inj he
    exact ⟨rfl, copySamples_of_refused hrefusal, exists_failure_of_refused hrefusal⟩
  | none =>
    have hserved := copyRefusal?_eq_none_iff.mp hrefusal
    obtain ⟨hA, hB, hheld, hroom⟩ := copyRefusal?_eq_none_iff_fits.mp hrefusal
    have hcopy : copy = (.ok (), destination.overwrite 0 (copiedSamples source A B count)) :=
      apply_copyInPlace hheld hroom hrefusal
    rw [hcopy]
    have hdone : ∀ e : Interrupt (Failure α), (.ok () : Outcome α Unit) ≠ .error e :=
      fun e h => nomatch h
    refine ⟨iff_of_false (fun ⟨e, he⟩ => hdone e he) hserved, fun e he => (hdone e he).elim,
      fun _ => ⟨copySamples_eq hheld hroom hrefusal, Bytes.size_overwrite .., fun i hi => ?_,
        fun j hj => ?_⟩⟩
    · obtain ⟨sample, hsample⟩ := Bytes.piece?_isSome
        (Nat.le_trans (Nat.mul_le_mul_right A.size (Nat.succ_le_of_lt hi)) hheld)
      refine ⟨sample, convertSample A B sample, hsample, piece?_copied hheld hroom hi hsample,
        fun heq => if_pos heq, fun hne => ⟨A.decode sample, ?_, if_neg hne⟩, fun place hplace => ?_⟩
      · rw [SampleType.get?_eq, hsample, Option.map_some]
      · exact apply_copyInPlace_one hA hB (Bytes.size_of_piece? hsample) hplace
    · rw [Bytes.getElem?_overwrite, size_copiedSamples hheld, if_neg (by omega)]

/-- More samples than bytes can be counted are refused by no failure, but by a fault. -/
theorem copy_overflows : ∃ source destination : Bytes,
    source.size / SampleType.float64.size < 2305843009213693952 ∧
    copySamples source .float64 destination .float64 2305843009213693952
      = (.error (.fault .overflow) : Outcome Float Bytes) :=
  ⟨#[], #[], by decide, rfl⟩

end RasterWarp
