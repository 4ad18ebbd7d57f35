/-
# Lossless copies

A type holds the samples of another one as they are if each of its values is one of its own
(`SampleType.Lossless`): a range of integers inside a greater one, integers that single or double
precision has bits for, and singles in double precision.  A copy into such a type and back restores
the bytes, up to values that are undefined and lose their payload.

Two facts about values carry this.  The type that is copied from restores each of its patterns from
the value (`encode_decode_of_exact`), and the type that is copied to gives back the value it was
given (`decode_encode_of_embeds`).

The first fact alone says that a copy between equal types may take the bytes as they are: that is
what a loop over the values would write (`convertSamples_self`), also where a block is scattered
(`storeBlock_eq_storeValues`).
-/
import RasterWarp.Proofs.SampleCodec
import RasterWarp.Proofs.SampleCopies

namespace RasterWarp

open Binary (Format)

/-! ## 1. Formats that hold each other's values -/

namespace NumberFormat

/-- **A format whose patterns are restored from their values:** every integer of it is a double. -/
def Exact (f : NumberFormat) : Prop := f.size ≤ 4 ∨ f = double

/-- **A format whose values another one has.** -/
inductive Embeds : NumberFormat → NumberFormat → Prop
  | integers {f g : NumberFormat} {low high low' high' : ℤ} (hsize : f.size ≤ 4)
      (hf : f.range? = some (low, high)) (hg : g.range? = some (low', high'))
      (hlow : low' ≤ low) (hhigh : high ≤ high') : Embeds f g
  | integersToSingle {f : NumberFormat} {low high : ℤ} (hsize : f.size ≤ 2)
      (hf : f.range? = some (low, high)) : Embeds f single
  | integersToDouble {f : NumberFormat} {low high : ℤ} (hsize : f.size ≤ 4)
      (hf : f.range? = some (low, high)) : Embeds f double
  | singles : Embeds single single
  | singlesToDouble : Embeds single double
  | doubles : Embeds double double

variable {f g : NumberFormat}

theorem Embeds.exact (h : f.Embeds g) : f.Exact := by
  cases h with
  | integers hsize => exact .inl hsize
  | integersToSingle hsize => exact .inl (hsize.trans (by decide))
  | integersToDouble hsize => exact .inl hsize
  | singles => exact .inl le_rfl
  | singlesToDouble => exact .inl le_rfl
  | doubles => exact .inr rfl

/-- **A pattern is restored from its value,** unless that is undefined. -/
theorem encode_decode_of_exact (h : f.Exact) (hsize : 0 < f.size) {p : ℕ} (hp : p < 256 ^ f.size)
    (hnan : (f.decode p).isNaN = false) : f.encode (f.decode p) = p := by
  cases hrange : f.range? with
  | some range =>
    have hsmall : f.size ≤ 4 := by
      rcases h with h | rfl
      · exact h
      · cases hrange
    have hfew : 256 ^ f.size < 2 ^ 53 :=
      (Nat.pow_le_pow_right (by decide) hsmall).trans_lt (by norm_num)
    exact encode_decode hrange hsize hfew hp
  | none =>
    cases f with
    | unsigned n => cases hrange
    | signed n => cases hrange
    | single => exact Binary64.toSingle_ofSingle hp hnan
    | double => exact Nat.mod_eq_of_lt hp

/-- Double precision takes every value as it is. -/
theorem decode_encode_double (v : Binary64) : double.decode (double.encode v) = v :=
  congrArg Binary64.mk (UInt64.ofNat_toNat ..)

/-- **Integers of few bits** are singles. -/
theorem ofSingle_toSingle_ofInt {i : ℤ} (hi : |(i : ℚ)| < 2 ^ 24) :
    Binary64.ofSingle (Binary64.ofInt i).toSingle = .ofInt i := by
  have hspan : ((2 * Binary.single.span : ℕ) : ℚ) = 2 ^ 24 := by norm_cast
  have hlowest : Binary.single.lowest + (149 : ℕ) = 0 := by decide
  obtain ⟨p, hp⟩ := Binary.single.exists_value_of_int (by rwa [hspan]) hlowest
  have hbelow : p < Binary.single.infinity := by
    refine Binary.single.value_strictMono.lt_iff_lt.mp ?_
    rw [hp, Binary64.value_single_infinity]
    exact hi.trans (by norm_num)
  obtain ⟨hfinite, hvalue⟩ := Binary64.ofInt_exact (hi.trans (by norm_num))
  exact Binary64.ofSingle_toSingle_of_value hfinite hbelow (by rw [hp, hvalue])

/-- **A value of a format** is read back from another one that has it. -/
theorem decode_encode_of_embeds (h : f.Embeds g) (hsize : 0 < f.size) (hsize' : 0 < g.size) {p : ℕ}
    (hp : p < 256 ^ f.size) (hnan : (f.decode p).isNaN = false) :
    g.decode (g.encode (f.decode p)) = f.decode p := by
  have hfew : ∀ {n : ℕ} {low high : ℤ}, f.range? = some (low, high) → f.size ≤ n →
      ∃ i, low ≤ i ∧ i ≤ high ∧ f.decode p = .ofInt i ∧ |(i : ℚ)| < (256 : ℚ) ^ n := by
    intro n low high hf hn
    obtain ⟨hlow, hhigh, hcount⟩ := range_spec hf hsize
    obtain ⟨i, hle, hge, hi⟩ := exists_integer hf hsize hp
    have hpow : 256 ^ f.size ≤ 256 ^ n := Nat.pow_le_pow_right (by decide) hn
    have habs : |i| < (256 ^ n : ℕ) := abs_lt.mpr ⟨by omega, by omega⟩
    exact ⟨i, hle, hge, hi, by exact_mod_cast habs⟩
  cases h with
  | integers hsmall hf hg hlow hhigh =>
    obtain ⟨i, hle, hge, hi, habs⟩ := hfew hf hsmall
    obtain ⟨hfinite, hvalue⟩ := Binary64.ofInt_exact (habs.trans (by norm_num))
    rw [hi, decode_encode hg hsize', Binary64.roundWithin_of_value (hlow.trans hle)
      (hge.trans hhigh) hfinite hvalue]
  | integersToSingle hsmall hf =>
    obtain ⟨i, -, -, hi, habs⟩ := hfew hf hsmall
    rw [hi]
    exact ofSingle_toSingle_ofInt (habs.trans (by norm_num))
  | integersToDouble => exact decode_encode_double _
  | singles => exact congrArg Binary64.ofSingle (Binary64.toSingle_ofSingle hp hnan)
  | singlesToDouble => exact decode_encode_double _
  | doubles => exact decode_encode_double _

end NumberFormat

/-! ## 2. Samples -/

namespace SampleType

/-- **A real type whose samples are restored from their values.** -/
def Restored (t : SampleType) : Prop := t.isComplex = false ∧ ∃ f, t.number? = some f ∧ f.Exact

/-- **A real type whose values another real type has.** -/
structure Lossless (A B : SampleType) : Prop where
  real : A.isComplex = false
  real' : B.isComplex = false
  embeds : ∃ f g, A.number? = some f ∧ B.number? = some g ∧ f.Embeds g

/-- None of the first samples of a buffer is undefined. -/
def Defined (t : SampleType) (b : Bytes) (count : ℕ) : Prop :=
  ∀ i < count, ∀ v, t.get? b i = some v → v.isNaN = false

variable {A B t : SampleType}

theorem ne_unknown {f : NumberFormat} (h : t.number? = some f) : t ≠ .unknown := by
  rintro rfl
  cases h

/-- A sample that can be read is one of those that the buffer holds. -/
theorem lt_of_get? (ht : t ≠ .unknown) {b : Bytes} {i : ℕ} {v : Binary64}
    (h : t.get? b i = some v) : i < b.size / t.size := by
  obtain ⟨sample, hsample, -⟩ := Option.map_eq_some_iff.mp h
  have hin := Bytes.le_size_of_slice? hsample
  rw [← Nat.add_one_mul] at hin
  exact (Nat.le_div_iff_mul_le (size_pos ht)).mpr hin

theorem Lossless.restored (h : A.Lossless B) : A.Restored := by
  obtain ⟨f, g, hf, -, hembeds⟩ := h.embeds
  exact ⟨h.real, f, hf, hembeds.exact⟩

theorem Restored.ne_unknown (h : t.Restored) : t ≠ .unknown := by
  obtain ⟨-, f, hf, -⟩ := h
  exact SampleType.ne_unknown hf

theorem Lossless.ne_unknown (h : A.Lossless B) : B ≠ .unknown := by
  obtain ⟨f, g, -, hg, -⟩ := h.embeds
  exact SampleType.ne_unknown hg

/-- **The bytes of a sample are restored from its value.** -/
theorem Restored.encode_decode (h : t.Restored) {bytes : Bytes} (hbytes : bytes.size = t.size)
    (hnan : (t.decode bytes).isNaN = false) : t.encode (t.decode bytes) = bytes := by
  obtain ⟨hreal, f, hf, hexact⟩ := h
  have hsize := size_number hf
  obtain ⟨p, hp, hdecode, hencode⟩ := exists_pattern hf hreal hbytes
  rw [hdecode] at hnan ⊢
  exact hencode _ (NumberFormat.encode_decode_of_exact hexact (by omega) hp hnan)

/-- **A sample goes to the other type and back.** -/
theorem Lossless.convertSample (h : A.Lossless B) {bytes : Bytes} (hbytes : bytes.size = A.size)
    (hnan : (A.decode bytes).isNaN = false) :
    convertSample B A (convertSample A B bytes) = bytes := by
  by_cases heq : A = B
  · subst heq
    rw [RasterWarp.convertSample, if_pos rfl, RasterWarp.convertSample, if_pos rfl]
  obtain ⟨f, g, hf, hg, hembeds⟩ := h.embeds
  have hsize := size_number hf
  have hsize' := size_number hg
  obtain ⟨p, hp, hdecode, -⟩ := exists_pattern hf h.real hbytes
  have hvalue : B.decode (B.encode (A.decode bytes)) = A.decode bytes := by
    rw [decode_encode hg, hdecode]
    rw [hdecode] at hnan
    exact NumberFormat.decode_encode_of_embeds hembeds (by omega) (by omega) hp hnan
  rw [RasterWarp.convertSample, if_neg (Ne.symm heq), RasterWarp.convertSample, if_neg heq, hvalue,
    h.restored.encode_decode hbytes hnan]

end SampleType

/-! ## 3. Copies -/

section Copies

variable {α : Type} {A B : SampleType} {source destination : Bytes} {count : ℕ}

/-- Pieces that agree have bytes that agree. -/
theorem Bytes.getElem?_congr_of_pieces {b b' : Bytes} {k : ℕ} (hk : 0 < k)
    (hsize : count * k ≤ b'.size) (h : ∀ i < count, b.piece? k i = b'.piece? k i) {j : ℕ}
    (hj : j < count * k) : b[j]? = b'[j]? := by
  have hi : j / k < count := (Nat.div_lt_iff_lt_mul hk).mpr hj
  have hsplit : j / k * k + j % k = j := Nat.div_add_mod' j k
  obtain ⟨part, hpart⟩ := Bytes.piece?_isSome
    (Nat.le_trans (Nat.mul_le_mul_right k (Nat.succ_le_of_lt hi)) hsize)
  have hbyte := Bytes.getElem?_of_slice? hpart (Nat.mod_lt j hk)
  have hbyte' := Bytes.getElem?_of_slice? ((h _ hi).trans hpart) (Nat.mod_lt j hk)
  rw [hsplit] at hbyte hbyte'
  exact hbyte'.symm.trans hbyte

/-- **A lossless copy is undone by the copy back.** -/
theorem copySamples_restores (h : A.Lossless B) {middle back : Bytes}
    (hsource : count * A.size ≤ source.size) (hmiddle : count * B.size ≤ middle.size)
    (hback : count * A.size ≤ back.size)
    (hnan : A.Defined source count) :
    ∃ there restored, copySamples source A middle B count = (.ok there : Outcome α Bytes) ∧
      copySamples there B back A count = (.ok restored : Outcome α Bytes) ∧
      ∀ j < count * A.size, restored[j]? = source[j]? := by
  have hA := h.restored.ne_unknown
  have hthere : count * B.size
      ≤ (middle.overwrite 0 (copiedSamples source A B count)).size := by
    rwa [Bytes.size_overwrite]
  have hforth : copyRefusal? (α := α) source A middle B count = none :=
    copyRefusal?_eq_none_iff_fits.mpr ⟨hA, h.ne_unknown, hsource, hmiddle⟩
  have hreturn : copyRefusal? (α := α) (middle.overwrite 0 (copiedSamples source A B count)) B back
      A count = none :=
    copyRefusal?_eq_none_iff_fits.mpr ⟨h.ne_unknown, hA, hthere, hback⟩
  refine ⟨_, _, copySamples_eq hsource hmiddle hforth, copySamples_eq hthere hback hreturn,
    fun j hj => ?_⟩
  refine Bytes.getElem?_congr_of_pieces (SampleType.size_pos hA) hsource (fun i hi => ?_) hj
  obtain ⟨sample, hsample⟩ := Bytes.piece?_isSome
    (Nat.le_trans (Nat.mul_le_mul_right A.size (Nat.succ_le_of_lt hi)) hsource)
  have hvalue : (A.decode sample).isNaN = false :=
    hnan i hi _ (by rw [SampleType.get?_eq, hsample, Option.map_some])
  rw [piece?_copied hthere hback hi (piece?_copied hsource hmiddle hi hsample), hsample,
    h.convertSample (Bytes.size_of_piece? hsample) hvalue]

/-- **A loop over the values** of restored samples writes their bytes. -/
theorem convertSamples_self (h : A.Restored) (hsource : count * A.size ≤ source.size)
    (hnan : A.Defined source count) :
    convertSamples A A source count = source.extract 0 (count * A.size) := by
  induction count with
  | zero => simp [convertSamples, Bytes.concat]
  | succ n ih =>
    rw [Nat.add_one_mul] at hsource ⊢
    have hslice := Bytes.slice?_eq_some source (i := n * A.size) (n := A.size) (by omega)
    have hsize := Bytes.size_of_slice? hslice
    have hvalue := hnan n (Nat.lt_succ_self n) _ (congrArg (Option.map A.decode) hslice)
    have hstep : convertSamples A A source (n + 1) = convertSamples A A source n
        ++ A.encode (A.decode (source.extract (n * A.size) (n * A.size + A.size))) :=
      Bytes.concat_succ ..
    rw [hstep, ih (by omega) fun i hi => hnan i (Nat.lt_succ_of_lt hi),
      h.encode_decode hsize hvalue]
    simp

end Copies

/-! ## 4. Blocks -/

section Blocks

variable {α : Type} {t : SampleType} {g : Tiling} {block : Bytes}

/-- Takes one sample of a block over into the output by its value. -/
def storeValue (g : Tiling) (type : SampleType) (block : Bytes) (source destination : ℕ) :
    InPlace Bytes α Unit := do
  if g.rasterWidth = 0 then throw (.fault .zeroDivisor)
  let offset := (g.locate (source % g.rasterWidth) (source / g.rasterWidth)).2
  let value ← inRange (α := α) (type.get? block offset)
  let output ← get
  set (← inRange (α := α) (type.set? output destination value))

/-- Takes the samples of a block over by their values, one after the other. -/
def storeValues (g : Tiling) (type : SampleType) (block : Bytes) (pixels : PixelGroup) :
    InPlace Bytes α Unit :=
  forM pixels.pairs fun (source, destination) => storeValue g type block source destination

/-- **One pixel** by its bytes, and by its value. -/
theorem storePixel_eq_storeValue (h : t.Restored) (hblock : t.Defined block (block.size / t.size))
    (source destination : ℕ) :
    (storePixel g t t block source destination : InPlace Bytes α Unit)
      = storeValue g t block source destination := by
  refine funext fun output => ?_
  show (storePixel g t t block source destination : InPlace Bytes α Unit).apply output
    = (storeValue g t block source destination).apply output
  simp only [storePixel, storeValue]
  generalize (g.locate (source % g.rasterWidth) (source / g.rasterWidth)).2 = offset
  by_cases hwidth : g.rasterWidth = 0
  · simp [hwidth]
  cases hsample : block.slice? (offset * t.size) t.size with
  | none =>
    have hnone : t.get? block offset = none := congrArg (Option.map t.decode) hsample
    simp [hwidth, hnone, inRange]
  | some sample =>
    have hvalue : t.get? block offset = some (t.decode sample) :=
      congrArg (Option.map t.decode) hsample
    have hsize := Bytes.size_of_slice? hsample
    have hnan := hblock offset (SampleType.lt_of_get? h.ne_unknown hvalue) _ hvalue
    have hbytes := h.encode_decode hsize hnan
    have hset : t.set? output destination (t.decode sample)
        = if destination * t.size + t.size ≤ output.size
          then some (output.overwrite (destination * t.size) sample) else none := by
      rw [SampleType.set?, hbytes, Bytes.splice?, hsize]
    by_cases hfits : destination * t.size + t.size ≤ output.size
    · have hplace := Bytes.slice?_eq_some output hfits
      have hcopy := copySamples_one (α := α) h.ne_unknown h.ne_unknown hsize
        (Bytes.size_of_slice? hplace)
      rw [convertSample, if_pos rfl] at hcopy
      rw [if_pos hfits] at hset
      by_cases hraw : t.isHandedOn = true
      · simp [hwidth, hvalue, hplace, hset, hraw]
      · simp [hwidth, hvalue, hplace, hset, hraw, hcopy]
    · have hplace : output.slice? (destination * t.size) t.size = none := if_neg hfits
      rw [if_neg hfits] at hset
      simp [hwidth, hvalue, hplace, hset, inRange]

/-- **One block** by its bytes, and by its values. -/
theorem storeBlock_eq_storeValues (h : t.Restored)
    (hblock : t.Defined block (block.size / t.size)) (pixels : PixelGroup) :
    (storeBlock g t t block pixels : InPlace Bytes α Unit) = storeValues g t block pixels := by
  unfold storeBlock storeValues
  simp only [storePixel_eq_storeValue h hblock]

end Blocks

/-! ## 5. Lossless copies -/

/-- **Lossless copies lose nothing, and bytes are copied as values would be.**  Let a type have all
the values of another one, up to undefined ones.

* Any number of samples, none of them undefined, that are copied to that type and back are restored
  to the byte, whatever buffers they go through.
* If both are the same type, its bytes are copied at once, and that leaves what a loop over the
  samples leaves, which reads each value and writes it.
* Then also a block that is scattered sample by sample, as types that are handed on are by their
  bytes, is scattered as by the values. -/
theorem lossless_copies {α : Type} {A B : SampleType} (h : A.Lossless B) :
    (∀ (source middle back : Bytes) (count : ℕ), A.Defined source count →
      count * A.size ≤ source.size → count * B.size ≤ middle.size → count * A.size ≤ back.size →
      ∃ there restored,
        copySamples source A middle B count = (.ok there : Outcome α Bytes) ∧
        copySamples there B back A count = (.ok restored : Outcome α Bytes) ∧
        ∀ j < count * A.size, restored[j]? = source[j]?) ∧
    (A = B →
      (∀ (source destination : Bytes) (count : ℕ), A.Defined source count →
        count * A.size ≤ source.size → count * A.size ≤ destination.size →
        ∃ copied,
          copySamples source A destination A count = (.ok copied : Outcome α Bytes) ∧
          (copyByValue (α := α) source A A count).apply destination = (.ok (), copied)) ∧
      ∀ (g : Tiling) (block : Bytes) (pixels : PixelGroup),
        A.Defined block (block.size / A.size) →
          (storeBlock g A A block pixels : InPlace Bytes α Unit) = storeValues g A block pixels ∧
          ∀ output, (storeValues g A block pixels : InPlace Bytes α Unit).Gives output
            (transferBlock g A A block pixels output)) := by
  have hA := h.restored.ne_unknown
  refine ⟨fun source middle back count hdefined hsource hmiddle hback =>
    copySamples_restores h hsource hmiddle hback hdefined, ?_⟩
  rintro rfl
  refine ⟨fun source destination count hdefined hsource hroom => ?_,
    fun g block pixels hblock => ?_⟩
  · have hrefusal : copyRefusal? (α := α) source A destination A count = none :=
      copyRefusal?_eq_none_iff_fits.mpr ⟨hA, hA, hsource, hroom⟩
    refine ⟨_, copySamples_eq hsource hroom hrefusal, ?_⟩
    rw [apply_copyByValue hsource hroom, convertSamples_self h.restored hsource hdefined,
      copiedSamples, if_pos rfl]
  · have heq := storeBlock_eq_storeValues (α := α) (g := g) h.restored hblock pixels
    exact ⟨heq, fun output => heq ▸ gives_storeBlock hA hA g block output pixels⟩

/-- Three halves and minus a tenth go to double precision and back, and to a block and an output of
their own type. -/
theorem lossless_copies_singles :
    let source : Bytes := #[0, 0, 192, 63, 205, 204, 204, 189]
    SampleType.float32.Lossless .float64 ∧
      (∃ there restored,
        copySamples source .float32 (Bytes.zeros 16) .float64 2
          = (.ok there : Outcome Float Bytes) ∧
        copySamples there .float64 (Bytes.zeros 8) .float32 2
          = (.ok restored : Outcome Float Bytes) ∧
        ∀ j < 8, restored[j]? = source[j]?) ∧
      (∃ copied, copySamples source .float32 (Bytes.zeros 8) .float32 2
          = (.ok copied : Outcome Float Bytes) ∧
        (copyByValue (α := Float) source .float32 .float32 2).apply (Bytes.zeros 8)
          = (.ok (), copied)) ∧
      ∀ g pixels, (storeBlock g .float32 .float32 source pixels : InPlace Bytes Float Unit)
        = storeValues g .float32 source pixels := by
  intro source
  have hwiden : SampleType.float32.Lossless .float64 := ⟨rfl, rfl, _, _, rfl, rfl, .singlesToDouble⟩
  have hsame : SampleType.float32.Lossless .float32 := ⟨rfl, rfl, _, _, rfl, rfl, .singles⟩
  have hnumbers : ∀ i < 2,
      (SampleType.float32.get? source i).all (fun v => !v.isNaN) = true := by decide +kernel
  have hdefined : SampleType.float32.Defined source 2 := by
    intro i hi v hv
    have hi' := hnumbers i hi
    rw [hv] at hi'
    simpa using hi'
  have hheld : source.size / SampleType.float32.size = 2 := by decide
  obtain ⟨hbyBytes, hblocks⟩ := (lossless_copies (α := Float) hsame).2 rfl
  exact ⟨hwiden,
    (lossless_copies hwiden).1 source _ _ 2 hdefined (by decide) (by decide) (by decide),
    hbyBytes source _ 2 hdefined (by decide) (by decide),
    fun g pixels => (hblocks g source pixels (hheld.symm ▸ hdefined)).1⟩

end RasterWarp
