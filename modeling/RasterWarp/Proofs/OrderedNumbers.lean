/-
# Numbers that can be put in order

A box of points is found by comparing coordinates, and doubles are not an ordered type: an undefined
one is not even equal to itself, and there are two zeros.  `OrderedScalar` says how much order there
is.  `≤` is transitive everywhere, and of two finite numbers one is no further than the other.  The
rest is about signs: of natural numbers, of square roots, and of quotients that are finite.

Nothing is said of rounding, so that the numbers that run are such a type (`Doubles.lean`).  The
rationals are another one.

The lesser of two numbers and the greater of two are one operation, taken of `≤` and of its converse
(`Side`), and the box around points is tight because each of its sides is such a choice
(`Bounds.tight_ofPoints?`).
-/
import RasterWarp.Proofs.ExactArithmetic
import RasterWarp.Bounds

namespace RasterWarp

/-! ## 1. As much order as there is -/

/-- **A number type whose finite numbers are ordered.** -/
class OrderedScalar (α : Type) [Scalar α] : Prop where
  le_trans : ∀ {a b c : α}, a ≤ b → b ≤ c → a ≤ c
  le_total : ∀ {a b : α}, Scalar.isFinite a = true → Scalar.isFinite b = true → a ≤ b ∨ b ≤ a
  bne_self : ∀ {a : α}, Scalar.isFinite a = true → (a != a) = false
  pos_iff : ∀ {a : α}, Scalar.isFinite a = true → ¬a < 0 → (0 < a ↔ (a == 0) = false)
  ofNat_pos : ∀ {n : Nat}, 0 < n → (0 : α) < Scalar.ofNat n
  sqrt_not_neg : ∀ a : α, ¬Scalar.sqrt a < 0
  div_not_neg : ∀ {a b : α}, Scalar.isFinite (a / b) = true → ¬a < 0 → ¬b < 0 → ¬a / b < 0

/-- **The rationals are ordered.** -/
instance : OrderedScalar ℚ where
  le_trans h h' := h.trans h'
  le_total _ _ := le_total _ _
  bne_self _ := ExactScalar.bne_self _
  pos_iff _ h := by
    rw [beq_eq_false_iff_ne]
    exact ⟨ne_of_gt, fun hne => lt_of_le_of_ne (not_lt.mp h) hne.symm⟩
  ofNat_pos := Nat.cast_pos.mpr
  sqrt_not_neg _ := not_lt.mpr (div_nonneg (Nat.cast_nonneg _) (Nat.cast_nonneg _))
  div_not_neg _ ha hb := not_lt.mpr (div_nonneg (not_lt.mp ha) (not_lt.mp hb))

/-! ## 2. One of two numbers -/

section Sides

variable {α : Type} [Scalar α]

/-- **One of two numbers by an order of the finite ones:** the first, unless only the second is no
further. -/
structure Side (r : α → α → Prop) (pick : α → α → α) : Prop where
  trans : ∀ {a b c : α}, r a b → r b c → r a c
  total : ∀ {a b : α}, Scalar.isFinite a = true → Scalar.isFinite b = true → r a b ∨ r b a
  first : ∀ {a b : α}, r a b → pick a b = a
  second : ∀ {a b : α}, Scalar.isFinite b = true → ¬r a b → pick a b = b

namespace Side

variable {r : α → α → Prop} {pick : α → α → α} (side : Side r pick) {a b c : α}

include side

theorem refl (ha : Scalar.isFinite a = true) : r a a := (side.total ha ha).elim id id

/-- It is one of the two, -/
theorem eq_or_eq (hb : Scalar.isFinite b = true) : pick a b = a ∨ pick a b = b := by
  by_cases h : r a b
  · exact .inl (side.first h)
  · exact .inr (side.second hb h)

theorem isFinite (ha : Scalar.isFinite a = true) (hb : Scalar.isFinite b = true) :
    Scalar.isFinite (pick a b) = true := by
  rcases side.eq_or_eq (a := a) hb with h | h <;> rwa [h]

/-- and neither of the two goes before it: the first does not, -/
theorem left (ha : Scalar.isFinite a = true) (hb : Scalar.isFinite b = true) : r (pick a b) a := by
  by_cases h : r a b
  · rw [side.first h]
    exact side.refl ha
  · rw [side.second hb h]
    exact (side.total ha hb).resolve_left h

/-- and the second does not. -/
theorem right (hb : Scalar.isFinite b = true) : r (pick a b) b := by
  by_cases h : r a b
  · rwa [side.first h]
  · rw [side.second hb h]
    exact side.refl hb

/-- Of three numbers it is the same one, whichever two come first. -/
theorem assoc (hb : Scalar.isFinite b = true) (hc : Scalar.isFinite c = true) :
    pick (pick a b) c = pick a (pick b c) := by
  by_cases hab : r a b
  · rw [side.first hab]
    by_cases hbc : r b c
    · rw [side.first hbc, side.first hab, side.first (side.trans hab hbc)]
    · rw [side.second hc hbc]
  · rw [side.second hb hab]
    by_cases hbc : r b c
    · rw [side.first hbc, side.second hb hab]
    · have hac : ¬r a c := fun hac => hab (side.trans hac ((side.total hb hc).resolve_left hbc))
      rw [side.second hc hbc, side.second hc hac]

end Side

variable [OrderedScalar α]

theorem side_min : Side (α := α) (· ≤ ·) Scalar.min where
  trans := OrderedScalar.le_trans
  total := OrderedScalar.le_total
  first h := by
    unfold Scalar.min
    rw [decide_eq_true h, Bool.true_or, if_pos rfl]
  second hb h := by
    unfold Scalar.min
    rw [decide_eq_false h, OrderedScalar.bne_self hb, Bool.or_false, if_neg Bool.false_ne_true]

theorem side_max : Side (α := α) (fun a b => b ≤ a) Scalar.max where
  trans h h' := OrderedScalar.le_trans h' h
  total ha hb := (OrderedScalar.le_total ha hb).symm
  first h := by
    unfold Scalar.max
    rw [decide_eq_true h, Bool.true_or, if_pos rfl]
  second hb h := by
    unfold Scalar.max
    rw [decide_eq_false h, OrderedScalar.bne_self hb, Bool.or_false, if_neg Bool.false_ne_true]

end Sides

/-! ## 3. The box around points -/

namespace Bounds

variable {α : Type} [Scalar α]

/-- **A box none of whose sides is infinite or undefined.** -/
structure Finite (b : Bounds α) : Prop where
  minX : Scalar.isFinite b.minX = true
  minY : Scalar.isFinite b.minY = true
  maxX : Scalar.isFinite b.maxX = true
  maxY : Scalar.isFinite b.maxY = true

/-- **The tight box of points:** it holds all of them, and each of its sides goes through one. -/
structure Tight (points : List (α × α)) (b : Bounds α) : Prop where
  holds : ∀ p ∈ points, b.contains p.1 p.2 = true
  minX : ∃ p ∈ points, p.1 = b.minX
  minY : ∃ p ∈ points, p.2 = b.minY
  maxX : ∃ p ∈ points, p.1 = b.maxX
  maxY : ∃ p ∈ points, p.2 = b.maxY

/-- Points at finite places. -/
def FinitePoints (points : List (α × α)) : Prop :=
  ∀ p ∈ points, Scalar.isFinite p.1 = true ∧ Scalar.isFinite p.2 = true

theorem holds_iff {b : Bounds α} {x y : α} :
    b.contains x y = true ↔ (b.minX ≤ x ∧ x ≤ b.maxX) ∧ b.minY ≤ y ∧ y ≤ b.maxY := by
  simp [contains, and_assoc]

variable {points points' : List (α × α)} {a b c : Bounds α}

theorem finitePoints_append :
    FinitePoints (points ++ points') ↔ FinitePoints points ∧ FinitePoints points' :=
  List.forall_mem_append

/-- The tight box of finite points is finite. -/
theorem Tight.finite (h : Tight points b) (hpoints : FinitePoints points) : b.Finite := by
  obtain ⟨p, hp, hminX⟩ := h.minX
  obtain ⟨q, hq, hminY⟩ := h.minY
  obtain ⟨p', hp', hmaxX⟩ := h.maxX
  obtain ⟨q', hq', hmaxY⟩ := h.maxY
  exact ⟨hminX ▸ (hpoints p hp).1, hminY ▸ (hpoints q hq).2, hmaxX ▸ (hpoints p' hp').1,
    hmaxY ▸ (hpoints q' hq').2⟩

/-- The sides of a tight box are in order. -/
theorem Tight.ordered (h : Tight points b) : b.minX ≤ b.maxX ∧ b.minY ≤ b.maxY := by
  obtain ⟨p, hp, hminX⟩ := h.minX
  obtain ⟨q, hq, hminY⟩ := h.minY
  exact ⟨hminX ▸ (holds_iff.mp (h.holds p hp)).1.2, hminY ▸ (holds_iff.mp (h.holds q hq)).2.2⟩

omit [Scalar α] in
/-- A side that goes through a point of one of two lists goes through a point of both. -/
theorem through_append {f : α × α → α} {u v w : α} (h : w = u ∨ w = v)
    (hu : ∃ p ∈ points, f p = u) (hv : ∃ p ∈ points', f p = v) :
    ∃ p ∈ points ++ points', f p = w := by
  rcases h with rfl | rfl
  · obtain ⟨p, hp, h⟩ := hu
    exact ⟨p, List.mem_append_left _ hp, h⟩
  · obtain ⟨p, hp, h⟩ := hv
    exact ⟨p, List.mem_append_right _ hp, h⟩

variable [OrderedScalar α]

theorem Finite.join (ha : a.Finite) (hb : b.Finite) : (a.join b).Finite :=
  ⟨side_min.isFinite ha.minX hb.minX, side_min.isFinite ha.minY hb.minY,
    side_max.isFinite ha.maxX hb.maxX, side_max.isFinite ha.maxY hb.maxY⟩

theorem join_assoc (hb : b.Finite) (hc : c.Finite) : (a.join b).join c = a.join (b.join c) := by
  unfold join
  rw [side_min.assoc hb.minX hc.minX, side_min.assoc hb.minY hc.minY,
    side_max.assoc hb.maxX hc.maxX, side_max.assoc hb.maxY hc.maxY]

/-- What is in one of two finite boxes is in the box around them. -/
theorem contains_join_left (ha : a.Finite) (hb : b.Finite) {x y : α} (h : a.contains x y = true) :
    (a.join b).contains x y = true := by
  obtain ⟨⟨hminX, hmaxX⟩, hminY, hmaxY⟩ := holds_iff.mp h
  exact holds_iff.mpr
    ⟨⟨side_min.trans (side_min.left ha.minX hb.minX) hminX,
        side_max.trans (side_max.left ha.maxX hb.maxX) hmaxX⟩,
      side_min.trans (side_min.left ha.minY hb.minY) hminY,
      side_max.trans (side_max.left ha.maxY hb.maxY) hmaxY⟩

theorem contains_join_right (hb : b.Finite) {x y : α} (h : b.contains x y = true) :
    (a.join b).contains x y = true := by
  obtain ⟨⟨hminX, hmaxX⟩, hminY, hmaxY⟩ := holds_iff.mp h
  exact holds_iff.mpr
    ⟨⟨side_min.trans (side_min.right hb.minX) hminX,
        side_max.trans (side_max.right hb.maxX) hmaxX⟩,
      side_min.trans (side_min.right hb.minY) hminY,
      side_max.trans (side_max.right hb.maxY) hmaxY⟩

/-- **The box around two tight boxes** is the tight box of all their points. -/
theorem Tight.join (ha : Tight points a) (hb : Tight points' b) (hfa : a.Finite) (hfb : b.Finite) :
    Tight (points ++ points') (a.join b) where
  holds p hp := by
    rcases List.mem_append.mp hp with hp | hp
    · exact contains_join_left hfa hfb (ha.holds p hp)
    · exact contains_join_right hfb (hb.holds p hp)
  minX := through_append (side_min.eq_or_eq hfb.minX) ha.minX hb.minX
  minY := through_append (side_min.eq_or_eq hfb.minY) ha.minY hb.minY
  maxX := through_append (side_max.eq_or_eq hfb.maxX) ha.maxX hb.maxX
  maxY := through_append (side_max.eq_or_eq hfb.maxY) ha.maxY hb.maxY

/-- The box of one point is tight. -/
theorem tight_ofPoint {x y : α} (hx : Scalar.isFinite x = true) (hy : Scalar.isFinite y = true) :
    Tight [(x, y)] (ofPoint x y) where
  holds p hp := by
    obtain rfl := List.mem_singleton.mp hp
    exact holds_iff.mpr ⟨⟨side_min.refl hx, side_min.refl hx⟩, side_min.refl hy, side_min.refl hy⟩
  minX := ⟨(x, y), List.mem_singleton_self _, rfl⟩
  minY := ⟨(x, y), List.mem_singleton_self _, rfl⟩
  maxX := ⟨(x, y), List.mem_singleton_self _, rfl⟩
  maxY := ⟨(x, y), List.mem_singleton_self _, rfl⟩

/-- The box of points is that of those seen and of those to come, -/
theorem tight_foldl {rest : List (α × α)} (hrest : FinitePoints rest) (hb : b.Finite)
    (h : Tight points b) :
    Tight (points ++ rest) (rest.foldl (fun b (x, y) => b.join (ofPoint x y)) b) := by
  induction rest generalizing points b with
  | nil => exact (List.append_nil points).symm ▸ h
  | cons p rest ih =>
    obtain ⟨⟨hx, hy⟩, hrest⟩ := List.forall_mem_cons.mp hrest
    have hp : (ofPoint p.1 p.2).Finite := ⟨hx, hy, hx, hy⟩
    have hjoin := ih hrest (hb.join hp) (h.join (tight_ofPoint hx hy) hb hp)
    rwa [List.append_assoc] at hjoin

/-- **The box of finite points is tight.** -/
theorem tight_ofPoints? (hpoints : FinitePoints points) (h : ofPoints? points = some b) :
    Tight points b := by
  cases points with
  | nil => cases h
  | cons p rest =>
    obtain rfl := Option.some.inj h
    obtain ⟨⟨hx, hy⟩, hrest⟩ := List.forall_mem_cons.mp hpoints
    exact tight_foldl hrest ⟨hx, hy, hx, hy⟩ (tight_ofPoint hx hy)

/-- A box may be joined before a fold or after it. -/
theorem foldl_join {rest : List (α × α)} (hrest : FinitePoints rest) (hb : b.Finite) :
    rest.foldl (fun b (x, y) => b.join (ofPoint x y)) (a.join b) =
      a.join (rest.foldl (fun b (x, y) => b.join (ofPoint x y)) b) := by
  induction rest generalizing b with
  | nil => rfl
  | cons p rest ih =>
    obtain ⟨⟨hx, hy⟩, hrest⟩ := List.forall_mem_cons.mp hrest
    have hp : (ofPoint p.1 p.2).Finite := ⟨hx, hy, hx, hy⟩
    show rest.foldl _ ((a.join b).join (ofPoint p.1 p.2)) = _
    rw [join_assoc hb hp]
    exact ih hrest (hb.join hp)

end Bounds
end RasterWarp
