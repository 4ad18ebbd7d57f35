/-
# What a cache of contexts holds, told from its history

A cache is asked to put, get, remove and clear, and each operation leaves an event: the operation,
and the pair that had to make room for it.  What the cache holds can be read off the events alone
(`Holds`): a pair has the context of the last put under it, unless it was removed, cleared or had
to make room since, and it was used once and then once for every get.

Every operation keeps a cache and its history in step (`Explained.apply`), by one law for each
operation on what is found under a pair (`find?_put`, `find?_get`, `find?_remove`, `find?_clear`).
Who makes room is the least entry in the order of uses, source and destination
(`victim?_least`), so `put_replaces` and `put_evicts` say all that a put can do.

Main statement: `least_used_makes_room`.
-/
import RasterWarp.ContextCache
import Mathlib.Data.List.Induction
import Mathlib.Data.List.Nodup
import Mathlib.Data.Prod.Lex
import Mathlib.Data.String.Basic

namespace RasterWarp

/-! ## 1. Who makes room -/

/-- The order of pairs: by source, then by destination. -/
def CrsPair.rank (k : CrsPair) : String ×ₗ String := toLex (k.source, k.destination)

/-- **The order in which entries make room:** by uses, then by their pairs. -/
def CachedContext.rank {γ : Type} (e : CachedContext γ) : ℕ ×ₗ String ×ₗ String :=
  toLex (e.uses, e.key.rank)

theorem CrsPair.before_iff (a b : CrsPair) : a.before b = true ↔ a.rank < b.rank := by
  simp [before, rank, Prod.Lex.toLex_lt_toLex]

theorem CachedContext.rank_le_iff {γ : Type} {a b : CachedContext γ} :
    a.rank ≤ b.rank ↔ a.uses < b.uses ∨ a.uses = b.uses ∧ a.key.rank ≤ b.key.rank :=
  Prod.Lex.toLex_le_toLex

/-- Entries of one rank are under one pair. -/
theorem CachedContext.key_eq_of_rank_eq {γ : Type} {a b : CachedContext γ}
    (h : a.rank = b.rank) : a.key = b.key := by
  have huses := toLex.injective h
  have hkey := toLex.injective (Prod.mk.inj huses).2
  obtain ⟨hs, hd⟩ := Prod.mk.inj hkey
  cases ha : a.key
  cases hb : b.key
  simp_all

namespace ContextCache

variable {γ : Type}

theorem mem_sorted {c : ContextCache γ} {e : CachedContext γ} : e ∈ c.sorted ↔ e ∈ c.entries :=
  (List.mergeSort_perm ..).mem_iff

/-- No entry stands behind one under a greater pair. -/
theorem pairwise_sorted (c : ContextCache γ) :
    c.sorted.Pairwise fun a b => a.key.rank ≤ b.key.rank := by
  have hle (a b : CachedContext γ) : (!b.key.before a.key) = true ↔ a.key.rank ≤ b.key.rank := by
    rw [Bool.not_eq_true', ← Bool.not_eq_true, CrsPair.before_iff, not_lt]
  refine (List.pairwise_mergeSort ?_ ?_ c.entries).imp fun {a b} => (hle a b).mp
  · intro a b d hab hbd
    exact (hle a d).mpr (((hle a b).mp hab).trans ((hle b d).mp hbd))
  · intro a b
    rw [Bool.or_eq_true, hle, hle]
    exact le_total _ _

/-- **The scan that keeps what it has on equal uses finds the least rank,** for an entry that comes
later is under a greater pair. -/
theorem scan_least : ∀ (rest : List (CachedContext γ)) (v : CachedContext γ),
    (v :: rest).Pairwise (fun a b => a.key.rank ≤ b.key.rank) →
      ∃ w ∈ v :: rest, (∀ e ∈ v :: rest, w.rank ≤ e.rank) ∧
        rest.foldl (fun least e =>
          match least with
          | some v => if v.uses ≤ e.uses then some v else some e
          | none => some e) (some v) = some w
  | [], v, _ => ⟨v, List.mem_cons_self, by simp, rfl⟩
  | e :: rest, v, hsorted => by
    obtain ⟨hv, hrest⟩ := List.pairwise_cons.mp hsorted
    have hkey := hv e List.mem_cons_self
    rw [List.foldl_cons]
    by_cases huses : v.uses ≤ e.uses
    · have hve : v.rank ≤ e.rank :=
        CachedContext.rank_le_iff.mpr (huses.lt_or_eq.imp_right fun h => ⟨h, hkey⟩)
      obtain ⟨w, hmem, hleast, hscan⟩ := scan_least rest v
        (List.pairwise_cons.mpr ⟨fun a ha => hv a (List.mem_cons_of_mem _ ha), hrest.tail⟩)
      refine ⟨w, ?_, ?_, by simpa only [huses, if_true] using hscan⟩
      · rcases List.mem_cons.mp hmem with rfl | hmem
        · exact List.mem_cons_self
        · exact List.mem_cons_of_mem _ (List.mem_cons_of_mem _ hmem)
      · intro a ha
        rcases List.mem_cons.mp ha with rfl | ha
        · exact hleast a List.mem_cons_self
        · rcases List.mem_cons.mp ha with rfl | ha
          · exact (hleast v List.mem_cons_self).trans hve
          · exact hleast a (List.mem_cons_of_mem _ ha)
    · have hev : e.rank ≤ v.rank := CachedContext.rank_le_iff.mpr (.inl (not_le.mp huses))
      obtain ⟨w, hmem, hleast, hscan⟩ := scan_least rest e hrest
      refine ⟨w, List.mem_cons_of_mem _ hmem, ?_, by simpa only [huses, if_false] using hscan⟩
      intro a ha
      rcases List.mem_cons.mp ha with rfl | ha
      · exact (hleast e List.mem_cons_self).trans hev
      · exact hleast a ha

/-- **The entry that makes room** is there if any is, and has the least rank. -/
theorem victim?_spec {c : ContextCache γ} (h : 0 < c.length) :
    ∃ v ∈ c.entries, c.victim? = some v ∧ ∀ e ∈ c.entries, v.rank ≤ e.rank := by
  have hsorted := c.pairwise_sorted
  have hmem := @mem_sorted _ c
  unfold victim?
  cases hentries : c.sorted with
  | nil =>
    obtain ⟨e, he⟩ := List.exists_mem_of_length_pos h
    rw [← hmem, hentries] at he
    cases he
  | cons e rest =>
    rw [hentries] at hsorted
    obtain ⟨v, hv, hleast, hscan⟩ := scan_least rest e hsorted
    rw [← hentries] at hv hleast
    exact ⟨v, hmem.mp hv, hscan, fun a ha => hleast a (hmem.mpr ha)⟩

theorem victim?_least {c : ContextCache γ} {v : CachedContext γ} (h : c.victim? = some v) :
    v ∈ c.entries ∧ ∀ e ∈ c.entries, v.rank ≤ e.rank := by
  rcases Nat.eq_zero_or_pos c.length with hempty | hpos
  · rw [victim?, sorted, List.eq_nil_of_length_eq_zero hempty, List.mergeSort_nil] at h
    cases h
  · obtain ⟨w, hmem, hw, hleast⟩ := victim?_spec hpos
    obtain rfl := Option.some.inj (hw.symm.trans h)
    exact ⟨hmem, hleast⟩

/-! ## 2. What is found under a pair after each operation -/

/-- What is found under a pair is an entry under that pair. -/
theorem key_of_find? {c : ContextCache γ} {k : CrsPair} {e : CachedContext γ}
    (h : c.find? k = some e) : e.key = k := by
  have := List.find?_some h
  exact beq_iff_eq.mp this

theorem find?_eq_none {c : ContextCache γ} {k : CrsPair} :
    c.find? k = none ↔ ∀ e ∈ c.entries, e.key ≠ k := by
  simp [find?]

theorem find?_without (c : ContextCache γ) (k k' : CrsPair) :
    (c.without k).find? k' = if k' = k then none else c.find? k' := by
  unfold find? without
  rw [List.find?_filter]
  split
  · rename_i heq
    subst heq
    simp
  · rename_i hne
    congr 1
    funext e
    by_cases h : e.key = k'
    · simp [h, hne]
    · simp [h]

theorem find?_remove (c : ContextCache γ) (k k' : CrsPair) :
    (c.remove k).cache.find? k' = if k' = k then none else c.find? k' :=
  c.find?_without k k'

theorem find?_clear (c : ContextCache γ) (k : CrsPair) : c.clear.cache.find? k = none := rfl

/-- A get counts one use of what it finds, and changes nothing else. -/
theorem find?_get (c : ContextCache γ) (k k' : CrsPair) :
    (c.get k).2.find? k' = (c.find? k').map fun e =>
      if k' = k then { e with uses := e.uses + 1 } else e := by
  have hsame : ((fun e : CachedContext γ => e.key == k') ∘ fun e : CachedContext γ =>
      if e.key == k then { e with uses := e.uses + 1 } else e) = fun e => e.key == k' := by
    funext e
    simp only [Function.comp_apply]
    split <;> rfl
  unfold get find?
  rw [List.find?_map, hsame]
  cases hfound : c.entries.find? (·.key == k') with
  | none => rfl
  | some e =>
    have hkey : e.key = k' := key_of_find? hfound
    simp [hkey]

/-- Making room changes what is found under the pair that makes it, and under no other. -/
theorem find?_makeRoom (c : ContextCache γ) (k : CrsPair) :
    c.makeRoom.cache.find? k = if c.makeRoom.evicted = some k then none else c.find? k := by
  unfold makeRoom
  split
  · simp
  · split
    · simp
    · rename_i v _
      rw [find?_without]
      by_cases h : k = v.key
      · simp [h]
      · simp [h, Ne.symm h]

/-- **A put** is found, used once; elsewhere only what made room for it is gone. -/
theorem find?_put (c : ContextCache γ) (k k' : CrsPair) (x : γ) :
    (c.put k x).cache.find? k' = if k' = k then some ⟨k, x, 1⟩
      else if (c.put k x).evicted = some k' then none else c.find? k' := by
  have hcons : (c.put k x).cache.find? k' = if k' = k then some ⟨k, x, 1⟩
      else (c.remove k).cache.makeRoom.cache.find? k' := by
    unfold put find?
    rw [List.find?_cons]
    by_cases h : k' = k
    · simp [h]
    · have hne : (k == k') = false := beq_false_of_ne (Ne.symm h)
      simp only [hne, if_neg h]
  rw [hcons]
  split
  · rfl
  · rename_i hne
    rw [find?_makeRoom, find?_remove, if_neg hne]
    rfl

/-! ## 3. One entry under each pair -/

/-- **A cache with at most one entry under each pair.** -/
def Distinct (c : ContextCache γ) : Prop := (c.entries.map (·.key)).Nodup

namespace Distinct

theorem new (capacity : Nat) : (new capacity : ContextCache γ).Distinct := List.nodup_nil

theorem clear (c : ContextCache γ) : c.clear.cache.Distinct := List.nodup_nil

variable {c : ContextCache γ} (h : c.Distinct)

include h

/-- Entries under one pair are one entry. -/
theorem eq_of_key {a b : CachedContext γ} (ha : a ∈ c.entries) (hb : b ∈ c.entries)
    (hkey : a.key = b.key) : a = b :=
  List.inj_on_of_nodup_map h ha hb hkey

theorem without (k : CrsPair) : (c.without k).Distinct :=
  List.Nodup.sublist (List.filter_sublist.map _) h

theorem remove (k : CrsPair) : (c.remove k).cache.Distinct := h.without k

theorem get (k : CrsPair) : (c.get k).2.Distinct := by
  have hkeys : (c.get k).2.entries.map (·.key) = c.entries.map (·.key) := by
    unfold ContextCache.get
    rw [List.map_map]
    refine List.map_congr_left fun e _ => ?_
    simp only [Function.comp_apply]
    split <;> rfl
  unfold Distinct
  rw [hkeys]
  exact h

theorem makeRoom : c.makeRoom.cache.Distinct := by
  unfold ContextCache.makeRoom
  split
  · exact h
  · split
    · exact h
    · exact h.without _

theorem put (k : CrsPair) (x : γ) : (c.put k x).cache.Distinct := by
  refine List.nodup_cons.mpr ⟨?_, (h.remove k).makeRoom⟩
  intro hmem
  obtain ⟨e, he, hkey⟩ := List.mem_map.mp hmem
  have hnone : (c.remove k).cache.makeRoom.cache.find? k = none := by
    rw [find?_makeRoom, find?_remove]
    simp
  exact find?_eq_none.mp hnone e he hkey

end Distinct

/-! ## 4. What a put does -/

theorem length_without_lt {c : ContextCache γ} {e : CachedContext γ} (he : e ∈ c.entries) :
    (c.without e.key).length < c.length := by
  unfold length without
  rw [List.length_filter_lt_length_iff_exists]
  exact ⟨e, he, by simp⟩

theorem length_without_le (c : ContextCache γ) (k : CrsPair) :
    (c.without k).length ≤ c.length :=
  List.length_filter_le _ _

/-- Without an entry under a pair there is nothing to take away. -/
theorem without_of_absent {c : ContextCache γ} {k : CrsPair} (h : c.find? k = none) :
    c.without k = c := by
  have habsent := find?_eq_none.mp h
  unfold without
  rw [List.filter_eq_self.mpr]
  intro e he
  simpa using habsent e he

theorem capacity_makeRoom (c : ContextCache γ) : c.makeRoom.cache.capacity = c.capacity := by
  unfold makeRoom
  split
  · rfl
  · split <;> rfl

/-- There is room for one more entry, if the cache has any. -/
theorem length_makeRoom_lt {c : ContextCache γ} (hpos : 1 ≤ c.capacity)
    (hroom : c.length ≤ c.capacity) : c.makeRoom.cache.length < c.capacity := by
  unfold makeRoom
  split
  · assumption
  · rename_i hfull
    obtain ⟨v, hmem, hv, -⟩ := victim?_spec (c := c) (by omega)
    simp only [hv]
    exact Nat.lt_of_lt_of_le (length_without_lt hmem) hroom

theorem capacity_put (c : ContextCache γ) (k : CrsPair) (x : γ) :
    (c.put k x).cache.capacity = c.capacity :=
  capacity_makeRoom _

/-- **A put under a pair that has an entry, or into a cache that is not full, evicts nothing.** -/
theorem put_replaces {c : ContextCache γ} (hroom : c.length ≤ c.capacity) (k : CrsPair) (x : γ)
    (h : c.contains k = true ∨ c.length < c.capacity) : (c.put k x).evicted = none := by
  have hlt : (c.without k).length < (c.without k).capacity := by
    show (c.without k).length < c.capacity
    rcases h with hfound | hless
    · obtain ⟨e, he⟩ := Option.isSome_iff_exists.mp hfound
      obtain rfl := key_of_find? he
      exact Nat.lt_of_lt_of_le (length_without_lt (List.mem_of_find?_eq_some he)) hroom
    · exact Nat.lt_of_le_of_lt (c.length_without_le k) hless
  unfold put remove makeRoom
  simp only
  rw [if_pos hlt]

/-- **A put under a new pair into a full cache evicts the entry of least rank,** which is under
another pair. -/
theorem put_evicts {c : ContextCache γ} (hpos : 1 ≤ c.capacity) (hdistinct : c.Distinct)
    (k : CrsPair) (x : γ) (habsent : c.contains k = false) (hfull : c.length = c.capacity) :
    ∃ v ∈ c.entries, v.key ≠ k ∧ (∀ e ∈ c.entries, e ≠ v → v.rank < e.rank) ∧
      (c.put k x).evicted = some v.key ∧ (c.put k x).released = [v.context] := by
  have hnone : c.find? k = none := by
    unfold contains at habsent
    simpa using habsent
  obtain ⟨v, hmem, hv, hleast⟩ := victim?_spec (c := c) (by omega)
  refine ⟨v, hmem, find?_eq_none.mp hnone v hmem, ?_, ?_, ?_⟩
  · intro e he hne
    refine lt_of_le_of_ne (hleast e he) fun heq => hne ?_
    exact hdistinct.eq_of_key he hmem (CachedContext.key_eq_of_rank_eq heq.symm)
  · unfold put remove makeRoom
    simp only [without_of_absent hnone]
    rw [if_neg (by omega), hv]
  · unfold put remove makeRoom
    simp only [without_of_absent hnone, hnone]
    rw [if_neg (by omega), hv]
    rfl

/-! ## 5. Operations and the history they leave -/

end ContextCache

/-- **What a cache can be asked to do.** -/
inductive CacheOp (γ : Type) where
  | put (key : CrsPair) (context : γ)
  | get (key : CrsPair)
  | remove (key : CrsPair)
  | clear

/-- **What happened to a cache:** an operation, and the pair that made room for it. -/
structure CacheEvent (γ : Type) where
  op : CacheOp γ
  evicted : Option CrsPair

namespace CacheEvent

variable {γ : Type}

/-- Whether the entry under a pair is still the same after an event, but for its uses. -/
def keeps (e : CacheEvent γ) (k : CrsPair) : Prop :=
  e.evicted ≠ some k ∧
    match e.op with
    | .put k' _ => k' ≠ k
    | .get _ => True
    | .remove k' => k' ≠ k
    | .clear => False

/-- Whether an event is a get under a pair. -/
def asks (e : CacheEvent γ) (k : CrsPair) : Bool :=
  match e.op with
  | .get k' => k' == k
  | _ => false

end CacheEvent

/-- **What a history says about a pair:** that its context was put there last, that nothing has
taken it away since, and that it was used once and then once for every get. -/
def Holds {γ : Type} (past : List (CacheEvent γ)) (k : CrsPair) (x : γ) (uses : Nat) : Prop :=
  ∃ before put after, past = before ++ put :: after ∧ put.op = .put k x ∧
    (∀ e ∈ after, e.keeps k) ∧ uses = 1 + after.countP (·.asks k)

section Holds

variable {γ : Type}

theorem not_holds_nil (k : CrsPair) (x : γ) (uses : Nat) : ¬ Holds [] k x uses := by
  rintro ⟨before, put, after, h, -⟩
  simp at h

/-- **One event more:** a put begins anew, and any other event that keeps the entry counts a use if
it is a get. -/
theorem holds_concat (past : List (CacheEvent γ)) (e : CacheEvent γ) (k : CrsPair) (x : γ)
    (uses : Nat) : Holds (past ++ [e]) k x uses ↔
      (e.op = .put k x ∧ uses = 1) ∨
        (e.keeps k ∧ ∃ n, Holds past k x n ∧ uses = n + if e.asks k then 1 else 0) := by
  constructor
  · rintro ⟨before, put, after, hpast, hput, hkeeps, rfl⟩
    -- the last event of the history is the put itself, or it came after the put
    induction after using List.reverseRecOn with
    | nil =>
      obtain ⟨-, hlast⟩ := List.append_inj' hpast rfl
      cases hlast
      exact Or.inl ⟨hput, rfl⟩
    | append_singleton after last _ =>
      have hsplit : past ++ [e] = (before ++ put :: after) ++ [last] := by simp [hpast]
      obtain ⟨rfl, hlast⟩ := List.append_inj' hsplit rfl
      cases hlast
      refine Or.inr ⟨hkeeps e (by simp), _, ⟨before, put, after, rfl, hput, ?_, rfl⟩, ?_⟩
      · intro e' he'
        exact hkeeps e' (List.mem_append_left _ he')
      · rw [List.countP_append, List.countP_singleton, Nat.add_assoc]
  · rintro (⟨hput, rfl⟩ | ⟨hkeep, n, ⟨before, put, after, rfl, hput, hkeeps, rfl⟩, rfl⟩)
    · exact ⟨past, e, [], rfl, hput, by simp, rfl⟩
    · refine ⟨before, put, after ++ [e], by simp, hput, ?_, ?_⟩
      · intro e' he'
        rcases List.mem_append.mp he' with he' | he'
        · exact hkeeps e' he'
        · exact List.mem_singleton.mp he' ▸ hkeep
      · rw [List.countP_append, List.countP_singleton, Nat.add_assoc]

end Holds

namespace ContextCache

variable {γ : Type}

/-- One operation. -/
def apply (c : ContextCache γ) : CacheOp γ → CacheChange γ
  | .put k x => c.put k x
  | .get k => ⟨(c.get k).2, [], none⟩
  | .remove k => c.remove k
  | .clear => c.clear

/-- The cache after some operations. -/
def after (c : ContextCache γ) (ops : List (CacheOp γ)) : ContextCache γ :=
  ops.foldl (fun c op => (c.apply op).cache) c

/-- What happens to a cache in some operations, in order. -/
def history (c : ContextCache γ) : List (CacheOp γ) → List (CacheEvent γ)
  | [] => []
  | op :: ops => ⟨op, (c.apply op).evicted⟩ :: (c.apply op).cache.history ops

/-- **A cache that its history explains.** -/
structure Explained (c : ContextCache γ) (past : List (CacheEvent γ)) : Prop where
  capacity_pos : 1 ≤ c.capacity
  room : c.length ≤ c.capacity
  distinct : c.Distinct
  found_iff : ∀ k x uses, c.find? k = some ⟨k, x, uses⟩ ↔ Holds past k x uses

theorem explained_new (capacity : Nat) : (new capacity : ContextCache γ).Explained [] where
  capacity_pos := Nat.le_max_right ..
  room := Nat.zero_le _
  distinct := .new capacity
  found_iff k x uses := by
    constructor
    · intro h
      cases h
    · intro h
      exact absurd h (not_holds_nil k x uses)

namespace Explained

variable {c : ContextCache γ} {past : List (CacheEvent γ)} (h : c.Explained past)

include h

/-- What is found after an event is what the event makes of what was found before it. -/
theorem found_concat (e : CacheEvent γ) {c' : ContextCache γ}
    (hfind : ∀ k x uses, c'.find? k = some ⟨k, x, uses⟩ ↔
      (e.op = .put k x ∧ uses = 1) ∨
        (e.keeps k ∧ ∃ n, c.find? k = some ⟨k, x, n⟩ ∧ uses = n + if e.asks k then 1 else 0))
    (k : CrsPair) (x : γ) (uses : Nat) :
    c'.find? k = some ⟨k, x, uses⟩ ↔ Holds (past ++ [e]) k x uses := by
  rw [hfind, holds_concat]
  simp only [h.found_iff]

theorem put (k : CrsPair) (x : γ) :
    (c.put k x).cache.Explained (past ++ [⟨.put k x, (c.put k x).evicted⟩]) where
  capacity_pos := (c.capacity_put k x).symm ▸ h.capacity_pos
  room := by
    rw [c.capacity_put k x]
    exact length_makeRoom_lt h.capacity_pos ((c.length_without_le k).trans h.room)
  distinct := h.distinct.put k x
  found_iff := by
    refine h.found_concat _ fun k' x' uses => ?_
    rw [find?_put]
    by_cases hk : k' = k
    · subst hk
      simp only [CacheEvent.keeps, if_true, Option.some.injEq, CachedContext.mk.injEq, true_and,
        CacheOp.put.injEq, ne_eq, not_true_eq_false, and_false, false_and, or_false]
      exact and_congr_right fun _ => eq_comm
    · have hk' : ¬ k = k' := fun heq => hk heq.symm
      by_cases hevicted : (c.put k x).evicted = some k'
      · simp [CacheEvent.keeps, hk, hk', hevicted]
      · simp [CacheEvent.keeps, CacheEvent.asks, hk, hk', hevicted]

theorem get (k : CrsPair) : (c.get k).2.Explained (past ++ [⟨.get k, none⟩]) where
  capacity_pos := h.capacity_pos
  room := by
    show (List.map _ c.entries).length ≤ c.capacity
    rw [List.length_map]
    exact h.room
  distinct := h.distinct.get k
  found_iff := by
    refine h.found_concat _ fun k' x uses => ?_
    rw [find?_get]
    cases hfound : c.find? k' with
    | none => simp
    | some e =>
      obtain ⟨key, context, n⟩ := e
      obtain rfl : key = k' := key_of_find? hfound
      by_cases hk : key = k
      · subst hk
        simp only [CacheEvent.keeps, CacheEvent.asks, beq_self_eq_true, if_true, Option.map_some,
          Option.some.injEq, CachedContext.mk.injEq, true_and, reduceCtorEq, false_and, false_or,
          ne_eq, not_false_eq_true]
        constructor
        · rintro ⟨rfl, rfl⟩
          exact ⟨n, ⟨rfl, rfl⟩, rfl⟩
        · rintro ⟨m, ⟨rfl, rfl⟩, rfl⟩
          exact ⟨rfl, rfl⟩
      · have hk' : ¬ k = key := fun heq => hk heq.symm
        simp [CacheEvent.keeps, CacheEvent.asks, hk, hk']

theorem remove (k : CrsPair) :
    (c.remove k).cache.Explained (past ++ [⟨.remove k, none⟩]) where
  capacity_pos := h.capacity_pos
  room := (c.length_without_le k).trans h.room
  distinct := h.distinct.remove k
  found_iff := by
    refine h.found_concat _ fun k' x uses => ?_
    rw [find?_remove]
    by_cases hk : k' = k
    · simp [CacheEvent.keeps, hk]
    · have hk' : ¬ k = k' := fun heq => hk heq.symm
      simp [CacheEvent.keeps, CacheEvent.asks, hk, hk']

theorem clear : c.clear.cache.Explained (past ++ [⟨.clear, none⟩]) where
  capacity_pos := h.capacity_pos
  room := Nat.zero_le _
  distinct := .clear c
  found_iff := by
    refine h.found_concat _ fun k x uses => ?_
    rw [find?_clear]
    simp [CacheEvent.keeps]

/-- **Every operation keeps a cache and its history in step.** -/
theorem apply (op : CacheOp γ) :
    (c.apply op).cache.Explained (past ++ [⟨op, (c.apply op).evicted⟩]) := by
  cases op with
  | put k x => exact h.put k x
  | get k => exact h.get k
  | remove k => exact h.remove k
  | clear => exact h.clear

end Explained

/-- **So does a run of operations,** by induction on them. -/
theorem Explained.after : ∀ (ops : List (CacheOp γ)) {c : ContextCache γ}
    {past : List (CacheEvent γ)}, c.Explained past → (c.after ops).Explained (past ++ c.history ops)
  | [], c, past, h => by
    rw [history, List.append_nil]
    exact h
  | op :: ops, c, past, h => by
    have hrest := Explained.after ops (h.apply op)
    rw [List.append_assoc] at hrest
    exact hrest

theorem capacity_apply (c : ContextCache γ) (op : CacheOp γ) :
    (c.apply op).cache.capacity = c.capacity := by
  cases op with
  | put k x => exact c.capacity_put k x
  | _ => rfl

theorem capacity_after : ∀ (ops : List (CacheOp γ)) (c : ContextCache γ),
    (c.after ops).capacity = c.capacity
  | [], _ => rfl
  | op :: ops, c => (capacity_after ops (c.apply op).cache).trans (c.capacity_apply op)

/-! ## 6. Least-frequently-used eviction -/

/-- **The cache evicts what was used least,** after any operations on an empty one.

* It never holds more entries than its capacity, of which there is one at least.
* What it finds under a pair is what its history says: the context of the last put, if nothing has
  taken it away since, used once and once more for every get.
* A put is found under its pair, used once.  If the pair had an entry, or if there was room, nothing
  is evicted and every other pair keeps its entry.
* A put under a new pair into a full cache evicts the one entry that is least by uses, then source,
  then destination, and never the new one.  Every other pair keeps its entry. -/
theorem least_used_makes_room (capacity : Nat) (ops : List (CacheOp γ)) :
    let c := (new capacity : ContextCache γ).after ops
    c.length ≤ max capacity 1 ∧
    (∀ k x uses, c.find? k = some ⟨k, x, uses⟩ ↔
      Holds ((new capacity : ContextCache γ).history ops) k x uses) ∧
    ∀ k x, (c.put k x).cache.find? k = some ⟨k, x, 1⟩ ∧
      (c.contains k = true ∨ c.length < max capacity 1 → (c.put k x).evicted = none ∧
        ∀ k', k' ≠ k → (c.put k x).cache.find? k' = c.find? k') ∧
      (c.contains k = false → c.length = max capacity 1 →
        ∃ v ∈ c.entries, v.key ≠ k ∧ (∀ e ∈ c.entries, e ≠ v → v.rank < e.rank) ∧
          (c.put k x).evicted = some v.key ∧ (c.put k x).released = [v.context] ∧
          (c.put k x).cache.find? v.key = none ∧
          ∀ k', k' ≠ k → k' ≠ v.key → (c.put k x).cache.find? k' = c.find? k') := by
  intro c
  have hcapacity : c.capacity = max capacity 1 := capacity_after ops _
  have hexplained : c.Explained ((new capacity : ContextCache γ).history ops) :=
    (explained_new capacity).after ops
  rw [← hcapacity]
  refine ⟨hexplained.room, hexplained.found_iff, fun k x => ⟨?_, ?_, ?_⟩⟩
  · rw [find?_put, if_pos rfl]
  · intro h
    have hnone := put_replaces hexplained.room k x h
    refine ⟨hnone, fun k' hk' => ?_⟩
    rw [find?_put, if_neg hk', hnone, if_neg nofun]
  · intro habsent hfull
    obtain ⟨v, hv, hne, hleast, hevicted, hreleased⟩ :=
      put_evicts hexplained.capacity_pos hexplained.distinct k x habsent hfull
    refine ⟨v, hv, hne, hleast, hevicted, hreleased, ?_, fun k' hk hk' => ?_⟩
    · rw [find?_put, if_neg hne, hevicted, if_pos rfl]
    · rw [find?_put, if_neg hk, hevicted, if_neg]
      intro heq
      exact hk' (Option.some.inj heq).symm

/-- Two entries used equally often: the one with the smaller pair makes room, although it was put
there last and the other was asked for first. -/
example : ((((new 2 : ContextCache Nat).after [.put ⟨"B", "A"⟩ 1, .put ⟨"A", "C"⟩ 2,
    .get ⟨"B", "A"⟩, .get ⟨"A", "C"⟩]).put ⟨"C", "D"⟩ 3).evicted) = some ⟨"A", "C"⟩ := by
  cbv

end ContextCache
end RasterWarp
