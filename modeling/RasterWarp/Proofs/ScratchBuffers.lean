/-
# Scratch buffers are clean, private and few

`Lending` says what buffers hold and not where they lie, so two of them could not share storage if
they tried.  Here they lie in one memory, each at an address: a pool has the addresses of those that
wait and of those that are out (`PlacedPool`), and several pools, each known under many handles, lie
beside each other (`ScratchMemory`).  Where a buffer is put when it is checked out is up to whoever
manages the memory, as long as no other buffer is there (`Free`); between two uses, memory that
belongs to no buffer may change at will.

* `lending_acquire`, `lending_turnDown`, `lending_write`, `lending_release`: a pool in memory, read
  through its addresses, takes the steps of a `Lending`.  It does so because no address is used
  twice.
* `Sound`: no address is used twice, within a pool or among pools, and every pool is on a course.
  Every step keeps that (`Sound.put`, and one case of it for each step).
* `scratch_clean_private_bounded` is what follows for everything that can be reached.
-/
import RasterWarp.Proofs.LentBuffers
import Mathlib.Logic.Function.Basic
import Mathlib.Data.Fintype.EquivFin

namespace RasterWarp

/-! ## 1. A pool whose buffers lie in memory -/

/-- **A pool by the addresses of its buffers:** those that wait, the one returned last first, and
those that are out, each under its number.  The history of its uses is kept beside them. -/
structure PlacedPool where
  maxIdle : Nat
  idle : List Nat
  lent : List (Nat × Nat)
  next : Nat
  uses : List Lending.Use

namespace PlacedPool

def empty (maxIdle : Nat) : PlacedPool := ⟨maxIdle, [], [], 0, []⟩

/-- What the pool and its buffers are, read through the addresses. -/
def lending (p : PlacedPool) (bytes : Nat → Bytes) : Lending :=
  ⟨⟨p.idle.map bytes, p.maxIdle⟩, p.lent.map fun e => (e.1, bytes e.2), p.next⟩

/-- Where its buffers lie. -/
def addresses (p : PlacedPool) : List Nat := p.idle ++ p.lent.map Prod.snd

/-- The pool without the buffer that the next is made of, if one waits. -/
def rest (p : PlacedPool) : PlacedPool := { p with idle := p.idle.tail }

/-- The next buffer is out, at an address. -/
def acquire (p : PlacedPool) (size a : Nat) : PlacedPool :=
  { p.rest with
    lent := (p.next, a) :: p.lent
    next := p.next + 1
    uses := p.uses ++ [.acquire size] }

/-- No buffer is out, since none is of the size asked for, but the one that waited is gone. -/
def turnDown (p : PlacedPool) (size : Nat) : PlacedPool :=
  { p.rest with uses := p.uses ++ [.acquire size] }

/-- A buffer was written to, where it lies. -/
def write (p : PlacedPool) (n : Nat) (f : Bytes → Bytes) : PlacedPool :=
  { p with uses := p.uses ++ [.write n f] }

/-- The buffer under a number and at an address is not out any more.  It waits, if there is room. -/
def release (p : PlacedPool) (n a : Nat) : PlacedPool :=
  { p with
    idle := if p.idle.length < p.maxIdle then a :: p.idle else p.idle
    lent := p.lent.filter fun e => e.1 ≠ n
    uses := p.uses ++ [.release n] }

variable (p : PlacedPool) {bytes : Nat → Bytes} {n a : Nat}

theorem get?_lending (bytes : Nat → Bytes) (n : Nat) :
    (p.lending bytes).get? n = (p.lent.lookup n).map bytes :=
  lookup_map (fun _ => bytes) p.lent n

/-- A buffer that is out holds what is at its address. -/
theorem get?_lending_of_lookup (hn : p.lent.lookup n = some a) (bytes : Nat → Bytes) :
    (p.lending bytes).get? n = some (bytes a) := by
  rw [get?_lending, hn, Option.map_some]

/-- What a pool is depends on the contents of its own buffers only. -/
theorem lending_congr {bytes' : Nat → Bytes} (h : ∀ a ∈ p.addresses, bytes' a = bytes a) :
    p.lending bytes' = p.lending bytes := by
  have hidle : p.idle.map bytes' = p.idle.map bytes :=
    List.map_congr_left fun a ha => h a (List.mem_append_left _ ha)
  have hlent : (p.lent.map fun e => (e.1, bytes' e.2)) = p.lent.map fun e => (e.1, bytes e.2) :=
    List.map_congr_left fun e he => by
      rw [h e.2 (List.mem_append_right _ (List.mem_map_of_mem he))]
  rw [lending, lending, hidle, hlent]

/-- What is left of a pool of values, read through the addresses. -/
theorem pool_rest (bytes : Nat → Bytes) (size : Nat) :
    (p.rest.lending bytes).pool = ((p.lending bytes).pool.acquire size).2 := by
  rw [ScratchPool.acquire_eq]
  unfold rest lending
  simp only [List.map_tail]

/-- **A buffer is checked out in memory** as it is from a pool of values, if it comes to lie where
no other buffer of the pool does. -/
theorem lending_acquire {size : Nat} (hsize : size < bufferBound) (ha : a ∉ p.rest.addresses) :
    (p.acquire size a).lending (Function.update bytes a (Bytes.zeros size))
      = ((p.lending bytes).acquire size).2 := by
  have hrest : p.rest.lending (Function.update bytes a (Bytes.zeros size)) = p.rest.lending bytes :=
    p.rest.lending_congr fun other hother =>
      Function.update_of_ne (ne_of_mem_of_not_mem hother ha) ..
  calc (p.acquire size a).lending (Function.update bytes a (Bytes.zeros size))
      = ⟨(p.rest.lending (Function.update bytes a (Bytes.zeros size))).pool,
          (p.next, Function.update bytes a (Bytes.zeros size) a) ::
            (p.rest.lending (Function.update bytes a (Bytes.zeros size))).lent,
          p.next + 1⟩ := rfl
    _ = ⟨(p.rest.lending bytes).pool, (p.next, Bytes.zeros size) :: (p.rest.lending bytes).lent,
          p.next + 1⟩ := by rw [hrest, Function.update_self]
    _ = ((p.lending bytes).acquire size).2 := by
      rw [Lending.acquire_of_lt _ hsize, pool_rest p bytes size]
      rfl

/-- So is none. -/
theorem lending_turnDown {size : Nat} (hsize : bufferBound ≤ size) :
    (p.turnDown size).lending bytes = ((p.lending bytes).acquire size).2 := by
  rw [Lending.acquire_of_le _ hsize, ← pool_rest p bytes size]
  rfl

/-- **A buffer is written to in memory** as it is under its number, if no other lies there. -/
theorem lending_write (hlent : (p.lent.map Prod.fst).Nodup) (hplaced : p.addresses.Nodup)
    (hn : p.lent.lookup n = some a) (f : Bytes → Bytes) :
    (p.write n f).lending (Function.update bytes a (f (bytes a)))
      = (p.lending bytes).update n f := by
  have hmem := mem_of_lookup hn
  obtain ⟨-, haddresses, hdisjoint⟩ := List.nodup_append'.mp hplaced
  have hidle : p.idle.map (Function.update bytes a (f (bytes a))) = p.idle.map bytes :=
    List.map_congr_left fun other hother =>
      Function.update_of_ne
        (fun heq => hdisjoint hother (List.mem_map.mpr ⟨_, hmem, heq.symm⟩)) ..
  have hentries : (p.lent.map fun e => (e.1, Function.update bytes a (f (bytes a)) e.2))
      = p.lent.map fun e => (e.1, if e.1 = n then f (bytes e.2) else bytes e.2) :=
    List.map_congr_left fun e he => by
      by_cases hnumber : e.1 = n
      · have he' : e = (n, a) := List.inj_on_of_nodup_map hlent he hmem hnumber
        rw [he', Function.update_self, if_pos rfl]
      · have haddress : e.2 ≠ a := fun heq =>
          hnumber (congrArg Prod.fst (List.inj_on_of_nodup_map haddresses he hmem heq))
        rw [Function.update_of_ne haddress, if_neg hnumber]
  unfold Lending.update lending write
  simp only [hidle, hentries]
  rw [map_entry, List.map_map]
  rfl

/-- **A buffer is handed back in memory** as it is among values. -/
theorem lending_release (hn : p.lent.lookup n = some a) :
    (p.release n a).lending bytes = (p.lending bytes).release n := by
  have hpool : (⟨(p.release n a).idle.map bytes, p.maxIdle⟩ : ScratchPool)
      = (p.lending bytes).pool.release (bytes a) := by
    unfold ScratchPool.release release lending
    simp only [List.length_map]
    split <;> rfl
  rw [Lending.release_eq _ n (p.get?_lending_of_lookup hn bytes), ← hpool]
  simp only [lending, release, List.filter_map]
  rfl

/-- What the next buffer is not made of is a part of the pool. -/
theorem rest_addresses_sublist : p.rest.addresses.Sublist p.addresses :=
  (List.tail_sublist p.idle).append_right _

theorem mem_addresses_of_lookup (hn : p.lent.lookup n = some a) : a ∈ p.addresses :=
  List.mem_append_right _ (List.mem_map.mpr ⟨_, mem_of_lookup hn, rfl⟩)

theorem acquire_addresses_perm (size a : Nat) :
    (p.acquire size a).addresses.Perm (a :: p.rest.addresses) := List.perm_middle

/-- A buffer that is handed back stays where it was, if it stays. -/
theorem release_addresses_sublist (n a : Nat) : (p.release n a).addresses.Sublist
    (a :: (p.idle ++ (p.lent.filter fun e => e.1 ≠ n).map Prod.snd)) := by
  unfold release addresses
  simp only
  split
  · exact .refl _
  · exact List.sublist_cons_self ..

theorem mem_of_mem_release (hn : p.lent.lookup n = some a) {other : Nat}
    (h : other ∈ (p.release n a).addresses) : other ∈ p.addresses := by
  rcases List.mem_cons.mp ((p.release_addresses_sublist n a).subset h) with rfl | h
  · exact p.mem_addresses_of_lookup hn
  · rcases List.mem_append.mp h with h | h
    · exact List.mem_append_left _ h
    · exact List.mem_append_right _ ((List.filter_sublist.map _).subset h)

/-- **No address is used twice after a buffer was handed back,** for none of the others is where it
is. -/
theorem release_addresses_nodup (hplaced : p.addresses.Nodup) (hn : p.lent.lookup n = some a) :
    (p.release n a).addresses.Nodup := by
  have hmem := mem_of_lookup hn
  obtain ⟨hidle, haddresses, hdisjoint⟩ := List.nodup_append'.mp hplaced
  have hleft : ((p.lent.filter fun e => e.1 ≠ n).map Prod.snd).Sublist (p.lent.map Prod.snd) :=
    List.filter_sublist.map _
  refine List.Nodup.sublist (p.release_addresses_sublist n a) (List.nodup_cons.mpr ⟨?_, ?_⟩)
  · rw [List.mem_append, not_or]
    constructor
    · exact fun h => hdisjoint h (List.mem_map.mpr ⟨_, hmem, rfl⟩)
    · intro h
      obtain ⟨e, he, heq⟩ := List.mem_map.mp h
      obtain ⟨he, hnumber⟩ := List.mem_filter.mp he
      have hsame : e = (n, a) := List.inj_on_of_nodup_map haddresses he hmem heq
      exact of_decide_eq_true hnumber (congrArg Prod.fst hsame)
  · exact hidle.append (haddresses.sublist hleft) fun _ h h' => hdisjoint h (hleft.subset h')

end PlacedPool

/-! ## 2. Pools in one memory -/

/-- **Pools beside each other in one memory.**  A handle is the place of its pool, so all clones of
one are equal. -/
structure ScratchMemory where
  bytes : Nat → Bytes
  pools : List PlacedPool
  handles : List Nat

namespace ScratchMemory

/-- What the buffer under a number of a pool holds, while it is out. -/
def get? (m : ScratchMemory) (i n : Nat) : Option Bytes :=
  m.pools[i]?.bind fun p => (p.lending m.bytes).get? n

/-- One pool and contents are replaced. -/
def put (m : ScratchMemory) (bytes : Nat → Bytes) (i : Nat) (p : PlacedPool) : ScratchMemory :=
  { m with bytes, pools := m.pools.set i p }

/-- A new pool, and the first handle to it. -/
def create (m : ScratchMemory) (maxIdle : Nat) : ScratchMemory :=
  { m with pools := m.pools ++ [.empty maxIdle], handles := m.handles ++ [m.pools.length] }

/-- Another handle to the pool at a place. -/
def clone (m : ScratchMemory) (i : Nat) : ScratchMemory := { m with handles := m.handles ++ [i] }

/-- A buffer of a pool is asked for, and if it is checked out, it lies at an address. -/
def acquire (m : ScratchMemory) (i size a : Nat) : ScratchMemory :=
  match m.pools[i]? with
  | none => m
  | some p =>
    match ((p.lending m.bytes).pool.acquire size).1 with
    | .ok b => m.put (Function.update m.bytes a b) i (p.acquire size a)
    | .error _ => m.put m.bytes i (p.turnDown size)

/-- The buffer under a number of a pool is changed where it lies. -/
def write (m : ScratchMemory) (i n : Nat) (f : Bytes → Bytes) : ScratchMemory :=
  match m.pools[i]? with
  | none => m
  | some p =>
    match p.lent.lookup n with
    | none => m
    | some a => m.put (Function.update m.bytes a (f (m.bytes a))) i (p.write n f)

/-- The buffer under a number of a pool is handed back. -/
def release (m : ScratchMemory) (i n : Nat) : ScratchMemory :=
  match m.pools[i]? with
  | none => m
  | some p =>
    match p.lent.lookup n with
    | none => m
    | some a => m.put m.bytes i (p.release n a)

/-- No pool but one has a buffer at an address. -/
def Apart (m : ScratchMemory) (i a : Nat) : Prop :=
  ∀ j p, j ≠ i → m.pools[j]? = some p → a ∉ p.addresses

/-- **An address is free for a pool's next buffer,** if no buffer is there but the one that the next
is made of. -/
structure Free (m : ScratchMemory) (i a : Nat) : Prop where
  own : ∀ p, m.pools[i]? = some p → a ∉ p.rest.addresses
  apart : m.Apart i a

/-- **What can come of a program that uses pools.**  It checks buffers out through any handle, and
writes to and hands back the buffers that it has, in any order. -/
inductive Reached : ScratchMemory → Prop
  | start (bytes : Nat → Bytes) : Reached ⟨bytes, [], []⟩
  | create {m : ScratchMemory} (h : Reached m) (maxIdle : Nat) : Reached (m.create maxIdle)
  | clone {m : ScratchMemory} (h : Reached m) {via i : Nat} (hvia : m.handles[via]? = some i) :
      Reached (m.clone i)
  | acquire {m : ScratchMemory} (h : Reached m) {via i a : Nat} (hvia : m.handles[via]? = some i)
      (ha : m.Free i a) (size : Nat) : Reached (m.acquire i size a)
  | write {m : ScratchMemory} (h : Reached m) {i n : Nat} {b : Bytes} (hn : m.get? i n = some b)
      (f : Bytes → Bytes) : Reached (m.write i n f)
  | release {m : ScratchMemory} (h : Reached m) {i n : Nat} {b : Bytes}
      (hn : m.get? i n = some b) : Reached (m.release i n)
  | elsewhere {m : ScratchMemory} (h : Reached m) {bytes : Nat → Bytes}
      (hkept : ∀ p ∈ m.pools, ∀ a ∈ p.addresses, bytes a = m.bytes a) :
      Reached { m with bytes }

/-! ## 3. What every step keeps -/

variable {m : ScratchMemory} {i : Nat} {p : PlacedPool}

/-- **No address is used twice, and every pool is on a course** with its history. -/
structure Sound (m : ScratchMemory) : Prop where
  handled : ∀ i ∈ m.handles, i < m.pools.length
  course : ∀ (i : Nat) (p : PlacedPool), m.pools[i]? = some p →
    Lending.Course p.maxIdle p.uses (p.lending m.bytes)
  once : ∀ (i : Nat) (p : PlacedPool), m.pools[i]? = some p → p.addresses.Nodup
  apart : ∀ (i : Nat) (p : PlacedPool), m.pools[i]? = some p → ∀ a ∈ p.addresses, m.Apart i a

/-- Contents that leave the buffers of all pools but one alone. -/
def KeepsOthers (m : ScratchMemory) (bytes : Nat → Bytes) (i : Nat) : Prop :=
  ∀ j p, j ≠ i → m.pools[j]? = some p → ∀ a ∈ p.addresses, bytes a = m.bytes a

/-- What is written where no other pool has a buffer is such a change. -/
theorem Apart.keepsOthers {a : Nat} (h : m.Apart i a) (b : Bytes) :
    m.KeepsOthers (Function.update m.bytes a b) i := by
  intro j p hj hp other hother
  exact Function.update_of_ne (ne_of_mem_of_not_mem hother (h j p hj hp)) ..

theorem pools_put (hp : m.pools[i]? = some p) (bytes : Nat → Bytes) (p' : PlacedPool) (j : Nat) :
    (m.put bytes i p').pools[j]? = if j = i then some p' else m.pools[j]? := by
  obtain ⟨hlt, -⟩ := List.getElem?_eq_some_iff.mp hp
  show (m.pools.set i p')[j]? = _
  rw [List.getElem?_set]
  by_cases h : i = j
  · rw [if_pos h, if_pos hlt, if_pos h.symm]
  · rw [if_neg h, if_neg (Ne.symm h)]

/-- A pool that is there afterwards is the new one, or was there before. -/
theorem pool_of_put (hp : m.pools[i]? = some p) {bytes : Nat → Bytes} {p' q : PlacedPool} {j : Nat}
    (hq : (m.put bytes i p').pools[j]? = some q) :
    j = i ∧ q = p' ∨ j ≠ i ∧ m.pools[j]? = some q := by
  rw [pools_put hp] at hq
  by_cases hj : j = i
  · rw [if_pos hj, Option.some_inj] at hq
    exact .inl ⟨hj, hq.symm⟩
  · rw [if_neg hj] at hq
    exact .inr ⟨hj, hq⟩

/-- What is held after one pool was replaced. -/
theorem get?_put (hp : m.pools[i]? = some p) {bytes : Nat → Bytes} (hkeeps : m.KeepsOthers bytes i)
    (p' : PlacedPool) (j n : Nat) :
    (m.put bytes i p').get? j n = if j = i then (p'.lending bytes).get? n else m.get? j n := by
  unfold get?
  rw [pools_put hp]
  by_cases h : j = i
  · rw [if_pos h, if_pos h]
    rfl
  · rw [if_neg h, if_neg h]
    cases hq : m.pools[j]? with
    | none => rfl
    | some q =>
      show (q.lending bytes).get? n = (q.lending m.bytes).get? n
      rw [q.lending_congr (hkeeps j q h hq)]

/-- **A step is of one pool:** it goes on with its course, at addresses that no other pool has, and
what lies in the buffers of others stays. -/
theorem Sound.put (h : m.Sound) (hp : m.pools[i]? = some p) {bytes : Nat → Bytes} {p' : PlacedPool}
    (hkeeps : m.KeepsOthers bytes i)
    (hcourse : Lending.Course p'.maxIdle p'.uses (p'.lending bytes)) (honce : p'.addresses.Nodup)
    (happart : ∀ a ∈ p'.addresses, m.Apart i a) : (m.put bytes i p').Sound where
  handled j hj := (h.handled j hj).trans_eq List.length_set.symm
  course j q hq := by
    rcases pool_of_put hp hq with ⟨-, rfl⟩ | ⟨hj, hq⟩
    · exact hcourse
    · show Lending.Course q.maxIdle q.uses (q.lending bytes)
      rw [q.lending_congr (hkeeps j q hj hq)]
      exact h.course j q hq
  once j q hq := by
    rcases pool_of_put hp hq with ⟨-, rfl⟩ | ⟨-, hq⟩
    · exact honce
    · exact h.once j q hq
  apart j q hq a ha k r hk hr := by
    rcases pool_of_put hp hq with ⟨rfl, rfl⟩ | ⟨hj, hqj⟩
    · rcases pool_of_put hp hr with ⟨hkj, -⟩ | ⟨-, hr⟩
      · exact absurd hkj hk
      · exact happart a ha k r hk hr
    · rcases pool_of_put hp hr with ⟨rfl, rfl⟩ | ⟨-, hr⟩
      · exact fun har => happart a har j q hj hqj ha
      · exact h.apart j q hqj a ha k r hk hr

/-! ## 4. The steps -/

section Steps

variable {n a : Nat}

theorem acquire_of_lt (hp : m.pools[i]? = some p) {size : Nat} (hsize : size < bufferBound)
    (a : Nat) : m.acquire i size a
      = m.put (Function.update m.bytes a (Bytes.zeros size)) i (p.acquire size a) := by
  unfold acquire
  simp only [hp, ScratchPool.acquire_eq, if_pos hsize]

theorem acquire_of_le (hp : m.pools[i]? = some p) {size : Nat} (hsize : bufferBound ≤ size)
    (a : Nat) : m.acquire i size a = m.put m.bytes i (p.turnDown size) := by
  unfold acquire
  simp only [hp, ScratchPool.acquire_eq, if_neg (Nat.not_lt.mpr hsize)]

theorem write_eq (hp : m.pools[i]? = some p) (hn : p.lent.lookup n = some a)
    (f : Bytes → Bytes) : m.write i n f
      = m.put (Function.update m.bytes a (f (m.bytes a))) i (p.write n f) := by
  unfold write
  simp only [hp, hn]

theorem release_eq (hp : m.pools[i]? = some p) (hn : p.lent.lookup n = some a) :
    m.release i n = m.put m.bytes i (p.release n a) := by
  unfold release
  simp only [hp, hn]

/-- A buffer that is out belongs to a pool, and lies somewhere. -/
theorem placed_of_get? {b : Bytes} (hn : m.get? i n = some b) :
    ∃ p a, m.pools[i]? = some p ∧ p.lent.lookup n = some a := by
  obtain ⟨p, hp, hb⟩ := Option.bind_eq_some_iff.mp hn
  rw [p.get?_lending] at hb
  obtain ⟨a, ha, -⟩ := Option.map_eq_some_iff.mp hb
  exact ⟨p, a, hp, ha⟩

/-- A pool that is there after another was made is that one, or was there before. -/
theorem pool_of_create {maxIdle j : Nat} {q : PlacedPool}
    (hq : (m.create maxIdle).pools[j]? = some q) : q = .empty maxIdle ∨ m.pools[j]? = some q := by
  have hq' : (m.pools ++ [PlacedPool.empty maxIdle])[j]? = some q := hq
  rw [List.getElem?_append] at hq'
  split at hq'
  · exact .inr hq'
  · exact .inl (List.mem_singleton.mp (List.mem_of_getElem? hq'))

namespace Sound

variable (h : m.Sound)

include h

/-- Every handle leads to a pool. -/
theorem exists_pool {via : Nat} (hvia : m.handles[via]? = some i) :
    ∃ p, m.pools[i]? = some p :=
  ⟨_, List.getElem?_eq_getElem (h.handled i (List.mem_of_getElem? hvia))⟩

theorem create (maxIdle : Nat) : (m.create maxIdle).Sound where
  handled j hj := by
    rw [ScratchMemory.create, List.length_append, List.length_singleton]
    rcases List.mem_append.mp hj with hj | hj
    · exact Nat.lt_succ_of_lt (h.handled j hj)
    · exact List.mem_singleton.mp hj ▸ Nat.lt_succ_self _
  course j q hq := by
    rcases pool_of_create hq with rfl | hq
    · exact .start
    · exact h.course j q hq
  once j q hq := by
    rcases pool_of_create hq with rfl | hq
    · exact List.nodup_nil
    · exact h.once j q hq
  apart j q hq a ha k r hk hr := by
    rcases pool_of_create hr with rfl | hr
    · exact List.not_mem_nil
    · rcases pool_of_create hq with rfl | hq
      · exact absurd ha List.not_mem_nil
      · exact h.apart j q hq a ha k r hk hr

theorem clone {via : Nat} (hvia : m.handles[via]? = some i) : (m.clone i).Sound where
  handled j hj := by
    rcases List.mem_append.mp hj with hj | hj
    · exact h.handled j hj
    · exact List.mem_singleton.mp hj ▸ h.handled i (List.mem_of_getElem? hvia)
  course := h.course
  once := h.once
  apart := h.apart

/-- Memory that belongs to no buffer is of no account. -/
theorem elsewhere {bytes : Nat → Bytes}
    (hkept : ∀ p ∈ m.pools, ∀ a ∈ p.addresses, bytes a = m.bytes a) :
    Sound { m with bytes } where
  handled := h.handled
  course j q hq := by
    show Lending.Course q.maxIdle q.uses (q.lending bytes)
    rw [q.lending_congr (hkept q (List.mem_of_getElem? hq))]
    exact h.course j q hq
  once := h.once
  apart := h.apart

variable (hp : m.pools[i]? = some p)

include hp

theorem kept : Lending.Kept p.maxIdle p.uses (p.lending m.bytes) := (h.course i p hp).kept

/-- A write in memory is one to the buffer under the number. -/
theorem lending_write (hn : p.lent.lookup n = some a) (f : Bytes → Bytes) :
    (p.write n f).lending (Function.update m.bytes a (f (m.bytes a)))
      = (p.lending m.bytes).update n f := by
  have hdistinct := (h.kept hp).distinct
  rw [PlacedPool.lending, List.map_map] at hdistinct
  exact p.lending_write hdistinct (h.once i p hp) hn f

theorem acquire (ha : m.Free i a) (size : Nat) : (m.acquire i size a).Sound := by
  have hcourse := (h.course i p hp).use (u := .acquire size) trivial
  rcases Nat.lt_or_ge size bufferBound with hsize | hsize
  · have hperm := p.acquire_addresses_perm size a
    have hown := ha.own p hp
    rw [acquire_of_lt hp hsize]
    refine h.put hp (ha.apart.keepsOthers _) ?_ ?_ ?_
    · rw [p.lending_acquire hsize hown]
      exact hcourse
    · exact hperm.nodup_iff.mpr (List.nodup_cons.mpr
        ⟨hown, (h.once i p hp).sublist p.rest_addresses_sublist⟩)
    · intro other hother
      rcases List.mem_cons.mp (hperm.mem_iff.mp hother) with rfl | hother
      · exact ha.apart
      · exact h.apart i p hp other (p.rest_addresses_sublist.subset hother)
  · rw [acquire_of_le hp hsize]
    refine h.put hp (fun _ _ _ _ _ _ => rfl) ?_
      ((h.once i p hp).sublist p.rest_addresses_sublist)
      fun other hother => h.apart i p hp other (p.rest_addresses_sublist.subset hother)
    rw [p.lending_turnDown hsize]
    exact hcourse

theorem write (hn : p.lent.lookup n = some a) (f : Bytes → Bytes) : (m.write i n f).Sound := by
  have hapart := h.apart i p hp a (p.mem_addresses_of_lookup hn)
  rw [write_eq hp hn]
  refine h.put hp (hapart.keepsOthers _) ?_ (h.once i p hp) (h.apart i p hp)
  rw [h.lending_write hp hn]
  exact (h.course i p hp).use (u := .write n f) ⟨_, p.get?_lending_of_lookup hn m.bytes⟩

theorem release (hn : p.lent.lookup n = some a) : (m.release i n).Sound := by
  rw [release_eq hp hn]
  refine h.put hp (fun _ _ _ _ _ _ => rfl) ?_ (p.release_addresses_nodup (h.once i p hp) hn)
    fun other hother => h.apart i p hp other (p.mem_of_mem_release hn hother)
  rw [p.lending_release hn]
  exact (h.course i p hp).use (u := .release n) ⟨_, p.get?_lending_of_lookup hn m.bytes⟩

end Sound

/-- **Whatever a program does with its pools,** no address is used twice. -/
theorem Reached.sound (h : m.Reached) : m.Sound := by
  induction h with
  | start bytes => exact ⟨nofun, nofun, nofun, nofun⟩
  | create h maxIdle ih => exact ih.create maxIdle
  | clone h hvia ih => exact ih.clone hvia
  | @acquire m h via i a hvia ha size ih =>
    obtain ⟨p, hp⟩ := ih.exists_pool hvia
    exact ih.acquire hp ha size
  | write h hn f ih =>
    obtain ⟨p, a, hp, ha⟩ := placed_of_get? hn
    exact ih.write hp ha f
  | release h hn ih =>
    obtain ⟨p, a, hp, ha⟩ := placed_of_get? hn
    exact ih.release hp ha
  | elsewhere h hkept ih => exact ih.elsewhere hkept

/-! ## 5. What is seen of a step -/

/-- What is held in all buffers but one is the same. -/
def SameBut (m m' : ScratchMemory) (i n : Nat) : Prop :=
  ∀ j k, (j, k) ≠ (i, n) → m'.get? j k = m.get? j k

theorem get?_of_pool (hp : m.pools[i]? = some p) (n : Nat) :
    m.get? i n = (p.lending m.bytes).get? n := by
  unfold get?
  rw [hp]
  rfl

/-- A step of one pool is seen under one number, if that is so in the pool. -/
theorem seen_of_put (hp : m.pools[i]? = some p) {bytes : Nat → Bytes}
    (hkeeps : m.KeepsOthers bytes i) {p' : PlacedPool} {held : Option Bytes}
    (hget : ∀ k, (p'.lending bytes).get? k = if k = n then held else (p.lending m.bytes).get? k) :
    (m.put bytes i p').get? i n = held ∧ m.SameBut (m.put bytes i p') i n := by
  constructor
  · rw [get?_put hp hkeeps, if_pos rfl, hget, if_pos rfl]
  · intro j k hne
    rw [get?_put hp hkeeps]
    by_cases hj : j = i
    · have hk : k ≠ n := fun hk => hne (by rw [hj, hk])
      rw [if_pos hj, hget, if_neg hk, hj, get?_of_pool hp]
    · rw [if_neg hj]

/-- A pool without others has only its own buffers to spare. -/
theorem free_of_alone {a : Nat} (hm : m.pools = [p]) (ha : a ∉ p.rest.addresses) : m.Free 0 a := by
  constructor
  · intro q hq
    rw [hm] at hq
    cases hq
    exact ha
  · intro j q hj hq
    obtain ⟨k, rfl⟩ := Nat.exists_eq_succ_of_ne_zero hj
    rw [hm] at hq
    cases hq

/-- There is always somewhere to put a buffer. -/
theorem exists_free (m : ScratchMemory) (i : Nat) : ∃ a, m.Free i a := by
  obtain ⟨a, ha⟩ := Infinite.exists_notMem_finset (m.pools.flatMap PlacedPool.addresses).toFinset
  have hnowhere : ∀ p ∈ m.pools, a ∉ p.addresses := fun p hp hmem =>
    ha (List.mem_toFinset.mpr (List.mem_flatMap.mpr ⟨p, hp, hmem⟩))
  exact ⟨a, fun p hp hmem =>
    hnowhere p (List.mem_of_getElem? hp) (p.rest_addresses_sublist.subset hmem),
    fun j p _ hp => hnowhere p (List.mem_of_getElem? hp)⟩

/-- **No address is used twice,** among the buffers of all pools, waiting or out. -/
theorem Sound.addresses_nodup (h : m.Sound) : (m.pools.flatMap PlacedPool.addresses).Nodup := by
  rw [List.nodup_flatMap]
  constructor
  · intro p hp
    obtain ⟨i, hi⟩ := List.mem_iff_getElem?.mp hp
    exact h.once i p hi
  · rw [List.pairwise_iff_getElem]
    intro i j hi hj hlt a ha
    exact h.apart i _ (List.getElem?_eq_getElem hi) a ha j _ (Nat.ne_of_gt hlt)
      (List.getElem?_eq_getElem hj)

section Seen

variable (hp : m.pools[i]? = some p)

include hp

/-- **A buffer that is checked out holds zeros,** whatever was there before. -/
theorem seen_acquire (ha : m.Free i a) {size : Nat} (hsize : size < bufferBound) :
    (m.acquire i size a).get? i p.next = some (Bytes.zeros size) ∧
      m.SameBut (m.acquire i size a) i p.next := by
  rw [acquire_of_lt hp hsize]
  refine seen_of_put hp (ha.apart.keepsOthers _) fun k => ?_
  rw [p.lending_acquire hsize (ha.own p hp), Lending.get?_acquire]
  simp only [hsize, and_true]
  rfl

/-- **A buffer that is too large is not checked out,** and nothing changes in the others. -/
theorem seen_turnDown {size : Nat} (hsize : bufferBound ≤ size) (a j n : Nat) :
    (m.acquire i size a).get? j n = m.get? j n := by
  rw [acquire_of_le hp hsize, get?_put hp fun _ _ _ _ _ _ => rfl]
  by_cases hj : j = i
  · rw [if_pos hj, p.lending_turnDown hsize, Lending.get?_acquire,
      if_neg fun hboth => absurd hboth.2 (Nat.not_lt.mpr hsize), hj, get?_of_pool hp]
  · rw [if_neg hj]

/-- **A buffer that is written to changes,** and no other does. -/
theorem Sound.seen_write (h : m.Sound) {b : Bytes} (hn : m.get? i n = some b) (f : Bytes → Bytes) :
    (m.write i n f).get? i n = some (f b) ∧ m.SameBut (m.write i n f) i n := by
  obtain ⟨q, a, hq, ha⟩ := placed_of_get? hn
  obtain rfl : q = p := Option.some.inj (hq.symm.trans hp)
  have hapart := h.apart i q hp a (q.mem_addresses_of_lookup ha)
  rw [write_eq hp ha]
  refine seen_of_put hp (hapart.keepsOthers _) fun k => ?_
  rw [h.lending_write hp ha, Lending.get?_update]
  by_cases hk : k = n
  · rw [if_pos hk, if_pos hk, hk, ← get?_of_pool hp, hn]
    rfl
  · rw [if_neg hk, if_neg hk]

/-- A buffer that is handed back is out no more, and the others stay. -/
theorem seen_release {b : Bytes} (hn : m.get? i n = some b) :
    (m.release i n).get? i n = none ∧ m.SameBut (m.release i n) i n := by
  obtain ⟨q, a, hq, ha⟩ := placed_of_get? hn
  obtain rfl : q = p := Option.some.inj (hq.symm.trans hp)
  rw [release_eq hp ha]
  refine seen_of_put hp (fun _ _ _ _ _ _ => rfl) fun k => ?_
  rw [q.lending_release ha, Lending.get?_release]

end Seen

end Steps

end ScratchMemory

open ScratchMemory

/-- **Scratch buffers are clean, private and few.**  Let a program make pools and clones of their
handles, ask for buffers of any sizes through any of the handles, write to the buffers that are
out and hand them back, in any order, while whoever manages the memory puts buffers wherever no
other one is.  Take any handle, at any time.

* It leads to a pool, which is where the uses so far, through whichever handles, have led it.  A
  buffer of it that is out holds zeros, changed by what was written under its number.
* A buffer of any size that buffers can have can be checked out, and is one of as many zeros as
  asked for, under a number that is not in use.  None is checked out of any other size.  A write,
  and a return, are of one buffer.  None of these changes any other buffer of any pool.
* As many buffers wait as the uses count, and never more than the pool keeps.
* No number is handed back twice, and no two buffers that wait or are out, of this pool or another,
  are at the same address. -/
theorem scratch_clean_private_bounded {m : ScratchMemory} (h : m.Reached) {via i : Nat}
    (hvia : m.handles[via]? = some i) :
    ∃ p, m.pools[i]? = some p ∧
      p.uses.foldl Lending.step (.new p.maxIdle) = p.lending m.bytes ∧
      (∀ n, m.get? i n = Lending.contents p.uses n) ∧
      (∀ size < bufferBound, ((p.lending m.bytes).acquire size).1 = .ok p.next ∧
        (∃ a, m.Free i a) ∧ m.get? i p.next = none ∧ ∀ a, m.Free i a →
          (m.acquire i size a).get? i p.next = some (Bytes.zeros size) ∧
            m.SameBut (m.acquire i size a) i p.next) ∧
      (∀ size ≥ bufferBound, ((p.lending m.bytes).acquire size).1 = .error .capacity ∧
        ∀ a j n, (m.acquire i size a).get? j n = m.get? j n) ∧
      (∀ n b, m.get? i n = some b →
        (∀ f, (m.write i n f).get? i n = some (f b) ∧ m.SameBut (m.write i n f) i n) ∧
          (m.release i n).get? i n = none ∧ m.SameBut (m.release i n) i n) ∧
      (p.lending m.bytes).pool.waiting = Lending.counted p.maxIdle p.uses ∧
      (p.lending m.bytes).pool.waiting ≤ p.maxIdle ∧
      (Lending.returned p.uses).Nodup ∧ (m.pools.flatMap PlacedPool.addresses).Nodup := by
  have hsound := h.sound
  obtain ⟨p, hp⟩ := hsound.exists_pool hvia
  have hkept := hsound.kept hp
  have hnew : m.get? i p.next = none := by
    rw [get?_of_pool hp]
    by_contra hout
    obtain ⟨b, hb⟩ := Option.ne_none_iff_exists'.mp hout
    exact Nat.lt_irrefl _ (hkept.lt_next hb)
  refine ⟨p, hp, (hsound.course i p hp).foldl_step, fun n => ?_, fun size hsize => ⟨?_, ?_⟩,
    fun size hsize => ⟨?_, fun a j n => seen_turnDown hp hsize a j n⟩, fun n b hn => ?_,
    hkept.waiting, hkept.bounded, hkept.once, hsound.addresses_nodup⟩
  · rw [get?_of_pool hp, hkept.holding]
  · rw [Lending.acquire_of_lt _ hsize]
    rfl
  · exact ⟨m.exists_free i, hnew, fun a ha => seen_acquire hp ha hsize⟩
  · rw [Lending.acquire_of_le _ hsize]
  · exact ⟨fun f => hsound.seen_write hp hn f, seen_release hp hn⟩

/-- A pool with room for one buffer, and a clone of its handle.  Two buffers are out. -/
def ScratchMemory.lent : ScratchMemory :=
  (((create ⟨fun _ => #[7], [], []⟩ 1).clone 0).acquire 0 2 0).acquire 0 3 1

/-- A nine was written to one of the two, and both were handed back. -/
def ScratchMemory.worn : ScratchMemory :=
  ((lent.write 0 0 fun b => b.setIfInBounds 0 9).release 0 0).release 0 1

/-- The next buffer of that pool is where the nine was. -/
theorem scratch_clean_private_bounded_worn :
    worn.Reached ∧ worn.handles[1]? = some 0 ∧
      (worn.acquire 0 4 0).get? 0 2 = some #[0, 0, 0, 0] := by
  have hcloned : ((create ⟨fun _ => #[7], [], []⟩ 1).clone 0).Reached :=
    .clone (.create (.start _) 1) (show [0][0]? = some 0 from rfl)
  have hlent : lent.Reached :=
    .acquire (.acquire hcloned (show [0, 0][0]? = some 0 from rfl)
      (free_of_alone rfl (by decide)) 2)
      (show [0, 0][1]? = some 0 from rfl) (free_of_alone rfl (by decide)) 3
  have hworn : worn.Reached := .release (b := #[0, 0, 0])
    (.release (b := #[9, 0]) (.write (b := #[0, 0]) hlent rfl _) rfl) rfl
  have hhandle : worn.handles[1]? = some 0 := rfl
  obtain ⟨p, hp, -, -, hclean, -⟩ := scratch_clean_private_bounded hworn hhandle
  cases hp
  obtain ⟨-, -, -, hblank⟩ := hclean 4 (by decide)
  exact ⟨hworn, hhandle, (hblank 0 (free_of_alone rfl (by decide))).1⟩

/-- From a new pool, no buffer of the first size that buffers do not have is checked out. -/
theorem scratch_turned_down :
    ((Lending.new 64).acquire 9223372036854775808).1 = .error .capacity ∧
      ((Lending.new 64).acquire 9223372036854775808).2.get? 0 = none := by decide

end RasterWarp
