/-
# Twan.Lib.TlsfRealloc -- when `__tlsf_realloc` keeps the heap sound

Two of the paths of `__tlsf_realloc` change whether a block is free without telling the
block behind it:

* a shrinking call that carves the rest off calls `__tlsf_try_carve`, which does not set
  the prev-free flag behind the block it has made (`LeavesUnset`);
* a growing call that takes over the next block whole, with nothing left to carve, leaves
  the flag behind that block set (`LeavesSet`).

`realloc_sound_iff`: on a sound heap `__tlsf_realloc` does its work exactly when the call
takes neither of these with a block behind.
-/
import Twan.Lib.TlsfRuns

namespace Twan.Lib.TlsfAlloc

set_option autoImplicit false

open Tlsf (roundUp)

/-- The byte at an address, the lowest of a word first. -/
def Tlsf.byte (t : Tlsf) (x : ℕ) : ℕ := t.mem (x / 8 * 8) / 256 ^ (x % 8) % 256

/-- The call shrinks the block by a new free block, and there is a block behind it. -/
def LeavesUnset (b : Blk) (r : List Blk) (n : ℕ) : Prop := roundUp n + 48 ≤ b.size ∧ r ≠ []

/-- The call grows the block by all of the next one, and there is a block behind that. -/
def LeavesSet (b : Blk) (r : List Blk) (n : ℕ) : Prop :=
  b.size < roundUp n ∧ ∃ c d r', r = c :: d :: r' ∧ c.free = true ∧ roundUp n ≤ c.size + b.size ∧
    c.size + b.size < roundUp n + 16

/-- The calls that leave a flag wrong. -/
def Careless (b : Blk) (r : List Blk) (n : ℕ) : Prop :=
  n ≠ 0 ∧ n ≤ maxAlloc ∧ (LeavesUnset b r n ∨ LeavesSet b r n)

/-- What a call for the block `b` should do: the heap is sound, the other blocks in use are
still there and hold the same, and the pointer, if it is one, is that of a block in use
that is large enough and begins as the old one did. -/
structure Reallocated (t t' : Tlsf) (l : List Blk) (b : Blk) (r : List Blk) (n p : ℕ)
    (bs : List Blk) : Prop where
  sound : Sound t' bs
  others : used l ++ used r ⊆ used bs
  same : Same t t' (used l ++ used r)
  live : p ≠ 0 → ∃ a m, p = a + 32 ∧ (a, m) ∈ used bs ∧ n ≤ m ∧
    ∀ i, i < min b.size n → t'.byte (p + i) = t.byte (b.addr + 32 + i)

section Copies

variable {t t' : Tlsf} {us x y : List (ℕ × ℕ)} {dst src k : ℕ}

/-! ## Copying -/

theorem memcpy_other {z : ℕ} (outside : z < dst ∨ dst + 8 * k ≤ z) :
    (t.memcpy dst src k).mem z = t.mem z := by
  induction k with
  | zero => rfl
  | succ k ih =>
      rw [Tlsf.memcpy, write_mem, if_neg (by omega)]
      exact ih (by omega)

theorem memcpy_word {i : ℕ} (apart : src + 8 * k ≤ dst ∨ dst + 8 * k ≤ src) (inside : i < k) :
    (t.memcpy dst src k).mem (dst + 8 * i) = t.mem (src + 8 * i) := by
  induction k with
  | zero => exact absurd inside (Nat.not_lt_zero i)
  | succ k ih =>
      rw [Tlsf.memcpy, write_mem]
      by_cases last : i = k
      · subst last
        rw [if_pos rfl]
        exact memcpy_other (by omega)
      · rw [if_neg (by omega)]
        exact ih (by omega) (by omega)

theorem Valid.memcpy {u : ℕ × ℕ} (valid : Valid t us) (src : ℕ) (inside : u ∈ us) (low : u.1 + 32 ≤ dst)
    (high : dst + 8 * k ≤ u.1 + 32 + u.2) : Valid (t.memcpy dst src k) us := by
  induction k with
  | zero => exact valid
  | succ k ih => exact (ih (by omega)).write inside ⟨by omega, by omega⟩

theorem Valid.memcpy_same {u : ℕ × ℕ} (valid : Valid t (x ++ u :: y)) (src : ℕ) (low : u.1 + 32 ≤ dst)
    (high : dst + 8 * k ≤ u.1 + 32 + u.2) : Same t (t.memcpy dst src k) (x ++ y) := by
  intro v inside z payload
  have apart := valid.apart inside
  unfold InPayload at payload
  exact memcpy_other (by omega)

/-- Bytes of two ranges that hold the same words. -/
theorem byte_eq {p q i m : ℕ} (alignedP : p % 8 = 0) (alignedQ : q % 8 = 0) (small : i < m)
    (whole : m % 8 = 0) (words : ∀ j, j < m / 8 → t'.mem (p + 8 * j) = t.mem (q + 8 * j)) :
    t'.byte (p + i) = t.byte (q + i) := by
  have wordP : (p + i) / 8 * 8 = p + 8 * (i / 8) := by omega
  have wordQ : (q + i) / 8 * 8 = q + 8 * (i / 8) := by omega
  have inP : (p + i) % 8 = i % 8 := by omega
  have inQ : (q + i) % 8 = i % 8 := by omega
  unfold Tlsf.byte
  rw [wordP, wordQ, inP, inQ, words (i / 8) (by omega)]

end Copies

section Realloc

variable {t t' : Tlsf} {l r : List Blk} {b : Blk} {n : ℕ}

theorem Sound.valid (sound : Sound t (l ++ b :: r)) (inUse : b.free = false) :
    Valid t (used l ++ (b.addr, b.size) :: used r) :=
  ⟨_, sound, by simp [used_cons, inUse]⟩

/-! ## The paths of the function -/

/-- The part of the function behind the checks. -/
theorem Sound.realloc_eq (sound : Sound t (l ++ b :: r)) (nonzero : n ≠ 0) (small : n ≤ maxAlloc) :
    t.realloc (b.addr + 32) n =
      if b.size = roundUp n then (t, b.addr + 32)
      else if b.size > roundUp n then ((t.tryCarve b.addr (roundUp n)).1, b.addr + 32)
      else if b.stop < t.heapEnd ∧ t.blockIsFree b.stop = true ∧
          t.getBlockSize b.stop + b.size ≥ roundUp n then
        (((t.mergeNext b.addr).1.tryCarve b.addr (roundUp n)).1, b.addr + 32)
      else if (t.alloc (roundUp n)).2 = 0 then ((t.alloc (roundUp n)).1, 0)
      else (((t.alloc (roundUp n)).1.memcpy (t.alloc (roundUp n)).2 (b.addr + 32) (b.size / 8)).free
        (b.addr + 32), (t.alloc (roundUp n)).2) := by
  have here : b ∈ l ++ b :: r := by simp
  obtain ⟨low, high, minimum, -⟩ := sound.heap.range here
  have bound := sound.heap.high
  have positive := sound.heap.low
  unfold Blk.stop at high
  have block : ptrToBlock (b.addr + 32) = b.addr := sound.heap.ptrToBlock here
  have pointer : blockToPtr b.addr = b.addr + 32 := by
    unfold blockToPtr headerSize
    omega
  rw [Tlsf.realloc, if_neg (by omega), if_neg nonzero, if_neg (by omega), if_neg (by omega)]
  dsimp only
  rw [block, sound.heap.getBlockSize here, sound.heap.nextBlock here, pointer]

/-- What growing into the next block needs. -/
theorem Heap.next_free (heap : Heap t (l ++ b :: r)) {m : ℕ} :
    (b.stop < t.heapEnd ∧ t.blockIsFree b.stop = true ∧ t.getBlockSize b.stop + b.size ≥ m) ↔
      ∃ c r', r = c :: r' ∧ c.free = true ∧ m ≤ c.size + b.size := by
  cases r with
  | nil =>
      have last : ¬ b.stop < t.heapEnd := fun more => heap.stop_lt.mp more rfl
      simp [last]
  | cons c r =>
      have more : b.stop < t.heapEnd := heap.stop_lt.mpr nofun
      rw [← heap.next_addr, heap.blockIsFree (b := c) (by simp), heap.getBlockSize (b := c) (by simp),
        heap.next_addr]
      simp [more]

/-- The block keeps its place. -/
theorem Sound.reallocated {m : ℕ} (sound : Sound t (l ++ b :: r)) (inUse : b.free = false)
    (r' : List Blk) (sound' : Sound t' (l ++ { b with size := m } :: r'))
    (usedR : used r' = used r) (same : Same t t' (used l ++ used r))
    (payload : ∀ x, InPayload (b.addr, min b.size m) x → t'.mem x = t.mem x) (enough : n ≤ m) :
    Reallocated t t' l b r n (b.addr + 32) (l ++ { b with size := m } :: r') := by
  have alignedB := (sound.heap.range (b := b) (by simp)).2.2.2
  have addr := sound.heap.addr_aligned (b := b) (by simp)
  have alignedM : m % 8 = 0 := (sound'.heap.range (b := { b with size := m }) (by simp)).2.2.2
  have list : used (l ++ { b with size := m } :: r') = used l ++ (b.addr, m) :: used r := by
    simp [used_cons, inUse, usedR]
  refine ⟨sound', ?_, same, fun _ => ⟨b.addr, m, rfl, by simp [list], enough, ?_⟩⟩
  · rw [list]
    exact ((List.sublist_cons_self _ _).append_left _).subset
  · intro i inside
    apply byte_eq (m := min b.size m) (by omega) (by omega) (by omega) (by omega)
    intro j small
    exact payload _ ⟨by dsimp only; omega, by dsimp only; omega⟩

/-- The payload of a block is kept where nothing but headers changes. -/
theorem Kept.payload {u : Tlsf} {bs : List Blk} {m : ℕ} (kept : Kept t t' bs) (heap : Heap u bs)
    (here : { b with size := m } ∈ bs) {k : ℕ} (le : k ≤ m) :
    ∀ x, InPayload (b.addr, k) x → t'.mem x = t.mem x := by
  intro x inside
  refine kept x (heap.outside here ⟨inside.1, ?_⟩)
  have high := inside.2
  dsimp only at high ⊢
  omega

theorem Kept.same_sides {u : Tlsf} {bs : List Blk} (kept : Kept t t' bs) (heap : Heap u bs)
    (left : l ⊆ bs) (right : r ⊆ bs) : Same t t' (used l ++ used r) := by
  apply kept.same heap
  intro e inside
  rcases List.mem_append.mp inside with inL | inR
  · obtain ⟨c, inC, -, same⟩ := mem_used.mp inL
    exact ⟨c, left inC, same⟩
  · obtain ⟨c, inC, -, same⟩ := mem_used.mp inR
    exact ⟨c, right inC, same⟩

/-- What `__tlsf_try_carve` does to a block in use in front of `r`. -/
theorem Heap.carved {m : ℕ} (heap : Heap t (l ++ b :: r)) (loose : b.listed = false)
    (minimum : 16 ≤ m) (aligned : m % 8 = 0) (large : m + 48 ≤ b.size) :
    Heap (t.tryCarve b.addr m).1 (l ++ { b with size := m } :: rest b m false :: r) ∧
      Same t (t.tryCarve b.addr m).1 (used l ++ used r) ∧
      ∀ x, InPayload (b.addr, m) x → (t.tryCarve b.addr m).1.mem x = t.mem x := by
  obtain ⟨carved, kept⟩ := heap.tryCarve_large loose minimum aligned large
  refine ⟨carved, kept.same_sides carved (by simp) ?_, kept.payload carved (by simp) (le_refl m)⟩
  intro c inside
  simp [inside]

/-- `Exact` in front of and in a split block, whatever is behind it. -/
theorem exact_carved {before : Bool} {m : ℕ} (left : Exact before l)
    (flag : b.prevFree = lastFree before l) (listed : b.listed = b.free) (inUse : b.free = false)
    (right : Exact true r) : Exact before (l ++ { b with size := m } :: rest b m false :: r) := by
  refine exact_append.mpr ⟨left, flag, listed, ?_, ?_, rfl, ?_, right⟩
  · rw [inUse]
    exact fun both => Bool.noConfusion both.2
  · exact inUse.symm
  · rw [inUse]
    exact fun both => Bool.noConfusion both.1

/-- The shrinking call at the end of the heap. -/
theorem Sound.shrink_last (sound : Sound t (l ++ [b])) (inUse : b.free = false) (small : n ≤ maxAlloc)
    (large : roundUp n + 48 ≤ b.size) :
    ∃ bs, Reallocated t (t.tryCarve b.addr (roundUp n)).1 l b [] n (b.addr + 32) bs := by
  obtain ⟨le, minimum, aligned, -⟩ := roundUp_spec small
  obtain ⟨left, flag, listed, -, -⟩ := exact_append.mp sound.exact
  obtain ⟨heap, same, payload⟩ := sound.heap.carved (listed.trans inUse) minimum aligned large
  refine ⟨_, sound.reallocated inUse [rest b (roundUp n) false]
    ⟨heap, exact_carved left flag listed inUse trivial⟩ rfl same ?_ le⟩
  intro x inside
  apply payload
  unfold InPayload at inside ⊢
  dsimp only at inside ⊢
  omega

/-- The growing call that takes over the next block. -/
theorem Sound.grow {c : Blk} (sound : Sound t (l ++ b :: c :: r)) (inUse : b.free = false)
    (free : c.free = true) (small : n ≤ maxAlloc) (smaller : b.size < roundUp n)
    (enough : roundUp n ≤ c.size + b.size)
    (careful : r = [] ∨ roundUp n + 16 ≤ c.size + b.size) :
    ∃ bs, Reallocated t ((t.mergeNext b.addr).1.tryCarve b.addr (roundUp n)).1 l b (c :: r) n
      (b.addr + 32) bs := by
  obtain ⟨le, minimum, aligned, -⟩ := roundUp_spec small
  obtain ⟨left, flag, listed, -, -, listedC, -, right⟩ := exact_append.mp sound.exact
  rw [free] at listedC right
  have usedR : used (c :: r) = used r := by rw [used_cons, if_pos free]
  obtain ⟨-, merged, kept⟩ := sound.heap.mergeNext_free (listed.trans inUse) free listedC
  have sameMerge : Same t (t.mergeNext b.addr).1 (used l ++ used (c :: r)) :=
    kept.same_sides sound.heap (by simp) (fun d inside => by simp [List.mem_cons.mp inside])
  have payloadMerge := kept.payload (b := b) sound.heap (m := b.size) (by simp) (le_refl _)
  by_cases large : roundUp n + 48 ≤ b.size + 32 + c.size
  · obtain ⟨heap, same, payload⟩ := merged.carved (listed.trans inUse) minimum aligned large
    rw [← usedR] at same
    refine ⟨_, sound.reallocated inUse (rest { b with size := b.size + 32 + c.size } (roundUp n) false :: r)
      ⟨heap, exact_carved (b := { b with size := b.size + 32 + c.size }) left flag listed inUse right⟩
      ?_ (sameMerge.trans same) ?_ le⟩
    · rw [usedR, used_cons]
      rfl
    · intro x inside
      unfold InPayload at inside
      dsimp only at inside
      rw [payload x ⟨by dsimp only; omega, by dsimp only; omega⟩]
      exact payloadMerge x ⟨by dsimp only; omega, by dsimp only; omega⟩
  · have last : r = [] := by
      rcases careful with last | room
      · exact last
      · omega
    subst last
    have uncut := merged.tryCarve_small (b := { b with size := b.size + 32 + c.size }) (n := roundUp n)
      (by simp) (by dsimp only; omega)
    dsimp only at uncut
    rw [uncut]
    refine ⟨_, sound.reallocated inUse [] ⟨merged, ?_⟩ ?_ sameMerge ?_ (by omega)⟩
    · refine exact_append.mpr ⟨left, flag, listed, ?_, trivial⟩
      rw [inUse]
      exact fun both => Bool.noConfusion both.2
    · rw [usedR]
    · intro x inside
      apply payloadMerge
      unfold InPayload at inside ⊢
      dsimp only at inside ⊢
      omega

/-- The call that moves the block. -/
theorem Sound.move (sound : Sound t (l ++ b :: r)) (inUse : b.free = false) (small : n ≤ maxAlloc)
    (smaller : b.size < roundUp n) (found : (t.alloc (roundUp n)).2 ≠ 0) :
    ∃ bs, Reallocated t (((t.alloc (roundUp n)).1.memcpy (t.alloc (roundUp n)).2 (b.addr + 32)
      (b.size / 8)).free (b.addr + 32)) l b r n (t.alloc (roundUp n)).2 bs := by
  have le := (roundUp_spec small).1
  have valid := sound.valid inUse
  have alignedB := (sound.heap.range (b := b) (by simp)).2.2.2
  have addrB := sound.heap.addr_aligned (b := b) (by simp)
  rcases valid.alloc (roundUp n) with failed | ⟨-, fits, x, y, a, m, list, enough, pointer, valid', same⟩
  · exact absurd (congrArg Prod.snd failed) found
  rw [pointer]
  have enough' : roundUp n ≤ m := (roundUp_spec fits).1.trans enough
  have old : (b.addr, b.size) ∈ x ++ y := list ▸ (by simp)
  have far : b.addr + 32 + b.size ≤ a ∨ a + 32 + m ≤ b.addr := valid'.apart old
  have addrA : a % 8 = 0 := (valid'.range (u := (a, m)) (by simp)).2.2.2.2.1
  -- the copy
  have copied := valid'.memcpy (k := b.size / 8) (u := (a, m)) (b.addr + 32) (by simp)
    (le_refl (a + 32)) (by dsimp only; omega)
  have sameCopy := valid'.memcpy_same (k := b.size / 8) (b.addr + 32) (le_refl (a + 32))
    (by dsimp only; omega)
  -- the old block is one of those in use, next to the new one and the others
  obtain ⟨x', y', split⟩ := List.append_of_mem
    (((List.sublist_cons_self (a, m) y).append_left x).subset old)
  rw [split] at copied
  obtain ⟨⟨bs, sound', eq⟩, sameFree⟩ := copied.free
  have stays : ∀ e ∈ x ++ (a, m) :: y, e ≠ (b.addr, b.size) → e ∈ x' ++ y' := by
    intro e inside other
    rw [split] at inside
    simp only [List.mem_append, List.mem_cons] at inside ⊢
    tauto
  have new : (a, m) ∈ x' ++ y' := by
    refine stays _ (by simp) fun e => ?_
    cases e
    omega
  have others : used l ++ used r ⊆ x' ++ y' := by
    intro e inside
    have apart := valid.apart inside
    refine stays e ?_ (fun same => by subst same; dsimp only at apart; omega)
    apply ((List.sublist_cons_self (a, m) y).append_left x).subset
    rw [← list]
    exact ((List.sublist_cons_self _ _).append_left _).subset inside
  have inXY : used l ++ used r ⊆ x ++ y := by
    rw [← list]
    exact ((List.sublist_cons_self _ _).append_left _).subset
  refine ⟨bs, sound', eq ▸ others, ?_, fun _ => ⟨a, m, rfl, eq ▸ new, by omega, ?_⟩⟩
  · exact ((same.mono (list ▸ inXY)).trans (sameCopy.mono inXY)).trans (sameFree.mono others)
  · intro i inside
    apply byte_eq (m := b.size) (by omega) (by omega) (by omega) alignedB
    intro j word
    rw [sameFree _ new _ ⟨by dsimp only; omega, by dsimp only; omega⟩, memcpy_word (by omega) word]
    exact same (b.addr, b.size) (by simp) _ ⟨by dsimp only; omega, by dsimp only; omega⟩

/-- A call that is not careless does its work. -/
theorem Sound.realloc (sound : Sound t (l ++ b :: r)) (inUse : b.free = false)
    (careful : ¬ Careless b r n) :
    ∃ bs, Reallocated t (t.realloc (b.addr + 32) n).1 l b r n (t.realloc (b.addr + 32) n).2 bs := by
  have valid := sound.valid inUse
  have inBs : used l ++ used r ⊆ used (l ++ b :: r) := by
    rw [used_append, used_cons, inUse]
    exact ((List.sublist_cons_self _ _).append_left _).subset
  have unchanged : Reallocated t t l b r n 0 (l ++ b :: r) :=
    ⟨sound, inBs, Same.refl, fun nonzero => absurd rfl nonzero⟩
  by_cases zero : n = 0
  · subst zero
    obtain ⟨⟨bs, sound', eq⟩, same⟩ := valid.free
    have freed : t.realloc (b.addr + 32) 0 = (t.free (b.addr + 32), 0) := by
      rw [Tlsf.realloc, if_neg (by omega), if_pos rfl]
    rw [freed]
    exact ⟨bs, sound', by rw [eq]; exact List.Subset.refl _, same, fun nonzero => absurd rfl nonzero⟩
  by_cases small : n ≤ maxAlloc
  swap
  · have refused : t.realloc (b.addr + 32) n = (t, 0) := by
      rw [Tlsf.realloc, if_neg (by omega), if_neg zero]
      split
      · rfl
      · rw [if_pos (by omega)]
    rw [refused]
    exact ⟨_, unchanged⟩
  obtain ⟨le, -⟩ := roundUp_spec small
  have keep : roundUp n ≤ b.size → Reallocated t t l b r n (b.addr + 32) (l ++ b :: r) := fun fits =>
    sound.reallocated (m := b.size) inUse r sound rfl Same.refl (fun _ _ => rfl) (by omega)
  rw [sound.realloc_eq zero small]
  by_cases equal : b.size = roundUp n
  · rw [if_pos equal]
    exact ⟨_, keep (by omega)⟩
  rw [if_neg equal]
  by_cases shrinks : b.size > roundUp n
  · rw [if_pos shrinks]
    by_cases large : roundUp n + 48 ≤ b.size
    · have last : r = [] := by
        by_contra more
        exact careful ⟨zero, small, .inl ⟨large, more⟩⟩
      subst last
      exact sound.shrink_last inUse small large
    · rw [sound.heap.tryCarve_small (b := b) (by simp) (by omega)]
      exact ⟨_, keep (by omega)⟩
  rw [if_neg shrinks]
  by_cases grows : ∃ c r', r = c :: r' ∧ c.free = true ∧ roundUp n ≤ c.size + b.size
  · rw [if_pos (sound.heap.next_free.mpr grows)]
    obtain ⟨c, r', rfl, free, enough⟩ := grows
    apply sound.grow inUse free small (by omega) enough
    by_contra neither
    rw [not_or] at neither
    obtain ⟨d, r'', rfl⟩ := List.exists_cons_of_ne_nil neither.1
    exact careful ⟨zero, small, .inr ⟨by omega, c, d, r'', rfl, free, enough, by omega⟩⟩
  rw [if_neg fun into => grows (sound.heap.next_free.mp into)]
  split
  · rename_i failed
    rcases valid.alloc (roundUp n) with none_ | ⟨-, -, x, y, a, m, -, -, pointer, -⟩
    · rw [none_]
      exact ⟨_, unchanged⟩
    · omega
  · rename_i found
    exact sound.move inUse small (by omega) found

/-! ## The two slips -/

/-- A prev-free flag that is wrong stays so however the heap is read. -/
theorem Heap.not_sound {c : Blk} (heap : Heap t (l ++ b :: c :: r)) (wrong : c.prevFree ≠ b.free)
    {bs : List Blk} : ¬ Sound t bs := by
  intro sound
  have same := heap.tags.unique sound.heap.tags
  rw [List.map_append, List.map_cons, List.map_cons] at same
  obtain ⟨l', tail, rfl, -, tailEq⟩ := List.map_eq_append_iff.mp same.symm
  obtain ⟨b', tail', rfl, keyB, tailEq'⟩ := List.map_eq_cons_iff.mp tailEq
  obtain ⟨c', r', rfl, keyC, -⟩ := List.map_eq_cons_iff.mp tailEq'
  obtain ⟨-, -, -, -, flag, -⟩ := exact_append.mp sound.exact
  simp only [Prod.mk.injEq] at keyB keyC
  apply wrong
  rw [← keyC.2.2.2, flag, keyB.2.2.1]

/-- A careless call leaves a flag wrong. -/
theorem Sound.realloc_careless (sound : Sound t (l ++ b :: r)) (inUse : b.free = false)
    (careless : Careless b r n) (bs : List Blk) : ¬ Sound (t.realloc (b.addr + 32) n).1 bs := by
  obtain ⟨nonzero, small, slip⟩ := careless
  obtain ⟨-, minimum, aligned, -⟩ := roundUp_spec small
  obtain ⟨-, -, listed, -, right⟩ := exact_append.mp sound.exact
  rw [sound.realloc_eq nonzero small]
  rcases slip with ⟨large, more⟩ | ⟨smaller, c, d, r', rfl, free, enough, whole⟩
  · obtain ⟨c, r', rfl⟩ := List.exists_cons_of_ne_nil more
    rw [if_neg (by omega), if_pos (by omega)]
    obtain ⟨heap, -⟩ := sound.heap.tryCarve_large (listed.trans inUse) minimum aligned large
    have list : l ++ { b with size := roundUp n } :: rest b (roundUp n) false :: c :: r' =
        (l ++ [{ b with size := roundUp n }]) ++ rest b (roundUp n) false :: c :: r' := by simp
    rw [list] at heap
    apply heap.not_sound
    -- the flag still says that the old block is in use
    rw [right.1, inUse]
    exact Bool.false_ne_true
  · rw [if_neg (by omega), if_neg (by omega),
      if_pos (sound.heap.next_free.mpr ⟨c, d :: r', rfl, free, enough⟩)]
    obtain ⟨-, listedC, -, behind⟩ := right
    obtain ⟨-, merged, -⟩ :=
      sound.heap.mergeNext_free (listed.trans inUse) free (listedC.trans free)
    have uncut := merged.tryCarve_small (b := { b with size := b.size + 32 + c.size }) (n := roundUp n)
      (by simp) (by dsimp only; omega)
    dsimp only at uncut
    rw [uncut]
    apply merged.not_sound
    -- the flag still says that the block taken over is free
    rw [behind.1, free]
    dsimp only
    rw [inUse]
    exact Bool.noConfusion

/-- **`__tlsf_realloc` does its work exactly when it is careful**: on a sound heap, for a
block in use and any size, the call keeps the heap sound, leaves the other blocks in use
alone and returns a block that is large enough and begins as the old one did, unless it
carves a free block, or takes over a free one whole, in front of another block. -/
theorem realloc_sound_iff (sound : Sound t (l ++ b :: r)) (inUse : b.free = false) (n : ℕ) :
    (∃ bs, Reallocated t (t.realloc (b.addr + 32) n).1 l b r n (t.realloc (b.addr + 32) n).2 bs) ↔
      ¬ Careless b r n := by
  constructor
  · rintro ⟨bs, done⟩ careless
    exact sound.realloc_careless inUse careless bs done.sound
  · exact sound.realloc inUse

/-! ## A heap with two blocks in use -/

/-- A fresh heap of 1 KiB at 4096. -/
def page : Tlsf := (zeros.init 4096 1024).getD zeros

/-- 200 bytes and then 50 are allocated from it. -/
def twoInUse : Tlsf := ((page.alloc 200).1.alloc 50).1

def first : Blk := { addr := 4096, size := 200, free := false, prevFree := false, listed := false }

def second : Blk := { addr := 4328, size := 56, free := false, prevFree := false, listed := false }

def behind : Blk := { addr := 4416, size := 672, free := true, prevFree := false, listed := true }

theorem twoInUse_sound : Sound twoInUse [first, second, behind] := by
  obtain ⟨t, accepted, valid, -⟩ := init_valid given_page (zeroed_zeros 4096 1024)
  have isPage : t = page := by
    have value : zeros.init 4096 1024 = some page := rfl
    exact Option.some.inj (accepted.symm.trans value)
  subst isPage
  rcases valid.alloc 200 with failed | ⟨-, -, x, y, a, m, -, -, -, valid1, -⟩
  · exact absurd (congrArg Prod.snd failed) (by decide +kernel)
  rcases valid1.alloc 50 with failed | ⟨-, -, x, y, a, m, -, -, -, valid2, -⟩
  · exact absurd (congrArg Prod.snd failed) (by decide +kernel)
  obtain ⟨bs, sound, -⟩ := valid2
  have here : Sound twoInUse bs := sound
  have tags : Tags twoInUse.mem 0 twoInUse.heapStart [first, second, behind] twoInUse.heapEnd := by
    decide +kernel
  rw [← here.eq_of_tags tags (by decide)]
  exact here

/-- The second block grows into the free one behind it and gives the rest back. -/
theorem realloc_sound_second : Sound twoInUse ([first] ++ second :: [behind]) ∧ second.free = false ∧
    ∃ bs, Reallocated twoInUse (twoInUse.realloc (second.addr + 32) 100).1 [first] second [behind] 100
      (twoInUse.realloc (second.addr + 32) 100).2 bs := by
  refine ⟨twoInUse_sound, rfl, (realloc_sound_iff (l := [first]) twoInUse_sound rfl 100).mpr ?_⟩
  rintro ⟨-, -, ⟨large, -⟩ | ⟨-, c, d, r', list, -⟩⟩
  · exact absurd large (by decide)
  · cases list

/-- The first block, of 200 bytes, is to have 32: the rest of it becomes a free block, but
the second block's prev-free flag stays clear. -/
theorem realloc_shrink_unsound : Sound twoInUse ([] ++ first :: [second, behind]) ∧
    first.free = false ∧
    ¬ ∃ bs, Reallocated twoInUse (twoInUse.realloc (first.addr + 32) 32).1 [] first [second, behind] 32
      (twoInUse.realloc (first.addr + 32) 32).2 bs := by
  refine ⟨twoInUse_sound, rfl, ?_⟩
  rintro ⟨bs, done⟩
  refine Sound.realloc_careless (l := []) twoInUse_sound rfl ⟨by decide, by decide, .inl ⟨?_, nofun⟩⟩
    bs done.sound
  decide

end Realloc

end Twan.Lib.TlsfAlloc
