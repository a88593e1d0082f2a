/-
# Twan.Lib.TlsfCalls -- the interface of the allocator, over the allocated blocks

To its callers the heap is the list of the blocks in use, in the order of their
addresses, and what their payloads hold.  `Valid t us` says that the state `t` is a
sound heap in which exactly the blocks `us` are in use; `Same t t' us` that their
payloads hold the same in both states.  Against these

* `__tlsf_alloc` returns NULL and does nothing, or adds one block;
* `__tlsf_free` takes one block away;
* `__tlsf_alloc_p2aligned` adds one block whose payload holds the aligned header, and
  `__tlsf_free_p2aligned` takes the block away that the header names.

The flags, the links and the bitmaps are inside `Valid`.
-/
import Twan.Lib.TlsfOps

namespace Twan.Lib.TlsfAlloc

set_option autoImplicit false

/-- The block structure of a state: the blocks tile the heap and are tagged and linked as
they should be. -/
structure Sound (t : Tlsf) (bs : List Blk) : Prop where
  heap : Heap t bs
  exact : Exact false bs

/-- The address and the size of each block in use. -/
def used (bs : List Blk) : List (ℕ × ℕ) :=
  (bs.filter fun b => !b.free).map fun b => (b.addr, b.size)

/-- A sound heap in which exactly these blocks are in use. -/
def Valid (t : Tlsf) (us : List (ℕ × ℕ)) : Prop := ∃ bs, Sound t bs ∧ used bs = us

/-- A word of the payload of this block. -/
def InPayload (u : ℕ × ℕ) (x : ℕ) : Prop := u.1 + 32 ≤ x ∧ x < u.1 + 32 + u.2

/-- The payloads of these blocks are the same in both states. -/
def Same (t t' : Tlsf) (us : List (ℕ × ℕ)) : Prop :=
  ∀ u ∈ us, ∀ x, InPayload u x → t'.mem x = t.mem x

section Used

variable {bs l r : List Blk} {b : Blk}

theorem mem_used {u : ℕ × ℕ} : u ∈ used bs ↔ ∃ b ∈ bs, b.free = false ∧ (b.addr, b.size) = u := by
  simp [used, and_assoc]

@[simp] theorem used_append : used (l ++ r) = used l ++ used r := by
  simp [used]

theorem used_cons : used (b :: r) = if b.free then used r else (b.addr, b.size) :: used r := by
  cases h : b.free <;> simp [used, h]

@[simp] theorem used_headPrev {v : Bool} : used (headPrev v r) = used r := by
  cases r with
  | nil => rfl
  | cons c r => simp [headPrev, used_cons]

/-- A block in use is somewhere in the list. -/
theorem exists_of_used {a m : ℕ} {x y : List (ℕ × ℕ)} (eq : used bs = x ++ (a, m) :: y) :
    ∃ l b r, bs = l ++ b :: r ∧ b.free = false ∧ b.addr = a ∧ b.size = m ∧ used l = x ∧ used r = y := by
  induction bs generalizing x with
  | nil =>
      have nothing : used [] = [] := rfl
      rw [nothing] at eq
      exact absurd eq.symm (by simp)
  | cons c bs ih =>
      rw [used_cons] at eq
      cases free : c.free with
      | true =>
          rw [if_pos free] at eq
          obtain ⟨l, b, r, rfl, inUse, addr, size, left, right⟩ := ih eq
          refine ⟨c :: l, b, r, rfl, inUse, addr, size, ?_, right⟩
          rw [used_cons, if_pos free, left]
      | false =>
          rw [if_neg (by simp [free])] at eq
          cases x with
          | nil =>
              obtain ⟨first, tail⟩ := List.cons.inj eq
              obtain ⟨addr, size⟩ := Prod.mk.inj first
              exact ⟨[], c, bs, rfl, free, addr, size, rfl, tail⟩
          | cons u x =>
              obtain ⟨rfl, tail⟩ := List.cons.inj eq
              obtain ⟨l, b, r, rfl, inUse, addr, size, left, right⟩ := ih tail
              refine ⟨c :: l, b, r, rfl, inUse, addr, size, ?_, right⟩
              rw [used_cons, if_neg (by simp [free]), left]

end Used

section Frame

variable {t t' t'' : Tlsf} {us vs : List (ℕ × ℕ)} {bs : List Blk}

theorem Same.refl : Same t t us := fun _ _ _ _ => rfl

theorem Same.trans (first : Same t t' us) (second : Same t' t'' us) : Same t t'' us :=
  fun u inside x payload => (second u inside x payload).trans (first u inside x payload)

theorem Same.mono (same : Same t t' us) (less : vs ⊆ us) : Same t t' vs :=
  fun u inside => same u (less inside)

theorem Heap.outside (heap : Heap t bs) {b : Blk} (here : b ∈ bs) {x : ℕ}
    (payload : InPayload (b.addr, b.size) x) : Outside bs x := by
  obtain ⟨low, high⟩ := payload
  dsimp only at low high
  intro c inC
  by_cases same : b.addr = c.addr
  · exact .inr (same ▸ low)
  · have apart := heap.disjoint here inC same
    unfold Blk.stop at apart
    omega

/-- What is kept outside the headers is kept in the payloads. -/
theorem Kept.same {u : Tlsf} (kept : Kept t t' bs) (heap : Heap u bs)
    (blocks : ∀ e ∈ us, ∃ b ∈ bs, (b.addr, b.size) = e) : Same t t' us := by
  intro e inside x payload
  obtain ⟨b, inB, rfl⟩ := blocks e inside
  exact kept x (heap.outside inB payload)

/-- Two blocks in use do not overlap, headers included. -/
theorem Valid.pairwise (valid : Valid t us) : us.Pairwise fun u v => u.1 + 32 + u.2 ≤ v.1 := by
  obtain ⟨bs, sound, rfl⟩ := valid
  unfold used
  rw [List.pairwise_map]
  exact sound.heap.tags.pairwise.filter _

theorem Valid.apart {x y : List (ℕ × ℕ)} {u v : ℕ × ℕ} (valid : Valid t (x ++ u :: y))
    (inside : v ∈ x ++ y) : v.1 + 32 + v.2 ≤ u.1 ∨ u.1 + 32 + u.2 ≤ v.1 := by
  obtain ⟨-, right, across⟩ := List.pairwise_append.mp valid.pairwise
  rcases List.mem_append.mp inside with inX | inY
  · exact .inl (across v inX u List.mem_cons_self)
  · exact .inr ((List.pairwise_cons.mp right).1 v inY)

/-- Where a block in use lies. -/
theorem Valid.range {u : ℕ × ℕ} (valid : Valid t us) (inside : u ∈ us) :
    t.heapStart ≤ u.1 ∧ u.1 + 32 + u.2 ≤ t.heapEnd ∧ 16 ≤ u.2 ∧ u.2 % 8 = 0 ∧ u.1 % 8 = 0 ∧
      0 < t.heapStart ∧ t.heapEnd < 2 ^ 64 := by
  obtain ⟨bs, sound, rfl⟩ := valid
  obtain ⟨b, inB, -, rfl⟩ := mem_used.mp inside
  obtain ⟨low, high, minimum, aligned⟩ := sound.heap.range inB
  exact ⟨low, high, minimum, aligned, sound.heap.addr_aligned inB, sound.heap.low, sound.heap.high⟩

theorem Sound.listed_eq {b : Blk} (sound : Sound t bs) (inB : b ∈ bs) : b.listed = b.free := by
  obtain ⟨l, r, rfl⟩ := List.append_of_mem inB
  obtain ⟨-, -, same, -⟩ := exact_append.mp sound.exact
  exact same

/-- The tags tell which blocks a sound heap has. -/
theorem Sound.eq_of_tags {bs' : List Blk} (sound : Sound t bs)
    (tags : Tags t.mem 0 t.heapStart bs' t.heapEnd) (listed : ∀ b ∈ bs', b.listed = b.free) :
    bs = bs' := by
  have same := sound.heap.tags.unique tags
  have exact := sound.exact
  clear sound tags
  generalize false = before at exact
  induction bs generalizing bs' before with
  | nil => exact (List.map_eq_nil_iff.mp same.symm).symm
  | cons b bs ih =>
      obtain ⟨c, bs'', rfl, key, rest⟩ := List.map_eq_cons_iff.mp same.symm
      obtain ⟨-, listedB, -, exact⟩ := exact
      have tail := ih (fun d inside => listed d (List.mem_cons_of_mem c inside)) rest.symm _ exact
      have listedC := listed c List.mem_cons_self
      have equal : b = c := by
        cases b
        cases c
        simp only [Prod.mk.injEq] at key
        dsimp only at listedB listedC
        simp [key, listedB, listedC]
      rw [equal, tail]

/-- So there is one list of the blocks in use. -/
theorem Valid.unique (valid : Valid t us) (other : Valid t vs) : us = vs := by
  obtain ⟨bs, sound, rfl⟩ := valid
  obtain ⟨bs', sound', rfl⟩ := other
  rw [sound.eq_of_tags sound'.heap.tags fun b inside => sound'.listed_eq inside]

/-- Stores into a payload. -/
theorem Valid.write {u : ℕ × ℕ} {x v : ℕ} (valid : Valid t us) (inside : u ∈ us)
    (payload : InPayload u x) : Valid (t.write x v) us := by
  obtain ⟨bs, sound, rfl⟩ := valid
  obtain ⟨b, inB, inUse, rfl⟩ := mem_used.mp inside
  have outside := sound.heap.outside inB payload
  have away : ∀ c ∈ bs, ∀ i, i < 32 → (t.write x v).mem (c.addr + i) = t.mem (c.addr + i) := by
    intro c inC i small
    have notC := outside c inC
    rw [write_mem, if_neg (by omega)]
  refine ⟨bs, ⟨sound.heap.rewrite ?_ (fun a f s => Iff.rfl) ?_, sound.exact⟩, rfl⟩
  · apply sound.heap.tags.congr
    intro c inC
    exact ⟨away c inC 0 (by decide), away c inC 8 (by decide)⟩
  · intro c inC _
    exact ⟨away c inC 16 (by decide), away c inC 24 (by decide)⟩

/-- A store into a payload is not seen in another one. -/
theorem Valid.write_same {x y : List (ℕ × ℕ)} {u : ℕ × ℕ} {w v : ℕ} (valid : Valid t (x ++ u :: y))
    (payload : InPayload u w) : Same t (t.write w v) (x ++ y) := by
  intro e inside z payloadE
  have apart := valid.apart inside
  unfold InPayload at payload payloadE
  rw [write_mem, if_neg (by omega)]

end Frame

section Calls

open Tlsf (roundUp)

variable {t : Tlsf} {us x y : List (ℕ × ℕ)} {bs l r : List Blk} {b : Blk} {n : ℕ}

/-! ## Allocating -/

theorem roundUp_spec (small : n ≤ maxAlloc) :
    n ≤ roundUp n ∧ 16 ≤ roundUp n ∧ roundUp n % 8 = 0 ∧ roundUp n < n + 16 + 8 := by
  unfold maxAlloc at small
  have up : n ≤ alignUp n ∧ alignUp n % 8 = 0 ∧ alignUp n < n + 8 := by
    unfold alignUp p2alignUp p2alignDown
    omega
  unfold roundUp blockMin
  split <;> omega

/-- The block that a request takes, and what is behind it afterwards. -/
def taken (b : Blk) (n : ℕ) (r : List Blk) : List Blk :=
  if n + 48 ≤ b.size then { b with size := n, free := false, listed := false } :: rest b n false :: r
  else { b with free := false, listed := false } :: headPrev false r

theorem Exact.taken (exact : Exact false (l ++ b :: r)) (free : b.free = true) :
    Exact false (l ++ taken b n r) := by
  obtain ⟨left, flag, -, apart, right⟩ := exact_append.mp exact
  rw [free] at right apart
  refine exact_append.mpr ⟨left, ?_⟩
  unfold TlsfAlloc.taken
  split
  · exact ⟨flag, rfl, nofun, rfl, rfl, nofun, right⟩
  · exact ⟨flag, rfl, nofun, right.headPrev nofun⟩

/-- The three steps of `__tlsf_alloc` on the block that was found. -/
theorem Sound.take (sound : Sound t (l ++ b :: r)) (free : b.free = true) (minimum : 16 ≤ n)
    (aligned : n % 8 = 0) :
    let u := t.removeFreeBlock b.addr (map b.size).1 (map b.size).2
    Sound ((u.cut b.addr n b.size).unmarkFree b.addr) (l ++ taken b n r) ∧
      Kept t ((u.cut b.addr n b.size).unmarkFree b.addr) (l ++ taken b n r) := by
  intro u
  have here : b ∈ l ++ b :: r := by simp
  have listed : b.listed = true := by
    obtain ⟨-, -, listed, -⟩ := exact_append.mp sound.exact
    rw [listed, free]
  have removed : Heap u (l ++ { b with listed := false } :: r) := sound.heap.remove listed rfl
  have keptRemove : Kept t u (l ++ b :: r) := sound.heap.remove_kept here listed rfl
  have exact := Exact.taken (n := n) sound.exact free
  revert exact
  unfold taken
  by_cases large : n + 48 ≤ b.size
  · rw [if_pos large]
    intro exact
    obtain ⟨flag, cut, keptCut⟩ := removed.cut_large rfl minimum aligned large
    obtain ⟨unmarked, keptUnmark⟩ := cut.unmarkFree
    refine ⟨⟨unmarked, exact⟩, ?_⟩
    have first : Kept t u (l ++ { b with size := n, listed := false } :: rest b n flag :: r) := by
      apply keptRemove.mono
      intro c inside
      simp only [List.mem_append, List.mem_cons] at inside
      rcases inside with inL | rfl | inR
      · exact ⟨c, by simp [inL], rfl⟩
      · exact ⟨_, List.mem_append_right l List.mem_cons_self, rfl⟩
      · exact ⟨c, by simp [inR], rfl⟩
    exact ((first.trans keptCut).trans keptUnmark).relabel (by simp [rest])
  · rw [if_neg large]
    intro exact
    have uncut : u.cut b.addr n b.size = u := by
      rw [Tlsf.cut, if_neg (by unfold headerSize blockMin; omega)]
    rw [uncut]
    obtain ⟨unmarked, keptUnmark⟩ := removed.unmarkFree
    refine ⟨⟨unmarked, exact⟩, ?_⟩
    have first : Kept t u (l ++ { b with listed := false } :: r) := keptRemove.relabel (by simp)
    refine (first.trans keptUnmark).relabel ?_
    cases r <;> simp [headPrev]

theorem used_taken : ∃ m, used (taken b n r) = (b.addr, m) :: used r ∧
    (n ≤ b.size → n ≤ m) := by
  unfold taken
  split
  · exact ⟨n, by simp [used_cons, rest], fun _ => le_refl n⟩
  · exact ⟨b.size, by simp [used_cons], id⟩

/-- `__tlsf_alloc` returns NULL and does nothing, or adds a block. -/
theorem Valid.alloc (valid : Valid t us) (n : ℕ) :
    t.alloc n = (t, 0) ∨ n ≠ 0 ∧ n ≤ maxAlloc ∧ ∃ x y a m, us = x ++ y ∧ roundUp n ≤ m ∧
      (t.alloc n).2 = a + 32 ∧ Valid (t.alloc n).1 (x ++ (a, m) :: y) ∧ Same t (t.alloc n).1 us := by
  obtain ⟨bs, sound, rfl⟩ := valid
  unfold Tlsf.alloc
  split
  · exact .inl rfl
  · rename_i inRange
    have small : n ≤ maxAlloc := by omega
    obtain ⟨-, minimum, aligned, -⟩ := roundUp_spec small
    dsimp only
    split
    · exact .inl rfl
    · rename_i nonzero
      obtain ⟨b, inB, listed, addr, bin⟩ := sound.heap.search nonzero
      rw [← bin, ← addr, sound.heap.getBlockSize inB]
      split
      · exact .inl rfl
      · rename_i enough
        refine .inr ⟨by omega, small, ?_⟩
        have bound := (sound.heap.range inB).2.1
        have high := sound.heap.high
        obtain ⟨l, r, rfl⟩ := List.append_of_mem inB
        have free : b.free = true := (sound.listed_eq inB).symm.trans listed
        obtain ⟨taken, kept⟩ := sound.take free minimum aligned
        obtain ⟨m, useful, large⟩ := used_taken (b := b) (n := roundUp n) (r := r)
        refine ⟨used l, used r, b.addr, m, ?_, large (by omega), ?_, ⟨_, taken, ?_⟩, ?_⟩
        · rw [used_append, used_cons, if_pos free]
        · unfold Blk.stop at bound
          unfold blockToPtr headerSize
          omega
        · rw [used_append, useful]
        · apply kept.same taken.heap
          intro e inside
          have there : e ∈ used (l ++ TlsfAlloc.taken b (roundUp n) r) := by
            rw [used_append, useful]
            rw [used_append, used_cons, if_pos free] at inside
            exact ((List.sublist_cons_self _ _).append_left _).subset inside
          obtain ⟨c, inC, -, same⟩ := mem_used.mp there
          exact ⟨c, inC, same⟩

/-! ## Freeing -/

theorem mem_headPrev_addr {v : Bool} {c : Blk} (inside : c ∈ headPrev v r) :
    ∃ d ∈ r, d.addr = c.addr := by
  cases r with
  | nil => cases inside
  | cons d r =>
      rcases List.mem_cons.mp inside with rfl | later
      · exact ⟨d, List.mem_cons_self, rfl⟩
      · exact ⟨c, List.mem_cons_of_mem d later, rfl⟩

/-- The block is marked and takes over the one behind it if that is free. -/
theorem Sound.release_next (sound : Sound t (l ++ b :: r)) (inUse : b.free = false) :
    ∃ size r', ((t.markFree b.addr).mergeNext b.addr).2 = b.addr ∧
      Heap ((t.markFree b.addr).mergeNext b.addr).1 (l ++ { b with free := true, size := size } :: r') ∧
      Exact true r' ∧ (∀ c ∈ r'.head?, c.free = false) ∧ used r' = used r ∧
      (∀ c ∈ r', ∃ d ∈ r, d.addr = c.addr) ∧
      Kept t ((t.markFree b.addr).mergeNext b.addr).1 (l ++ b :: r) := by
  obtain ⟨left, flag, listed, -, right⟩ := exact_append.mp sound.exact
  rw [inUse] at right listed
  obtain ⟨marked, kept⟩ := sound.heap.markFree
  by_cases free : ∃ c r', r = c :: r' ∧ c.free = true
  · obtain ⟨c, r', rfl, free⟩ := free
    obtain ⟨-, listedC, -, after⟩ := right
    rw [free] at listedC after
    obtain ⟨at_, merged, keptMerge⟩ := marked.mergeNext_free listed free listedC
    refine ⟨_, r', at_, merged, after, ?_, ?_, ?_, kept.trans (keptMerge.relabel (by simp))⟩
    · intro d inside
      cases r' with
      | nil => cases inside
      | cons e r' =>
          cases inside
          have apart := after.2.2.1
          simpa using apart
    · rw [used_cons, if_pos free]
    · exact fun d inside => ⟨d, List.mem_cons_of_mem c inside, rfl⟩
  · have used_ : ∀ c ∈ r.head?, c.free = false := by
      intro c inside
      cases r with
      | nil => cases inside
      | cons d r =>
          cases inside
          cases free' : c.free with
          | false => rfl
          | true => exact absurd ⟨c, r, rfl, free'⟩ free
    have usedHead : ∀ c ∈ (headPrev true r).head?, c.free = false := by
      intro c inside
      cases r with
      | nil => cases inside
      | cons d r =>
          cases inside
          exact used_ d rfl
    have unmerged := marked.mergeNext_used usedHead
    dsimp only at unmerged
    rw [unmerged]
    refine ⟨b.size, headPrev true r, rfl, marked, right.headPrev ?_, usedHead, used_headPrev,
      fun c => mem_headPrev_addr, kept⟩
    intro c inside
    rw [used_ c inside]
    exact fun both => Bool.noConfusion both.2

/-- A marked block is taken over by the one before it if that is free, and put into its
bin. -/
theorem Heap.release_prev (heap : Heap t (l ++ b :: r)) (free : b.free = true)
    (loose : b.listed = false) (left : Exact false l) (flag : b.prevFree = lastFree false l)
    (right : Exact true r) :
    ∃ l' p, (t.mergePrev b.addr).2 = p.addr ∧ p.listed = false ∧
      Heap (t.mergePrev b.addr).1 (l' ++ p :: r) ∧
      Exact false (l' ++ { p with listed := true } :: r) ∧ p.free = true ∧ used l' = used l ∧
      (∀ c ∈ l' ++ [p], ∃ d ∈ l ++ [b], d.addr = c.addr) ∧
      Kept t (t.mergePrev b.addr).1 (l ++ b :: r) := by
  by_cases before : b.prevFree = true
  · rw [before] at flag
    -- the block before is the last of `l`, and free
    rcases List.eq_nil_or_concat l with rfl | ⟨l', p, concat⟩
    · exact absurd flag (by simp [lastFree])
    · rw [List.concat_eq_append] at concat
      subst concat
      rw [lastFree_snoc] at flag
      obtain ⟨leftL, flagP, listedP, apartP, -⟩ := exact_append.mp left
      have listed : p.listed = true := by rw [listedP, ← flag]
      rw [List.append_assoc] at heap
      obtain ⟨at_, merged, kept⟩ := heap.mergePrev_free loose listed before
      refine ⟨l', { p with size := p.size + 32 + b.size, listed := false }, at_, rfl, merged, ?_,
        flag.symm, ?_, ?_, ?_⟩
      · exact exact_append.mpr ⟨leftL, flagP, flag, apartP, flag ▸ right⟩
      · rw [used_append, used_cons, if_pos flag.symm]
        exact (List.append_nil _).symm
      · intro c inside
        rcases List.mem_append.mp inside with inL | inP
        · exact ⟨c, by simp [inL], rfl⟩
        · rw [List.mem_singleton.mp inP]
          exact ⟨p, by simp, rfl⟩
      · rw [List.append_assoc]
        exact kept
  · have clear : b.prevFree = false := by simpa using before
    rw [heap.mergePrev_used clear]
    refine ⟨l, b, rfl, loose, heap, ?_, free, rfl, fun c inside => ⟨c, inside, rfl⟩,
      fun x outside => rfl⟩
    refine exact_append.mpr ⟨left, flag, free.symm, ?_, free ▸ right⟩
    rw [← flag, clear]
    exact fun both => Bool.noConfusion both.1

theorem Sound.free (sound : Sound t (l ++ b :: r)) (inUse : b.free = false) :
    ∃ bs, Sound (t.free (b.addr + 32)) bs ∧ used bs = used l ++ used r ∧
      Kept t (t.free (b.addr + 32)) (l ++ b :: r) := by
  obtain ⟨low, high, minimum, -⟩ := sound.heap.range (b := b) (by simp)
  have bound := sound.heap.high
  have positive := sound.heap.low
  unfold Blk.stop at high
  have block : ptrToBlock (b.addr + 32) = b.addr := sound.heap.ptrToBlock (by simp)
  obtain ⟨left, flag, listed, -, -⟩ := exact_append.mp sound.exact
  obtain ⟨size, r', at2, heap2, right, -, usedR, fromR, kept2⟩ := sound.release_next inUse
  obtain ⟨l', p, at3, loose, heap3, exact, free, usedL, fromL, kept3⟩ :=
    heap2.release_prev rfl (listed.trans inUse) left flag right
  dsimp only at at3 heap3 kept3
  have headers : ∀ c ∈ l' ++ p :: r', ∃ d ∈ l ++ b :: r, d.addr = c.addr := by
    intro c inside
    simp only [List.mem_append, List.mem_cons] at inside
    rcases inside with inL | rfl | inR
    · obtain ⟨d, inD, e⟩ := fromL c (by simp [inL])
      rcases List.mem_append.mp inD with inD | inD
      · exact ⟨d, by simp [inD], e⟩
      · rw [List.mem_singleton.mp inD] at e
        exact ⟨b, by simp, e⟩
    · obtain ⟨d, inD, e⟩ := fromL c (by simp)
      rcases List.mem_append.mp inD with inD | inD
      · exact ⟨d, by simp [inD], e⟩
      · rw [List.mem_singleton.mp inD] at e
        exact ⟨b, by simp, e⟩
    · obtain ⟨d, inD, e⟩ := fromR c inR
      exact ⟨d, by simp [inD], e⟩
  have headers2 : ∀ c ∈ l ++ { b with free := true, size := size } :: r',
      ∃ d ∈ l ++ b :: r, d.addr = c.addr := by
    intro c inside
    simp only [List.mem_append, List.mem_cons] at inside
    rcases inside with inL | rfl | inR
    · exact ⟨c, by simp [inL], rfl⟩
    · exact ⟨b, by simp, rfl⟩
    · obtain ⟨d, inD, e⟩ := fromR c inR
      exact ⟨d, by simp [inD], e⟩
  rw [Tlsf.free, if_neg (by omega), block, if_neg (by omega)]
  dsimp only
  rw [at2, at3, heap3.getBlockSize (by simp)]
  refine ⟨_, ⟨heap3.insert loose, exact⟩, ?_, ?_⟩
  · rw [used_append, used_cons, if_pos free, usedL, usedR]
  · exact (kept2.trans (kept3.mono headers2)).trans
      ((heap3.insert_kept (b := p) (by simp) _ _).mono headers)

/-- `__tlsf_free` takes a block away. -/
theorem Valid.free {a m : ℕ} (valid : Valid t (x ++ (a, m) :: y)) :
    Valid (t.free (a + 32)) (x ++ y) ∧ Same t (t.free (a + 32)) (x ++ y) := by
  obtain ⟨bs, sound, eq⟩ := valid
  obtain ⟨l, b, r, rfl, inUse, rfl, rfl, rfl, rfl⟩ := exists_of_used eq
  obtain ⟨bs', sound', eq', kept⟩ := sound.free inUse
  refine ⟨⟨bs', sound', eq'⟩, kept.same sound.heap ?_⟩
  intro e inside
  rcases List.mem_append.mp inside with inL | inR
  · obtain ⟨c, inC, -, same⟩ := mem_used.mp inL
    exact ⟨c, by simp [inC], same⟩
  · obtain ⟨c, inC, -, same⟩ := mem_used.mp inR
    exact ⟨c, by simp [inC], same⟩

/-! ## Aligned blocks -/

/-- The word of a header for a block in use, whatever was there before. -/
theorem used_word (g : ℕ) {n : ℕ} (aligned : n % 8 = 0) (a : ℕ) :
    Tlsf.withoutPrevFree ((n / 4 * 4 + g % 4) / 2 * 2) =
      Blk.word { addr := a, size := n, free := false, prevFree := false, listed := false } := by
  unfold Tlsf.withoutPrevFree Blk.word
  simp
  omega

/-- The padding becomes a block, which is then freed. -/
theorem Valid.carvePadding {a m d : ℕ} (valid : Valid t (x ++ (a, m) :: y)) (aligned : d % 8 = 0)
    (wide : 48 ≤ d) (room : d + 16 ≤ m) :
    (t.carvePadding (a + 32) (a + 32 + d)).2 = a + 32 + d ∧
    Valid (t.carvePadding (a + 32) (a + 32 + d)).1 (x ++ (a + d, m - d) :: y) ∧
    Same t (t.carvePadding (a + 32) (a + 32 + d)).1 (x ++ y) := by
  obtain ⟨low, high, -, -, -, positive, bound⟩ := valid.range (u := (a, m)) (by simp)
  dsimp only at low high
  obtain ⟨bs, sound, eq⟩ := valid
  obtain ⟨l, b, r, rfl, inUse, rfl, rfl, rfl, rfl⟩ := exists_of_used eq
  obtain ⟨left, flag, listed, apart, right⟩ := exact_append.mp sound.exact
  rw [inUse] at right listed
  have alignedB := (sound.heap.range (b := b) (by simp)).2.2.2
  have alignedC : (b.size - d) % 8 = 0 := by omega
  let c : Blk := { addr := b.addr + d, size := b.size - d, free := false, prevFree := false, listed := false }
  obtain ⟨split, kept⟩ := sound.heap.carveFront (c := c) (n := d - 32) listed rfl
    ⟨by omega, by show 16 ≤ b.size - d; omega⟩ (by omega) (by show b.addr + d = _; omega)
    (by show b.size = d - 32 + 32 + (b.size - d); omega)
  have soundSplit : Sound (t.carveFront b.addr (d - 32) c.addr c.word)
      (l ++ { b with size := d - 32 } :: c :: r) := by
    refine ⟨split, exact_append.mpr ⟨left, flag, listed.trans inUse.symm, apart, inUse.symm, rfl, ?_, right⟩⟩
    exact fun both => Bool.noConfusion both.2
  have usedSplit : used (l ++ { b with size := d - 32 } :: c :: r) =
      used l ++ (b.addr, d - 32) :: (b.addr + d, b.size - d) :: used r := by
    simp [used_cons, inUse, c]
  have validSplit : Valid (t.carveFront b.addr (d - 32) c.addr c.word)
      (used l ++ (b.addr, d - 32) :: (b.addr + d, b.size - d) :: used r) := ⟨_, soundSplit, usedSplit⟩
  obtain ⟨validFree, sameFree⟩ := validSplit.free
  have orig : ptrToBlock (b.addr + 32) = b.addr := sound.heap.ptrToBlock (by simp)
  have state : t.carvePadding (b.addr + 32) (b.addr + 32 + d) =
      ((t.carveFront b.addr (d - 32) c.addr c.word).free (b.addr + 32), b.addr + 32 + d) := by
    have new : (b.addr + 32 + d + 2 ^ 64 - headerSize) % 2 ^ 64 = b.addr + d := by
      unfold headerSize
      omega
    have pad : (b.addr + d + 2 ^ 64 - (b.addr + 32)) % 2 ^ 64 = d - 32 := by omega
    have size : (b.size + 2 ^ 65 - (d - 32) - headerSize) % 2 ^ 64 = b.size - d := by
      unfold headerSize
      omega
    have pointer : blockToPtr (b.addr + d) = b.addr + 32 + d := by
      unfold blockToPtr headerSize
      omega
    rw [Tlsf.carvePadding, if_pos (by unfold headerSize blockMin; omega), orig, new]
    dsimp only
    rw [sound.heap.getBlockSize (by simp), pad, size, pointer]
    have word := used_word (t.mem (b.addr + d)) alignedC (b.addr + d)
    simp only [Tlsf.setBlockSize, Tlsf.unsetBlockFree, Tlsf.unsetPrevPhysFree, write_write, write_mem,
      if_true, word, Tlsf.carveFront]
    rfl
  rw [state]
  refine ⟨rfl, validFree, ?_⟩
  have sameSplit : Same t (t.carveFront b.addr (d - 32) c.addr c.word) (used l ++ used r) := by
    apply kept.same split
    intro e inside
    have there : e ∈ used (l ++ { b with size := d - 32 } :: c :: r) := by
      rw [usedSplit]
      exact (((List.sublist_cons_self _ _).trans (List.sublist_cons_self _ _)).append_left _).subset inside
    obtain ⟨c', inC, -, same⟩ := mem_used.mp there
    exact ⟨c', inC, same⟩
  exact sameSplit.trans (sameFree.mono ((List.sublist_cons_self _ _).append_left _).subset)

/-- The padding is given back if it is large enough to be a block; the rest of the block
still has the header in its payload. -/
theorem Valid.pad {a m d : ℕ} (valid : Valid t (x ++ (a, m) :: y)) (aligned : d % 8 = 0)
    (room : d + 16 ≤ m) :
    ∃ a' m', (t.carvePadding (a + 32) (a + 32 + d)).2 = a' + 32 ∧ a ≤ a' ∧ a' ≤ a + d ∧
      a' + m' = a + m ∧ Valid (t.carvePadding (a + 32) (a + 32 + d)).1 (x ++ (a', m') :: y) ∧
      Same t (t.carvePadding (a + 32) (a + 32 + d)).1 (x ++ y) := by
  by_cases wide : 48 ≤ d
  · obtain ⟨pointer, carved, same⟩ := valid.carvePadding aligned wide room
    exact ⟨a + d, m - d, by omega, by omega, le_refl _, by omega, carved, same⟩
  · obtain ⟨-, high, -, -, -, -, bound⟩ := valid.range (u := (a, m)) (by simp)
    dsimp only at high
    rw [Tlsf.carvePadding, if_neg (by unfold headerSize blockMin; omega)]
    exact ⟨a, m, rfl, le_refl a, by omega, rfl, valid, Same.refl⟩

/-- `__tlsf_alloc_p2aligned` returns NULL and does nothing, or adds a block: the aligned
pointer is inside its payload, and the word 16 bytes before it names the block. -/
theorem Valid.allocP2aligned (valid : Valid t us) (n : ℕ) {alignment : ℕ} (nonzero : alignment ≠ 0) :
    t.allocP2aligned n alignment = (t, 0) ∨ n ≠ 0 ∧ ∃ x y a m, us = x ++ y ∧
      a + 48 ≤ (t.allocP2aligned n alignment).2 ∧ (t.allocP2aligned n alignment).2 + n ≤ a + 32 + m ∧
      (t.allocP2aligned n alignment).2 % 8 = 0 ∧ alignment ∣ (t.allocP2aligned n alignment).2 ∧
      (t.allocP2aligned n alignment).1.mem ((t.allocP2aligned n alignment).2 - 16) = a + 32 ∧
      Valid (t.allocP2aligned n alignment).1 (x ++ (a, m) :: y) ∧
      Same t (t.allocP2aligned n alignment).1 us := by
  unfold Tlsf.allocP2aligned
  split
  · exact .inl rfl
  rename_i pow2
  split
  · exact .inl rfl
  rename_i inRange
  dsimp only
  split
  · exact .inl rfl
  rename_i small
  unfold alignedHeaderSize at *
  rcases valid.alloc (n + alignment + 16) with failed | ⟨-, -, x, y, a, m, rfl, enough, pointer, allocated, same⟩
  · rw [failed]
    exact .inl rfl
  rw [pointer, if_neg (by omega)]
  refine .inr ⟨by omega, x, y, ?_⟩
  obtain ⟨le, -⟩ := roundUp_spec (n := n + alignment + 16) (by omega)
  obtain ⟨-, high, -, -, alignedA, -, bound⟩ := allocated.range (u := (a, m)) (by simp)
  dsimp only at high alignedA
  obtain ⟨k, rfl⟩ := (isPow2_iff nonzero).mp (by simpa using pow2)
  obtain ⟨low, up, multiple⟩ := p2alignUp_spec (x := a + 32 + 16) (Nat.pos_of_ne_zero nonzero) (by omega)
  have eight : 2 ^ 3 ∣ p2alignUp (a + 32 + 16) (2 ^ k) := dvd_p2alignUp (by omega) (by omega)
  generalize p2alignUp (a + 32 + 16) (2 ^ k) = p at low up multiple eight
  obtain ⟨d, header⟩ : ∃ d, p - 16 = a + 32 + d := ⟨p - 48 - a, by omega⟩
  have wrapped : (p + 2 ^ 64 - 16) % 2 ^ 64 = a + 32 + d := by omega
  rw [wrapped, header]
  obtain ⟨a', m', pointer', above, below, total, padded, samePad⟩ :=
    allocated.pad (d := d) (by omega) (by omega)
  rw [pointer']
  generalize ((t.alloc (n + 2 ^ k + 16)).1.carvePadding (a + 32) (a + 32 + d)).1 = u at padded samePad
  have inHeader : InPayload (a', m') (a + 32 + d) := ⟨by dsimp only; omega, by dsimp only; omega⟩
  have inSize : InPayload (a', m') (a + 32 + d + 8) := ⟨by dsimp only; omega, by dsimp only; omega⟩
  have first := padded.write (v := a' + 32) (by simp) inHeader
  have second := first.write (v := n) (by simp) inSize
  refine ⟨a', m', rfl, by omega, by omega, by omega, multiple, ?_, second, ?_⟩
  · rw [write_mem, write_mem, if_neg (by omega), if_pos rfl]
  · exact ((same.trans samePad).trans (padded.write_same inHeader)).trans (first.write_same inSize)

/-- `__tlsf_free_p2aligned` takes the block away that the word before the pointer names. -/
theorem Valid.freeP2aligned {a m p : ℕ} (valid : Valid t (x ++ (a, m) :: y)) (low : a + 48 ≤ p)
    (high : p < a + 32 + m) (header : t.mem (p - 16) = a + 32) :
    Valid (t.freeP2aligned p) (x ++ y) ∧ Same t (t.freeP2aligned p) (x ++ y) := by
  obtain ⟨start, stop, -, -, -, positive, bound⟩ := valid.range (u := (a, m)) (by simp)
  dsimp only at start stop
  have at_ : (p + 2 ^ 64 - alignedHeaderSize) % 2 ^ 64 = p - 16 := by
    unfold alignedHeaderSize
    omega
  unfold Tlsf.freeP2aligned
  rw [at_, if_neg (by omega), header]
  exact valid.free

end Calls

end Twan.Lib.TlsfAlloc
