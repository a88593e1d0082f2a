/-
# Twan.Lib.TlsfOps -- what each allocator function does to the list of blocks

One specification for each function of `tlsf_alloc.c`, over the list of blocks that
`Heap` gives a state.  The helpers (`__tlsf_mark_free`, `__tlsf_merge_next`, ...) are
described on any heap; `__tlsf_alloc`, `__tlsf_free` and the aligned pair on one whose
flags are `Exact`, which they restore.

Each specification comes with what the call leaves alone.  `Kept` says it for memory
outside the headers; `Frame` for the blocks that stay allocated.
-/
import Twan.Lib.TlsfHeap

namespace Twan.Lib.TlsfAlloc

set_option autoImplicit false

/-- The flags are right: `prev-free` says whether the block before is free, exactly the
free blocks are linked, and no two neighbours are free. -/
def Exact : Bool → List Blk → Prop
  | _, [] => True
  | before, b :: bs =>
      b.prevFree = before ∧ b.listed = b.free ∧ ¬ (before = true ∧ b.free = true) ∧ Exact b.free bs

/-- Whether the last block is free, or the one before the list. -/
def lastFree (before : Bool) (bs : List Blk) : Bool := (bs.getLast?.map Blk.free).getD before

/-- The first block is told whether the one before it is free. -/
def headPrev (v : Bool) (bs : List Blk) : List Blk := bs.modifyHead fun c => { c with prevFree := v }

section Flags

variable {before : Bool} {l r : List Blk} {b : Blk}

theorem exact_append : Exact before (l ++ r) ↔ Exact before l ∧ Exact (lastFree before l) r := by
  induction l generalizing before with
  | nil => simp [Exact, lastFree]
  | cons c l ih =>
      have last : lastFree before (c :: l) = lastFree c.free l := by
        cases l with
        | nil => rfl
        | cons d l => simp [lastFree, List.getLast?_cons]
      simp only [List.cons_append, Exact, ih, last, and_assoc]

theorem lastFree_snoc : lastFree before (l ++ [b]) = b.free := by
  simp [lastFree]

theorem lastAddr_snoc {prev : ℕ} : lastAddr prev (l ++ [b]) = b.addr := by
  simp [lastAddr]

/-- The blocks behind one whose state changes. -/
theorem Exact.headPrev {v : Bool} (exact : Exact before r) (apart : ∀ c ∈ r.head?, ¬ (v = true ∧ c.free = true)) :
    Exact v (headPrev v r) := by
  cases r with
  | nil => trivial
  | cons c r =>
      obtain ⟨-, listed, -, rest⟩ := exact
      exact ⟨rfl, listed, apart c rfl, rest⟩

end Flags

section Helpers

variable {t : Tlsf} {bs l r : List Blk} {b : Blk}

/-! ## Flags -/

theorem Blk.withPrevFree_word (b : Blk) (aligned : b.size % 8 = 0) :
    Tlsf.withPrevFree b.word = Blk.word { b with prevFree := true } := by
  unfold Tlsf.withPrevFree Blk.word
  cases b.free <;> cases b.prevFree <;> simp <;> omega

theorem Blk.withoutPrevFree_word (b : Blk) (aligned : b.size % 8 = 0) :
    Tlsf.withoutPrevFree b.word = Blk.word { b with prevFree := false } := by
  unfold Tlsf.withoutPrevFree Blk.word
  cases b.free <;> cases b.prevFree <;> simp <;> omega

/-- The word of a block whose `free` flag is stored anew. -/
theorem Blk.word_setFree (b : Blk) (aligned : b.size % 8 = 0) (v : Bool) :
    b.word / 2 * 2 + v.toNat = Blk.word { b with free := v } := by
  unfold Blk.word
  cases b.free <;> cases b.prevFree <;> cases v <;> simp <;> omega

/-- What `__tlsf_mark_free` and `__tlsf_unmark_free` have in common: the flag of the block,
and the flag of the one behind it if there is one. -/
theorem Heap.flag (heap : Heap t (l ++ b :: r)) (v : Bool) (store : ℕ → ℕ)
    (stores : ∀ c : Blk, c.size % 8 = 0 → store c.word = Blk.word { c with prevFree := v }) :
    let u := t.write b.addr (t.mem b.addr / 2 * 2 + v.toNat)
    let t' := u.writeIf (u.nextBlock b.addr < t.heapEnd) (u.nextBlock b.addr)
      (store (u.mem (u.nextBlock b.addr)))
    Heap t' (l ++ { b with free := v } :: headPrev v r) ∧ Kept t t' (l ++ b :: r) := by
  intro u
  have here : b ∈ l ++ b :: r := List.mem_append_right l List.mem_cons_self
  obtain ⟨word, aligned⟩ := heap.tagged here
  have marked : Heap u (l ++ { b with free := v } :: r) := by
    have same : u = t.write b.addr (Blk.word { b with free := v }) := by
      rw [← b.word_setFree aligned, ← word]
    rw [same]
    exact heap.retag rfl rfl rfl
  have kept : Kept t u (l ++ b :: r) := Heap.retag_kept here _
  have next : u.nextBlock b.addr = b.stop :=
    marked.nextBlock (b := { b with free := v }) (List.mem_append_right l List.mem_cons_self)
  rw [next]
  cases r with
  | nil =>
      have last : ¬ b.stop < t.heapEnd := fun more => heap.stop_lt.mp more rfl
      simp only [Tlsf.writeIf, if_neg last]
      exact ⟨marked, kept⟩
  | cons c r =>
      have more : b.stop < t.heapEnd := heap.stop_lt.mpr (List.cons_ne_nil c r)
      have start : c.addr = b.stop := heap.next_addr
      have list : l ++ { b with free := v } :: c :: r = (l ++ [{ b with free := v }]) ++ c :: r := by
        simp
      rw [list] at marked
      have inC : c ∈ (l ++ [{ b with free := v }]) ++ c :: r :=
        List.mem_append_right _ List.mem_cons_self
      obtain ⟨wordC, alignedC⟩ := marked.tagged inC
      have stored : u.writeIf (b.stop < t.heapEnd) b.stop (store (u.mem b.stop)) =
          u.write c.addr (Blk.word { c with prevFree := v }) := by
        simp only [Tlsf.writeIf, Tlsf.write, if_pos more]
        rw [← stores c alignedC, ← wordC, start]
      rw [stored]
      refine ⟨?_, kept.trans (Heap.retag_kept (by simp) _)⟩
      have retagged : Heap (u.write c.addr (Blk.word { c with prevFree := v }))
          ((l ++ [{ b with free := v }]) ++ { c with prevFree := v } :: r) := marked.retag rfl rfl rfl
      rw [List.append_assoc] at retagged
      exact retagged

theorem Heap.markFree (heap : Heap t (l ++ b :: r)) :
    Heap (t.markFree b.addr) (l ++ { b with free := true } :: headPrev true r) ∧
      Kept t (t.markFree b.addr) (l ++ b :: r) :=
  heap.flag true Tlsf.withPrevFree Blk.withPrevFree_word

theorem Heap.unmarkFree (heap : Heap t (l ++ b :: r)) :
    Heap (t.unmarkFree b.addr) (l ++ { b with free := false } :: headPrev false r) ∧
      Kept t (t.unmarkFree b.addr) (l ++ b :: r) :=
  heap.flag false Tlsf.withoutPrevFree Blk.withoutPrevFree_word

/-! ## Merging -/

/-- Headers are where they were. -/
theorem Kept.relabel {t' : Tlsf} {bs' : List Blk} (kept : Kept t t' bs)
    (same : bs.map Blk.addr = bs'.map Blk.addr) : Kept t t' bs' := by
  apply kept.mono
  intro c inside
  have there : c.addr ∈ bs'.map Blk.addr := same ▸ List.mem_map_of_mem inside
  obtain ⟨d, inD, e⟩ := List.mem_map.mp there
  exact ⟨d, inD, e⟩

/-- `__tlsf_merge_next` when the next block is free. -/
theorem Heap.mergeNext_free {c : Blk} (heap : Heap t (l ++ b :: c :: r)) (loose : b.listed = false)
    (free : c.free = true) (listed : c.listed = true) :
    (t.mergeNext b.addr).2 = b.addr ∧
    Heap (t.mergeNext b.addr).1 (l ++ { b with size := b.size + 32 + c.size } :: r) ∧
    Kept t (t.mergeNext b.addr).1 (l ++ b :: c :: r) := by
  have inB : b ∈ l ++ b :: c :: r := by simp
  have inC : c ∈ l ++ b :: c :: r := by simp
  have next : t.nextBlock b.addr = c.addr := by rw [heap.nextBlock inB, heap.next_addr]
  have more : c.addr < t.heapEnd := by
    rw [heap.next_addr]
    exact heap.stop_lt.mpr nofun
  have sizeC : t.getBlockSize c.addr = c.size := heap.getBlockSize inC
  have split : l ++ b :: c :: r = (l ++ [b]) ++ c :: r := by simp
  have removed : Heap (t.removeFreeBlock c.addr (map c.size).1 (map c.size).2)
      (l ++ b :: { c with listed := false } :: r) := by
    have gone := (split ▸ heap).remove listed (f := (map c.size).1) (s := (map c.size).2) rfl
    rw [List.append_assoc] at gone
    exact gone
  have keptRemove := heap.remove_kept inC listed (f := (map c.size).1) (s := (map c.size).2) rfl
  have sizeB := removed.getBlockSize (b := b) (by simp)
  obtain ⟨joined, keptJoin⟩ := removed.join loose rfl
    (n := b.size + c.size + headerSize) (by unfold headerSize; simp only; omega)
  have result : t.mergeNext b.addr =
      let u := t.removeFreeBlock c.addr (map c.size).1 (map c.size).2
      let u := u.setBlockSize b.addr (b.size + c.size + headerSize)
      (u.setPrevPhys (u.nextBlock c.addr) b.addr, b.addr) := by
    rw [Tlsf.mergeNext, next, if_pos ⟨more, (heap.blockIsFree inC).trans free⟩, sizeC]
    dsimp only
    rw [sizeB]
  rw [result]
  refine ⟨rfl, ?_, keptRemove.trans (keptJoin.relabel (by simp))⟩
  have total : b.size + c.size + headerSize = b.size + 32 + c.size := by
    unfold headerSize
    omega
  rw [total] at joined ⊢
  exact joined

/-- `__tlsf_merge_next` when the next block is in use or there is none. -/
theorem Heap.mergeNext_used (heap : Heap t (l ++ b :: r)) (used : ∀ c ∈ r.head?, c.free = false) :
    t.mergeNext b.addr = (t, b.addr) := by
  have inB : b ∈ l ++ b :: r := by simp
  have refused : ¬ (b.stop < t.heapEnd ∧ t.blockIsFree b.stop = true) := by
    rintro ⟨more, free⟩
    cases r with
    | nil => exact heap.stop_lt.mp more rfl
    | cons c r =>
        rw [← heap.next_addr, heap.blockIsFree (b := c) (by simp), used c rfl] at free
        exact Bool.noConfusion free
  rw [Tlsf.mergeNext, heap.nextBlock inB, if_neg refused]

/-- `__tlsf_merge_prev` when the previous block is free. -/
theorem Heap.mergePrev_free {p : Blk} (heap : Heap t (l ++ p :: b :: r)) (loose : b.listed = false)
    (listed : p.listed = true) (flag : b.prevFree = true) :
    (t.mergePrev b.addr).2 = p.addr ∧
    Heap (t.mergePrev b.addr).1 (l ++ { p with size := p.size + 32 + b.size, listed := false } :: r) ∧
    Kept t (t.mergePrev b.addr).1 (l ++ p :: b :: r) := by
  have inP : p ∈ l ++ p :: b :: r := by simp
  have inB : b ∈ l ++ p :: b :: r := by simp
  have prev : t.prevPhys b.addr = p.addr := by
    have split : l ++ p :: b :: r = (l ++ [p]) ++ b :: r := by simp
    rw [split] at heap
    rw [heap.prevPhys, lastAddr_snoc]
  have removed := heap.remove listed (f := (map p.size).1) (s := (map p.size).2) rfl
  have keptRemove := heap.remove_kept inP listed (f := (map p.size).1) (s := (map p.size).2) rfl
  have sizeB := removed.getBlockSize (b := b) (by simp)
  obtain ⟨joined, keptJoin⟩ := removed.join rfl loose (n := p.size + headerSize + b.size) rfl
  have result : t.mergePrev b.addr =
      let u := t.removeFreeBlock p.addr (map p.size).1 (map p.size).2
      let u := u.setBlockSize p.addr (p.size + headerSize + b.size)
      (u.setPrevPhys (u.nextBlock b.addr) p.addr, p.addr) := by
    rw [Tlsf.mergePrev, if_pos ((heap.prevIsFree inB).trans flag), prev]
    dsimp only
    rw [heap.getBlockSize inP, sizeB]
  rw [result]
  exact ⟨rfl, joined, keptRemove.trans (keptJoin.relabel (by simp))⟩

/-- `__tlsf_merge_prev` when the previous block is in use or there is none. -/
theorem Heap.mergePrev_used (heap : Heap t (l ++ b :: r)) (flag : b.prevFree = false) :
    t.mergePrev b.addr = (t, b.addr) := by
  have refused : ¬ t.prevIsFree b.addr = true := by
    rw [heap.prevIsFree (by simp), flag]
    exact Bool.false_ne_true
  rw [Tlsf.mergePrev, if_neg refused]

/-! ## Splitting -/

theorem write_write {a v w : ℕ} : (t.write a v).write a w = t.write a w := by
  simp [Tlsf.write]

/-- The stores of `__tlsf_alloc` and `__tlsf_try_carve` that make the rest of `b` a block of
its own. -/
def Tlsf.carve (t : Tlsf) (b size a w : ℕ) : Tlsf :=
  let u := ((t.write a w).write (a + 8) b).setBlockSize b size
  u.setPrevPhys (u.nextBlock a) a

theorem Heap.carve {c : Blk} {n : ℕ} (heap : Heap t (l ++ b :: r)) (loose : b.listed = false)
    (looseC : c.listed = false) (minimum : 16 ≤ n ∧ 16 ≤ c.size) (aligned : n % 8 = 0)
    (addr : c.addr = b.addr + 32 + n) (size : b.size = n + 32 + c.size) :
    Heap (t.carve b.addr n c.addr c.word) (l ++ { b with size := n } :: c :: r) ∧
      Kept t (t.carve b.addr n c.addr c.word) (l ++ { b with size := n } :: c :: r) := by
  have here : b ∈ l ++ b :: r := by simp
  obtain ⟨word, alignedB⟩ := heap.tagged here
  have bound := (heap.range here).2.1
  have high := heap.high
  have alignedC : c.size % 8 = 0 := by omega
  have resized := b.word_resize alignedB aligned
  have next : (((t.write c.addr c.word).write (c.addr + 8) b.addr).setBlockSize b.addr n).nextBlock
      c.addr = b.stop := by
    have atC : c.addr ≠ b.addr := by omega
    simp only [Tlsf.nextBlock, Tlsf.getBlockSize, Tlsf.setBlockSize, write_mem, if_neg atC,
      if_neg (by omega : ¬ c.addr = c.addr + 8), if_true]
    rw [Blk.word_size alignedC]
    unfold Blk.stop at bound ⊢
    unfold headerSize
    omega
  have value : ∀ x, (t.carve b.addr n c.addr c.word).mem x =
      if b.stop < t.heapEnd ∧ x = b.stop + 8 then c.addr
      else if x = b.addr then Blk.word { b with size := n }
      else if x = c.addr + 8 then b.addr
      else if x = c.addr then c.word
      else t.mem x := by
    intro x
    have front : ((t.write c.addr c.word).write (c.addr + 8) b.addr).mem b.addr = b.word := by
      rw [write_mem, write_mem, if_neg (by omega), if_neg (by omega), word]
    unfold Tlsf.carve
    dsimp only
    rw [next, Tlsf.setBlockSize, front, resized, setPrevPhys_mem]
    simp only [write_mem]
    rfl
  unfold Blk.stop at bound
  have splits : Splits t (t.carve b.addr n c.addr c.word).mem b c n := by
    refine ⟨?_, ?_, ?_, ?_, ?_⟩
    · rw [value, if_neg (by unfold Blk.stop; omega), if_pos rfl]
    · rw [value, if_neg (by unfold Blk.stop; omega), if_neg (by omega), if_neg (by omega), if_pos rfl]
    · rw [value, if_neg (by unfold Blk.stop; omega), if_neg (by omega), if_pos rfl]
    · intro more
      rw [value, if_pos ⟨more, rfl⟩]
    · intro x notB notC notNext
      rw [value, if_neg notNext, if_neg notB, if_neg (by omega), if_neg (by omega)]
  exact heap.split loose looseC minimum aligned addr size splits

/-- The word that a header gets from `tlsf_set_block_size` and `tlsf_set_block_free`, whatever
was there before. -/
theorem fresh_word (g : ℕ) {n : ℕ} (aligned : n % 8 = 0) (a : ℕ) : (n / 4 * 4 + g % 4) / 2 * 2 + 1 =
    Blk.word { addr := a, size := n, free := true, prevFree := g / 2 % 2 == 1, listed := false } := by
  unfold Blk.word
  rcases Nat.mod_two_eq_zero_or_one (g / 2) with even | odd
  · simp [even]
    omega
  · simp [odd]
    omega

/-- The second half of a split block. -/
def rest (b : Blk) (n : ℕ) (prevFree : Bool) : Blk :=
  { addr := b.addr + 32 + n, size := b.size - n - 32, free := true, prevFree := prevFree, listed := true }

/-- A block is split, and the rest of it becomes a free block. -/
theorem Heap.carve_rest {n : ℕ} (heap : Heap t (l ++ b :: r)) (loose : b.listed = false)
    (minimum : 16 ≤ n) (aligned : n % 8 = 0) (large : n + 48 ≤ b.size) (flag : Bool) :
    let t' := (t.carve b.addr n (rest b n flag).addr (rest b n flag).word).insertFreeBlock
      (rest b n flag).addr (map (rest b n flag).size).1 (map (rest b n flag).size).2
    Heap t' (l ++ { b with size := n } :: rest b n flag :: r) ∧
      Kept t t' (l ++ { b with size := n } :: rest b n flag :: r) := by
  intro t'
  obtain ⟨carved, kept⟩ := heap.carve (c := { rest b n flag with listed := false }) loose rfl
    ⟨minimum, by unfold rest; dsimp only; omega⟩ aligned rfl (by unfold rest; dsimp only; omega)
  have split : ∀ c : Blk,
      l ++ { b with size := n } :: c :: r = (l ++ [{ b with size := n }]) ++ c :: r := by
    intro c
    simp
  have keptInsert := carved.insert_kept (b := { rest b n flag with listed := false }) (by simp)
    (map (rest b n flag).size).1 (map (rest b n flag).size).2
  rw [split] at carved
  have inserted := carved.insert rfl
  rw [← split] at inserted
  exact ⟨inserted, (kept.trans keptInsert).relabel (by simp)⟩

/-- Where the second half of a block begins. -/
theorem Heap.cutout (heap : Heap t bs) (here : b ∈ bs) {n : ℕ} (large : n + 48 ≤ b.size) :
    blockToPtr b.addr + n = b.addr + 32 + n := by
  have bound := (heap.range here).2.1
  have high := heap.high
  unfold Blk.stop at bound
  unfold blockToPtr headerSize
  omega

/-- The cut in `__tlsf_alloc`.  The prev-free flag of the new header is left over from the
payload. -/
theorem Heap.cut_large {n : ℕ} (heap : Heap t (l ++ b :: r)) (loose : b.listed = false)
    (minimum : 16 ≤ n) (aligned : n % 8 = 0) (large : n + 48 ≤ b.size) :
    ∃ flag, Heap (t.cut b.addr n b.size) (l ++ { b with size := n } :: rest b n flag :: r) ∧
      Kept t (t.cut b.addr n b.size) (l ++ { b with size := n } :: rest b n flag :: r) := by
  have alignedB := (heap.range (b := b) (by simp)).2.2.2
  have alignedC : (b.size - n - 32) % 8 = 0 := by omega
  refine ⟨t.mem (b.addr + 32 + n) / 2 % 2 == 1, ?_⟩
  have state : t.cut b.addr n b.size = (t.carve b.addr n (b.addr + 32 + n)
      (((b.size - n - 32) / 4 * 4 + t.mem (b.addr + 32 + n) % 4) / 2 * 2 + 1)).insertFreeBlock
        (b.addr + 32 + n) (map (b.size - n - 32)).1 (map (b.size - n - 32)).2 := by
    rw [Tlsf.cut, if_pos (by unfold headerSize blockMin; omega), heap.cutout (by simp) large]
    simp only [Tlsf.carve, Tlsf.setBlockSize, Tlsf.setBlockFree, write_write, write_mem, if_true,
      headerSize]
  rw [state, fresh_word _ alignedC (b.addr + 32 + n)]
  exact heap.carve_rest loose minimum aligned large _

/-- `__tlsf_try_carve` on a block that is large enough. -/
theorem Heap.tryCarve_large {n : ℕ} (heap : Heap t (l ++ b :: r)) (loose : b.listed = false)
    (minimum : 16 ≤ n) (aligned : n % 8 = 0) (large : n + 48 ≤ b.size) :
    Heap (t.tryCarve b.addr n).1 (l ++ { b with size := n } :: rest b n false :: r) ∧
      Kept t (t.tryCarve b.addr n).1 (l ++ { b with size := n } :: rest b n false :: r) := by
  have alignedB := (heap.range (b := b) (by simp)).2.2.2
  have alignedC : (b.size - n - 32) % 8 = 0 := by omega
  have state : (t.tryCarve b.addr n).1 = (t.carve b.addr n (b.addr + 32 + n)
      (Tlsf.withoutPrevFree (((b.size - n - 32) / 4 * 4 + t.mem (b.addr + 32 + n) % 4) / 2 * 2 + 1))).insertFreeBlock
        (b.addr + 32 + n) (map (b.size - n - 32)).1 (map (b.size - n - 32)).2 := by
    rw [Tlsf.tryCarve, heap.getBlockSize (by simp), if_neg (by unfold headerSize blockMin; omega),
      heap.cutout (by simp) large]
    simp only [Tlsf.carve, Tlsf.setBlockSize, Tlsf.setBlockFree, Tlsf.unsetPrevPhysFree, write_write,
      write_mem, if_true, headerSize]
  rw [state, fresh_word _ alignedC (b.addr + 32 + n), Blk.withoutPrevFree_word _ (by exact alignedC)]
  exact heap.carve_rest loose minimum aligned large false

/-- `__tlsf_try_carve` on a block that is not. -/
theorem Heap.tryCarve_small {n : ℕ} (heap : Heap t bs) (here : b ∈ bs) (small : b.size < n + 48) :
    t.tryCarve b.addr n = (t, false) := by
  rw [Tlsf.tryCarve, heap.getBlockSize here, if_pos (by unfold headerSize blockMin; omega)]

/-- The stores of `__tlsf_alloc_p2aligned` that make the payload from `a + 32` on a block of
its own. -/
def Tlsf.carveFront (t : Tlsf) (b pad a w : ℕ) : Tlsf :=
  let u := (((t.write a w).write (a + 8) b).write (a + 16) 0).write (a + 24) 0
  (u.setPrevPhys (u.nextBlock a) a).setBlockSize b pad

/-- A state that differs in memory only. -/
def Tlsf.SameBut (t u : Tlsf) : Prop := u = { t with mem := u.mem }

theorem sameBut_write {a v : ℕ} : t.SameBut (t.write a v) := rfl

theorem sameBut_setPrevPhys {next a : ℕ} : t.SameBut (t.setPrevPhys next a) := rfl

theorem Tlsf.SameBut.trans {u v : Tlsf} (first : t.SameBut u) (second : u.SameBut v) :
    t.SameBut v := by
  unfold Tlsf.SameBut at *
  rw [first] at second
  exact second

theorem sameBut_carveFront {a n c w : ℕ} : t.SameBut (t.carveFront a n c w) := by
  unfold Tlsf.carveFront
  have header : t.SameBut ((((t.write c w).write (c + 8) a).write (c + 16) 0).write (c + 24) 0) :=
    ((sameBut_write.trans sameBut_write).trans sameBut_write).trans sameBut_write
  exact (header.trans sameBut_setPrevPhys).trans sameBut_write

theorem Heap.carveFront {c : Blk} {n : ℕ} (heap : Heap t (l ++ b :: r)) (loose : b.listed = false)
    (looseC : c.listed = false) (minimum : 16 ≤ n ∧ 16 ≤ c.size) (aligned : n % 8 = 0)
    (addr : c.addr = b.addr + 32 + n) (size : b.size = n + 32 + c.size) :
    Heap (t.carveFront b.addr n c.addr c.word) (l ++ { b with size := n } :: c :: r) ∧
      Kept t (t.carveFront b.addr n c.addr c.word) (l ++ { b with size := n } :: c :: r) := by
  have here : b ∈ l ++ b :: r := by simp
  obtain ⟨word, alignedB⟩ := heap.tagged here
  have bound := (heap.range here).2.1
  have high := heap.high
  have alignedC : c.size % 8 = 0 := by omega
  have resized := b.word_resize alignedB aligned
  have next : ((((t.write c.addr c.word).write (c.addr + 8) b.addr).write (c.addr + 16) 0).write
      (c.addr + 24) 0).nextBlock c.addr = b.stop := by
    simp only [Tlsf.nextBlock, Tlsf.getBlockSize, write_mem, if_neg (by omega : ¬ c.addr = c.addr + 24),
      if_neg (by omega : ¬ c.addr = c.addr + 16), if_neg (by omega : ¬ c.addr = c.addr + 8), if_true]
    rw [Blk.word_size alignedC]
    unfold Blk.stop at bound ⊢
    unfold headerSize
    omega
  have value : ∀ x, (t.carveFront b.addr n c.addr c.word).mem x =
      if x = b.addr then Blk.word { b with size := n }
      else if b.stop < t.heapEnd ∧ x = b.stop + 8 then c.addr
      else if x = c.addr + 24 then 0
      else if x = c.addr + 16 then 0
      else if x = c.addr + 8 then b.addr
      else if x = c.addr then c.word
      else t.mem x := by
    intro x
    unfold Tlsf.carveFront
    dsimp only
    rw [next, Tlsf.setBlockSize]
    have front : (((((t.write c.addr c.word).write (c.addr + 8) b.addr).write (c.addr + 16) 0).write
        (c.addr + 24) 0).setPrevPhys b.stop c.addr).mem b.addr = b.word := by
      rw [setPrevPhys_mem, write_mem, write_mem, write_mem, write_mem,
        if_neg (by unfold Blk.stop; omega), if_neg (by omega), if_neg (by omega), if_neg (by omega),
        if_neg (by omega), word]
    rw [front, resized, write_mem, setPrevPhys_mem]
    simp only [write_mem]
    rfl
  unfold Blk.stop at bound
  have splits : Splits t (t.carveFront b.addr n c.addr c.word).mem b c n := by
    refine ⟨?_, ?_, ?_, ?_, ?_⟩
    · rw [value, if_pos rfl]
    · rw [value, if_neg (by omega), if_neg (by unfold Blk.stop; omega), if_neg (by omega),
        if_neg (by omega), if_neg (by omega), if_pos rfl]
    · rw [value, if_neg (by omega), if_neg (by unfold Blk.stop; omega), if_neg (by omega),
        if_neg (by omega), if_pos rfl]
    · intro more
      rw [value, if_neg (by unfold Blk.stop; omega), if_pos ⟨more, rfl⟩]
    · intro x notB notC notNext
      rw [value, if_neg notB, if_neg notNext, if_neg (by omega), if_neg (by omega), if_neg (by omega),
        if_neg (by omega)]
  rw [show t.carveFront b.addr n c.addr c.word = _ from sameBut_carveFront]
  exact heap.split loose looseC minimum aligned addr size splits

/-! ## Searching -/

/-- `__tlsf_search_suitable_block` returns the first block of the bin it names, or NULL. -/
theorem Heap.search (heap : Heap t bs) {f s : ℕ} (nonzero : (t.searchSuitableBlock f s).1 ≠ 0) :
    ∃ b ∈ bs, b.listed = true ∧ b.addr = (t.searchSuitableBlock f s).1 ∧
      map b.size = (t.searchSuitableBlock f s).2 := by
  obtain ⟨bins, ok⟩ := heap.bins
  have head : ∀ f s, t.blocks f s ≠ 0 →
      ∃ b ∈ bs, b.listed = true ∧ b.addr = t.blocks f s ∧ map b.size = (f, s) := by
    intro f s here
    obtain ⟨b, inB, addr, listed, bin, -⟩ := heap.first ok here
    exact ⟨b, inB, listed, addr, bin⟩
  revert nonzero
  unfold Tlsf.searchSuitableBlock
  dsimp only
  split
  · split
    · exact fun nonzero => absurd rfl nonzero
    · exact head _ _
  · exact head _ _

/-! ## The bounds -/

/-- The heap's bounds, which nothing but `__tlsf_init` sets. -/
def Tlsf.bounds (t : Tlsf) : ℕ × ℕ := (t.heapStart, t.heapEnd)

-- the proofs are not `rfl`, so that no later proof evaluates the states
@[simp] theorem write_bounds {a v : ℕ} : (t.write a v).bounds = t.bounds :=
  Prod.ext rfl rfl

@[simp] theorem setBlockSize_bounds {a n : ℕ} : (t.setBlockSize a n).bounds = t.bounds :=
  Prod.ext rfl rfl

@[simp] theorem setBlockFree_bounds {a : ℕ} : (t.setBlockFree a).bounds = t.bounds :=
  Prod.ext rfl rfl

@[simp] theorem unsetBlockFree_bounds {a : ℕ} : (t.unsetBlockFree a).bounds = t.bounds :=
  Prod.ext rfl rfl

@[simp] theorem unsetPrevPhysFree_bounds {a : ℕ} : (t.unsetPrevPhysFree a).bounds = t.bounds :=
  Prod.ext rfl rfl

@[simp] theorem setPrevPhys_bounds {next a : ℕ} : (t.setPrevPhys next a).bounds = t.bounds :=
  Prod.ext rfl rfl

@[simp] theorem markFree_bounds {a : ℕ} : (t.markFree a).bounds = t.bounds :=
  Prod.ext rfl rfl

@[simp] theorem unmarkFree_bounds {a : ℕ} : (t.unmarkFree a).bounds = t.bounds :=
  Prod.ext rfl rfl

@[simp] theorem insert_bounds {a f s : ℕ} : (t.insertFreeBlock a f s).bounds = t.bounds :=
  Prod.ext rfl rfl

@[simp] theorem remove_bounds {a f s : ℕ} : (t.removeFreeBlock a f s).bounds = t.bounds := by
  unfold Tlsf.removeFreeBlock Tlsf.advanceBin
  split <;> rfl

@[simp] theorem mergeNext_bounds {a : ℕ} : (t.mergeNext a).1.bounds = t.bounds := by
  unfold Tlsf.mergeNext
  dsimp only
  split <;> simp

@[simp] theorem mergePrev_bounds {a : ℕ} : (t.mergePrev a).1.bounds = t.bounds := by
  unfold Tlsf.mergePrev
  split <;> simp

@[simp] theorem cut_bounds {a n m : ℕ} : (t.cut a n m).bounds = t.bounds := by
  unfold Tlsf.cut
  split <;> simp

@[simp] theorem tryCarve_bounds {a n : ℕ} : (t.tryCarve a n).1.bounds = t.bounds := by
  unfold Tlsf.tryCarve
  dsimp only
  split <;> simp

@[simp] theorem alloc_bounds {n : ℕ} : (t.alloc n).1.bounds = t.bounds := by
  unfold Tlsf.alloc
  split
  · rfl
  · dsimp only
    split
    · rfl
    · split
      · rfl
      · simp only [unmarkFree_bounds, cut_bounds, remove_bounds]

@[simp] theorem free_bounds {a : ℕ} : (t.free a).bounds = t.bounds := by
  unfold Tlsf.free
  dsimp only
  split_ifs <;> simp

@[simp] theorem carvePadding_bounds {ptr header : ℕ} :
    (t.carvePadding ptr header).1.bounds = t.bounds := by
  unfold Tlsf.carvePadding
  split <;> simp

@[simp] theorem allocP2aligned_bounds {n alignment : ℕ} :
    (t.allocP2aligned n alignment).1.bounds = t.bounds := by
  unfold Tlsf.allocP2aligned
  dsimp only
  split_ifs <;> simp

@[simp] theorem freeP2aligned_bounds {a : ℕ} : (t.freeP2aligned a).bounds = t.bounds := by
  unfold Tlsf.freeP2aligned
  dsimp only
  split <;> simp

end Helpers

end Twan.Lib.TlsfAlloc
