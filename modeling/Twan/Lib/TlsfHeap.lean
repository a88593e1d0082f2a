/-
# Twan.Lib.TlsfHeap -- the blocks of a TLSF heap

The four encodings that `tlsf_alloc.c` keeps of one thing, as a list of blocks:

* `Tags`: the blocks follow each other without a gap, and the first two words of each
  header are its size with its flags and the address of the block before it;
* `Bins`: the blocks marked as linked are chained in the bin of their size, and the
  bitmaps tell which bins are not empty;
* `Heap` is both.  It does not say that the flags are right, so that it holds between
  the steps of an operation; `Exact` does.

`Heap.rewrite` is what a store into headers may do.  On top of it there is one lemma
for each elementary move: a block changes its flags, leaves or enters its bin, is
joined with the next one, or is split.
-/
import Twan.Base.Links
import Twan.Lib.TlsfAlloc

namespace Twan.Lib.TlsfAlloc

set_option autoImplicit false

open Twan.Base

/-- A block as its header describes it, and whether it is linked in a bin. -/
structure Blk where
  addr : ℕ
  size : ℕ
  free : Bool
  prevFree : Bool
  listed : Bool
  deriving DecidableEq

/-- The word `size` of the header. -/
def Blk.word (b : Blk) : ℕ := b.size + b.free.toNat + 2 * b.prevFree.toNat

/-- The address behind the payload. -/
def Blk.stop (b : Blk) : ℕ := b.addr + 32 + b.size

/-- The header of a block behind the block at `prev`. -/
structure Tagged (mem : ℕ → ℕ) (prev : ℕ) (b : Blk) : Prop where
  minimum : 16 ≤ b.size
  aligned : b.size % 8 = 0
  word : mem b.addr = b.word
  prevPhys : mem (b.addr + 8) = prev

/-- The blocks fill the memory from `start` to `stop`, the first of them behind the block
at `prev`. -/
def Tags (mem : ℕ → ℕ) : ℕ → ℕ → List Blk → ℕ → Prop
  | _, start, [], stop => start = stop
  | prev, start, b :: bs, stop =>
      b.addr = start ∧ Tagged mem prev b ∧ Tags mem b.addr b.stop bs stop

instance (mem : ℕ → ℕ) (prev : ℕ) (b : Blk) : Decidable (Tagged mem prev b) :=
  decidable_of_iff (16 ≤ b.size ∧ b.size % 8 = 0 ∧ mem b.addr = b.word ∧ mem (b.addr + 8) = prev)
    ⟨fun ⟨minimum, aligned, word, phys⟩ => ⟨minimum, aligned, word, phys⟩,
      fun tagged => ⟨tagged.minimum, tagged.aligned, tagged.word, tagged.prevPhys⟩⟩

instance Tags.decidable (mem : ℕ → ℕ) : ∀ prev start bs stop, Decidable (Tags mem prev start bs stop)
  | _, start, [], stop => inferInstanceAs (Decidable (start = stop))
  | prev, start, b :: bs, stop =>
      haveI := Tags.decidable mem b.addr b.stop bs stop
      inferInstanceAs (Decidable (b.addr = start ∧ Tagged mem prev b ∧ Tags mem b.addr b.stop bs stop))

/-- The address of the last block, or of the one before the list. -/
def lastAddr (prev : ℕ) (bs : List Blk) : ℕ := (bs.getLast?.map Blk.addr).getD prev

/-! ## The physical chain -/

section Chain

variable {mem mem' : ℕ → ℕ} {prev prev' start stop : ℕ} {bs l r : List Blk} {b : Blk}

theorem Tags.le (tags : Tags mem prev start bs stop) : start ≤ stop := by
  induction bs generalizing prev start with
  | nil => exact le_of_eq tags
  | cons b bs ih =>
      obtain ⟨rfl, -, rest⟩ := tags
      have after := ih rest
      unfold Blk.stop at after
      omega

theorem Tags.range (tags : Tags mem prev start bs stop) (inside : b ∈ bs) :
    start ≤ b.addr ∧ b.stop ≤ stop ∧ 16 ≤ b.size ∧ b.size % 8 = 0 := by
  induction bs generalizing prev start with
  | nil => cases inside
  | cons c bs ih =>
      obtain ⟨rfl, tagged, rest⟩ := tags
      rcases List.mem_cons.mp inside with rfl | later
      · exact ⟨le_refl _, rest.le, tagged.minimum, tagged.aligned⟩
      · obtain ⟨low, high, others⟩ := ih rest later
        unfold Blk.stop at low
        exact ⟨by omega, high, others⟩

theorem tags_append : Tags mem prev start (l ++ r) stop ↔
    ∃ mid, Tags mem prev start l mid ∧ Tags mem (lastAddr prev l) mid r stop := by
  induction l generalizing prev start with
  | nil => simp [Tags, lastAddr]
  | cons c l ih =>
      have last : lastAddr prev (c :: l) = lastAddr c.addr l := by
        cases l with
        | nil => rfl
        | cons d l => simp [lastAddr, List.getLast?_cons]
      simp only [List.cons_append, Tags, ih, last]
      constructor
      · rintro ⟨e, tagged, mid, left, right⟩
        exact ⟨mid, ⟨e, tagged, left⟩, right⟩
      · rintro ⟨mid, ⟨e, tagged, left⟩, right⟩
        exact ⟨e, tagged, mid, left, right⟩

theorem tags_middle : Tags mem prev start (l ++ b :: r) stop ↔
    Tags mem prev start l b.addr ∧ Tagged mem (lastAddr prev l) b ∧
      Tags mem b.addr b.stop r stop := by
  rw [tags_append]
  constructor
  · rintro ⟨mid, left, e, tagged, right⟩
    subst e
    exact ⟨left, tagged, right⟩
  · rintro ⟨left, tagged, right⟩
    exact ⟨b.addr, left, rfl, tagged, right⟩

theorem Tagged.congr (tagged : Tagged mem prev b) (word : mem' b.addr = mem b.addr)
    (phys : mem' (b.addr + 8) = mem (b.addr + 8)) : Tagged mem' prev b :=
  ⟨tagged.minimum, tagged.aligned, word.trans tagged.word, phys.trans tagged.prevPhys⟩

theorem Tags.congr (tags : Tags mem prev start bs stop)
    (same : ∀ b ∈ bs, mem' b.addr = mem b.addr ∧ mem' (b.addr + 8) = mem (b.addr + 8)) :
    Tags mem' prev start bs stop := by
  induction bs generalizing prev start with
  | nil => exact tags
  | cons b bs ih =>
      obtain ⟨e, tagged, rest⟩ := tags
      obtain ⟨word, phys⟩ := same b List.mem_cons_self
      exact ⟨e, tagged.congr word phys, ih rest fun c inside => same c (List.mem_cons_of_mem b inside)⟩

/-- The first block is entered from another block, and only its `prev_phys` says so. -/
theorem Tags.reenter (tags : Tags mem prev start bs stop)
    (phys : start < stop → mem' (start + 8) = prev')
    (same : ∀ x, start ≤ x → x ≠ start + 8 → mem' x = mem x) : Tags mem' prev' start bs stop := by
  cases bs with
  | nil => exact tags
  | cons b bs =>
      obtain ⟨rfl, tagged, rest⟩ := tags
      have room := rest.le
      unfold Blk.stop at room
      refine ⟨rfl, ⟨tagged.minimum, tagged.aligned, ?_, phys (by omega)⟩, ?_⟩
      · rw [same b.addr (le_refl _) (by omega)]
        exact tagged.word
      · apply rest.congr
        intro c inside
        have low := (rest.range inside).1
        unfold Blk.stop at low
        exact ⟨same _ (by omega) (by omega), same _ (by omega) (by omega)⟩

/-- Blocks do not overlap. -/
theorem Tags.pairwise (tags : Tags mem prev start bs stop) :
    bs.Pairwise fun b c => b.stop ≤ c.addr := by
  induction bs generalizing prev start with
  | nil => exact List.Pairwise.nil
  | cons b bs ih =>
      obtain ⟨rfl, -, rest⟩ := tags
      exact List.Pairwise.cons (fun c inside => (rest.range inside).1) (ih rest)

/-- The blocks are determined by the headers. -/
theorem Tags.unique {bs' : List Blk} (tags : Tags mem prev start bs stop)
    (tags' : Tags mem prev' start bs' stop) :
    bs.map (fun b => (b.addr, b.size, b.free, b.prevFree)) =
      bs'.map fun b => (b.addr, b.size, b.free, b.prevFree) := by
  induction bs generalizing prev prev' start bs' with
  | nil =>
      cases bs' with
      | nil => rfl
      | cons c bs' =>
          obtain ⟨e, -, rest⟩ := tags'
          have room := rest.le
          unfold Blk.stop at room
          have same : start = stop := tags
          omega
  | cons b bs ih =>
      obtain ⟨at_, tagged, rest⟩ := tags
      cases bs' with
      | nil =>
          have room := rest.le
          unfold Blk.stop at room
          have same : start = stop := tags'
          omega
      | cons c bs' =>
          obtain ⟨at', tagged', rest'⟩ := tags'
          have same : b.addr = c.addr := at_.trans at'.symm
          have words : b.word = c.word := by
            rw [← tagged.word, ← tagged'.word, same]
          have alignedB := tagged.aligned
          have alignedC := tagged'.aligned
          unfold Blk.word at words
          have parts : b.size = c.size ∧ b.free = c.free ∧ b.prevFree = c.prevFree := by
            cases hb : b.free <;> cases hc : c.free <;> cases pb : b.prevFree <;>
              cases pc : c.prevFree <;> simp [hb, hc, pb, pc] at words ⊢ <;> omega
          have stops : b.stop = c.stop := by
            unfold Blk.stop
            rw [same, parts.1]
          rw [← stops] at rest'
          simp only [List.map_cons, ih rest rest', same, parts.1, parts.2.1, parts.2.2]

end Chain

/-! ## The bins -/

/-- A pointer field at an offset into the header. -/
def link (mem : ℕ → ℕ) (offset a : ℕ) : Option ℕ :=
  if mem (a + offset) = 0 then none else some (mem (a + offset))

/-- The block at `a` is to be found in this bin. -/
def Listed (bs : List Blk) (a fli sli : ℕ) : Prop :=
  ∃ b ∈ bs, b.listed = true ∧ b.addr = a ∧ map b.size = (fli, sli)

/-- Each bin is a list of exactly the blocks that belong there; a second level bit is set
exactly when its bin is not empty, and a first level bit exactly when a bin of its row
is not. -/
structure Bins (t : Tlsf) (bs : List Blk) (bins : ℕ → ℕ → List ℕ) : Prop where
  head : ∀ f s, t.blocks f s = (bins f s).head?.getD 0
  chain : ∀ f s, Segment (link t.mem 24) (link t.mem 16) none (bins f s) none
  nodup : ∀ f s, (bins f s).Nodup
  members : ∀ f s a, a ∈ bins f s ↔ Listed bs a f s
  sl : ∀ f s, (t.slBitmaps f).getLsbD s = true ↔ bins f s ≠ []
  fl : ∀ f, t.flBitmap.getLsbD f = true ↔ t.slBitmaps f ≠ 0#32

/-- A heap of these blocks, between two multiples of 8. -/
structure Heap (t : Tlsf) (bs : List Blk) : Prop where
  low : 0 < t.heapStart
  aligned : t.heapStart % 8 = 0
  high : t.heapEnd < 2 ^ 64
  tags : Tags t.mem 0 t.heapStart bs t.heapEnd
  bins : ∃ bins, Bins t bs bins

theorem listed_append {l r : List Blk} {a f s : ℕ} :
    Listed (l ++ r) a f s ↔ Listed l a f s ∨ Listed r a f s := by
  simp only [Listed, List.mem_append]
  constructor
  · rintro ⟨b, inL | inR, rest⟩
    · exact .inl ⟨b, inL, rest⟩
    · exact .inr ⟨b, inR, rest⟩
  · rintro (⟨b, inL, rest⟩ | ⟨b, inR, rest⟩)
    · exact ⟨b, .inl inL, rest⟩
    · exact ⟨b, .inr inR, rest⟩

theorem listed_cons {b : Blk} {r : List Blk} {a f s : ℕ} :
    Listed (b :: r) a f s ↔ (b.listed = true ∧ b.addr = a ∧ map b.size = (f, s)) ∨ Listed r a f s := by
  simp [Listed]

/-- A block that is in no bin may be left out of the list. -/
theorem listed_cons_of_not {b : Blk} {r : List Blk} {a f s : ℕ} (loose : b.listed = false) :
    Listed (b :: r) a f s ↔ Listed r a f s := by
  simp [listed_cons, loose]

section Moves

variable {t : Tlsf} {bs l r : List Blk} {b : Blk}

/-- The address of a block, and where the header words of two blocks lie. -/
theorem Heap.range (heap : Heap t bs) (inside : b ∈ bs) :
    t.heapStart ≤ b.addr ∧ b.stop ≤ t.heapEnd ∧ 16 ≤ b.size ∧ b.size % 8 = 0 :=
  heap.tags.range inside

/-- The pointer to a block leads back to it. -/
theorem Heap.ptrToBlock (heap : Heap t bs) (inside : b ∈ bs) : ptrToBlock (b.addr + 32) = b.addr := by
  obtain ⟨-, high, -, -⟩ := heap.range inside
  have bound := heap.high
  unfold Blk.stop at high
  unfold TlsfAlloc.ptrToBlock headerSize
  omega

theorem Heap.apart (heap : Heap t (l ++ b :: r)) {c : Blk} (inside : c ∈ l ++ r) :
    c.stop ≤ b.addr ∨ b.stop ≤ c.addr := by
  obtain ⟨left, -, right⟩ := tags_middle.mp heap.tags
  rcases List.mem_append.mp inside with inL | inR
  · exact .inl (left.range inL).2.1
  · exact .inr (right.range inR).1

/-- The headers of two blocks have no word in common, nor has the payload of one with the
header of the other. -/
theorem Heap.disjoint (heap : Heap t bs) {c : Blk} (inB : b ∈ bs) (inC : c ∈ bs)
    (other : b.addr ≠ c.addr) : b.stop ≤ c.addr ∨ c.stop ≤ b.addr := by
  have pairwise := heap.tags.pairwise
  obtain ⟨x, y, rfl⟩ := List.append_of_mem inB
  rcases List.mem_append.mp inC with inL | inR
  · exact .inr ((List.pairwise_append.mp pairwise).2.2 c inL b List.mem_cons_self)
  · rcases List.mem_cons.mp inR with rfl | inR
    · exact absurd rfl other
    · exact .inl ((List.pairwise_cons.mp (List.pairwise_append.mp pairwise).2.1).1 c inR)

/-- What stores into memory may do to a heap: the chain is one of other blocks, but the
same ones are linked and keep their links. -/
theorem Heap.rewrite (heap : Heap t bs) {mem : ℕ → ℕ} {bs' : List Blk}
    (tags : Tags mem 0 t.heapStart bs' t.heapEnd)
    (listed : ∀ a f s, Listed bs' a f s ↔ Listed bs a f s)
    (links : ∀ b ∈ bs, b.listed = true →
      mem (b.addr + 16) = t.mem (b.addr + 16) ∧ mem (b.addr + 24) = t.mem (b.addr + 24)) :
    Heap { t with mem := mem } bs' := by
  obtain ⟨bins, ok⟩ := heap.bins
  refine ⟨heap.low, heap.aligned, heap.high, tags, bins, ok.head, ?_, ok.nodup, ?_, ok.sl, ok.fl⟩
  · intro f s
    apply (ok.chain f s).congr
    intro a inside
    obtain ⟨b, inBs, isListed, rfl, -⟩ := (ok.members f s a).mp inside
    obtain ⟨first, second⟩ := links b inBs isListed
    simp [link, first, second]
  · intro f s a
    rw [ok.members, listed]

/-- A block changes its flags. -/
theorem Heap.retag (heap : Heap t (l ++ b :: r)) {b' : Blk} (addr : b'.addr = b.addr)
    (size : b'.size = b.size) (listed : b'.listed = b.listed) :
    Heap (t.write b.addr b'.word) (l ++ b' :: r) := by
  obtain ⟨left, tagged, right⟩ := tags_middle.mp heap.tags
  have stop : b'.stop = b.stop := by
    unfold Blk.stop
    rw [addr, size]
  apply heap.rewrite
  · rw [tags_middle, addr, stop]
    refine ⟨?_, ⟨?_, ?_, ?_, ?_⟩, ?_⟩
    · apply left.congr
      intro c inL
      have before := (left.range inL).2.1
      unfold Blk.stop at before
      rw [Function.update_of_ne (by omega), Function.update_of_ne (by omega)]
      exact ⟨rfl, rfl⟩
    · rw [size]
      exact tagged.minimum
    · rw [size]
      exact tagged.aligned
    · rw [addr, Function.update_self]
    · rw [addr, Function.update_of_ne (by omega)]
      exact tagged.prevPhys
    · apply right.congr
      intro c inR
      have after := (right.range inR).1
      unfold Blk.stop at after
      rw [Function.update_of_ne (by omega), Function.update_of_ne (by omega)]
      exact ⟨rfl, rfl⟩
  · intro a f s
    simp only [listed_append, listed_cons, listed, addr, size]
  · intro c inside _
    have notHere : c.addr + 16 ≠ b.addr ∧ c.addr + 24 ≠ b.addr := by
      by_cases same : c.addr = b.addr
      · omega
      · have apart := heap.disjoint inside (List.mem_append_right l List.mem_cons_self) same
        unfold Blk.stop at apart
        omega
    rw [Function.update_of_ne notHere.1, Function.update_of_ne notHere.2]
    exact ⟨rfl, rfl⟩

/-! ## Entering and leaving a bin -/

theorem link_eq {mem : ℕ → ℕ} {offset a : ℕ} {o : Option ℕ} (value : mem (a + offset) = o.getD 0)
    (nonzero : o ≠ some 0) : link mem offset a = o := by
  cases o with
  | none => exact if_pos value
  | some c =>
      have word : mem (a + offset) = c := value
      have set : mem (a + offset) ≠ 0 := by
        rw [word]
        intro e
        exact nonzero (e ▸ rfl)
      rw [link, if_neg set, word]

theorem getD_of_link {mem : ℕ → ℕ} {offset a : ℕ} {o : Option ℕ} (eq : link mem offset a = o) :
    mem (a + offset) = o.getD 0 := by
  rw [← eq, link]
  split
  · rename_i zero
    exact zero
  · rfl

theorem getD_eq_zero {o : Option ℕ} (nonzero : o ≠ some 0) : o.getD 0 = 0 ↔ o = none := by
  cases o with
  | none => simp
  | some c => exact ⟨fun zero => absurd (congrArg some zero) nonzero, nofun⟩

/-- No word of memory belongs to two headers. -/
theorem Heap.same_block (heap : Heap t bs) {c : Blk} (inB : b ∈ bs) (inC : c ∈ bs) {i j : ℕ}
    (small : i < 32 ∧ j < 32) (same : b.addr + i = c.addr + j) : b.addr = c.addr := by
  by_contra other
  have apart := heap.disjoint inB inC other
  unfold Blk.stop at apart
  omega

theorem Heap.eq_of_addr (heap : Heap t bs) {c : Blk} (inB : b ∈ bs) (inC : c ∈ bs)
    (same : b.addr = c.addr) : b = c := by
  have pairwise := heap.tags.pairwise
  obtain ⟨x, y, rfl⟩ := List.append_of_mem inB
  have notSelf : ∀ d : Blk, ¬ d.stop ≤ d.addr := by
    intro d
    unfold Blk.stop
    omega
  rcases List.mem_append.mp inC with inL | inR
  · have before := (List.pairwise_append.mp pairwise).2.2 c inL b List.mem_cons_self
    exact absurd (same ▸ before) (notSelf c)
  · rcases List.mem_cons.mp inR with e | inR
    · exact e.symm
    · have after := (List.pairwise_cons.mp (List.pairwise_append.mp pairwise).2.1).1 c inR
      exact absurd (same ▸ after) (notSelf b)

/-- What is in a bin is the address of a block, and never NULL. -/
theorem Heap.of_bin (heap : Heap t bs) {bins : ℕ → ℕ → List ℕ} (ok : Bins t bs bins) {f s a : ℕ}
    (inside : a ∈ bins f s) : a ≠ 0 ∧ ∃ b ∈ bs, b.listed = true ∧ b.addr = a ∧ map b.size = (f, s) := by
  obtain ⟨b, inBs, listed, rfl, bin⟩ := (ok.members f s a).mp inside
  have low := (heap.range inBs).1
  have positive := heap.low
  exact ⟨by omega, b, inBs, listed, rfl, bin⟩

theorem Heap.head_ne (heap : Heap t bs) {bins : ℕ → ℕ → List ℕ} (ok : Bins t bs bins) {f s : ℕ} :
    (bins f s).head? ≠ some 0 :=
  fun e => (heap.of_bin ok (List.mem_of_mem_head? e)).1 rfl

/-- One bin is enough for a block. -/
theorem Heap.one_bin (heap : Heap t bs) {bins : ℕ → ℕ → List ℕ} (ok : Bins t bs bins)
    {f s f' s' a : ℕ} (here : a ∈ bins f s) (there : a ∈ bins f' s') : f' = f ∧ s' = s := by
  obtain ⟨-, b, inB, -, rfl, bin⟩ := heap.of_bin ok here
  obtain ⟨-, c, inC, -, same, bin'⟩ := heap.of_bin ok there
  rw [heap.eq_of_addr inC inB same, bin] at bin'
  exact ⟨(Prod.ext_iff.mp bin').1.symm, (Prod.ext_iff.mp bin').2.symm⟩

/-- The headers of these blocks do not reach `x`. -/
def Outside (bs : List Blk) (x : ℕ) : Prop := ∀ b ∈ bs, x < b.addr ∨ b.addr + 32 ≤ x

/-- A table with one entry replaced. -/
theorem update_entry {α : Type} (table : ℕ → ℕ → α) (f s : ℕ) (v : α) (f' s' : ℕ) :
    Function.update table f (Function.update (table f) s v) f' s' =
      if f' = f ∧ s' = s then v else table f' s' := by
  by_cases row : f' = f
  · subst row
    by_cases column : s' = s
    · subst column
      simp
    · simp [column]
  · simp [row]

/-- The words that an insertion in front of `cur` changes. -/
theorem insert_mem {f s x : ℕ} : (t.insertFreeBlock b.addr f s).mem x =
    if t.blocks f s ≠ 0 ∧ x = t.blocks f s + 16 then b.addr
    else if x = b.addr + 16 then 0
    else if x = b.addr + 24 then t.blocks f s
    else t.mem x := by
  by_cases first : t.blocks f s = 0 <;>
    simp [Tlsf.insertFreeBlock, Tlsf.writeIf, Tlsf.write, first, Function.update_apply]

theorem advanceBin_mem {a next f s : ℕ} : (t.advanceBin a next f s).mem = t.mem := by
  rw [Tlsf.advanceBin]
  split <;> rfl

theorem joinFree_mem {prev next x : ℕ} : (t.joinFree prev next).mem x =
    if next ≠ 0 ∧ x = next + 16 then prev
    else if prev ≠ 0 ∧ x = prev + 24 then next
    else t.mem x := by
  by_cases zeroNext : next = 0 <;> by_cases zeroPrev : prev = 0 <;>
    simp [Tlsf.joinFree, Tlsf.writeIf, zeroNext, zeroPrev, Function.update_apply]

/-- A bit search or a bin that is not empty. -/
theorem ne_zero_of_bit {w : ℕ} {v : BitVec w} {i : ℕ} (set : v.getLsbD i = true) : v ≠ 0#w := by
  intro zero
  rw [zero, BitVec.getLsbD_zero] at set
  exact Bool.noConfusion set

/-- A header word `a + i` of the block at `a` is the word `c + j` of another header only if
it is the same word of the same block. -/
theorem Heap.word_eq (heap : Heap t bs) {c : Blk} (inB : b ∈ bs) (inC : c ∈ bs) {i j : ℕ}
    (small : i < 32 ∧ j < 32) : b.addr + i = c.addr + j ↔ b.addr = c.addr ∧ i = j := by
  constructor
  · intro e
    have same := heap.same_block inB inC small e
    exact ⟨same, by omega⟩
  · rintro ⟨same, rfl⟩
    rw [same]

/-- The first block of a bin, if there is one. -/
theorem Heap.first (heap : Heap t bs) {bins : ℕ → ℕ → List ℕ} (ok : Bins t bs bins) {f s : ℕ}
    (nonzero : t.blocks f s ≠ 0) :
    ∃ c ∈ bs, c.addr = t.blocks f s ∧ c.listed = true ∧ map c.size = (f, s) ∧
      (bins f s).head? = some (t.blocks f s) := by
  have value := ok.head f s
  cases head : (bins f s).head? with
  | none =>
      rw [head] at value
      exact absurd value nonzero
  | some a =>
      rw [head] at value
      obtain ⟨-, c, inC, listed, same, bin⟩ := heap.of_bin ok (List.mem_of_mem_head? head)
      have value' : t.blocks f s = a := value
      exact ⟨c, inC, same.trans value'.symm, listed, bin, by rw [value']⟩

theorem Heap.insert_word (heap : Heap t bs) (here : b ∈ bs) (f s : ℕ) {c : Blk} (inC : c ∈ bs)
    {i : ℕ} (small : i < 32) : (t.insertFreeBlock b.addr f s).mem (c.addr + i) =
      if i = 16 ∧ t.blocks f s ≠ 0 ∧ c.addr = t.blocks f s then b.addr
      else if i = 16 ∧ c.addr = b.addr then 0
      else if i = 24 ∧ c.addr = b.addr then t.blocks f s
      else t.mem (c.addr + i) := by
  obtain ⟨bins, ok⟩ := heap.bins
  have atCur : t.blocks f s ≠ 0 ∧ c.addr + i = t.blocks f s + 16 ↔
      i = 16 ∧ t.blocks f s ≠ 0 ∧ c.addr = t.blocks f s := by
    by_cases zero : t.blocks f s = 0
    · simp [zero]
    · obtain ⟨d, inD, same, -⟩ := heap.first ok zero
      rw [← same, heap.word_eq inC inD ⟨small, by omega⟩]
      tauto
  rw [insert_mem]
  simp only [atCur, heap.word_eq inC here ⟨small, show 16 < 32 by decide⟩,
    heap.word_eq inC here ⟨small, show 24 < 32 by decide⟩, and_comm]

/-- Where the blocks lie does not depend on the bins. -/
theorem Heap.relisted {mem : ℕ → ℕ} {listed : Bool} (heap : Heap t (l ++ b :: r))
    (same : ∀ c ∈ l ++ b :: r, ∀ i < 16, mem (c.addr + i) = t.mem (c.addr + i)) :
    Tags mem 0 t.heapStart (l ++ { b with listed := listed } :: r) t.heapEnd := by
  have kept : Tags mem 0 t.heapStart (l ++ b :: r) t.heapEnd :=
    heap.tags.congr fun c inC => ⟨same c inC 0 (by decide), same c inC 8 (by decide)⟩
  rw [tags_middle] at kept ⊢
  exact ⟨kept.1, ⟨kept.2.1.minimum, kept.2.1.aligned, kept.2.1.word, kept.2.1.prevPhys⟩, kept.2.2⟩

theorem bin_ne {f s f' s' : ℕ} (elsewhere : ¬ (f' = f ∧ s' = s)) : ¬ (f, s) = (f', s') :=
  fun e => elsewhere ⟨(Prod.ext_iff.mp e).1.symm, (Prod.ext_iff.mp e).2.symm⟩

/-- A loose block is in no bin. -/
theorem Heap.fresh (heap : Heap t bs) {bins : ℕ → ℕ → List ℕ} (ok : Bins t bs bins)
    (here : b ∈ bs) (loose : b.listed = false) (f s : ℕ) : b.addr ∉ bins f s := by
  intro inside
  obtain ⟨-, c, inC, listed, same, -⟩ := heap.of_bin ok inside
  rw [heap.eq_of_addr inC here same, loose] at listed
  exact Bool.noConfusion listed

/-- A bin after an insertion in front of the first of its blocks. -/
theorem Heap.insert_chain (heap : Heap t bs) {bins : ℕ → ℕ → List ℕ} (ok : Bins t bs bins)
    (here : b ∈ bs) (loose : b.listed = false) (f s f' s' : ℕ) :
    Segment (link (t.insertFreeBlock b.addr f s).mem 24)
      (link (t.insertFreeBlock b.addr f s).mem 16) none
      (if f' = f ∧ s' = s then b.addr :: bins f s else bins f' s') none := by
  have fresh := heap.fresh ok here loose
  split
  · rename_i this
    obtain ⟨rfl, rfl⟩ := this
    apply segment_cons (ok.chain f' s') (ok.nodup f' s')
    · apply link_eq _ (heap.head_ne ok)
      rw [heap.insert_word here f' s' here (by decide)]
      simp [ok.head f' s']
    · apply link_eq (o := none) _ (by simp)
      rw [heap.insert_word here f' s' here (by decide)]
      have notCur : ¬ (t.blocks f' s' ≠ 0 ∧ b.addr = t.blocks f' s') := by
        rintro ⟨nonzero, same⟩
        obtain ⟨-, -, -, -, -, first⟩ := heap.first ok nonzero
        exact fresh f' s' (same ▸ List.mem_of_mem_head? first)
      simp [notCur]
    · intro m inside
      obtain ⟨-, c, inC, -, rfl, -⟩ := heap.of_bin ok inside
      have other : c.addr ≠ b.addr := fun e => fresh f' s' (e ▸ inside)
      simp [link, heap.insert_word here f' s' inC, other]
    · intro m inside
      obtain ⟨-, c, inC, -, rfl, -⟩ := heap.of_bin ok inside
      have other : c.addr ≠ b.addr := fun e => fresh f' s' (e ▸ inside)
      have word := heap.insert_word here f' s' inC (i := 16) (by decide)
      by_cases first : (bins f' s').head? = some c.addr
      · have cur : t.blocks f' s' = c.addr := by rw [ok.head, first]; rfl
        have positive := (heap.range inC).1
        have low := heap.low
        have set : c.addr ≠ 0 := by omega
        have low' := (heap.range here).1
        rw [if_pos first]
        refine link_eq (o := some b.addr) ?_ (by simp; omega)
        rw [word]
        simp [cur, set]
      · have notCur : ¬ (t.blocks f' s' ≠ 0 ∧ c.addr = t.blocks f' s') := by
          rintro ⟨nonzero, same⟩
          obtain ⟨-, -, -, -, -, first'⟩ := heap.first ok nonzero
          exact first (same ▸ first')
        rw [if_neg first, link, word]
        simp [notCur, other, link]
  · rename_i elsewhere
    apply (ok.chain f' s').congr
    intro m inside
    obtain ⟨-, c, inC, -, rfl, -⟩ := heap.of_bin ok inside
    have other : c.addr ≠ b.addr := fun e => fresh f' s' (e ▸ inside)
    have notCur : ¬ (t.blocks f s ≠ 0 ∧ c.addr = t.blocks f s) := by
      rintro ⟨nonzero, same⟩
      obtain ⟨-, -, -, -, -, first⟩ := heap.first ok nonzero
      exact elsewhere (heap.one_bin ok (same ▸ List.mem_of_mem_head? first) inside)
    simp [link, heap.insert_word here f s inC, other, notCur]

theorem Bins.members_insert {bins : ℕ → ℕ → List ℕ} (ok : Bins t (l ++ b :: r) bins)
    (loose : b.listed = false) {f s : ℕ} (bin : map b.size = (f, s)) (f' s' a : ℕ) :
    a ∈ (if f' = f ∧ s' = s then b.addr :: bins f s else bins f' s') ↔
      Listed (l ++ { b with listed := true } :: r) a f' s' := by
  rw [listed_append, listed_cons]
  have old := ok.members f' s' a
  rw [listed_append, listed_cons_of_not loose] at old
  split
  · rename_i this
    obtain ⟨rfl, rfl⟩ := this
    rw [List.mem_cons, old]
    simp only [true_and, bin, and_true]
    constructor
    · rintro (rfl | inL | inR)
      · exact .inr (.inl rfl)
      · exact .inl inL
      · exact .inr (.inr inR)
    · rintro (inL | same | inR)
      · exact .inr (.inl inL)
      · exact .inl same.symm
      · exact .inr (.inr inR)
  · rename_i elsewhere
    simpa [bin, bin_ne elsewhere] using old

/-- The bitmaps after a block has come into a bin. -/
theorem insert_control {bins : ℕ → ℕ → List ℕ} (ok : Bins t bs bins) {a f s : ℕ} (row : f < 32)
    (column : s < 32) :
    (∀ f' s', ((t.insertFreeBlock a f s).slBitmaps f').getLsbD s' = true ↔
      (if f' = f ∧ s' = s then a :: bins f s else bins f' s') ≠ []) ∧
    ∀ f', (t.insertFreeBlock a f s).flBitmap.getLsbD f' = true ↔
      (t.insertFreeBlock a f s).slBitmaps f' ≠ 0#32 := by
  constructor
  · intro f' s'
    show (Function.update t.slBitmaps f (t.slBitmaps f ||| 1#32 <<< s) f').getLsbD s' = true ↔ _
    by_cases row' : f' = f
    · subst row'
      rw [Function.update_self, BitVec.getLsbD_or, getLsbD_oneBit, Bool.or_eq_true, ok.sl]
      by_cases column' : s' = s
      · subst column'
        simp [column]
      · simp [column', Ne.symm column']
    · simp [row', ok.sl]
  · intro f'
    show (t.flBitmap ||| 1#32 <<< f).getLsbD f' = true ↔
      Function.update t.slBitmaps f (t.slBitmaps f ||| 1#32 <<< s) f' ≠ 0#32
    rw [BitVec.getLsbD_or, getLsbD_oneBit, Bool.or_eq_true, ok.fl]
    by_cases row' : f' = f
    · subst row'
      have bit : (t.slBitmaps f' ||| 1#32 <<< s).getLsbD s = true := by
        rw [BitVec.getLsbD_or, getLsbD_oneBit]
        simp [column]
      rw [Function.update_self]
      simp [row, ne_zero_of_bit bit]
    · simp [row', Ne.symm row']

theorem Heap.insert (heap : Heap t (l ++ b :: r)) (loose : b.listed = false) :
    Heap (t.insertFreeBlock b.addr (map b.size).1 (map b.size).2)
      (l ++ { b with listed := true } :: r) := by
  obtain ⟨bins, ok⟩ := heap.bins
  have here : b ∈ l ++ b :: r := List.mem_append_right l List.mem_cons_self
  obtain ⟨row, column⟩ := map_range b.size
  generalize bin : map b.size = fs
  obtain ⟨f, s⟩ := fs
  rw [bin] at row column
  dsimp only at row column ⊢
  have control := insert_control ok (a := b.addr) (f := f) (s := s) (by omega) column
  refine ⟨heap.low, heap.aligned, heap.high, heap.relisted fun c inC i small => ?_,
    Function.update bins f (Function.update (bins f) s (b.addr :: bins f s)), ?_, ?_, ?_, ?_, ?_, ?_⟩
  · have word := heap.insert_word here f s inC (i := i) (by omega)
    have links : i ≠ 16 ∧ i ≠ 24 := ⟨by omega, by omega⟩
    simpa [links.1, links.2] using word
  · intro f' s'
    show Function.update t.blocks f (Function.update (t.blocks f) s b.addr) f' s' = _
    rw [update_entry, update_entry]
    split
    · rfl
    · exact ok.head f' s'
  · intro f' s'
    rw [update_entry]
    exact heap.insert_chain ok here loose f s f' s'
  · intro f' s'
    rw [update_entry]
    split
    · exact List.nodup_cons.mpr ⟨heap.fresh ok here loose f s, ok.nodup f s⟩
    · exact ok.nodup f' s'
  · intro f' s' a
    rw [update_entry]
    exact ok.members_insert loose bin f' s' a
  · intro f' s'
    rw [update_entry]
    exact control.1 f' s'
  · exact control.2

/-- The neighbours of a linked block in its bin are blocks themselves. -/
theorem Heap.neighbour (heap : Heap t bs) {bins : ℕ → ℕ → List ℕ} (ok : Bins t bs bins) {f s : ℕ}
    {before after : List ℕ} {a m : ℕ} (place : bins f s = before ++ a :: after)
    (side : m ∈ before ++ after) : m ∈ bins f s ∧ m ≠ 0 ∧ ∃ d ∈ bs, d.addr = m := by
  have inside : m ∈ bins f s := by
    rw [place]
    rcases List.mem_append.mp side with inA | inB
    · exact List.mem_append_left _ inA
    · exact List.mem_append_right _ (List.mem_cons_of_mem _ inB)
  obtain ⟨nonzero, d, inD, -, same, -⟩ := heap.of_bin ok inside
  exact ⟨inside, nonzero, d, inD, same⟩

theorem Heap.last_block (heap : Heap t bs) {bins : ℕ → ℕ → List ℕ} (ok : Bins t bs bins) {f s : ℕ}
    {before after : List ℕ} {a m : ℕ} (place : bins f s = before ++ a :: after)
    (last : before.getLast? = some m) : m ∈ bins f s ∧ m ≠ 0 ∧ ∃ d ∈ bs, d.addr = m :=
  heap.neighbour ok place (List.mem_append_left _ (List.mem_of_getLast? last))

theorem Heap.next_block (heap : Heap t bs) {bins : ℕ → ℕ → List ℕ} (ok : Bins t bs bins) {f s : ℕ}
    {before after : List ℕ} {a m : ℕ} (place : bins f s = before ++ a :: after)
    (first : after.head? = some m) : m ∈ bins f s ∧ m ≠ 0 ∧ ∃ d ∈ bs, d.addr = m :=
  heap.neighbour ok place (List.mem_append_right _ (List.mem_of_mem_head? first))

/-- The words that a removal between two neighbours in the bin changes. -/
theorem Heap.remove_word (heap : Heap t bs) {bins : ℕ → ℕ → List ℕ} (ok : Bins t bs bins)
    {f s : ℕ} {before after : List ℕ} (place : bins f s = before ++ b.addr :: after)
    (prevWord : t.prevFree b.addr = before.getLast?.getD 0)
    (nextWord : t.nextFree b.addr = after.head?.getD 0) {c : Blk} (inC : c ∈ bs)
    {i : ℕ} (small : i < 32) : (t.removeFreeBlock b.addr f s).mem (c.addr + i) =
      if i = 16 ∧ after.head? = some c.addr then before.getLast?.getD 0
      else if i = 24 ∧ before.getLast? = some c.addr then after.head?.getD 0
      else t.mem (c.addr + i) := by
  have guarded : ∀ (o : Option ℕ) (j : ℕ), j < 32 → (∀ a, o = some a → ∃ d ∈ bs, d.addr = a) →
      (o.getD 0 ≠ 0 ∧ c.addr + i = o.getD 0 + j ↔ i = j ∧ o = some c.addr) := by
    intro o j smallJ isBlock
    cases o with
    | none => simp
    | some a =>
        obtain ⟨d, inD, rfl⟩ := isBlock a rfl
        have positive := (heap.range inD).1
        have low := heap.low
        have set : d.addr ≠ 0 := by omega
        rw [Option.getD_some, heap.word_eq inC inD ⟨small, smallJ⟩, Option.some.injEq]
        constructor
        · rintro ⟨-, same, index⟩
          exact ⟨index, same.symm⟩
        · rintro ⟨index, same⟩
          exact ⟨set, same.symm, index⟩
  have nextBlock : ∀ a, after.head? = some a → ∃ d ∈ bs, d.addr = a :=
    fun a first => (heap.next_block ok place first).2.2
  have prevBlock : ∀ a, before.getLast? = some a → ∃ d ∈ bs, d.addr = a :=
    fun a last => (heap.last_block ok place last).2.2
  rw [Tlsf.removeFreeBlock, advanceBin_mem, joinFree_mem, prevWord, nextWord]
  simp only [guarded after.head? 16 (by decide) nextBlock,
    guarded before.getLast? 24 (by decide) prevBlock]

theorem advanceBin_bounds {a next f s : ℕ} : (t.advanceBin a next f s).heapStart = t.heapStart ∧
    (t.advanceBin a next f s).heapEnd = t.heapEnd := by
  rw [Tlsf.advanceBin]
  split <;> exact ⟨rfl, rfl⟩

/-- The place of a linked block in its bin. -/
theorem Bins.place {bins : ℕ → ℕ → List ℕ} (ok : Bins t bs bins) (here : b ∈ bs)
    (listed : b.listed = true) {f s : ℕ} (bin : map b.size = (f, s)) :
    ∃ before after, bins f s = before ++ b.addr :: after ∧
      t.prevFree b.addr = before.getLast?.getD 0 ∧ t.nextFree b.addr = after.head?.getD 0 := by
  have inside : b.addr ∈ bins f s := (ok.members f s b.addr).mpr ⟨b, here, listed, rfl, bin⟩
  obtain ⟨before, after, place⟩ := List.append_of_mem inside
  have chain := ok.chain f s
  rw [place, segment_middle] at chain
  exact ⟨before, after, place, getD_of_link chain.2.1, getD_of_link chain.2.2.1⟩

/-- The row of the second level from which the first block of a bin has gone; its bit stays unless
the block was the `last`. -/
theorem Bins.row_left {bins : ℕ → ℕ → List ℕ} (ok : Bins t bs bins) {f s a : ℕ} {after : List ℕ}
    (place : bins f s = a :: after) {last : Prop} [Decidable last] (empty : last ↔ after = [])
    (s' : ℕ) : (if last then t.slBitmaps f &&& ~~~(1#32 <<< s) else t.slBitmaps f).getLsbD s' = true ↔
      (if s' = s then after else bins f s') ≠ [] := by
  have wasSet : (t.slBitmaps f).getLsbD s = true := (ok.sl f s).mpr (by simp [place])
  by_cases gone : last
  · rw [if_pos gone, getLsbD_clearBit, Bool.and_eq_true, ok.sl]
    by_cases same : s' = s
    · subst same
      simp [empty.mp gone]
    · simp [same, Ne.symm same]
  · rw [if_neg gone]
    by_cases same : s' = s
    · subst same
      simpa [wasSet] using fun e => gone (empty.mpr e)
    · rw [if_neg same, ok.sl]

/-- The bitmap of the first level loses its bit only with the last one of the row, which is now `w`. -/
theorem Bins.column_left {bins : ℕ → ℕ → List ℕ} (ok : Bins t bs bins) {f : ℕ} {w : BitVec 32}
    {last : Prop} [Decidable last] (row : t.flBitmap.getLsbD f = true) (stays : ¬ last → w ≠ 0#32)
    (f' : ℕ) : (if last ∧ w = 0#32 then t.flBitmap &&& ~~~(1#32 <<< f) else t.flBitmap).getLsbD f' =
      true ↔ Function.update t.slBitmaps f w f' ≠ 0#32 := by
  by_cases same : f' = f
  · subst same
    rw [Function.update_self]
    by_cases cleared : last ∧ w = 0#32
    · simp [cleared]
    · have left : w ≠ 0#32 := fun zero => cleared ⟨by_contra fun some => stays some zero, zero⟩
      simp [row, left]
  · rw [Function.update_of_ne same, ← ok.fl]
    split
    · rw [getLsbD_clearBit, decide_eq_true (Ne.symm same), Bool.and_true]
    · exact Iff.rfl

/-- The control structure after a block that was in its bin has left it. -/
theorem remove_control {bins : ℕ → ℕ → List ℕ} (ok : Bins t bs bins) {f s : ℕ}
    {before after : List ℕ} (place : bins f s = before ++ b.addr :: after) (column : s < 32)
    (notA : b.addr ∉ before) (headNe : after.head? ≠ some 0)
    (nextWord : t.nextFree b.addr = after.head?.getD 0) :
    (∀ f' s', (t.removeFreeBlock b.addr f s).blocks f' s' =
      if f' = f ∧ s' = s then (before ++ after).head?.getD 0 else t.blocks f' s') ∧
    (∀ f' s', ((t.removeFreeBlock b.addr f s).slBitmaps f').getLsbD s' = true ↔
      (if f' = f ∧ s' = s then before ++ after else bins f' s') ≠ []) ∧
    ∀ f', (t.removeFreeBlock b.addr f s).flBitmap.getLsbD f' = true ↔
      (t.removeFreeBlock b.addr f s).slBitmaps f' ≠ 0#32 := by
  have first := ok.head f s
  rw [place] at first
  cases before with
  | cons a before =>
      have other : (t.joinFree (t.prevFree b.addr) (t.nextFree b.addr)).blocks f s ≠ b.addr := by
        show t.blocks f s ≠ b.addr
        rw [first]
        exact fun e => notA (e ▸ List.mem_cons_self)
      rw [Tlsf.removeFreeBlock, Tlsf.advanceBin, if_neg other]
      refine ⟨fun f' s' => ?_, fun f' s' => ?_, ok.fl⟩
      · show t.blocks f' s' = _
        split
        · rename_i this
          obtain ⟨rfl, rfl⟩ := this
          exact first
        · rfl
      · show (t.slBitmaps f').getLsbD s' = true ↔ _
        rw [ok.sl]
        split
        · rename_i this
          obtain ⟨rfl, rfl⟩ := this
          simp [place]
        · exact Iff.rfl
  | nil =>
      have same : (t.joinFree (t.prevFree b.addr) (t.nextFree b.addr)).blocks f s = b.addr := first
      rw [Tlsf.removeFreeBlock, Tlsf.advanceBin, if_pos same]
      refine ⟨fun f' s' => ?_, ?_⟩
      · show Function.update t.blocks f (Function.update (t.blocks f) s (t.nextFree b.addr)) f' s' = _
        rw [update_entry, nextWord]
        rfl
      have wasSet : (t.slBitmaps f).getLsbD s = true := (ok.sl f s).mpr (by simp [place])
      have row : (t.flBitmap).getLsbD f = true := (ok.fl f).mpr (ne_zero_of_bit wasSet)
      have empty : t.nextFree b.addr = 0 ↔ after = [] := by
        rw [nextWord, getD_eq_zero headNe, List.head?_eq_none_iff]
      have bits := ok.row_left place empty
      refine ⟨fun f' s' => ?_, fun f' => ?_⟩
      · show (Function.update t.slBitmaps f (if t.nextFree b.addr = 0
          then t.slBitmaps f &&& ~~~(1#32 <<< s) else t.slBitmaps f) f').getLsbD s' = true ↔ _
        by_cases row' : f' = f
        · subst row'
          simp [bits]
        · simp [row', ok.sl]
      · apply ok.column_left row
        intro left zero
        -- a block that stays keeps the bit of its bin
        have bit := (bits s).mpr (by simpa using fun e => left (empty.mpr e))
        exact ne_zero_of_bit bit zero

/-- The bins after a block has left the one it was in. -/
theorem Heap.remove_chain (heap : Heap t bs) {bins : ℕ → ℕ → List ℕ} (ok : Bins t bs bins)
    {f s : ℕ} {before after : List ℕ} (place : bins f s = before ++ b.addr :: after)
    (prevWord : t.prevFree b.addr = before.getLast?.getD 0)
    (nextWord : t.nextFree b.addr = after.head?.getD 0) (f' s' : ℕ) :
    Segment (link (t.removeFreeBlock b.addr f s).mem 24)
      (link (t.removeFreeBlock b.addr f s).mem 16) none
      (if f' = f ∧ s' = s then before ++ after else bins f' s') none := by
  have word : ∀ c ∈ bs, ∀ i, i < 32 → (t.removeFreeBlock b.addr f s).mem (c.addr + i) =
      if i = 16 ∧ after.head? = some c.addr then before.getLast?.getD 0
      else if i = 24 ∧ before.getLast? = some c.addr then after.head?.getD 0
      else t.mem (c.addr + i) :=
    fun c inC i small => heap.remove_word ok place prevWord nextWord inC small
  split
  · rename_i this
    obtain ⟨rfl, rfl⟩ := this
    have lastNe : before.getLast? ≠ some 0 :=
      fun last => (heap.last_block ok place last).2.1 rfl
    have headNe : after.head? ≠ some 0 :=
      fun first => (heap.next_block ok place first).2.1 rfl
    have chain := ok.chain f' s'
    have nodup := ok.nodup f' s'
    rw [place] at chain nodup
    apply segment_erase chain nodup
    · intro m inside
      obtain ⟨-, -, c, inC, rfl⟩ := heap.neighbour ok place inside
      by_cases last : before.getLast? = some c.addr
      · rw [if_pos last]
        apply link_eq _ headNe
        rw [word c inC 24 (by decide)]
        simp [last]
      · rw [if_neg last, link, word c inC 24 (by decide)]
        simp [last, link]
    · intro m inside
      obtain ⟨-, -, c, inC, rfl⟩ := heap.neighbour ok place inside
      by_cases first : after.head? = some c.addr
      · rw [if_pos first]
        apply link_eq _ lastNe
        rw [word c inC 16 (by decide)]
        simp [first]
      · rw [if_neg first, link, word c inC 16 (by decide)]
        simp [first, link]
  · rename_i elsewhere
    apply (ok.chain f' s').congr
    intro m inside
    obtain ⟨-, c, inC, -, rfl, -⟩ := heap.of_bin ok inside
    have notLast : before.getLast? ≠ some c.addr := fun last =>
      elsewhere (heap.one_bin ok (heap.last_block ok place last).1 inside)
    have notFirst : after.head? ≠ some c.addr := fun first =>
      elsewhere (heap.one_bin ok (heap.next_block ok place first).1 inside)
    simp [link, word c inC, notLast, notFirst]

theorem mem_erased {a : ℕ} {before after : List ℕ} (nodup : (before ++ a :: after).Nodup) (m : ℕ) :
    m ∈ before ++ after ↔ m ∈ before ++ a :: after ∧ m ≠ a := by
  obtain ⟨-, nodupNB, disjoint⟩ := List.nodup_append.mp nodup
  obtain ⟨notB, -⟩ := List.nodup_cons.mp nodupNB
  constructor
  · intro inside
    rcases List.mem_append.mp inside with inA | inB
    · exact ⟨List.mem_append_left _ inA, fun e => disjoint _ (e ▸ inA) _ List.mem_cons_self rfl⟩
    · exact ⟨List.mem_append_right _ (List.mem_cons_of_mem _ inB), fun e => notB (e ▸ inB)⟩
  · rintro ⟨inside, other⟩
    rcases List.mem_append.mp inside with inA | inNB
    · exact List.mem_append_left _ inA
    · exact List.mem_append_right _ ((List.mem_cons.mp inNB).resolve_left other)

theorem Heap.members_remove (heap : Heap t (l ++ b :: r)) {bins : ℕ → ℕ → List ℕ}
    (ok : Bins t (l ++ b :: r) bins) {f s : ℕ} (bin : map b.size = (f, s))
    {before after : List ℕ} (place : bins f s = before ++ b.addr :: after) (f' s' a : ℕ) :
    a ∈ (if f' = f ∧ s' = s then before ++ after else bins f' s') ↔
      Listed (l ++ { b with listed := false } :: r) a f' s' := by
  rw [listed_append, listed_cons_of_not rfl]
  have old := ok.members f' s' a
  rw [listed_append, listed_cons] at old
  split
  · rename_i this
    obtain ⟨rfl, rfl⟩ := this
    have apart : ∀ c ∈ l ++ r, c.addr ≠ b.addr := by
      intro c inside same
      have sep := heap.apart inside
      unfold Blk.stop at sep
      omega
    rw [mem_erased (place ▸ ok.nodup f' s'), ← place, old]
    constructor
    · rintro ⟨inL | ⟨-, same, -⟩ | inR, other⟩
      · exact .inl inL
      · exact absurd same.symm other
      · exact .inr inR
    · rintro (⟨c, inL, rest⟩ | ⟨c, inR, rest⟩)
      · exact ⟨.inl ⟨c, inL, rest⟩, rest.2.1 ▸ apart c (List.mem_append_left r inL)⟩
      · exact ⟨.inr (.inr ⟨c, inR, rest⟩), rest.2.1 ▸ apart c (List.mem_append_right l inR)⟩
  · rename_i elsewhere
    simpa [bin, bin_ne elsewhere] using old

theorem Heap.remove (heap : Heap t (l ++ b :: r)) (listed : b.listed = true) {f s : ℕ}
    (bin : map b.size = (f, s)) :
    Heap (t.removeFreeBlock b.addr f s) (l ++ { b with listed := false } :: r) := by
  obtain ⟨bins, ok⟩ := heap.bins
  have here : b ∈ l ++ b :: r := List.mem_append_right l List.mem_cons_self
  obtain ⟨before, after, place, prevWord, nextWord⟩ := ok.place here listed bin
  have nodup := ok.nodup f s
  rw [place] at nodup
  have notA : b.addr ∉ before := fun inA =>
    (List.nodup_append.mp nodup).2.2 _ inA _ List.mem_cons_self rfl
  have headNe : after.head? ≠ some 0 :=
    fun first => (heap.next_block ok place first).2.1 rfl
  have column : s < 32 := by
    have range := (map_range b.size).2
    rwa [bin] at range
  have control := remove_control ok place column notA headNe nextWord
  have fields : (t.removeFreeBlock b.addr f s).heapStart = t.heapStart ∧
      (t.removeFreeBlock b.addr f s).heapEnd = t.heapEnd := advanceBin_bounds
  refine ⟨by rw [fields.1]; exact heap.low, by rw [fields.1]; exact heap.aligned,
    by rw [fields.2]; exact heap.high, ?_,
    Function.update bins f (Function.update (bins f) s (before ++ after)), ?_, ?_, ?_, ?_, ?_, ?_⟩
  · rw [fields.1, fields.2]
    apply heap.relisted
    intro c inC i small
    have word := heap.remove_word ok place prevWord nextWord inC (i := i) (by omega)
    have links : i ≠ 16 ∧ i ≠ 24 := ⟨by omega, by omega⟩
    simpa [links.1, links.2] using word
  · intro f' s'
    rw [update_entry, control.1]
    split
    · rfl
    · exact ok.head f' s'
  · intro f' s'
    rw [update_entry]
    exact heap.remove_chain ok place prevWord nextWord f' s'
  · intro f' s'
    rw [update_entry]
    split
    · exact nodup.sublist ((List.Sublist.refl before).append (List.sublist_cons_self b.addr after))
    · exact ok.nodup f' s'
  · intro f' s' a
    rw [update_entry]
    exact heap.members_remove ok bin place f' s' a
  · intro f' s'
    rw [update_entry]
    exact control.2.1 f' s'
  · exact control.2.2

/-! ## Reading a header -/

theorem Blk.word_size {b : Blk} (aligned : b.size % 8 = 0) : b.word / 4 * 4 = b.size := by
  unfold Blk.word
  cases b.free <;> cases b.prevFree <;> simp <;> omega

theorem Blk.word_free {b : Blk} (aligned : b.size % 8 = 0) : (b.word % 2 == 1) = b.free := by
  unfold Blk.word
  cases b.free <;> cases b.prevFree <;> simp <;> omega

theorem Blk.word_prevFree {b : Blk} (aligned : b.size % 8 = 0) :
    (b.word / 2 % 2 == 1) = b.prevFree := by
  unfold Blk.word
  cases b.free <;> cases b.prevFree <;> simp <;> omega

theorem Heap.tagged (heap : Heap t bs) (here : b ∈ bs) : t.mem b.addr = b.word ∧ b.size % 8 = 0 := by
  obtain ⟨x, y, rfl⟩ := List.append_of_mem here
  obtain ⟨-, tagged, -⟩ := tags_middle.mp heap.tags
  exact ⟨tagged.word, tagged.aligned⟩

theorem Heap.getBlockSize (heap : Heap t bs) (here : b ∈ bs) : t.getBlockSize b.addr = b.size := by
  obtain ⟨word, aligned⟩ := heap.tagged here
  rw [Tlsf.getBlockSize, word, Blk.word_size aligned]

theorem Heap.blockIsFree (heap : Heap t bs) (here : b ∈ bs) : t.blockIsFree b.addr = b.free := by
  obtain ⟨word, aligned⟩ := heap.tagged here
  rw [Tlsf.blockIsFree, word, Blk.word_free aligned]

theorem Heap.prevIsFree (heap : Heap t bs) (here : b ∈ bs) : t.prevIsFree b.addr = b.prevFree := by
  obtain ⟨word, aligned⟩ := heap.tagged here
  rw [Tlsf.prevIsFree, word, Blk.word_prevFree aligned]

theorem Heap.nextBlock (heap : Heap t bs) (here : b ∈ bs) : t.nextBlock b.addr = b.stop := by
  have bound := (heap.range here).2.1
  have high := heap.high
  rw [Tlsf.nextBlock, heap.getBlockSize here]
  exact Nat.mod_eq_of_lt (by unfold Blk.stop at bound; unfold headerSize; omega)

theorem Heap.prevPhys (heap : Heap t (l ++ b :: r)) : t.prevPhys b.addr = lastAddr 0 l :=
  (tags_middle.mp heap.tags).2.1.prevPhys

/-- A block is followed by another one unless it ends the heap. -/
theorem Heap.stop_lt (heap : Heap t (l ++ b :: r)) : b.stop < t.heapEnd ↔ r ≠ [] := by
  obtain ⟨-, -, right⟩ := tags_middle.mp heap.tags
  cases r with
  | nil =>
      have last : b.stop = t.heapEnd := right
      simp [last]
  | cons c r =>
      obtain ⟨start, -, rest⟩ := right
      have room := rest.le
      unfold Blk.stop at room start ⊢
      simp only [ne_eq, reduceCtorEq, not_false_eq_true, iff_true]
      omega

theorem Heap.next_addr {c : Blk} (heap : Heap t (l ++ b :: c :: r)) : c.addr = b.stop :=
  (tags_middle.mp heap.tags).2.2.1

theorem Heap.follower (heap : Heap t bs) (here : b ∈ bs) (more : b.stop < t.heapEnd) :
    ∃ c ∈ bs, c.addr = b.stop := by
  obtain ⟨x, y, rfl⟩ := List.append_of_mem here
  cases y with
  | nil => exact absurd rfl (heap.stop_lt.mp more)
  | cons c y => exact ⟨c, by simp, heap.next_addr⟩

theorem Tags.addr_aligned {mem : ℕ → ℕ} {prev start stop : ℕ} (tags : Tags mem prev start bs stop)
    (aligned : start % 8 = 0) (here : b ∈ bs) : b.addr % 8 = 0 := by
  induction bs generalizing prev start with
  | nil => cases here
  | cons c bs ih =>
      obtain ⟨rfl, tagged, rest⟩ := tags
      rcases List.mem_cons.mp here with rfl | later
      · exact aligned
      · have size := tagged.aligned
        exact ih rest (by unfold Blk.stop; omega) later

theorem Heap.addr_aligned (heap : Heap t bs) (here : b ∈ bs) : b.addr % 8 = 0 :=
  heap.tags.addr_aligned heap.aligned here

/-! ## What stays outside the headers -/

/-- Memory outside the headers of these blocks is the same in both states. -/
def Kept (t t' : Tlsf) (bs : List Blk) : Prop := ∀ x, Outside bs x → t'.mem x = t.mem x

theorem Kept.trans {t' t'' : Tlsf} (first : Kept t t' bs) (second : Kept t' t'' bs) :
    Kept t t'' bs :=
  fun x outside => (second x outside).trans (first x outside)

/-- More headers, less memory kept. -/
theorem Kept.mono {t' : Tlsf} {bs' : List Blk} (kept : Kept t t' bs)
    (more : ∀ b ∈ bs, ∃ c ∈ bs', c.addr = b.addr) : Kept t t' bs' := by
  intro x outside
  apply kept
  intro b inside
  obtain ⟨c, inC, same⟩ := more b inside
  rw [← same]
  exact outside c inC

theorem Heap.insert_kept (heap : Heap t bs) (here : b ∈ bs) (f s : ℕ) :
    Kept t (t.insertFreeBlock b.addr f s) bs := by
  obtain ⟨bins, ok⟩ := heap.bins
  intro x outside
  have notB := outside b here
  have notCur : ¬ (t.blocks f s ≠ 0 ∧ x = t.blocks f s + 16) := by
    rintro ⟨nonzero, e⟩
    obtain ⟨c, inC, same, -⟩ := heap.first ok nonzero
    have notC := outside c inC
    omega
  rw [insert_mem, if_neg notCur, if_neg (by omega), if_neg (by omega)]

theorem Heap.remove_kept (heap : Heap t bs) (here : b ∈ bs) (listed : b.listed = true) {f s : ℕ}
    (bin : map b.size = (f, s)) : Kept t (t.removeFreeBlock b.addr f s) bs := by
  obtain ⟨bins, ok⟩ := heap.bins
  obtain ⟨before, after, place, prevWord, nextWord⟩ := ok.place here listed bin
  intro x outside
  -- a neighbour in the bin is a block, whose header does not reach `x`
  have away : ∀ a ∈ before ++ after, ∀ j, j < 32 → x ≠ a + j := by
    intro a side j small e
    obtain ⟨-, -, c, inC, rfl⟩ := heap.neighbour ok place side
    have notC := outside c inC
    omega
  have notNext : ¬ (t.nextFree b.addr ≠ 0 ∧ x = t.nextFree b.addr + 16) := by
    rintro ⟨nonzero, e⟩
    cases first : after.head? with
    | none => rw [nextWord, first] at nonzero; exact nonzero rfl
    | some a =>
        rw [nextWord, first] at e
        exact away a (List.mem_append_right _ (List.mem_of_mem_head? first)) 16 (by decide) e
  have notPrev : ¬ (t.prevFree b.addr ≠ 0 ∧ x = t.prevFree b.addr + 24) := by
    rintro ⟨nonzero, e⟩
    cases last : before.getLast? with
    | none => rw [prevWord, last] at nonzero; exact nonzero rfl
    | some a =>
        rw [prevWord, last] at e
        exact away a (List.mem_append_left _ (List.mem_of_getLast? last)) 24 (by decide) e
  rw [Tlsf.removeFreeBlock, advanceBin_mem, joinFree_mem, if_neg notNext, if_neg notPrev]

theorem Heap.retag_kept (here : b ∈ bs) (w : ℕ) : Kept t (t.write b.addr w) bs := by
  intro x outside
  have notB := outside b here
  exact Function.update_of_ne (by omega) ..

/-! ## Joining and splitting -/

@[simp] theorem write_mem {a v x : ℕ} : (t.write a v).mem x = if x = a then v else t.mem x := by
  simp [Tlsf.write, Function.update_apply]

theorem setPrevPhys_mem {next a x : ℕ} : (t.setPrevPhys next a).mem x =
    if next < t.heapEnd ∧ x = next + 8 then a else t.mem x := by
  by_cases more : next < t.heapEnd <;>
    simp [Tlsf.setPrevPhys, Tlsf.writeIf, more, Function.update_apply]

theorem Blk.word_resize (b : Blk) (aligned : b.size % 8 = 0) {n : ℕ} (alignedN : n % 8 = 0) :
    n / 4 * 4 + b.word % 4 = Blk.word { b with size := n } := by
  unfold Blk.word
  cases b.free <;> cases b.prevFree <;> simp <;> omega

/-- Only a listed block has links. -/
theorem Heap.addr_ne_of_loose (heap : Heap t bs) {d : Blk} (inD : d ∈ bs) (inB : b ∈ bs)
    (listed : d.listed = true) (loose : b.listed = false) : d.addr ≠ b.addr := by
  intro same
  rw [heap.eq_of_addr inD inB same, loose] at listed
  exact Bool.noConfusion listed

/-- No link of a block is the word that points back to the block `c`. -/
theorem Heap.link_ne_prevPhys (heap : Heap t bs) {c d : Blk} (inC : c ∈ bs) (inD : d ∈ bs) {i : ℕ}
    (link : i = 16 ∨ i = 24) : ¬ (c.stop < t.heapEnd ∧ d.addr + i = c.stop + 8) := by
  rintro ⟨more, e⟩
  obtain ⟨d', inD', at_⟩ := heap.follower inC more
  rw [← at_] at e
  have same := heap.same_block inD inD' (i := i) (j := 8) ⟨by omega, by omega⟩ e
  omega

/-- A block takes over the one behind it. -/
theorem Heap.join {c : Blk} {n : ℕ} (heap : Heap t (l ++ b :: c :: r)) (looseB : b.listed = false)
    (looseC : c.listed = false) (size : n = b.size + 32 + c.size) :
    Heap ((t.setBlockSize b.addr n).setPrevPhys ((t.setBlockSize b.addr n).nextBlock c.addr) b.addr)
      (l ++ { b with size := n } :: r) ∧
    Kept t ((t.setBlockSize b.addr n).setPrevPhys ((t.setBlockSize b.addr n).nextBlock c.addr) b.addr)
      (l ++ b :: c :: r) := by
  have inB : b ∈ l ++ b :: c :: r := List.mem_append_right l List.mem_cons_self
  have inC : c ∈ l ++ b :: c :: r :=
    List.mem_append_right l (List.mem_cons_of_mem b List.mem_cons_self)
  obtain ⟨left, taggedB, start, taggedC, right⟩ := tags_middle.mp heap.tags
  have high := heap.high
  have boundC := right.le
  have minB := taggedB.minimum
  have minC := taggedC.minimum
  have alignedB := taggedB.aligned
  have alignedC := taggedC.aligned
  have next : (t.setBlockSize b.addr n).nextBlock c.addr = c.stop := by
    have word : (t.setBlockSize b.addr n).mem c.addr = c.word := by
      rw [← taggedC.word]
      exact Function.update_of_ne (by unfold Blk.stop at start; omega) ..
    rw [Tlsf.nextBlock, Tlsf.getBlockSize, word, Blk.word_size alignedC]
    exact Nat.mod_eq_of_lt (by unfold Blk.stop at boundC; unfold headerSize; omega)
  rw [next]
  have stop : Blk.stop { b with size := n } = c.stop := by
    unfold Blk.stop at start ⊢
    simp only [size]
    omega
  have word : n / 4 * 4 + t.mem b.addr % 4 = Blk.word { b with size := n } := by
    rw [taggedB.word]
    exact Blk.word_resize b alignedB (by omega)
  -- the only words that change
  obtain ⟨mem, memory, value⟩ : ∃ mem, ((t.setBlockSize b.addr n).setPrevPhys c.stop b.addr) =
      { t with mem := mem } ∧ ∀ x, mem x = if c.stop < t.heapEnd ∧ x = c.stop + 8 then b.addr
        else if x = b.addr then Blk.word { b with size := n } else t.mem x := by
    refine ⟨_, rfl, fun x => ?_⟩
    rw [← word]
    exact setPrevPhys_mem.trans (by rw [Tlsf.setBlockSize, write_mem]; rfl)
  rw [memory]
  unfold Blk.stop at start stop boundC value right
  refine ⟨heap.rewrite ?_ ?_ ?_, ?_⟩
  · rw [tags_middle]
    refine ⟨?_, ⟨?_, ?_, ?_, ?_⟩, ?_⟩
    · apply left.congr
      intro d inL
      have before := (left.range inL).2.1
      unfold Blk.stop at before
      rw [value, value, if_neg (by omega), if_neg (by omega), if_neg (by omega), if_neg (by omega)]
      exact ⟨rfl, rfl⟩
    · simp only
      omega
    · simp only
      omega
    · rw [value, if_neg (by simp only; omega), if_pos rfl]
    · rw [value, if_neg (by simp only; omega), if_neg (by simp only; omega)]
      exact taggedB.prevPhys
    · unfold Blk.stop
      rw [stop]
      apply right.reenter
      · intro more
        rw [value, if_pos ⟨more, rfl⟩]
      · intro x low other
        rw [value, if_neg (by omega), if_neg (by omega)]
  · intro a f s
    rw [listed_append, listed_append, listed_cons_of_not looseB, listed_cons_of_not looseC,
      listed_cons_of_not (b := { b with size := n }) looseB]
  · intro d inD listedD
    have notB := heap.addr_ne_of_loose inD inB listedD looseB
    have apartB := heap.disjoint inD inB notB
    have notPrev := heap.link_ne_prevPhys inC inD (.inl rfl)
    have notNext := heap.link_ne_prevPhys inC inD (.inr rfl)
    unfold Blk.stop at apartB notPrev notNext
    rw [value, value, if_neg notPrev, if_neg notNext, if_neg (by omega), if_neg (by omega)]
    exact ⟨rfl, rfl⟩
  · intro x outside
    have notB := outside b inB
    have notStop : ¬ (c.addr + 32 + c.size < t.heapEnd ∧ x = c.addr + 32 + c.size + 8) := by
      rintro ⟨more, e⟩
      obtain ⟨d, inD, at_⟩ := heap.follower inC more
      unfold Blk.stop at at_
      have notD := outside d inD
      omega
    show mem x = t.mem x
    rw [value, if_neg notStop, if_neg (by omega)]

/-- What the stores that split a block do: the front part keeps the header, and a header
is written into the payload for the rest. -/
structure Splits (t : Tlsf) (mem : ℕ → ℕ) (b c : Blk) (n : ℕ) : Prop where
  front : mem b.addr = Blk.word { b with size := n }
  word : mem c.addr = c.word
  prevPhys : mem (c.addr + 8) = b.addr
  next : b.stop < t.heapEnd → mem (b.stop + 8) = c.addr
  others : ∀ x, x ≠ b.addr → x < c.addr ∨ c.addr + 32 ≤ x →
    ¬ (b.stop < t.heapEnd ∧ x = b.stop + 8) → mem x = t.mem x

theorem Heap.split {c : Blk} {n : ℕ} (heap : Heap t (l ++ b :: r)) (loose : b.listed = false)
    (looseC : c.listed = false) (minimum : 16 ≤ n ∧ 16 ≤ c.size) (aligned : n % 8 = 0)
    (addr : c.addr = b.addr + 32 + n) (size : b.size = n + 32 + c.size) {mem : ℕ → ℕ}
    (splits : Splits t mem b c n) :
    Heap { t with mem := mem } (l ++ { b with size := n } :: c :: r) ∧
      Kept t { t with mem := mem } (l ++ { b with size := n } :: c :: r) := by
  have inB : b ∈ l ++ b :: r := List.mem_append_right l List.mem_cons_self
  obtain ⟨left, tagged, right⟩ := tags_middle.mp heap.tags
  have alignedB := tagged.aligned
  have others := splits.others
  have bound := right.le
  unfold Blk.stop at others right bound
  refine ⟨heap.rewrite ?_ ?_ ?_, ?_⟩
  · rw [tags_middle]
    refine ⟨?_, ⟨minimum.1, aligned, splits.front, ?_⟩, addr, ⟨minimum.2, by omega, splits.word,
      splits.prevPhys⟩, ?_⟩
    · apply left.congr
      intro d inL
      have before := (left.range inL).2.1
      unfold Blk.stop at before
      exact ⟨others _ (by omega) (by omega) (by omega), others _ (by omega) (by omega) (by omega)⟩
    · show mem (b.addr + 8) = _
      rw [others _ (by omega) (by omega) (by omega)]
      exact tagged.prevPhys
    · have stop : c.stop = b.addr + 32 + b.size := by
        unfold Blk.stop
        omega
      rw [stop]
      apply right.reenter splits.next
      intro x low other
      exact others x (by omega) (by omega) (by omega)
  · intro a f s
    rw [listed_append, listed_append, listed_cons_of_not loose,
      listed_cons_of_not (b := { b with size := n }) loose, listed_cons_of_not looseC]
  · intro d inD listedD
    have notB := heap.addr_ne_of_loose inD inB listedD loose
    have apart := heap.disjoint inD inB notB
    unfold Blk.stop at apart
    exact ⟨others _ (by omega) (by omega) (heap.link_ne_prevPhys inB inD (.inl rfl)),
      others _ (by omega) (by omega) (heap.link_ne_prevPhys inB inD (.inr rfl))⟩
  · intro x outside
    have notB := outside { b with size := n } (by simp)
    have notC := outside c (by simp)
    have notStop : ¬ (b.addr + 32 + b.size < t.heapEnd ∧ x = b.addr + 32 + b.size + 8) := by
      rintro ⟨more, e⟩
      obtain ⟨d, inD, at_⟩ := heap.follower inB more
      unfold Blk.stop at at_
      have notD : x < d.addr ∨ d.addr + 32 ≤ x := by
        by_cases same : d = b
        · subst same
          omega
        · apply outside d
          simp only [List.mem_append, List.mem_cons] at inD ⊢
          tauto
      omega
    exact others x (by simp only at notB; omega) (by omega) notStop

end Moves

end Twan.Lib.TlsfAlloc
