/-
# Twan.Lib.TlsfRuns -- what every run of the TLSF allocator keeps

The clients of a fresh heap allocate, free and write in any order.  A client frees what
it has got from the allocator and not freed yet, with the function that belongs to it,
and stores only into what it has asked for; what it stores there is any word.

`Backed` is the invariant: the heap is sound, and each live pointer has a block of its
own among the blocks in use, of which there are no others.  `tlsf_runs_iff`: it holds after
every run exactly when the heap ends below `2 ^ 64`.
-/
import Twan.Base.Run
import Twan.Lib.TlsfInit

namespace Twan.Lib.TlsfAlloc

set_option autoImplicit false

open Twan.Base

/-- A pointer a client holds, with the size it asked for. -/
structure Live where
  ptr : ℕ
  size : ℕ
  aligned : Bool
  deriving DecidableEq

structure State where
  tlsf : Tlsf
  live : List Live

inductive Action where
  | alloc (size : ℕ)
  | free (ptr : ℕ)
  | allocP2aligned (size alignment : ℕ)
  | freeP2aligned (ptr : ℕ)
  /-- A client stores a word. -/
  | store (addr value : ℕ)

/-- The client has got this pointer, if it is one. -/
def State.give (s : State) (tlsf : Tlsf) (e : Live) : State :=
  ⟨tlsf, if e.ptr = 0 then s.live else e :: s.live⟩

/-- This client pointer is live. -/
def isLive (ptr : ℕ) (aligned : Bool) (e : Live) : Bool := e.ptr == ptr && e.aligned == aligned

/-- The word at `addr` is in what a client asked for. -/
def owns (addr : ℕ) (e : Live) : Bool := e.ptr ≤ addr && addr < e.ptr + e.size

def step (s : State) : Action → Option State
  | .alloc size => some (s.give (s.tlsf.alloc size).1 ⟨(s.tlsf.alloc size).2, size, false⟩)
  | .free ptr =>
      if s.live.any (isLive ptr false) then
        some ⟨s.tlsf.free ptr, s.live.eraseP (isLive ptr false)⟩
      else none
  | .allocP2aligned size alignment =>
      if alignment = 0 then none
      else
        let res := s.tlsf.allocP2aligned size alignment
        some (s.give res.1 ⟨res.2, size, true⟩)
  | .freeP2aligned ptr =>
      if s.live.any (isLive ptr true) then
        some ⟨s.tlsf.freeP2aligned ptr, s.live.eraseP (isLive ptr true)⟩
      else none
  | .store addr value =>
      if s.live.any (owns addr) then some ⟨s.tlsf.write addr value, s.live⟩ else none

/-! ## The invariant -/

/-- The pointer and the size asked for fit the payload of the block `u`; in front of an
aligned pointer there is a header that names the block. -/
structure Holds (t : Tlsf) (e : Live) (u : ℕ × ℕ) : Prop where
  nonempty : 0 < e.size
  aligned : e.ptr % 8 = 0
  low : u.1 + 32 ≤ e.ptr
  high : e.ptr + e.size ≤ u.1 + 32 + u.2
  own : e.aligned = false → e.ptr = u.1 + 32
  header : e.aligned = true → u.1 + 48 ≤ e.ptr ∧ t.mem (e.ptr - 16) = u.1 + 32

/-- Each live pointer has its own block in use, and no other block is in use. -/
def Backed (t : Tlsf) (live : List Live) : Prop :=
  ∃ us vs, Valid t us ∧ vs.Perm us ∧ List.Forall₂ (Holds t) live vs

section Invariant

variable {t t' : Tlsf} {live : List Live} {us vs x y : List (ℕ × ℕ)} {u : ℕ × ℕ} {e : Live}

theorem Holds.same (holds : Holds t e u) (same : ∀ z, InPayload u z → t'.mem z = t.mem z) :
    Holds t' e u := by
  refine { holds with header := fun isAligned => ?_ }
  obtain ⟨room, header⟩ := holds.header isAligned
  have high := holds.high
  have positive := holds.nonempty
  refine ⟨room, ?_⟩
  rw [same _ ⟨by omega, by omega⟩]
  exact header

theorem forall₂_same (holds : List.Forall₂ (Holds t) live vs) (same : Same t t' vs) :
    List.Forall₂ (Holds t') live vs := by
  induction holds with
  | nil => exact .nil
  | cons head tail ih =>
      exact .cons (head.same (same _ List.mem_cons_self))
        (ih (same.mono (List.subset_cons_self _ _)))

/-- What a client asked for holds the same in both states. -/
def Undisturbed (t t' : Tlsf) (e : Live) : Prop :=
  ∀ x, e.ptr ≤ x → x < e.ptr + e.size → t'.mem x = t.mem x

theorem forall₂_undisturbed (holds : List.Forall₂ (Holds t) live vs) (same : Same t t' vs) :
    ∀ e ∈ live, Undisturbed t t' e := by
  induction holds with
  | nil => exact fun e inside => absurd inside (by simp)
  | cons head tail ih =>
      intro e inside
      rcases List.mem_cons.mp inside with rfl | later
      · intro x above below
        have low := head.low
        have high := head.high
        exact same _ List.mem_cons_self x ⟨by omega, by omega⟩
      · exact ih (same.mono (List.subset_cons_self _ _)) e later

/-- The partner of an element in the middle. -/
theorem forall₂_middle {α β : Type} {R : α → β → Prop} {l r : List α} {e : α} {vs : List β}
    (related : List.Forall₂ R (l ++ e :: r) vs) :
    ∃ vl u vr, vs = vl ++ u :: vr ∧ R e u ∧ List.Forall₂ R l vl ∧ List.Forall₂ R r vr := by
  induction l generalizing vs with
  | nil =>
      obtain ⟨u, vr, here, rest, rfl⟩ := List.forall₂_cons_left_iff.mp related
      exact ⟨[], u, vr, rfl, here, .nil, rest⟩
  | cons d l ih =>
      obtain ⟨v, vs', first, rest, rfl⟩ := List.forall₂_cons_left_iff.mp related
      obtain ⟨vl, u, vr, rfl, here, left, right⟩ := ih rest
      exact ⟨v :: vl, u, vr, rfl, here, .cons first left, right⟩

/-- The blocks `vs` serve the live pointers in turn, and no other block is in use. -/
def Backs (t : Tlsf) (live : List Live) (vs : List (ℕ × ℕ)) : Prop :=
  ∃ us, Valid t us ∧ vs.Perm us ∧ List.Forall₂ (Holds t) live vs

theorem backed_iff : Backed t live ↔ ∃ vs, Backs t live vs := exists_comm

/-- A client that has got a block. -/
theorem Backs.give (backed : List.Forall₂ (Holds t) live vs) (perm : vs.Perm (x ++ y))
    (same : Same t t' (x ++ y)) (valid : Valid t' (x ++ u :: y)) (holds : Holds t' e u) :
    Backs t' (e :: live) (u :: vs) := by
  refine ⟨x ++ u :: y, valid, ?_, .cons holds ?_⟩
  · exact (perm.cons u).trans List.perm_middle.symm
  · exact forall₂_same backed (same.mono fun v inside => perm.mem_iff.mp inside)

/-- The block of a live pointer among the blocks in use. -/
theorem Backs.pick {l r : List Live} (backs : Backs t (l ++ e :: r) vs) :
    ∃ x y u vl vr, vs = vl ++ u :: vr ∧ Valid t (x ++ u :: y) ∧ (vl ++ vr).Perm (x ++ y) ∧
      Holds t e u ∧ List.Forall₂ (Holds t) l vl ∧ List.Forall₂ (Holds t) r vr := by
  obtain ⟨us, valid, perm, holds⟩ := backs
  obtain ⟨vl, u, vr, rfl, here, left, rest⟩ := forall₂_middle holds
  have inside : u ∈ us := perm.mem_iff.mp (by simp)
  obtain ⟨x, y, rfl⟩ := List.append_of_mem inside
  refine ⟨x, y, u, vl, vr, rfl, valid, ?_, here, left, rest⟩
  exact (List.perm_middle.symm.trans (perm.trans List.perm_middle)).cons_inv

/-- A client that has given its block back. -/
theorem Backs.take {l r : List Live} {vl vr : List (ℕ × ℕ)} (valid : Valid t' (x ++ y))
    (perm : (vl ++ vr).Perm (x ++ y)) (left : List.Forall₂ (Holds t) l vl)
    (right : List.Forall₂ (Holds t) r vr) (same : Same t t' (x ++ y)) :
    Backs t' (l ++ r) (vl ++ vr) := by
  refine ⟨x ++ y, valid, perm, ?_⟩
  exact forall₂_same (List.rel_append left right) (same.mono fun v inside => perm.mem_iff.mp inside)

/-- The words of the live pointers that an action may change. -/
def Action.stores : Action → ℕ → Prop
  | .store addr _, x => x = addr
  | _, _ => False

/-- The pointer that an action gives back. -/
def Action.frees : Action → Live → Prop
  | .free ptr, e => isLive ptr false e = true
  | .freeP2aligned ptr, e => isLive ptr true e = true
  | _, _ => False

/-- What one action does: the invariant stays, the heap is where it was, and what stays live
holds the same but for the word that a client stores. -/
structure Stepped (s : State) (a : Action) (s' : State) : Prop where
  backed : Backed s'.tlsf s'.live
  bounds : s'.tlsf.bounds = s.tlsf.bounds
  kept : ∀ e ∈ s.live, e ∈ s'.live → ∀ x, e.ptr ≤ x → x < e.ptr + e.size → ¬ a.stores x →
    s'.tlsf.mem x = s.tlsf.mem x

/-- The pointers that are not given back keep their blocks. -/
structure Follows (s : State) (vs : List (ℕ × ℕ)) (a : Action) (s' : State) (vs' : List (ℕ × ℕ)) :
    Prop where
  backs : Backs s'.tlsf s'.live vs'
  same : ∀ e u, (e, u) ∈ s.live.zip vs → ¬ a.frees e → (e, u) ∈ s'.live.zip vs'

section Steps

variable {s s' : State} {a : Action}

theorem Backs.step_alloc (backs : Backs s.tlsf s.live vs) (size : ℕ) :
    let s' := s.give (s.tlsf.alloc size).1 ⟨(s.tlsf.alloc size).2, size, false⟩
    Stepped s (.alloc size) s' ∧ ∃ vs', Follows s vs (.alloc size) s' vs' := by
  obtain ⟨us, valid, perm, holds⟩ := backs
  unfold State.give
  dsimp only
  rcases valid.alloc size with failed | ⟨nonzero, small, x, y, a, m, rfl, enough, pointer, valid', same⟩
  · rw [failed]
    exact ⟨⟨⟨us, vs, valid, perm, holds⟩, rfl, fun _ _ _ _ _ _ _ => rfl⟩,
      vs, ⟨us, valid, perm, holds⟩, fun _ _ inside _ => inside⟩
  · rw [if_neg (by omega)]
    have range := valid'.range (u := (a, m)) (by simp)
    have le := (roundUp_spec small).1
    have given : Backs (s.tlsf.alloc size).1 (⟨(s.tlsf.alloc size).2, size, false⟩ :: s.live)
        ((a, m) :: vs) := by
      apply Backs.give holds perm same valid'
      exact ⟨by dsimp only; omega, by dsimp only; omega, by dsimp only; omega, by dsimp only; omega,
        fun _ => pointer, nofun⟩
    refine ⟨⟨backed_iff.mpr ⟨_, given⟩, alloc_bounds, fun e inside _ x above below _ => ?_⟩,
      _, given, fun _ _ inside _ => List.mem_cons_of_mem _ inside⟩
    exact forall₂_undisturbed holds (same.mono fun v inV => perm.mem_iff.mp inV) e inside x above below

theorem Backs.step_allocP2aligned (backs : Backs s.tlsf s.live vs) (size : ℕ)
    {alignment : ℕ} (nonzero : alignment ≠ 0) :
    let s' := s.give (s.tlsf.allocP2aligned size alignment).1
      ⟨(s.tlsf.allocP2aligned size alignment).2, size, true⟩
    Stepped s (.allocP2aligned size alignment) s' ∧
      ∃ vs', Follows s vs (.allocP2aligned size alignment) s' vs' := by
  obtain ⟨us, valid, perm, holds⟩ := backs
  unfold State.give
  dsimp only
  rcases valid.allocP2aligned size nonzero with
    failed | ⟨positive, x, y, a, m, rfl, low, high, aligned, -, header, valid', same⟩
  · rw [failed]
    exact ⟨⟨⟨us, vs, valid, perm, holds⟩, rfl, fun _ _ _ _ _ _ _ => rfl⟩,
      vs, ⟨us, valid, perm, holds⟩, fun _ _ inside _ => inside⟩
  · rw [if_neg (by omega)]
    have given : Backs (s.tlsf.allocP2aligned size alignment).1
        (⟨(s.tlsf.allocP2aligned size alignment).2, size, true⟩ :: s.live) ((a, m) :: vs) := by
      apply Backs.give holds perm same valid'
      exact ⟨by dsimp only; omega, aligned, by dsimp only; omega, high, nofun, fun _ => ⟨low, header⟩⟩
    refine ⟨⟨backed_iff.mpr ⟨_, given⟩, allocP2aligned_bounds, fun e inside _ x above below _ => ?_⟩,
      _, given, fun _ _ inside _ => List.mem_cons_of_mem _ inside⟩
    exact forall₂_undisturbed holds (same.mono fun v inV => perm.mem_iff.mp inV) e inside x above below

/-- The two ways to free: a live pointer is given back to the function that finds its
block. -/
theorem Backs.step_free {ptr : ℕ} {aligned : Bool} {tlsf : Tlsf}
    (backs : Backs s.tlsf s.live vs) (live : s.live.any (isLive ptr aligned) = true)
    (bounds : tlsf.bounds = s.tlsf.bounds) (isFree : ∀ e, isLive ptr aligned e = true → a.frees e)
    (frees : ∀ {x y u e}, e.ptr = ptr → e.aligned = aligned → Valid s.tlsf (x ++ u :: y) →
      Holds s.tlsf e u → Valid tlsf (x ++ y) ∧ Same s.tlsf tlsf (x ++ y)) :
    let s' : State := ⟨tlsf, s.live.eraseP (isLive ptr aligned)⟩
    Stepped s a s' ∧ ∃ vs', Follows s vs a s' vs' := by
  obtain ⟨d, inside, found⟩ := List.any_eq_true.mp live
  obtain ⟨e, l, r, -, found, list, erased⟩ := List.exists_of_eraseP inside found
  dsimp only
  rw [erased]
  rw [list] at backs
  obtain ⟨x, y, u, vl, vr, rfl, valid, perm, here, left, right⟩ := backs.pick
  have gone := isFree e found
  simp only [isLive, Bool.and_eq_true, beq_iff_eq] at found
  obtain ⟨valid', same⟩ := frees found.1 found.2 valid here
  have backs' := Backs.take valid' perm left right same
  refine ⟨⟨backed_iff.mpr ⟨_, backs'⟩, bounds, fun d _ inD z above below _ => ?_⟩, vl ++ vr, backs', ?_⟩
  · exact forall₂_undisturbed (List.rel_append left right)
      (same.mono fun v inV => perm.mem_iff.mp inV) d inD z above below
  · intro d v inside kept
    rw [list, List.zip_append left.length_eq, List.zip_cons_cons] at inside
    rw [List.zip_append left.length_eq, List.mem_append]
    rcases List.mem_append.mp inside with inL | inR
    · exact .inl inL
    · rcases List.mem_cons.mp inR with same | inR
      · obtain ⟨rfl, -⟩ := Prod.mk.inj same
        exact absurd gone kept
      · exact .inr inR

theorem Backs.step_store {addr value : ℕ} (backs : Backs s.tlsf s.live vs)
    (live : s.live.any (owns addr) = true) :
    let s' : State := ⟨s.tlsf.write addr value, s.live⟩
    Stepped s (.store addr value) s' ∧ ∃ vs', Follows s vs (.store addr value) s' vs' := by
  obtain ⟨e, inside, found⟩ := List.any_eq_true.mp live
  simp only [owns, Bool.and_eq_true, decide_eq_true_eq] at found
  obtain ⟨l, r, list⟩ := List.append_of_mem inside
  have backs' : Backs (s.tlsf.write addr value) s.live vs := by
    rw [list] at backs ⊢
    obtain ⟨x, y, u, vl, vr, rfl, valid, perm, here, left, right⟩ := backs.pick
    have low := here.low
    have high := here.high
    have payload : InPayload u addr := ⟨by omega, by omega⟩
    have same := (valid.write_same (v := value) payload).mono fun v inV => perm.mem_iff.mp inV
    refine ⟨x ++ u :: y, valid.write (by simp) payload, ?_, ?_⟩
    · exact List.perm_middle.trans ((perm.cons u).trans List.perm_middle.symm)
    · refine List.rel_append (forall₂_same left (same.mono (List.subset_append_left _ _))) (.cons ?_ ?_)
      · refine { here with header := fun isAligned => ?_ }
        obtain ⟨room, header⟩ := here.header isAligned
        rw [write_mem, if_neg (by omega)]
        exact ⟨room, header⟩
      · exact forall₂_same right (same.mono (List.subset_append_right _ _))
  exact ⟨⟨backed_iff.mpr ⟨_, backs'⟩, write_bounds, fun _ _ _ x _ _ other => write_mem.trans (if_neg other)⟩,
    vs, backs', fun _ _ inside _ => inside⟩

theorem Backs.step (backs : Backs s.tlsf s.live vs) (moved : step s a = some s') :
    Stepped s a s' ∧ ∃ vs', Follows s vs a s' vs' := by
  cases a with
  | alloc size =>
      cases moved
      exact backs.step_alloc size
  | free ptr =>
      simp only [TlsfAlloc.step] at moved
      split at moved
      · rename_i live
        cases moved
        refine backs.step_free live free_bounds (fun _ => id) ?_
        intro x y u e pointer plain valid here
        have atBlock : ptr = u.1 + 32 := pointer.symm.trans (here.own plain)
        rw [atBlock]
        exact valid.free
      · cases moved
  | allocP2aligned size alignment =>
      simp only [TlsfAlloc.step] at moved
      split at moved
      · cases moved
      · rename_i nonzero
        cases moved
        exact backs.step_allocP2aligned size nonzero
  | freeP2aligned ptr =>
      simp only [TlsfAlloc.step] at moved
      split at moved
      · rename_i live
        cases moved
        refine backs.step_free live freeP2aligned_bounds (fun _ => id) ?_
        intro x y u e pointer isAligned valid here
        subst pointer
        obtain ⟨low, header⟩ := here.header isAligned
        have high := here.high
        have positive := here.nonempty
        exact valid.freeP2aligned low (by omega) header
      · cases moved
  | store addr value =>
      simp only [TlsfAlloc.step] at moved
      split at moved
      · rename_i live
        cases moved
        exact backs.step_store live
      · cases moved

theorem Backed.step (backed : Backed s.tlsf s.live) (moved : step s a = some s') : Stepped s a s' := by
  obtain ⟨vs, backs⟩ := backed_iff.mp backed
  exact (backs.step moved).1

theorem Backed.step_allocP2aligned (backed : Backed s.tlsf s.live) (size : ℕ) {alignment : ℕ}
    (nonzero : alignment ≠ 0) :
    Stepped s (.allocP2aligned size alignment) (s.give (s.tlsf.allocP2aligned size alignment).1
      ⟨(s.tlsf.allocP2aligned size alignment).2, size, true⟩) :=
  backed.step (if_neg nonzero)

theorem Backed.step_store {addr value : ℕ} (backed : Backed s.tlsf s.live)
    (live : s.live.any (owns addr) = true) :
    Stepped s (.store addr value) ⟨s.tlsf.write addr value, s.live⟩ :=
  backed.step (if_pos live)

end Steps

end Invariant

/-! ## A fresh heap -/

/-- A range that can be given to `__tlsf_init`: its bounds are multiples of 8, there is room
for one block, and its end is an address. -/
structure Given (start size : ℕ) : Prop where
  nonNull : start ≠ 0
  aligned : start % 8 = 0 ∧ size % 8 = 0
  large : 48 ≤ size
  small : size < 2 ^ 32
  room : start + size < 2 ^ 64

/-- The control structure and the range are filled with zeros. -/
structure Zeroed (t : Tlsf) (start size : ℕ) : Prop where
  flBitmap : t.flBitmap = 0#32
  slBitmaps : ∀ f, t.slBitmaps f = 0#32
  blocks : ∀ f s, t.blocks f s = 0
  mem : ∀ x, start ≤ x → x < start + size → t.mem x = 0

section Fresh

variable {start size : ℕ} {t : Tlsf}

theorem Given.suits (given : Given start size) (zeroed : Zeroed t start size) : Suits t start size := by
  obtain ⟨-, ⟨alignedStart, alignedSize⟩, large, -, room⟩ := given
  have here : alignUp start = start := by
    unfold alignUp p2alignUp p2alignDown
    omega
  have first : t.mem start = 0 := zeroed.mem start (le_refl _) (by omega)
  refine ⟨by omega, room, ?_, ?_⟩
  · unfold cutoff
    omega
  · rw [here, first]

/-- `__tlsf_init` succeeds, and no block is in use. -/
theorem init_valid (given : Given start size) (zeroed : Zeroed t start size) :
    ∃ t', t.init start size = some t' ∧ Valid t' [] ∧ t'.bounds = (start, start + size) := by
  have suits := given.suits zeroed
  have cleared : Cleared t := ⟨zeroed.flBitmap, zeroed.slBitmaps, zeroed.blocks⟩
  obtain ⟨nonNull, ⟨alignedStart, alignedSize⟩, large, -, room⟩ := given
  have bound : start < 2 ^ 64 := by omega
  obtain ⟨t', made⟩ := init_accepts (t := t) bound nonNull large
  refine ⟨t', made, ⟨_, init_sound cleared bound made suits (by omega), rfl⟩, ?_⟩
  obtain ⟨start_eq, stop⟩ := init_bounds made
  have here : alignUp start = start := by
    unfold alignUp p2alignUp p2alignDown
    omega
  have end_eq : (start + (size - cutoff start)) % 2 ^ 64 = start + size := by
    unfold cutoff
    omega
  rw [Tlsf.bounds, start_eq, stop, here, end_eq]

/-- Each live pointer has a block of its own among the blocks in use, the blocks do not
overlap, and neither do the ranges the clients asked for. -/
structure Served (t : Tlsf) (bs : List Blk) (live : List Live) (vs : List (ℕ × ℕ)) : Prop where
  blocks : vs.Perm (used bs)
  holds : List.Forall₂ (Holds t) live vs
  apart : vs.Pairwise fun u v => u.1 + 32 + u.2 ≤ v.1 ∨ v.1 + 32 + v.2 ≤ u.1
  disjoint : live.Pairwise fun e d => e.ptr + e.size ≤ d.ptr ∨ d.ptr + d.size ≤ e.ptr

theorem Backed.served {live : List Live} (backed : Backed t live) :
    ∃ bs vs, Sound t bs ∧ Served t bs live vs := by
  obtain ⟨us, vs, valid, perm, holds⟩ := backed
  have apart : vs.Pairwise fun u v => u.1 + 32 + u.2 ≤ v.1 ∨ v.1 + 32 + v.2 ≤ u.1 :=
    (valid.pairwise.imp Or.inl).perm perm.symm fun both => both.symm
  obtain ⟨bs, sound, rfl⟩ := valid
  refine ⟨bs, vs, sound, perm, holds, apart, ?_⟩
  clear perm sound
  induction holds with
  | nil => exact .nil
  | cons head tail ih =>
      obtain ⟨first, rest⟩ := List.pairwise_cons.mp apart
      refine .cons ?_ (ih rest)
      intro d inside
      obtain ⟨i, small, rfl⟩ := List.getElem_of_mem inside
      have size := tail.length_eq
      have holdsD := (List.forall₂_iff_get.mp tail).2 i small (size ▸ small)
      have far := first _ (List.getElem_mem (size ▸ small))
      have lowE := head.low
      have highE := head.high
      have lowD := holdsD.low
      have highD := holdsD.high
      simp only [List.get_eq_getElem] at lowD highD
      omega

/-- Every run keeps the invariant. -/
theorem backed_runs (given : Given start size) (zeroed : Zeroed t start size) {fresh : Tlsf}
    (accepted : t.init start size = some fresh) {run : List Action} {s : State}
    (ran : exec step ⟨fresh, []⟩ run = some s) :
    Backed s.tlsf s.live ∧ s.tlsf.bounds = (start, start + size) := by
  obtain ⟨made, accepted', valid, bounds⟩ := init_valid given zeroed
  obtain rfl : made = fresh := Option.some.inj (accepted'.symm.trans accepted)
  refine exec_invariant (I := fun s => Backed s.tlsf s.live ∧ s.tlsf.bounds = (start, start + size))
    ?_ ⟨⟨[], [], valid, .nil, .nil⟩, bounds⟩ ran
  intro s a s' ⟨backed, same⟩ moved
  have stepped := backed.step moved
  exact ⟨stepped.backed, stepped.bounds.trans same⟩

/-- **Every run of the allocator keeps the block structure**: from a heap and a control
structure filled with zeros on, whatever is allocated, freed and written, the blocks tile
the heap, their tags and flags are exact, the free ones and no others are linked in the
bins of their sizes, the bitmaps tell which bins are not empty, and the live pointers are
served from blocks of their own. -/
theorem tlsf_runs (given : Given start size) (zeroed : Zeroed t start size) :
    ∃ fresh, t.init start size = some fresh ∧ ∀ run s, exec step ⟨fresh, []⟩ run = some s →
      s.tlsf.bounds = (start, start + size) ∧
      ∃ bs vs, Sound s.tlsf bs ∧ Served s.tlsf bs s.live vs := by
  obtain ⟨fresh, accepted, -⟩ := init_valid given zeroed
  refine ⟨fresh, accepted, fun run s ran => ?_⟩
  obtain ⟨backed, bounds⟩ := backed_runs given zeroed accepted ran
  exact ⟨bounds, backed.served⟩

theorem zeroed_zeros (start size : ℕ) : Zeroed zeros start size :=
  ⟨rfl, fun _ => rfl, fun _ _ => rfl, fun _ _ _ => rfl⟩

theorem given_page : Given 4096 1024 := by
  constructor <;> decide

/-- A range of multiples of 8 with room for one block, wherever it ends. -/
structure Offered (start size : ℕ) : Prop where
  nonNull : start ≠ 0
  address : start < 2 ^ 64
  aligned : start % 8 = 0 ∧ size % 8 = 0
  large : 48 ≤ size
  small : size < 2 ^ 32

/-- A heap whose end is no address any more is not tiled: `heap_end` wraps below `heap_start`. -/
theorem init_wraps (offered : Offered start size) (wraps : 2 ^ 64 ≤ start + size) {fresh : Tlsf}
    (accepted : t.init start size = some fresh) (bs : List Blk) : ¬ Sound fresh bs := by
  intro sound
  obtain ⟨-, bound, ⟨aligned, -⟩, large, small⟩ := offered
  obtain ⟨start_eq, stop⟩ := init_bounds accepted
  have here : alignUp start = start := by
    unfold alignUp p2alignUp p2alignDown
    omega
  have ordered : fresh.heapStart ≤ fresh.heapEnd := sound.heap.tags.le
  have whole : size - cutoff start = size := by
    unfold cutoff
    omega
  rw [start_eq, stop, here, whole] at ordered
  omega

/-- **The block structure is kept in every run exactly when the heap ends at an address**: what
`tlsf_runs` says holds when `start + size` is below `2 ^ 64`, and already of the fresh heap it
fails otherwise. -/
theorem tlsf_runs_iff (offered : Offered start size) (zeroed : Zeroed t start size) :
    (∃ fresh, t.init start size = some fresh ∧ ∀ run s, exec step ⟨fresh, []⟩ run = some s →
      s.tlsf.bounds = (start, start + size) ∧
      ∃ bs vs, Sound s.tlsf bs ∧ Served s.tlsf bs s.live vs) ↔ start + size < 2 ^ 64 := by
  constructor
  · rintro ⟨fresh, accepted, always⟩
    obtain ⟨-, bs, -, sound, -⟩ := always [] ⟨fresh, []⟩ rfl
    by_contra wraps
    exact init_wraps offered (Nat.le_of_not_lt wraps) accepted bs sound
  · intro room
    obtain ⟨nonNull, -, aligned, large, small⟩ := offered
    exact tlsf_runs ⟨nonNull, aligned, large, small, room⟩ zeroed

/-- A heap of 1 KiB at 4096. -/
theorem tlsf_runs_page :
    ∃ fresh, zeros.init 4096 1024 = some fresh ∧ ∀ run s, exec step ⟨fresh, []⟩ run = some s →
      s.tlsf.bounds = (4096, 5120) ∧ ∃ bs vs, Sound s.tlsf bs ∧ Served s.tlsf bs s.live vs := by
  have offered : Offered 4096 1024 := by
    constructor <;> decide
  exact (tlsf_runs_iff offered (zeroed_zeros 4096 1024)).mpr (by decide)

/-- The last page of the address space is accepted, and its `heap_end` is 0. -/
theorem tlsf_runs_last_page :
    ∃ fresh, zeros.init (2 ^ 64 - 4096) 4096 = some fresh ∧ fresh.bounds = (2 ^ 64 - 4096, 0) ∧
      ∀ bs, ¬ Sound fresh bs := by
  have accepted : ∃ fresh, zeros.init (2 ^ 64 - 4096) 4096 = some fresh ∧
      fresh.bounds = (2 ^ 64 - 4096, 0) := ⟨_, rfl, rfl⟩
  have offered : Offered (2 ^ 64 - 4096) 4096 := by
    constructor <;> decide
  obtain ⟨fresh, made, bounds⟩ := accepted
  exact ⟨fresh, made, bounds, init_wraps offered (by decide) made⟩

end Fresh

end Twan.Lib.TlsfAlloc
