/-
# Twan.Lib.TlsfAligned -- aligned blocks, from `__tlsf_alloc_p2aligned` to the free

An aligned pointer is not the payload of its block: it lies further inside, and the 16
bytes in front of it hold the pointer that `__tlsf_free_p2aligned` needs.  Between the
two calls the clients do what they like with the other blocks and write what they like
into what they have asked for.

`Backs.follows`: in every such run the pointer keeps its block.  `allocP2aligned_spec`
puts this behind what one call of `__tlsf_alloc_p2aligned` does.

The alignment 0 passes `is_pow2`; the pointer is then aligned to 0, which is NULL.
-/
import Twan.Lib.TlsfRealloc

namespace Twan.Lib.TlsfAlloc

set_option autoImplicit false

open Twan.Base

/-- An aligned pointer for `n` bytes in the block `u`: the block is in use besides the blocks
`us` and does not overlap them, and the pointer's range is inside its payload, as are the 16
bytes in front of it. -/
structure Placed (t : Tlsf) (us : List (ℕ × ℕ)) (n alignment ptr : ℕ) (u : ℕ × ℕ) : Prop where
  multiple : alignment ∣ ptr
  header : u.1 + 32 + 16 ≤ ptr
  range : ptr + n ≤ u.1 + 32 + u.2
  added : ∃ x y, us = x ++ y ∧ Valid t (x ++ u :: y)
  apart : ∀ v ∈ us, v.1 + 32 + v.2 ≤ u.1 ∨ u.1 + 32 + u.2 ≤ v.1

section Aligned

variable {t : Tlsf} {bs : List Blk} {live : List Live} {vs : List (ℕ × ℕ)} {e : Live} {u : ℕ × ℕ}

/-- A pointer keeps its block in every run that does not give it back. -/
theorem Backs.follows {s s' : State} {run : List Action} (backs : Backs s.tlsf s.live vs)
    (inside : (e, u) ∈ s.live.zip vs) (ran : exec TlsfAlloc.step s run = some s')
    (kept : ∀ a ∈ run, ¬ a.frees e) :
    ∃ vs', Backs s'.tlsf s'.live vs' ∧ (e, u) ∈ s'.live.zip vs' := by
  induction run generalizing s vs with
  | nil =>
      cases ran
      exact ⟨vs, backs, inside⟩
  | cons a run ih =>
      obtain ⟨s₁, first, later⟩ := exec_cons ran
      obtain ⟨-, vs₁, follows⟩ := backs.step first
      have still := follows.same e u inside (kept a List.mem_cons_self)
      exact ih follows.backs still later fun b inRun => kept b (List.mem_cons_of_mem a inRun)

/-- The block of a pointer that is still live is the one that the aligned free takes away. -/
theorem Backs.freeP2aligned (backs : Backs t live vs) (inside : (e, u) ∈ live.zip vs)
    (aligned : e.aligned = true) :
    ∃ x y, Valid t (x ++ u :: y) ∧ Valid (t.freeP2aligned e.ptr) (x ++ y) ∧
      Same t (t.freeP2aligned e.ptr) (x ++ y) := by
  obtain ⟨us, valid, perm, holds⟩ := backs
  have here := List.forall₂_zip holds inside
  obtain ⟨x, y, rfl⟩ := List.append_of_mem (perm.mem_iff.mp (List.of_mem_zip inside).2)
  obtain ⟨low, header⟩ := here.header aligned
  have high := here.high
  have positive := here.nonempty
  obtain ⟨freed, same⟩ := valid.freeP2aligned low (by omega) header
  exact ⟨x, y, valid, freed, same⟩

/-- The alignment 0 gives NULL. -/
theorem allocP2aligned_zero (t : Tlsf) (n : ℕ) : (t.allocP2aligned n 0).2 = 0 := by
  unfold Tlsf.allocP2aligned
  split
  · rfl
  split
  · rfl
  dsimp only
  split
  · rfl
  split
  · rfl
  · exact Nat.mul_zero _

/-- **Aligned blocks**: for every sound heap, size and alignment, `__tlsf_alloc_p2aligned`
returns NULL or a pointer that is a multiple of the alignment, placed in a block of its own;
and whatever the clients do until then, `__tlsf_free_p2aligned` takes exactly that block
away and leaves the payloads of the others as they are. -/
theorem allocP2aligned_spec (sound : Sound t bs) (n alignment : ℕ) :
    (t.allocP2aligned n alignment).2 = 0 ∨
    ∃ u, Placed (t.allocP2aligned n alignment).1 (used bs) n alignment
        (t.allocP2aligned n alignment).2 u ∧
      ∀ live run s, Backed t live →
        exec step ⟨(t.allocP2aligned n alignment).1,
          ⟨(t.allocP2aligned n alignment).2, n, true⟩ :: live⟩ run = some s →
        Action.freeP2aligned (t.allocP2aligned n alignment).2 ∉ run →
        ∃ x y, Valid s.tlsf (x ++ u :: y) ∧
          Valid (s.tlsf.freeP2aligned (t.allocP2aligned n alignment).2) (x ++ y) ∧
          Same s.tlsf (s.tlsf.freeP2aligned (t.allocP2aligned n alignment).2) (x ++ y) := by
  by_cases zero : alignment = 0
  · exact .inl (zero ▸ allocP2aligned_zero t n)
  have valid : Valid t (used bs) := ⟨bs, sound, rfl⟩
  rcases valid.allocP2aligned n zero with
    failed | ⟨positive, x, y, a, m, same_, low, high, eight, multiple, header, valid', same⟩
  · exact .inl (congrArg Prod.snd failed)
  generalize (t.allocP2aligned n alignment).1 = t' at *
  generalize (t.allocP2aligned n alignment).2 = p at *
  refine .inr ⟨(a, m), ⟨multiple, low, high, ⟨x, y, same_, valid'⟩, ?_⟩, ?_⟩
  · intro v inside
    exact valid'.apart (same_ ▸ inside)
  · intro live run s backed ran unfreed
    obtain ⟨us, vs, valid₀, perm, holds⟩ := backed
    obtain rfl := valid₀.unique valid
    rw [same_] at perm same
    have given : Backs t' (⟨p, n, true⟩ :: live) ((a, m) :: vs) := by
      apply Backs.give holds perm same valid'
      exact ⟨Nat.pos_of_ne_zero positive, eight, by dsimp only; omega, high, nofun, fun _ => ⟨low, header⟩⟩
    have kept : ∀ b ∈ run, ¬ b.frees ⟨p, n, true⟩ := by
      rintro b inRun frees
      cases b with
      | free q => simp [Action.frees, isLive] at frees
      | freeP2aligned q =>
          simp only [Action.frees, isLive, Bool.and_eq_true, beq_iff_eq, and_true] at frees
          exact unfreed (frees ▸ inRun)
      | alloc | allocP2aligned | store => exact frees
    obtain ⟨vs', backs, still⟩ := given.follows List.mem_cons_self ran kept
    have freed := Backs.freeP2aligned backs still rfl
    exact freed

/-- The blocks in use of any sound heap can be held by clients. -/
theorem Sound.backed (sound : Sound t bs) :
    Backed t ((used bs).map fun u => ⟨u.1 + 32, u.2, false⟩) := by
  refine ⟨used bs, used bs, ⟨bs, sound, rfl⟩, .refl _, List.forall₂_map_left_iff.mpr ?_⟩
  refine List.forall₂_same.mpr fun u inside => ?_
  have range := Valid.range ⟨bs, sound, rfl⟩ inside
  exact ⟨by dsimp only; omega, by dsimp only; omega, le_refl _, le_refl _, fun _ => rfl, nofun⟩

/-- 100 bytes aligned to 64. -/
theorem allocP2aligned_page : (page.allocP2aligned 100 64).2 ≠ 0 ∧ ∃ u,
    Placed (page.allocP2aligned 100 64).1 [] 100 64 (page.allocP2aligned 100 64).2 u := by
  have made : zeros.init 4096 1024 = some page := rfl
  have suits := given_page.suits (zeroed_zeros 4096 1024)
  have sound := init_sound cleared_zeros (by decide) made suits (by decide)
  have found : (page.allocP2aligned 100 64).2 ≠ 0 := by decide +kernel
  obtain ⟨u, placed, -⟩ := (allocP2aligned_spec sound 100 64).resolve_left found
  exact ⟨found, u, placed⟩

end Aligned

end Twan.Lib.TlsfAlloc
