/-
# Twan.Sync.Spinlock -- the ticket spinlock

`__spin_lock`, `__spin_unlock` and `__spin_trylock` of `subsys/sync/spinlock.c`, for any number of
CPUs whose atomic accesses interleave freely.  The two tickets are words of 32 bits and wrap.  A
trylock reads `current_ticket`, then `next_ticket`, and exchanges the latter if it has not changed,
so it is fooled by `next_ticket` coming round: `since` is how many acquisitions there had been at
its first read, and `Brief` that too few have followed for that.

The lock refines `Twan.Base.TicketLock` as long as every trylock is brief (`step_refines`), and
`spin_lock_safety` is what follows for every run.  `trylock_comes_round` is a run with 2^32 - 1
acquisitions in a trylock, after which two CPUs hold the lock.
-/
import Twan.Base.Run
import Twan.Base.TicketLock

namespace Twan.Sync.Spinlock

set_option autoImplicit false
set_option linter.unusedSectionVars false

open Twan.Base

/-- Where a CPU is. -/
inductive Pc where
  | idle
  /-- `spin_until(atomic32_read(&lock->current_ticket) == ticket)`. -/
  | spin (ticket : BitVec 32)
  | holding
  /-- `__spin_trylock` has read `current`. -/
  | readNext (current : BitVec 32) (since : ℕ)
  /-- It has read the same value from `next_ticket`. -/
  | cmpxchg (expected : BitVec 32) (since : ℕ)
  deriving DecidableEq

/-- `struct spinlock`, the CPUs, and the orders in which they drew tickets and acquired the lock. -/
structure Sys (C : Type) where
  nextTicket : BitVec 32
  currentTicket : BitVec 32
  pc : C → Pc
  drawn : List C
  acquired : List C

variable {C : Type}

/-- `spinlock_init`. -/
def Sys.init : Sys C := ⟨0, 0, fun _ => .idle, [], []⟩

/-- One atomic access of a CPU. -/
inductive Action (C : Type) where
  | fetchAndAdd (c : C)
  | spin (c : C)
  | unlock (c : C)
  | readCurrent (c : C)
  | readNext (c : C)
  | cmpxchg (c : C)

variable [DecidableEq C]

def Sys.goto (s : Sys C) (c : C) (pc : Pc) : Sys C := { s with pc := Function.update s.pc c pc }

def step (s : Sys C) : Action C → Option (Sys C)
  | .fetchAndAdd c =>
      match s.pc c with
      | .idle => some { s.goto c (.spin s.nextTicket) with
          nextTicket := s.nextTicket + 1, drawn := s.drawn ++ [c] }
      | _ => none
  | .spin c =>
      match s.pc c with
      | .spin ticket =>
          if s.currentTicket = ticket then
            some { s.goto c .holding with acquired := s.acquired ++ [c] }
          else some s
      | _ => none
  | .unlock c =>
      match s.pc c with
      | .holding => some { s.goto c .idle with currentTicket := s.currentTicket + 1 }
      | _ => none
  | .readCurrent c =>
      match s.pc c with
      | .idle => some (s.goto c (.readNext s.currentTicket s.acquired.length))
      | _ => none
  | .readNext c =>
      match s.pc c with
      | .readNext current since =>
          some (s.goto c (if current ≠ s.nextTicket then .idle else .cmpxchg s.nextTicket since))
      | _ => none
  | .cmpxchg c =>
      match s.pc c with
      | .cmpxchg expected _ =>
          if s.nextTicket = expected then
            some { s.goto c .holding with
              nextTicket := expected + 1, drawn := s.drawn ++ [c], acquired := s.acquired ++ [c] }
          else some (s.goto c .idle)
      | _ => none

/-- `c` neither holds the lock nor waits for it. -/
def Pc.isOut : Pc → Bool
  | .spin _ | .holding => false
  | _ => true

/-- Fewer than `bound` acquisitions take place from the first read of a trylock to its
compare-exchange. -/
def Brief (bound : ℕ) (s : Sys C) : Action C → Prop
  | .cmpxchg c =>
      match s.pc c with
      | .cmpxchg _ since => s.acquired.length < since + bound
      | _ => True
  | _ => True

/-! ## Refinement -/

/-- A CPU is where the party is; a trylock has read a number that was being served when there had been
no more acquisitions than that, and the one served then. -/
def Related (served : ℕ) : Pc → TicketLock.Phase → Prop
  | .spin ticket, phase => ∃ n, phase = .waiting n ∧ ticket = BitVec.ofNat 32 n
  | .holding, phase => phase = .inside
  | .idle, phase => phase = .out
  | .readNext word since, phase | .cmpxchg word since, phase =>
      phase = .out ∧ ∃ n, n ≤ served ∧ since ≤ n + 1 ∧ word = BitVec.ofNat 32 n

structure Refines (s : Sys C) (a : TicketLock.State C) : Prop where
  inv : TicketLock.Inv a
  next : s.nextTicket = BitVec.ofNat 32 a.drawn.length
  current : s.currentTicket = BitVec.ofNat 32 a.served
  pc : ∀ c, Related a.served (s.pc c) (a.phase c)
  drawn : s.drawn = a.drawn
  acquired : s.acquired = a.entered

theorem Related.mono {served served' : ℕ} {pc : Pc} {phase : TicketLock.Phase}
    (related : Related served pc phase) (le : served ≤ served') : Related served' pc phase := by
  cases pc with
  | idle => exact related
  | spin ticket => exact related
  | holding => exact related
  | readNext word since =>
      obtain ⟨out, n, small, bound, word⟩ := related
      exact ⟨out, n, small.trans le, bound, word⟩
  | cmpxchg word since =>
      obtain ⟨out, n, small, bound, word⟩ := related
      exact ⟨out, n, small.trans le, bound, word⟩

theorem related_update {served served' : ℕ} {pcs : C → Pc} {phases : C → TicketLock.Phase}
    (related : ∀ c, Related served (pcs c) (phases c)) (le : served ≤ served') (c : C) {pc : Pc}
    {phase : TicketLock.Phase} (own : Related served' pc phase) (d : C) :
    Related served' (Function.update pcs c pc d) (Function.update phases c phase d) := by
  by_cases same : d = c
  · subst same
    rwa [Function.update_self, Function.update_self]
  · rw [Function.update_of_ne same, Function.update_of_ne same]
    exact (related d).mono le

theorem refines_init : Refines (Sys.init : Sys C) TicketLock.State.initial where
  inv := TicketLock.inv_initial
  next := rfl
  current := rfl
  pc _ := rfl
  drawn := rfl
  acquired := rfl

theorem ofNat_succ (n : ℕ) : BitVec.ofNat 32 n + 1 = BitVec.ofNat 32 (n + 1) :=
  (BitVec.ofNat_add n 1).symm

/-- Numbers of the same word are equal or far apart. -/
theorem eq_or_far {m n : ℕ} (same : BitVec.ofNat 32 m = BitVec.ofNat 32 n) (le : n ≤ m) :
    m = n ∨ n + 2 ^ 32 ≤ m := by
  have words := congrArg BitVec.toNat same
  rw [BitVec.toNat_ofNat, BitVec.toNat_ofNat] at words
  omega

namespace Refines

variable {s t : Sys C} {a : TicketLock.State C} {c : C}

/-- The party stays where it is. -/
theorem goto (ref : Refines s a) {pc : Pc} (own : Related a.served pc (a.phase c)) :
    Refines (s.goto c pc) a := by
  refine ⟨ref.inv, ref.next, ref.current, fun d => ?_, ref.drawn, ref.acquired⟩
  have moved := related_update ref.pc le_rfl c own d
  rwa [Function.update_eq_self] at moved

theorem fetchAndAdd (ref : Refines s a) (idle : s.pc c = .idle) :
    Refines { s.goto c (.spin s.nextTicket) with
        nextTicket := s.nextTicket + 1, drawn := s.drawn ++ [c] }
      { a.move c (.waiting a.drawn.length) with drawn := a.drawn ++ [c] } where
  inv := ref.inv.draw (by simpa [idle, Related] using ref.pc c)
  next := by
    rw [ref.next, ofNat_succ]
    simp
  current := ref.current
  pc := related_update ref.pc le_rfl c ⟨_, rfl, ref.next⟩
  drawn := congrArg (· ++ [c]) ref.drawn
  acquired := ref.acquired

/-- The number that is served is the one the CPU waits with, and not one that comes round. -/
theorem turn [Fintype C] (few : Fintype.card C < 2 ^ 32) (ref : Refines s a) {ticket : BitVec 32}
    (spins : s.pc c = .spin ticket) (turn : s.currentTicket = ticket) :
    a.phase c = .waiting a.served := by
  obtain ⟨n, waits, word⟩ : Related a.served (.spin ticket) (a.phase c) := spins ▸ ref.pc c
  obtain ⟨le, _, drawn⟩ := ref.inv.waiting c n waits
  have small := (List.getElem?_eq_some_iff.mp drawn).1
  have out := ref.inv.out_le
  rcases eq_or_far (word.symm.trans (turn.symm.trans ref.current)) le with rfl | far
  · exact waits
  · omega

theorem spin (ref : Refines s a) (waits : a.phase c = .waiting a.served) :
    Refines { s.goto c .holding with acquired := s.acquired ++ [c] }
      { a.move c .inside with entered := a.entered ++ [c] } where
  inv := ref.inv.enter waits
  next := ref.next
  current := ref.current
  pc := related_update ref.pc le_rfl c rfl
  drawn := ref.drawn
  acquired := congrArg (· ++ [c]) ref.acquired

theorem unlock (ref : Refines s a) (holds : s.pc c = .holding) :
    Refines { s.goto c .idle with currentTicket := s.currentTicket + 1 }
      { a.move c .out with served := a.served + 1 } where
  inv := ref.inv.leave (by simpa [holds, Related] using ref.pc c)
  next := ref.next
  current := by rw [ref.current, ofNat_succ]
  pc := related_update ref.pc (Nat.le_succ _) c rfl
  drawn := ref.drawn
  acquired := ref.acquired

/-- Where a trylock that is brief exchanges the next ticket, no ticket is out. -/
theorem free [Fintype C] (few : Fintype.card C < 2 ^ 32) (ref : Refines s a) {expected : BitVec 32}
    {since : ℕ} (tries : s.pc c = .cmpxchg expected since)
    (brief : s.acquired.length < since + (2 ^ 32 - Fintype.card C))
    (same : s.nextTicket = expected) : a.phase c = .out ∧ a.served = a.drawn.length := by
  obtain ⟨out, n, small, bound, word⟩ :
    Related a.served (.cmpxchg expected since) (a.phase c) := tries ▸ ref.pc c
  have room := ref.inv.out_lt out
  have le := ref.inv.served_le
  have entered : a.served ≤ s.acquired.length := by
    rw [ref.acquired]
    rcases ref.inv.turn with here | here <;> omega
  refine ⟨out, ?_⟩
  rcases eq_or_far (ref.next.symm.trans (same.trans word)) (small.trans le) with here | far
  · omega
  · -- next_ticket has come round: all but the tickets that are out have been acquired since
    omega

theorem cmpxchg [Fintype C] (few : Fintype.card C < 2 ^ 32) (ref : Refines s a)
    {expected : BitVec 32} {since : ℕ} (tries : s.pc c = .cmpxchg expected since)
    (brief : s.acquired.length < since + (2 ^ 32 - Fintype.card C))
    (same : s.nextTicket = expected) :
    Refines { s.goto c .holding with
        nextTicket := expected + 1, drawn := s.drawn ++ [c], acquired := s.acquired ++ [c] }
      { a.move c .inside with drawn := a.drawn ++ [c], entered := a.entered ++ [c] } := by
  obtain ⟨out, free⟩ := ref.free few tries brief same
  exact
    { inv := ref.inv.take out free
      next := by
        rw [← same, ref.next, ofNat_succ]
        simp
      current := ref.current
      pc := related_update ref.pc le_rfl c rfl
      drawn := congrArg (· ++ [c]) ref.drawn
      acquired := congrArg (· ++ [c]) ref.acquired }

end Refines

/-! ## The runs -/

section Runs

variable [Fintype C] {s t : Sys C} {a : TicketLock.State C}

/-- Every access is a step of the ticket lock, or is none of its concern. -/
theorem step_refines (few : Fintype.card C < 2 ^ 32) (ref : Refines s a) {act : Action C}
    (brief : Brief (2 ^ 32 - Fintype.card C) s act) (stepped : step s act = some t) :
    ∃ b, Refines t b ∧ (b = a ∨ TicketLock.Step a b) := by
  cases act with
  | fetchAndAdd c =>
      cases here : s.pc c with
      | idle =>
          simp only [step, here, Option.some.injEq] at stepped
          subst stepped
          exact ⟨_, ref.fetchAndAdd here, .inr (.draw c (by simpa [here, Related] using ref.pc c))⟩
      | _ => simp [step, here] at stepped
  | spin c =>
      cases here : s.pc c with
      | spin ticket =>
          simp only [step, here] at stepped
          split_ifs at stepped with turn
          · cases stepped
            have waits := ref.turn few here turn
            exact ⟨_, ref.spin waits, .inr (.enter c waits)⟩
          · cases stepped
            exact ⟨a, ref, .inl rfl⟩
      | _ => simp [step, here] at stepped
  | unlock c =>
      cases here : s.pc c with
      | holding =>
          simp only [step, here, Option.some.injEq] at stepped
          subst stepped
          exact ⟨_, ref.unlock here, .inr (.leave c (by simpa [here, Related] using ref.pc c))⟩
      | _ => simp [step, here] at stepped
  | readCurrent c =>
      cases here : s.pc c with
      | idle =>
          simp only [step, here, Option.some.injEq] at stepped
          subst stepped
          have out : a.phase c = .out := by simpa [here, Related] using ref.pc c
          refine ⟨a, ref.goto ⟨out, a.served, le_rfl, ?_, ref.current⟩, .inl rfl⟩
          rw [ref.acquired]
          rcases ref.inv.turn with entered | entered <;> omega
      | _ => simp [step, here] at stepped
  | readNext c =>
      cases here : s.pc c with
      | readNext current since =>
          simp only [step, here, Option.some.injEq] at stepped
          subst stepped
          obtain ⟨out, n, small, bound, word⟩ :
            Related a.served (.readNext current since) (a.phase c) := here ▸ ref.pc c
          refine ⟨a, ref.goto ?_, .inl rfl⟩
          split_ifs with differ
          · exact out
          · exact ⟨out, n, small, bound, (of_not_not differ).symm.trans word⟩
      | _ => simp [step, here] at stepped
  | cmpxchg c =>
      cases here : s.pc c with
      | cmpxchg expected since =>
          simp only [step, here] at stepped
          simp only [Brief, here] at brief
          split_ifs at stepped with same
          · cases stepped
            obtain ⟨out, free⟩ := ref.free few here brief same
            exact ⟨_, ref.cmpxchg few here brief same, .inr (.take c out free)⟩
          · cases stepped
            obtain ⟨out, _⟩ : Related a.served (.cmpxchg expected since) (a.phase c) := here ▸ ref.pc c
            exact ⟨a, ref.goto out, .inl rfl⟩
      | _ => simp [step, here] at stepped

/-- One CPU holds the lock at most; the CPUs have acquired it in the order in which they drew, which
is that of their tickets; and a trylock that is brief succeeds only if no CPU holds or waits. -/
structure Safe (s : Sys C) : Prop where
  alone : ∀ c d, s.pc c = .holding → s.pc d = .holding → c = d
  order : s.acquired <+: s.drawn
  ticket : ∀ c word, s.pc c = .spin word →
    ∃ n, s.acquired.length ≤ n ∧ s.drawn[n]? = some c ∧ word = BitVec.ofNat 32 n
  trylock : ∀ c t, Brief (2 ^ 32 - Fintype.card C) s (.cmpxchg c) →
    step s (.cmpxchg c) = some t → t.pc c = .holding → ∀ d, (s.pc d).isOut = true

theorem Refines.safe (few : Fintype.card C < 2 ^ 32) (ref : Refines s a) : Safe s where
  alone c d left right := by
    refine ref.inv.alone ?_ ?_
    · simpa [left, Related] using ref.pc c
    · simpa [right, Related] using ref.pc d
  order := by
    rw [ref.acquired, ref.drawn]
    exact ref.inv.in_order
  ticket c word spins := by
    obtain ⟨n, waits, same⟩ : Related a.served (.spin word) (a.phase c) := spins ▸ ref.pc c
    obtain ⟨_, entered, drawn⟩ := ref.inv.waiting c n waits
    exact ⟨n, by rw [ref.acquired]; exact entered, by rw [ref.drawn]; exact drawn, same⟩
  trylock c t brief stepped success d := by
    cases here : s.pc c with
    | cmpxchg expected since =>
        simp only [step, here] at stepped
        simp only [Brief, here] at brief
        split_ifs at stepped with same
        · have free := ref.inv.free_iff.mp (ref.free few here brief same).2 d
          have related := ref.pc d
          cases other : s.pc d with
          | spin ticket =>
              obtain ⟨n, waits, _⟩ : Related a.served (.spin ticket) (a.phase d) := other ▸ related
              cases free.symm.trans waits
          | holding =>
              have inside : a.phase d = .inside := by simpa [other, Related] using related
              cases free.symm.trans inside
          | _ => rfl
        · cases stepped
          simp [Sys.goto] at success
    | _ => simp [step, here] at stepped

/-- **Ticket spinlock safety** -- in every run of any number of CPUs below 2^32 in which fewer than
2^32 less their number of acquisitions take place in a trylock. -/
theorem spin_lock_safety (few : Fintype.card C < 2 ^ 32) (run : List (Action C))
    (brief : Along (Brief (2 ^ 32 - Fintype.card C)) step Sys.init run)
    (ran : exec step Sys.init run = some t) : Safe t := by
  have refined : ∃ a, Refines t a :=
    exec_invariant_along (I := fun s => ∃ a, Refines s a) (fun s act u before allowed stepped => by
        obtain ⟨a, ref⟩ := before
        obtain ⟨b, after, _⟩ := step_refines few ref allowed stepped
        exact ⟨b, after⟩)
      ⟨_, refines_init⟩ brief ran
  obtain ⟨a, ref⟩ := refined
  exact ref.safe few

end Runs

/-- One of two CPUs holds the lock while the other waits, and goes in after it; with a trylock that
finds the lock taken, and one that takes it. -/
def twoCpus : List (Action Bool) :=
  [.fetchAndAdd true, .spin true, .readCurrent false, .readNext false, .fetchAndAdd false,
    .spin false, .unlock true, .spin false, .unlock false, .readCurrent true, .readNext true,
    .cmpxchg true]

theorem spin_lock_safety_two : Fintype.card Bool < 2 ^ 32 ∧
    Along (Brief (2 ^ 32 - Fintype.card Bool)) step Sys.init twoCpus ∧
    ∃ t, exec step Sys.init twoCpus = some t ∧ t.pc true = .holding ∧
      t.acquired = [true, false, true] ∧ Safe t := by
  have few : Fintype.card Bool < 2 ^ 32 := by decide
  have brief : Along (Brief (2 ^ 32 - Fintype.card Bool)) step Sys.init twoCpus := by
    iterate 11 refine .cons trivial rfl ?_
    refine .cons ?_ rfl trivial
    show 2 < 2 + (2 ^ 32 - Fintype.card Bool)
    omega
  exact ⟨few, brief, _, rfl, rfl, rfl, spin_lock_safety few twoCpus brief rfl⟩

/-! ## Coming round -/

/-- The CPU `true` releases the lock and acquires it again. -/
def lap : List (Action Bool) := [.unlock true, .fetchAndAdd true, .spin true]

/-- After `k` laps, in a trylock of the other CPU that has read 0. -/
structure Lapped (k : ℕ) (s : Sys Bool) : Prop where
  next : s.nextTicket = BitVec.ofNat 32 (k + 1)
  current : s.currentTicket = BitVec.ofNat 32 k
  holds : s.pc true = .holding
  tries : s.pc false = .readNext 0 1
  acquired : s.acquired.length = k + 1

theorem Lapped.lap {k : ℕ} {s : Sys Bool} (lapped : Lapped k s) :
    ∃ t, exec step s Spinlock.lap = some t ∧ Lapped (k + 1) t := by
  have turn : s.currentTicket + 1 = s.nextTicket := by
    rw [lapped.current, lapped.next, ofNat_succ]
  let released : Sys Bool := { s.goto true .idle with currentTicket := s.currentTicket + 1 }
  let queued : Sys Bool := { released.goto true (.spin s.nextTicket) with
    nextTicket := s.nextTicket + 1, drawn := s.drawn ++ [true] }
  have unlock : step s (.unlock true) = some released := by simp [step, lapped.holds, released]
  have draw : step released (.fetchAndAdd true) = some queued := by
    simp [step, released, queued, Sys.goto]
  have spin : step queued (.spin true) =
      some { queued.goto true .holding with acquired := s.acquired ++ [true] } := by
    simpa [step, released, queued, Sys.goto] using turn
  refine ⟨{ queued.goto true .holding with acquired := s.acquired ++ [true] }, ?_, ?_⟩
  · simp only [Spinlock.lap, exec, unlock, draw, spin, Option.bind_some]
  · exact
      { next := by rw [← ofNat_succ, ← lapped.next]; rfl
        current := by rw [← ofNat_succ, ← lapped.current]; rfl
        holds := by simp [Sys.goto]
        tries := by simp [queued, released, Sys.goto, lapped.tries]
        acquired := by simp [lapped.acquired] }

theorem laps (k : ℕ) {s : Sys Bool} (lapped : Lapped 0 s) :
    ∃ t, exec step s (List.replicate k lap).flatten = some t ∧ Lapped k t := by
  induction k with
  | zero => exact ⟨s, rfl, lapped⟩
  | succ k ih =>
      obtain ⟨u, ran, there⟩ := ih
      obtain ⟨t, last, here⟩ := there.lap
      refine ⟨t, ?_, here⟩
      rw [List.replicate_succ', List.flatten_concat]
      exact exec_append ran last

/-- A CPU holds the lock, another one begins a trylock, and the first takes `k` laps in between. -/
def roundRun (k : ℕ) : List (Action Bool) :=
  [.fetchAndAdd true, .spin true, .readCurrent false] ++
    ((List.replicate k lap).flatten ++ [.readNext false, .cmpxchg false])

theorem lapped_start : ∃ s, exec step (Sys.init : Sys Bool)
    [.fetchAndAdd true, .spin true, .readCurrent false] = some s ∧ Lapped 0 s :=
  ⟨_, rfl, ⟨rfl, rfl, rfl, rfl, rfl⟩⟩

/-- Where the laps have brought the next ticket round to 0, the trylock takes the lock. -/
theorem Lapped.taken {k : ℕ} {s : Sys Bool} (lapped : Lapped k s) (round : s.nextTicket = 0)
    (few : k < 2 ^ 32) :
    Along (Brief (2 ^ 32)) step s [.readNext false, .cmpxchg false] ∧
    ∃ t, exec step s [.readNext false, .cmpxchg false] = some t ∧
      t.pc true = .holding ∧ t.pc false = .holding := by
  have read : step s (.readNext false) = some (s.goto false (.cmpxchg 0 1)) := by
    simp [step, lapped.tries, round]
  have tries : (s.goto false (.cmpxchg 0 1)).pc false = .cmpxchg 0 1 := by simp [Sys.goto]
  have same : (s.goto false (.cmpxchg 0 1)).nextTicket = 0 := round
  have brief : Brief (2 ^ 32) (s.goto false (.cmpxchg 0 1)) (.cmpxchg false) := by
    have acquired : (s.goto false (.cmpxchg 0 1)).acquired.length = k + 1 := lapped.acquired
    simp only [Brief, tries, acquired]
    omega
  let taken : Sys Bool := { (s.goto false (.cmpxchg 0 1)).goto false .holding with
    nextTicket := 0 + 1
    drawn := (s.goto false (.cmpxchg 0 1)).drawn ++ [false]
    acquired := (s.goto false (.cmpxchg 0 1)).acquired ++ [false] }
  have exchange : step (s.goto false (.cmpxchg 0 1)) (.cmpxchg false) = some taken := by
    simp only [step, tries, same, if_true, taken]
  refine ⟨.cons trivial read ⟨brief, fun _ _ => trivial⟩, taken, ?_, ?_, ?_⟩
  · simp only [exec, read, exchange, Option.bind_some]
  · simp [taken, Sys.goto, lapped.holds]
  · simp [taken, Sys.goto]

/-- With 2^32 - 1 acquisitions from the first read of the trylock to its compare-exchange, fewer than
2^32, both CPUs hold the lock. -/
theorem trylock_comes_round : Fintype.card Bool < 2 ^ 32 ∧
    ∃ t, Along (Brief (2 ^ 32)) step Sys.init (roundRun (2 ^ 32 - 1)) ∧
      exec step Sys.init (roundRun (2 ^ 32 - 1)) = some t ∧
      t.pc true = .holding ∧ t.pc false = .holding := by
  obtain ⟨s, begun, start⟩ := lapped_start
  obtain ⟨u, lapped, last⟩ := laps (2 ^ 32 - 1) start
  have round : u.nextTicket = 0 := last.next.trans (by decide)
  obtain ⟨brief, t, taken, holds, fooled⟩ := last.taken round (by decide)
  have quiet : ∀ act ∈ (List.replicate (2 ^ 32 - 1) lap).flatten, ∀ s, Brief (2 ^ 32) s act := by
    intro act inside s
    obtain ⟨l, replicated, member⟩ := List.mem_flatten.mp inside
    obtain rfl := List.eq_of_mem_replicate replicated
    simp only [lap, List.mem_cons, List.not_mem_nil, or_false] at member
    rcases member with rfl | rfl | rfl <;> trivial
  have front : Along (Brief (2 ^ 32)) step (Sys.init : Sys Bool)
      [.fetchAndAdd true, .spin true, .readCurrent false] :=
    Along.of_forall fun act inside s => by
      simp only [List.mem_cons, List.not_mem_nil, or_false] at inside
      rcases inside with rfl | rfl | rfl <;> trivial
  exact ⟨by decide, t, front.append begun ((Along.of_forall quiet).append lapped brief),
    exec_append begun (exec_append lapped taken), holds, fooled⟩

end Twan.Sync.Spinlock
