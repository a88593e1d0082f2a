/-
# Twan.Sync.RwLock -- the phase-fair reader-writer lock, one atomic step at a time

`src/subsys/sync/rwlock.c`, `__rw_lock_read`, `__rw_unlock_read`, `__rw_lock_write` and
`__rw_unlock_write`.  Four words of 32 bits: `rin` counts the readers that have arrived in its
upper 24 bits and shows the present writer in its two lowest (present, and the parity of its
ticket), `rout` counts those that have left, `win` and `wout` are the tickets of the writers.  A
step is one atomic access together with the local work up to the next one.

The lock refines `Twan.Base.PhaseLock` (`step_refines`) while fewer than `2 ^ 24` readers and
fewer than `2 ^ 32` waiting writers are about: the words are the counters modulo their size, and
a spin compares them for equality.  `rw_lock_safety` is what follows for every run; `progress` is
the part of a deadlock argument that concerns this lock alone.
-/
import Twan.Base.PhaseLock
import Twan.Base.Run

namespace Twan.Sync.RwLock

set_option autoImplicit false
set_option linter.unusedSectionVars false

open Twan.Base

/-! ## The code -/

def pfLsb : BitVec 32 := 0xFFFFFFF0#32
def pfReaderInc : BitVec 32 := 0x100#32
def pfWriterBits : BitVec 32 := 0x3#32
def pfWriterPresent : BitVec 32 := 0x2#32
def pfPhaseId : BitVec 32 := 0x1#32

/-- `struct rwlock`. -/
structure Rwlock where
  rin : BitVec 32
  rout : BitVec 32
  win : BitVec 32
  wout : BitVec 32
  deriving DecidableEq

/-- `rwlock_init`. -/
def Rwlock.init : Rwlock := ⟨0#32, 0#32, 0#32, 0#32⟩

/-- Where a caller is. -/
inductive Pc where
  | idle
  /-- `spin_until((atomic32_read(&lock->rin) & PF_WRITER_BITS) != wp)`. -/
  | spinRin (wp : BitVec 32)
  /-- `__rw_lock_read` has returned. -/
  | reading
  /-- `spin_until(ticket == atomic32_read(&lock->wout))`. -/
  | spinWout (ticket : BitVec 32)
  /-- The writer's turn; the addition to `rin` is next. -/
  | addRin (ticket : BitVec 32)
  /-- `spin_until(ticket == atomic32_read(&lock->rout))`. -/
  | spinRout (ticket : BitVec 32)
  /-- `__rw_lock_write` has returned. -/
  | writing
  /-- The writer bits are cleared; the increment of `wout` is next. -/
  | incWout
  deriving DecidableEq

/-- One lock and its callers. -/
structure Sys (C : Type) where
  lock : Rwlock
  pc : C → Pc

inductive Action (C : Type) where
  | lockRead (c : C)
  | readRin (c : C)
  | unlockRead (c : C)
  | lockWrite (c : C)
  | readWout (c : C)
  | addRin (c : C)
  | readRout (c : C)
  | unlockWrite (c : C)
  | incWout (c : C)
  deriving DecidableEq

section Model

variable {C : Type} [DecidableEq C]

def Sys.initial : Sys C := ⟨.init, fun _ => .idle⟩

def Sys.goto (s : Sys C) (c : C) (pc : Pc) : Sys C :=
  { s with pc := Function.update s.pc c pc }

/-- One atomic step; `none` when the caller is not at that step. -/
def step (s : Sys C) : Action C → Option (Sys C)
  | .lockRead c =>
      if s.pc c = .idle then
        let wp := s.lock.rin &&& pfWriterBits
        some { s.goto c (if wp = 0#32 then .reading else .spinRin wp) with
          lock := { s.lock with rin := s.lock.rin + pfReaderInc } }
      else none
  | .readRin c =>
      match s.pc c with
      | .spinRin wp =>
          if s.lock.rin &&& pfWriterBits ≠ wp then some (s.goto c .reading) else some s
      | _ => none
  | .unlockRead c =>
      if s.pc c = .reading then
        some { s.goto c .idle with lock := { s.lock with rout := s.lock.rout + pfReaderInc } }
      else none
  | .lockWrite c =>
      if s.pc c = .idle then
        some { s.goto c (.spinWout s.lock.win) with
          lock := { s.lock with win := s.lock.win + 1#32 } }
      else none
  | .readWout c =>
      match s.pc c with
      | .spinWout ticket =>
          if ticket = s.lock.wout then some (s.goto c (.addRin ticket)) else some s
      | _ => none
  | .addRin c =>
      match s.pc c with
      | .addRin ticket =>
          some { s.goto c (.spinRout s.lock.rin) with
            lock := { s.lock with
              rin := s.lock.rin + ((ticket &&& pfPhaseId) ||| pfWriterPresent) } }
      | _ => none
  | .readRout c =>
      match s.pc c with
      | .spinRout ticket =>
          if ticket = s.lock.rout then some (s.goto c .writing) else some s
      | _ => none
  | .unlockWrite c =>
      if s.pc c = .writing then
        some { s.goto c .incWout with lock := { s.lock with rin := s.lock.rin &&& pfLsb } }
      else none
  | .incWout c =>
      if s.pc c = .incWout then
        some { s.goto c .idle with lock := { s.lock with wout := s.lock.wout + 1#32 } }
      else none

end Model

/-- A reader that has arrived and not left. -/
def Pc.reader : Pc → Bool
  | .spinRin _ | .reading => true
  | _ => false

/-- A writer that waits for its turn. -/
def Pc.waitsTurn : Pc → Bool
  | .spinWout _ => true
  | _ => false

/-- Fewer than `2 ^ 24` concurrent readers and fewer than `2 ^ 32` waiting writers. -/
def Bounded {C : Type} [Fintype C] (s : Sys C) (_ : Action C) : Prop :=
  count Pc.reader s.pc < 2 ^ 24 ∧ count Pc.waitsTurn s.pc < 2 ^ 32

/-! ## Words -/

/-- The writer bits of `rin`. -/
def writerBits : Option ℕ → ℕ
  | none => 0
  | some k => 2 + k % 2

theorem writerBits_lt (present : Option ℕ) : writerBits present < 4 := by
  cases present with
  | none => decide
  | some k =>
      have parity := Nat.mod_lt k (show 0 < 2 by decide)
      simp only [writerBits]
      omega

/-- `rin` as a word. -/
def rinWord (arrived : ℕ) (present : Option ℕ) : BitVec 32 :=
  BitVec.ofNat 32 (arrived * 256 + writerBits present)

/-- `rout` as a word. -/
def routWord (left : ℕ) : BitVec 32 := BitVec.ofNat 32 (left * 256)

theorem rinWord_writerBits (arrived : ℕ) (present : Option ℕ) :
    rinWord arrived present &&& pfWriterBits = BitVec.ofNat 32 (writerBits present) := by
  have small := writerBits_lt present
  refine BitVec.eq_of_toNat_eq ?_
  have mask : pfWriterBits.toNat = 2 ^ 2 - 1 := rfl
  rw [BitVec.toNat_and, mask, Nat.and_two_pow_sub_one_eq_mod, rinWord, BitVec.toNat_ofNat,
    BitVec.toNat_ofNat]
  omega

theorem ofNat_add_word (n m : ℕ) :
    BitVec.ofNat 32 n + BitVec.ofNat 32 m = BitVec.ofNat 32 (n + m) :=
  (BitVec.ofNat_add n m).symm

theorem rinWord_arrive (arrived : ℕ) (present : Option ℕ) :
    rinWord arrived present + pfReaderInc = rinWord (arrived + 1) present := by
  have inc : pfReaderInc = BitVec.ofNat 32 256 := rfl
  have sum : arrived * 256 + writerBits present + 256 =
      (arrived + 1) * 256 + writerBits present := by omega
  rw [rinWord, rinWord, inc, ofNat_add_word, sum]

theorem routWord_leave (left : ℕ) : routWord left + pfReaderInc = routWord (left + 1) := by
  have inc : pfReaderInc = BitVec.ofNat 32 256 := rfl
  have sum : left * 256 + 256 = (left + 1) * 256 := by omega
  rw [routWord, routWord, inc, ofNat_add_word, sum]

theorem rinWord_mark (arrived n : ℕ) :
    rinWord arrived none + ((BitVec.ofNat 32 n &&& pfPhaseId) ||| pfWriterPresent) =
      rinWord arrived (some n) := by
  have bits : (BitVec.ofNat 32 n &&& pfPhaseId) ||| pfWriterPresent =
      BitVec.ofNat 32 (2 + n % 2) := by
    have phase : BitVec.ofNat 32 n &&& pfPhaseId = BitVec.ofNat 32 (n % 2) := by
      refine BitVec.eq_of_toNat_eq ?_
      have mask : pfPhaseId.toNat = 2 ^ 1 - 1 := rfl
      rw [BitVec.toNat_and, mask, Nat.and_two_pow_sub_one_eq_mod, BitVec.toNat_ofNat,
        BitVec.toNat_ofNat]
      omega
    rw [phase]
    rcases Nat.mod_two_eq_zero_or_one n with even | odd
    · rw [even]; rfl
    · rw [odd]; rfl
  rw [bits, rinWord, rinWord, ofNat_add_word]
  simp only [writerBits, Nat.add_zero]

theorem rinWord_none (arrived : ℕ) : rinWord arrived none = routWord arrived := by
  rw [rinWord, routWord, writerBits, Nat.add_zero]

theorem rinWord_clear (arrived : ℕ) (present : Option ℕ) :
    rinWord arrived present &&& pfLsb = rinWord arrived none := by
  have small : writerBits present < 2 ^ 4 := lt_of_lt_of_le (writerBits_lt present) (by decide)
  have mask : ∀ i : Fin 32, pfLsb.getLsbD i = decide (4 ≤ i.val) := by decide
  have shift : ∀ b, arrived * 256 + b = 2 ^ 4 * (arrived * 16) + b := by omega
  refine BitVec.eq_of_getLsbD_eq fun i lt => ?_
  rw [BitVec.getLsbD_and, mask ⟨i, lt⟩, rinWord, rinWord, BitVec.getLsbD_ofNat,
    BitVec.getLsbD_ofNat, shift, shift, Nat.testBit_two_pow_mul_add _ small,
    Nat.testBit_two_pow_mul_add (b := writerBits none) _ (by decide)]
  by_cases low : i < 4
  · simp [low, writerBits]
  · simp [low, Nat.not_lt.mp low]

theorem routWord_inj {left m : ℕ} (above : left ≤ m) (near : m < left + 2 ^ 24)
    (same : routWord m = routWord left) : m = left := by
  have words := congrArg BitVec.toNat same
  rw [routWord, routWord, BitVec.toNat_ofNat, BitVec.toNat_ofNat] at words
  omega

theorem word_inj {turn n : ℕ} (above : turn ≤ n) (near : n < turn + 2 ^ 32)
    (same : BitVec.ofNat 32 n = BitVec.ofNat 32 turn) : n = turn := by
  have words := congrArg BitVec.toNat same
  rw [BitVec.toNat_ofNat, BitVec.toNat_ofNat] at words
  omega

/-! ## The lock refines the phase lock -/

open PhaseLock (Phase State Inv Kept)

/-- Where the code is in a phase. -/
def pcOf : Phase → Pc
  | .idle => .idle
  | .waiting k => .spinRin (BitVec.ofNat 32 (writerBits (some k)))
  | .reading => .reading
  | .queued n => .spinWout (BitVec.ofNat 32 n)
  | .chosen n => .addRin (BitVec.ofNat 32 n)
  | .draining _ m => .spinRout (routWord m)
  | .writing _ => .writing
  | .leaving _ => .incWout

section Refinement

variable {C : Type} [DecidableEq C]

/-- The words and callers of a phase lock. -/
def image (a : State C) : Sys C where
  lock := ⟨rinWord a.arrived a.present, routWord a.left, BitVec.ofNat 32 a.tickets,
    BitVec.ofNat 32 a.turn⟩
  pc c := pcOf (a.phase c)

theorem image_pc_goto (a : State C) (c : C) (p : Phase) :
    (fun d => pcOf (Function.update a.phase c p d)) =
      Function.update (image a).pc c (pcOf p) := by
  funext d
  by_cases here : d = c
  · subst here
    rw [Function.update_self, Function.update_self]
  · rw [Function.update_of_ne here, Function.update_of_ne here]
    rfl

theorem image_initial : image (State.initial : State C) = Sys.initial := by
  simp [image, State.initial, Sys.initial, Rwlock.init, rinWord, routWord, writerBits, pcOf]

/-- Where the code is tells the phase. -/
theorem phase_of_pc {p : Phase} {pc : Pc} (here : pcOf p = pc) : match pc with
    | .idle => p = .idle
    | .spinRin wp => ∃ k, p = .waiting k ∧ wp = BitVec.ofNat 32 (writerBits (some k))
    | .reading => p = .reading
    | .spinWout ticket => ∃ n, p = .queued n ∧ ticket = BitVec.ofNat 32 n
    | .addRin ticket => ∃ n, p = .chosen n ∧ ticket = BitVec.ofNat 32 n
    | .spinRout ticket => ∃ n m, p = .draining n m ∧ ticket = routWord m
    | .writing => ∃ n, p = .writing n
    | .incWout => ∃ n, p = .leaving n := by
  subst here
  cases p <;> simp [pcOf]

theorem pcOf_reader (p : Phase) : (pcOf p).reader = p.reader := by
  cases p <;> rfl

theorem pcOf_waitsTurn (p : Phase) : (pcOf p).waitsTurn = p.isQueued := by
  cases p <;> rfl

/-- The bits of a reader that arrives. -/
theorem arrival_pc (a : State C) : pcOf a.arrival =
    if (image a).lock.rin &&& pfWriterBits = 0#32 then .reading
    else .spinRin ((image a).lock.rin &&& pfWriterBits) := by
  have bits : (image a).lock.rin &&& pfWriterBits = BitVec.ofNat 32 (writerBits a.present) :=
    rinWord_writerBits a.arrived a.present
  rw [bits, State.arrival]
  cases a.present with
  | none => rfl
  | some k =>
      have nonzero : BitVec.ofNat 32 (writerBits (some k)) ≠ 0#32 := by
        intro zero
        have words := congrArg BitVec.toNat zero
        have parity := Nat.mod_lt k (show 0 < 2 by decide)
        simp only [writerBits, BitVec.toNat_ofNat] at words
        omega
      rw [if_neg nonzero]
      rfl

variable [Fintype C] {a : State C} {t : Sys C}

theorem addRin_refines (inv : Inv a) {c : C} (moved : step (image a) (.addRin c) = some t) :
    ∃ n, a.phase c = .chosen n ∧
      t = image { a.goto c (.draining n a.arrived) with present := some n } := by
  simp only [step] at moved
  split at moved
  · rename_i ticket turn
    obtain ⟨n, chosen, rfl⟩ := phase_of_pc turn
    cases moved
    refine ⟨n, chosen, ?_⟩
    have absent := inv.absent chosen
    simp only [image, State.goto, image_pc_goto, ← rinWord_mark, absent]
    rw [pcOf, ← rinWord_none a.arrived, Sys.goto]
  · cases moved

/-- **Every atomic step of the code is a step of the phase lock or leaves everything as it is.** -/
theorem step_refines (inv : Inv a) {act : Action C} (bounded : Bounded (image a) act)
    (moved : step (image a) act = some t) :
    ∃ b, t = image b ∧ (b = a ∨ PhaseLock.Step a b) := by
  cases act with
  | lockRead c =>
      obtain ⟨idle, ⟨⟩⟩ := Option.ite_none_right_eq_some.mp moved
      refine ⟨_, ?_, .inr (.arrive c (phase_of_pc idle))⟩
      simp only [image, State.goto, image_pc_goto, arrival_pc, ← rinWord_arrive]
      rfl
  | readRin c =>
      simp only [step] at moved
      split at moved
      · rename_i wp spins
        obtain ⟨k, waiting, rfl⟩ := phase_of_pc spins
        split_ifs at moved with changed
        · cases moved
          refine ⟨a.goto c .reading, ?_, .inr (.enter c k waiting fun present => changed ?_)⟩
          · simp only [image, State.goto, image_pc_goto]
            rfl
          · rw [← present]
            exact rinWord_writerBits a.arrived a.present
        · cases moved
          exact ⟨a, rfl, .inl rfl⟩
      · cases moved
  | unlockRead c =>
      obtain ⟨reading, ⟨⟩⟩ := Option.ite_none_right_eq_some.mp moved
      refine ⟨_, ?_, .inr (.leave c (phase_of_pc reading))⟩
      simp only [image, State.goto, image_pc_goto, ← routWord_leave]
      rfl
  | lockWrite c =>
      obtain ⟨idle, ⟨⟩⟩ := Option.ite_none_right_eq_some.mp moved
      refine ⟨_, ?_, .inr (.take c (phase_of_pc idle))⟩
      simp only [image, State.goto, image_pc_goto, ← ofNat_add_word]
      rfl
  | readWout c =>
      simp only [step] at moved
      split at moved
      · rename_i ticket spins
        obtain ⟨n, queued, rfl⟩ := phase_of_pc spins
        split_ifs at moved with equal
        · cases moved
          -- the tickets that are out differ by less than the size of a word
          obtain ⟨above, below⟩ := inv.ticket c n (by rw [queued]; rfl)
          have waiting : count Pc.waitsTurn (image a).pc = count Phase.isQueued a.phase := by
            simp only [count, image, pcOf_waitsTurn]
          have few := bounded.2
          have most := inv.tickets_le
          have same : n = a.turn := word_inj above (by omega) equal
          subst same
          refine ⟨a.goto c (.chosen a.turn), ?_, .inr (.choose c queued)⟩
          simp only [image, State.goto, image_pc_goto]
          rfl
        · cases moved
          exact ⟨a, rfl, .inl rfl⟩
      · cases moved
  | addRin c =>
      obtain ⟨n, chosen, same⟩ := addRin_refines inv moved
      exact ⟨_, same, .inr (.mark c n chosen)⟩
  | readRout c =>
      simp only [step] at moved
      split at moved
      · rename_i ticket spins
        obtain ⟨n, m, draining, rfl⟩ := phase_of_pc spins
        split_ifs at moved with equal
        · cases moved
          obtain ⟨above, below⟩ := inv.draining_le draining
          have readers : count Pc.reader (image a).pc = count Phase.reader a.phase := by
            simp only [count, image, pcOf_reader]
          have few := bounded.1
          have same : m = a.left := routWord_inj above (by omega) equal
          subst same
          refine ⟨a.goto c (.writing n), ?_, .inr (.drain c n draining)⟩
          simp only [image, State.goto, image_pc_goto]
          rfl
        · cases moved
          exact ⟨a, rfl, .inl rfl⟩
      · cases moved
  | unlockWrite c =>
      obtain ⟨inside, ⟨⟩⟩ := Option.ite_none_right_eq_some.mp moved
      obtain ⟨n, writing⟩ := phase_of_pc inside
      refine ⟨_, ?_, .inr (.clear c n writing)⟩
      simp only [image, State.goto, image_pc_goto, ← rinWord_clear a.arrived a.present]
      rfl
  | incWout c =>
      obtain ⟨last, ⟨⟩⟩ := Option.ite_none_right_eq_some.mp moved
      obtain ⟨n, leaving⟩ := phase_of_pc last
      refine ⟨_, ?_, .inr (.pass c n leaving)⟩
      simp only [image, State.goto, image_pc_goto, ← ofNat_add_word]
      rfl

end Refinement

/-! ## Runs -/

section Runs

variable {C : Type} [DecidableEq C] {s t u : Sys C} {act : Action C}

def Action.caller : Action C → C
  | .lockRead c | .readRin c | .unlockRead c | .lockWrite c | .readWout c | .addRin c
  | .readRout c | .unlockWrite c | .incWout c => c

/-- A writer that shows itself. -/
def Pc.shown : Pc → Bool
  | .spinRout _ | .writing => true
  | _ => false

theorem Sys.goto_self (s : Sys C) (c : C) (pc : Pc) : (s.goto c pc).pc c = pc := by
  simp only [Sys.goto, Function.update_self]

/-- A step moves its own caller only. -/
theorem step_frame {d : C} (other : d ≠ act.caller) (moved : step s act = some t) :
    t.pc d = s.pc d := by
  cases act with
  | lockRead c | unlockRead c | lockWrite c | unlockWrite c | incWout c =>
      obtain ⟨_, ⟨⟩⟩ := Option.ite_none_right_eq_some.mp moved
      exact Function.update_of_ne other _ _
  | readRin c | readWout c | readRout c =>
      simp only [step] at moved
      split at moved
      · split_ifs at moved <;> cases moved
        · exact Function.update_of_ne other _ _
        · rfl
      · cases moved
  | addRin c =>
      simp only [step] at moved
      split at moved
      · cases moved
        exact Function.update_of_ne other _ _
      · cases moved

/-- A reader that has arrived is there until it leaves. -/
theorem step_reader {c : C} (reader : (s.pc c).reader = true) (stays : act ≠ .unlockRead c)
    (moved : step s act = some t) : (t.pc c).reader = true := by
  by_cases here : c = act.caller
  · cases act with
    | unlockRead d => obtain rfl : c = d := here; exact absurd rfl stays
    | readRin d =>
        obtain rfl : c = d := here
        simp only [step] at moved
        split at moved
        · split_ifs at moved <;> cases moved
          · exact congrArg Pc.reader (s.goto_self c .reading)
          · exact reader
        · cases moved
    | lockRead d | lockWrite d | unlockWrite d | incWout d =>
        obtain rfl : c = d := here
        obtain ⟨pc, _⟩ := Option.ite_none_right_eq_some.mp moved
        rw [pc] at reader
        cases reader
    | readWout d | addRin d | readRout d =>
        obtain rfl : c = d := here
        simp only [step] at moved
        split at moved
        · rename_i ticket pc
          rw [pc] at reader
          cases reader
        · cases moved
  · rw [step_frame here moved]
    exact reader

/-- A writer shows itself by adding to `rin`. -/
theorem step_shown {d : C} (shown : (t.pc d).shown = true) (other : act ≠ .addRin d)
    (moved : step s act = some t) : (s.pc d).shown = true := by
  by_cases here : d = act.caller
  · cases act with
    | addRin c => obtain rfl : d = c := here; exact absurd rfl other
    | readRout c =>
        obtain rfl : d = c := here
        simp only [step] at moved
        split at moved
        · rename_i ticket spins
          rw [spins]
          rfl
        · cases moved
    | lockRead c =>
        obtain rfl : d = c := here
        obtain ⟨_, ⟨⟩⟩ := Option.ite_none_right_eq_some.mp moved
        simp only [Sys.goto, Function.update_self] at shown
        split_ifs at shown <;> cases shown
    | unlockRead c | lockWrite c | unlockWrite c | incWout c =>
        obtain rfl : d = c := here
        obtain ⟨_, ⟨⟩⟩ := Option.ite_none_right_eq_some.mp moved
        cases (congrArg Pc.shown (s.goto_self d _)).symm.trans shown
    | readRin c | readWout c =>
        obtain rfl : d = c := here
        simp only [step] at moved
        split at moved
        · split_ifs at moved <;> cases moved
          · cases (congrArg Pc.shown (s.goto_self d _)).symm.trans shown
          · exact shown
        · cases moved
  · rw [step_frame here moved] at shown
    exact shown

variable [Fintype C]

/-- The state is one of the phase lock. -/
def Good (s : Sys C) : Prop := ∃ a, Inv a ∧ s = image a

/-- Writer `d` waits for reader `c`. -/
def KeptOut (c d : C) (s : Sys C) : Prop := ∃ a, Inv a ∧ s = image a ∧ Kept a c d

theorem good_initial : Good (Sys.initial : Sys C) :=
  ⟨_, PhaseLock.inv_initial, image_initial.symm⟩

theorem step_good (good : Good s) (bounded : Bounded s act) (moved : step s act = some t) :
    Good t := by
  obtain ⟨a, inv, rfl⟩ := good
  obtain ⟨b, rfl, rfl | taken⟩ := step_refines inv bounded moved
  · exact ⟨b, inv, rfl⟩
  · exact ⟨b, inv.step taken, rfl⟩

theorem exec_good {run : List (Action C)} (good : Good s) (bounded : Along Bounded step s run)
    (ran : exec step s run = some t) : Good t :=
  exec_invariant_along (fun _ _ _ => step_good) good bounded ran

/-- A writer that shows itself waits for the readers there are. -/
theorem keptOut_addRin {c d : C} (good : Good s) (reader : (s.pc c).reader = true)
    (moved : step s (.addRin d) = some t) : KeptOut c d t := by
  obtain ⟨a, inv, rfl⟩ := good
  obtain ⟨n, chosen, rfl⟩ := addRin_refines inv moved
  refine ⟨_, inv.mark chosen, rfl, inv.kept_mark chosen ?_⟩
  exact (pcOf_reader (a.phase c)).symm.trans reader

/-- It does so as long as they are there. -/
theorem step_keptOut {c d : C} (kept : KeptOut c d s)
    (allowed : Bounded s act ∧ act ≠ .unlockRead c) (moved : step s act = some t) :
    KeptOut c d t := by
  obtain ⟨a, inv, rfl, waits⟩ := kept
  have reader : ((image a).pc c).reader = true := by
    obtain ⟨n, m, _, old⟩ := waits
    refine (pcOf_reader (a.phase c)).trans ?_
    cases phase : a.phase c <;> rw [phase] at old <;> first | rfl | cases old
  have stays := step_reader reader allowed.2 moved
  obtain ⟨b, rfl, rfl | taken⟩ := step_refines inv allowed.1 moved
  · exact ⟨b, inv, rfl, waits⟩
  · exact ⟨b, inv.step taken, rfl, waits.step inv taken ((pcOf_reader (b.phase c)).symm.trans stays)⟩

/-- A writer that shows itself after a reader has arrived spins until the reader has left. -/
theorem exec_keptOut {run : List (Action C)} {c d : C} (good : Good s)
    (reader : (s.pc c).reader = true) (bounded : Along Bounded step s run)
    (stays : .unlockRead c ∉ run) (ran : exec step s run = some t) (later : .addRin d ∈ run) :
    ∃ ticket, t.pc d = .spinRout ticket := by
  obtain ⟨first, second, rfl⟩ := List.append_of_mem later
  obtain ⟨u, before, rest⟩ := exec_split ran
  obtain ⟨v, moved, after⟩ := exec_cons rest
  obtain ⟨allowed, rest⟩ := bounded.split before
  have staysFirst : ∀ a ∈ first, a ≠ .unlockRead c := by
    rintro a inside rfl
    exact stays (List.mem_append_left _ inside)
  have staysSecond : ∀ a ∈ second, a ≠ .unlockRead c := by
    rintro a inside rfl
    exact stays (List.mem_append_right _ (List.mem_cons_of_mem _ inside))
  have there : (u.pc c).reader = true :=
    exec_invariant_along (fun _ _ _ reader allowed => step_reader reader allowed.2) reader
      (allowed.and_mem staysFirst) before
  have kept := keptOut_addRin (exec_good good allowed before) there moved
  obtain ⟨a, _, rfl, n, m, draining, _⟩ := exec_invariant_along (fun _ _ _ => step_keptOut) kept
    ((rest.2 v moved).and_mem staysSecond) after
  exact ⟨routWord m, congrArg pcOf draining⟩

/-- A writer that is inside and has not added to `rin` in this run showed itself before it. -/
theorem exec_shown {run : List (Action C)} {d : C} (ran : exec step s run = some t)
    (shown : (t.pc d).shown = true) (none : .addRin d ∉ run) : (s.pc d).shown = true := by
  induction run generalizing s with
  | nil => cases ran; exact shown
  | cons a run ih =>
      obtain ⟨u, moved, rest⟩ := exec_cons ran
      have later := ih rest fun inside => none (List.mem_cons_of_mem a inside)
      exact step_shown later (fun same => none (same ▸ List.mem_cons_self)) moved

/-- **Phase-fair reader-writer lock safety.**  In every run with fewer than `2 ^ 24` readers and
`2 ^ 32` waiting writers at a time, a writer that is inside is there alone; and while a reader that
arrived at `u` has not left, a writer is inside only if it showed itself at `u` already. -/
theorem rw_lock_safety {run : List (Action C)} (bounded : Along Bounded step .initial run)
    (ran : exec step .initial run = some s) :
    (∀ c d, s.pc c = .writing → s.pc d = .reading ∨ s.pc d = .writing → c = d) ∧
    ∀ first second c, run = first ++ .lockRead c :: second → .unlockRead c ∉ second →
      ∀ u, exec step .initial first = some u → ∀ d, s.pc d = .writing →
        (u.pc d).shown = true ∧ .addRin d ∉ second := by
  constructor
  · intro c d writing inside
    obtain ⟨a, inv, rfl⟩ := exec_good good_initial bounded ran
    obtain ⟨n, writes⟩ := phase_of_pc writing
    refine inv.alone writes (inside.imp (fun reads => phase_of_pc reads) fun other => ?_)
    exact phase_of_pc other
  · rintro first second c rfl stays u before d writing
    obtain ⟨v, same, rest⟩ := exec_split ran
    cases before.symm.trans same
    obtain ⟨w, moved, after⟩ := exec_cons rest
    obtain ⟨allowed, later⟩ := bounded.split before
    have good := exec_good good_initial allowed before
    have reader : (w.pc c).reader = true := by
      obtain ⟨_, ⟨⟩⟩ := Option.ite_none_right_eq_some.mp moved
      simp only [Sys.goto, Function.update_self]
      split_ifs <;> rfl
    have none : .addRin d ∉ second := by
      intro inside
      obtain ⟨ticket, spins⟩ := exec_keptOut (step_good good later.1 moved) reader
        (later.2 w moved) stays after inside
      cases writing.symm.trans spins
    have shown := exec_shown after (by rw [writing]; rfl) none
    exact ⟨step_shown shown (by simp) moved, none⟩

theorem along_bounded {run : List (Action C)} (few : Fintype.card C < 2 ^ 24) :
    Along Bounded step s run :=
  Along.of_forall fun _ _ s => ⟨lt_of_le_of_lt (count_le_card _ s.pc) few,
    lt_of_le_of_lt (count_le_card _ s.pc) (lt_trans few (by decide))⟩

/-! ## Progress -/

/-- The next access of the caller is not a spin that fails. -/
def Moves (s : Sys C) (c : C) : Prop :=
  match s.pc c with
  | .spinRin wp => s.lock.rin &&& pfWriterBits ≠ wp
  | .spinWout ticket => ticket = s.lock.wout
  | .spinRout ticket => ticket = s.lock.rout
  | .addRin _ | .incWout => True
  | _ => False

theorem writerBits_inj {k n : ℕ} (near : n = k ∨ n = k + 1)
    (same : BitVec.ofNat 32 (writerBits (some n)) = BitVec.ofNat 32 (writerBits (some k))) :
    n = k := by
  have words := congrArg BitVec.toNat same
  simp only [writerBits, BitVec.toNat_ofNat] at words
  omega

theorem moves_of_ready {a : State C} (inv : Inv a) {c : C} (ready : PhaseLock.Ready a c) :
    Moves (image a) c := by
  have pc : (image a).pc c = pcOf (a.phase c) := rfl
  unfold Moves
  unfold PhaseLock.Ready at ready
  rw [pc]
  cases phase : a.phase c with
  | waiting k =>
      rw [phase] at ready
      have bits := rinWord_writerBits a.arrived a.present
      intro same
      have equal := bits.symm.trans same
      cases present : a.present with
      | none =>
          rw [present] at equal
          have words := congrArg BitVec.toNat equal
          simp only [writerBits, BitVec.toNat_ofNat] at words
          omega
      | some n =>
          rw [present] at equal
          have here := writerBits_inj (inv.waiting_near phase present) equal
          exact ready (by rw [present, here])
  | queued n =>
      rw [phase] at ready
      exact congrArg (BitVec.ofNat 32) ready
  | draining n m =>
      rw [phase] at ready
      exact congrArg routWord ready
  | chosen n | leaving n => trivial
  | idle | reading | writing n => rw [phase] at ready; exact ready.elim

/-- Where a caller waits, one is inside or moves. -/
theorem progress (good : Good s) {c : C} (busy : s.pc c ≠ .idle) :
    ∃ d, s.pc d = .reading ∨ s.pc d = .writing ∨ Moves s d := by
  obtain ⟨a, inv, rfl⟩ := good
  have active : a.phase c ≠ .idle := fun idle => busy (congrArg pcOf idle)
  obtain ⟨d, reading | ⟨n, writing⟩ | ready⟩ := inv.progress active
  · exact ⟨d, .inl (congrArg pcOf reading)⟩
  · exact ⟨d, .inr (.inl (congrArg pcOf writing))⟩
  · exact ⟨d, .inr (.inr (moves_of_ready inv ready))⟩

end Runs

/-- Reader 1 arrives while writer 0 is inside, and writer 2 takes over before the reader looks. -/
def phasesRun : List (Action (Fin 3)) :=
  [.lockWrite 0, .readWout 0, .addRin 0, .readRout 0, .lockRead 1, .lockWrite 2, .unlockWrite 0,
    .incWout 0, .readWout 2, .addRin 2, .readRout 2, .readRin 1]

theorem rw_lock_safety_phases :
    ∃ s : Sys (Fin 3), exec step .initial phasesRun = some s ∧ s.pc 1 = .reading ∧
      s.pc 2 = .spinRout 0x100#32 ∧
      ∀ c d, s.pc c = .writing → s.pc d = .reading ∨ s.pc d = .writing → c = d := by
  have ran : ∃ s : Sys (Fin 3), exec step .initial phasesRun = some s ∧ s.pc 1 = .reading ∧
      s.pc 2 = .spinRout 0x100#32 := ⟨_, rfl, by decide, by decide⟩
  obtain ⟨s, ran, reads, spins⟩ := ran
  exact ⟨s, ran, reads, spins, (rw_lock_safety (along_bounded (by decide)) ran).1⟩

end Twan.Sync.RwLock
