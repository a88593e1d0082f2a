/-
# Twan.Vsched.PartitionTable -- the locks of the partition table

`src/subsys/twanvisor/vsched/vpartition.c`: one reader-writer lock for the table and an MCS lock
for each entry.  `vpartition_get` reads the table and locks its entry, `vpartition_put` undoes
both; `vemu_set_route` nests two of them, the entries in order; `vdo_finalize_teardown` writes the
table; `vpartition_place` and `vpartition_remove` lock their entry alone.

A CPU executes the code of its call, one atomic access of `Twan.Sync.RwLock` or
`Twan.Sync.McsLock` at a time.  The reader-writer lock lets a reader wait for a writer that is
present, so a writer that arrives between the two reads of `vemu_set_route` and the CPU that makes
them wait for each other.  What holds of every run in which no writer is present at the second read
is in `Twan.Vsched.PartitionTableProgress`.
-/
import Twan.Sync.McsLock
import Twan.Sync.RwLock

namespace Twan.Vsched.PartitionTable

set_option autoImplicit false
set_option linter.unusedSectionVars false

open Twan.Base Twan.Sync

/-! ## The code -/

/-- `u8 vid`. -/
abbrev Vid : Type := Fin 256

/-- The reads that a CPU nests. -/
inductive Level where
  | outer
  | inner
  deriving DecidableEq

instance : Fintype Level := ⟨{.outer, .inner}, fun l => by cases l <;> simp⟩

/-- What is left of a call. -/
inductive Code where
  | done
  /-- `vrw_lock_read_isr_save(&vpartition_table_rwlock)`. -/
  | readLock (l : Level) (k : Code)
  | readUnlock (l : Level) (k : Code)
  /-- `vmcs_lock_isr_save(&vpartition_table[vid].lock, node)`. -/
  | entryLock (vid : Vid) (k : Code)
  | entryUnlock (vid : Vid) (k : Code)
  /-- `if (!entry->valid)`. -/
  | ifValid (vid : Vid) (valid invalid : Code)
  /-- `__vpartition_place` and `__vpartition_remove`. -/
  | setValid (vid : Vid) (valid : Bool) (k : Code)
  /-- `vrw_lock_write_isr_save(&vpartition_table_rwlock)`. -/
  | writeLock (k : Code)
  | writeUnlock (k : Code)
  deriving DecidableEq

def vpartitionPut (l : Level) (vid : Vid) (k : Code) : Code :=
  .entryUnlock vid (.readUnlock l k)

/-- `vpartition_get`, followed by `found` or, where it returns NULL, by `missing`. -/
def vpartitionGet (l : Level) (vid : Vid) (found missing : Code) : Code :=
  .readLock l (.entryLock vid (.ifValid vid found (.entryUnlock vid (.readUnlock l missing))))

/-- A section between `vpartition_get` and `vpartition_put`. -/
def getThenPut (vid : Vid) : Code :=
  vpartitionGet .outer vid (vpartitionPut .outer vid .done) .done

def vpartitionPlace (vid : Vid) : Code :=
  .entryLock vid (.setValid vid true (.entryUnlock vid .done))

def vpartitionRemove (vid : Vid) : Code :=
  .entryLock vid (.setValid vid false (.entryUnlock vid .done))

/-- The locks of `vemu_set_route`. -/
def vemuSetRoute (target sender : Vid) : Code :=
  if sender = target then .done
  else
    let vid1 := min sender target
    let vid2 := max sender target
    vpartitionGet .outer vid1
      (vpartitionGet .inner vid2 (vpartitionPut .inner vid2 (vpartitionPut .outer vid1 .done))
        (vpartitionPut .outer vid1 .done))
      .done

/-- The locks of `vdo_finalize_teardown`: `vpartition_start_exclusive` up to
`vpartition_stop_exclusive`, then a section on the root partition. -/
def vdoFinalizeTeardown (vid root : Vid) : Code :=
  .writeLock (.setValid vid false (.writeUnlock (getThenPut root)))

inductive Call where
  | getPut (vid : Vid)
  | place (vid : Vid)
  | remove (vid : Vid)
  | setRoute (target sender : Vid)
  | finalizeTeardown (vid root : Vid)
  deriving DecidableEq

def Call.code : Call → Code
  | .getPut vid => getThenPut vid
  | .place vid => vpartitionPlace vid
  | .remove vid => vpartitionRemove vid
  | .setRoute target sender => vemuSetRoute target sender
  | .finalizeTeardown vid root => vdoFinalizeTeardown vid root

/-- The locks and the validity of the entries, and what each CPU executes.  Every acquisition of
an entry uses a node of its own; `serial` counts them. -/
structure Sys (Cpu : Type) where
  rw : RwLock.Sys (Cpu × Level)
  entry : Vid → McsLock.Sys Cpu (Cpu × ℕ)
  valid : Vid → Bool
  code : Cpu → Code
  serial : Cpu → Vid → ℕ

inductive Action (Cpu : Type) where
  | start (p : Cpu) (call : Call)
  /-- One atomic access of the code of a CPU. -/
  | move (p : Cpu)
  deriving DecidableEq

section Model

variable {Cpu : Type} [DecidableEq Cpu]

def Sys.initial (valid : Vid → Bool) : Sys Cpu :=
  ⟨.initial, fun _ => .initial, valid, fun _ => .done, fun _ _ => 0⟩

def Sys.goto (s : Sys Cpu) (p : Cpu) (k : Code) : Sys Cpu :=
  { s with code := Function.update s.code p k }

/-- The next access of `__rw_lock_read`. -/
def readLockNext (s : Sys Cpu) (p : Cpu) (l : Level) : RwLock.Action (Cpu × Level) :=
  match s.rw.pc (p, l) with
  | .idle => .lockRead (p, l)
  | _ => .readRin (p, l)

/-- The next access of `__rw_lock_write`. -/
def writeLockNext (s : Sys Cpu) (p : Cpu) : RwLock.Action (Cpu × Level) :=
  match s.rw.pc (p, .outer) with
  | .idle => .lockWrite (p, .outer)
  | .spinWout _ => .readWout (p, .outer)
  | .addRin _ => .addRin (p, .outer)
  | _ => .readRout (p, .outer)

/-- The next access of `__rw_unlock_write`. -/
def writeUnlockNext (s : Sys Cpu) (p : Cpu) : RwLock.Action (Cpu × Level) :=
  match s.rw.pc (p, .outer) with
  | .writing => .unlockWrite (p, .outer)
  | _ => .incWout (p, .outer)

def Sys.node (s : Sys Cpu) (p : Cpu) (vid : Vid) : Cpu × ℕ := (p, s.serial p vid)

/-- The next access of `__mcs_lock`. -/
def entryLockNext (s : Sys Cpu) (p : Cpu) (vid : Vid) : McsLock.Action (Cpu × ℕ) :=
  match (s.entry vid).pc (s.node p vid) with
  | .fresh => .xchgTail (s.node p vid)
  | .setNext _ => .setNext (s.node p vid)
  | _ => .readState (s.node p vid)

/-- The next access of `__mcs_unlock`. -/
def entryUnlockNext (s : Sys Cpu) (p : Cpu) (vid : Vid) : McsLock.Action (Cpu × ℕ) :=
  match (s.entry vid).pc (s.node p vid) with
  | .critical => .readNext (s.node p vid)
  | .cmpxchg => .cmpxchgTail (s.node p vid)
  | .spinNext => .rereadNext (s.node p vid)
  | _ => .setState (s.node p vid)

/-- An access of a call on the reader-writer lock; the call returns when it is at `last`. -/
def Sys.callRw (s : Sys Cpu) (p : Cpu) (act : RwLock.Action (Cpu × Level)) (last : RwLock.Pc)
    (k : Code) : Option (Sys Cpu) :=
  (RwLock.step s.rw act).map fun rw =>
    { s with rw := rw, code := if rw.pc act.caller = last then Function.update s.code p k else s.code }

/-- An access of `__mcs_lock`. -/
def Sys.callLock (s : Sys Cpu) (p : Cpu) (vid : Vid) (k : Code) : Option (Sys Cpu) :=
  (McsLock.step Prod.fst (s.entry vid) (entryLockNext s p vid)).map fun e =>
    { s with
      entry := Function.update s.entry vid e
      code := if e.pc (s.node p vid) = .critical then Function.update s.code p k else s.code }

/-- An access of `__mcs_unlock`; the node is not used again. -/
def Sys.callUnlock (s : Sys Cpu) (p : Cpu) (vid : Vid) (k : Code) : Option (Sys Cpu) :=
  (McsLock.step Prod.fst (s.entry vid) (entryUnlockNext s p vid)).map fun e =>
    if e.pc (s.node p vid) = .done then
      { s with
        entry := Function.update s.entry vid e
        code := Function.update s.code p k
        serial := Function.update s.serial p
          (Function.update (s.serial p) vid (s.serial p vid + 1)) }
    else { s with entry := Function.update s.entry vid e }

/-- One step; `none` when the CPU has nothing to execute, or is not free to start a call. -/
def step (s : Sys Cpu) : Action Cpu → Option (Sys Cpu)
  | .start p call => if s.code p = .done then some (s.goto p call.code) else none
  | .move p =>
      match s.code p with
      | .done => none
      | .readLock l k => s.callRw p (readLockNext s p l) .reading k
      | .readUnlock l k => s.callRw p (.unlockRead (p, l)) .idle k
      | .entryLock vid k => s.callLock p vid k
      | .entryUnlock vid k => s.callUnlock p vid k
      | .ifValid vid valid invalid => some (s.goto p (if s.valid vid then valid else invalid))
      | .setValid vid valid k =>
          some { s.goto p k with valid := Function.update s.valid vid valid }
      | .writeLock k => s.callRw p (writeLockNext s p) .writing k
      | .writeUnlock k => s.callRw p (writeUnlockNext s p) .idle k

/-- The CPU spins: its next step changes nothing. -/
def Waiting (s : Sys Cpu) (p : Cpu) : Prop := step s (.move p) = some s

/-- A CPU in a call has a step other than spinning. -/
def Enabled (s : Sys Cpu) (p : Cpu) : Prop := ∃ t, step s (.move p) = some t ∧ t ≠ s

/-- Whenever some CPU waits, some CPU has a step other than spinning. -/
def Progress (s : Sys Cpu) : Prop := ∀ p, Waiting s p → ∃ q, Enabled s q

/-- No writer is present when a CPU that holds a read arrives for its second one. -/
def NoWriter (s : Sys Cpu) : Action Cpu → Prop
  | .move p =>
      match s.code p with
      | .readLock .inner _ =>
          s.rw.pc (p, .inner) = .idle → s.rw.lock.rin &&& RwLock.pfWriterBits = 0#32
      | _ => True
  | .start _ _ => True

end Model

/-! ## What a CPU holds -/

/-- The code fits what its CPU holds: `o` and `i` are where its two reads (or its write) are, `e`
is where its acquisition of each entry is.  Entries are locked in order, and a read is locked
first, or with the outer one held. -/
def Obeys {N : Type} (o i : RwLock.Pc) (e : Vid → McsLock.Pc N) : Code → Prop
  | .done => o = .idle ∧ i = .idle ∧ ∀ v, e v = .fresh
  | .readLock .outer k => (o = .idle ∨ ∃ wp, o = .spinRin wp) ∧ i = .idle ∧ (∀ v, e v = .fresh) ∧
      Obeys .reading i e k
  | .readLock .inner k => o = .reading ∧ (i = .idle ∨ ∃ wp, i = .spinRin wp) ∧
      (∀ v, e v = .fresh ∨ e v = .critical) ∧ Obeys o .reading e k
  | .readUnlock .outer k => o = .reading ∧ Obeys .idle i e k
  | .readUnlock .inner k => i = .reading ∧ Obeys o .idle e k
  | .entryLock vid k => (o = .idle ∨ o = .reading) ∧ (i = .idle ∨ i = .reading) ∧
      (e vid = .fresh ∨ (∃ prev, e vid = .setNext prev) ∨ e vid = .spin) ∧
      (∀ v, v ≠ vid → e v = .fresh ∨ e v = .critical ∧ v < vid) ∧
      Obeys o i (Function.update e vid .critical) k
  | .entryUnlock vid k => (o = .idle ∨ o = .reading) ∧ (i = .idle ∨ i = .reading) ∧
      (e vid).Holding ∧ (∀ v, v ≠ vid → e v = .fresh ∨ e v = .critical) ∧
      Obeys o i (Function.update e vid .fresh) k
  | .ifValid _ valid invalid => Obeys o i e valid ∧ Obeys o i e invalid
  | .setValid _ _ k => Obeys o i e k
  | .writeLock k => (o = .idle ∨ (∃ ticket, o = .spinWout ticket) ∨ (∃ ticket, o = .addRin ticket) ∨
      ∃ ticket, o = .spinRout ticket) ∧ i = .idle ∧ (∀ v, e v = .fresh) ∧ Obeys .writing i e k
  | .writeUnlock k => (o = .writing ∨ o = .incWout) ∧ Obeys .idle i e k

section Obeys

variable {N : Type} {o i : RwLock.Pc} {e : Vid → McsLock.Pc N}

theorem update_fresh {vid : Vid} (free : e vid = .fresh) :
    Function.update (Function.update e vid .critical) vid .fresh = e := by
  rw [Function.update_idem, ← free, Function.update_eq_self]

theorem update_resting {vid : Vid} (rest : ∀ v, v ≠ vid → e v = .fresh ∨ e v = .critical) (v : Vid)
    (apart : v ≠ vid) : Function.update e vid .critical v = .fresh ∨
      Function.update e vid .critical v = .critical := by
  rw [Function.update_of_ne apart]
  exact rest v apart

theorem obeys_put_outer {vid : Vid} {k : Code} (free : e vid = .fresh)
    (rest : ∀ v, v ≠ vid → e v = .fresh ∨ e v = .critical) (next : Obeys .idle .idle e k) :
    Obeys .reading .idle (Function.update e vid .critical) (vpartitionPut .outer vid k) := by
  refine ⟨.inr rfl, .inl rfl, ?_, update_resting rest, rfl, ?_⟩
  · rw [Function.update_self]
    trivial
  · rw [update_fresh free]
    exact next

theorem obeys_put_inner {vid : Vid} {k : Code} (free : e vid = .fresh)
    (rest : ∀ v, v ≠ vid → e v = .fresh ∨ e v = .critical) (next : Obeys .reading .idle e k) :
    Obeys .reading .reading (Function.update e vid .critical) (vpartitionPut .inner vid k) := by
  refine ⟨.inr rfl, .inr rfl, ?_, update_resting rest, rfl, ?_⟩
  · rw [Function.update_self]
    trivial
  · rw [update_fresh free]
    exact next

/-- `vpartition_get` fits where its two continuations do. -/
theorem obeys_get_outer {vid : Vid} {found missing : Code} (all : ∀ v, e v = .fresh)
    (hit : Obeys .reading .idle (Function.update e vid .critical) found)
    (miss : Obeys .idle .idle e missing) :
    Obeys .idle .idle e (vpartitionGet .outer vid found missing) :=
  ⟨.inl rfl, rfl, all, .inr rfl, .inl rfl, .inl (all vid), fun v _ => .inl (all v), hit,
    obeys_put_outer (all vid) (fun v _ => .inl (all v)) miss⟩

theorem obeys_get_inner {vid : Vid} {found missing : Code} (free : e vid = .fresh)
    (below : ∀ v, v ≠ vid → e v = .fresh ∨ e v = .critical ∧ v < vid)
    (hit : Obeys .reading .reading (Function.update e vid .critical) found)
    (miss : Obeys .reading .idle e missing) :
    Obeys .reading .idle e (vpartitionGet .inner vid found missing) := by
  have rest : ∀ v, v ≠ vid → e v = .fresh ∨ e v = .critical := fun v apart =>
    (below v apart).imp_right And.left
  refine ⟨rfl, .inl rfl, fun v => ?_, .inr rfl, .inr rfl, .inl free, below, hit,
    obeys_put_inner free rest miss⟩
  by_cases here : v = vid
  · exact .inl (here ▸ free)
  · exact rest v here

theorem obeys_getThenPut (all : ∀ v, e v = .fresh) (vid : Vid) :
    Obeys .idle .idle e (getThenPut vid) :=
  obeys_get_outer all (obeys_put_outer (all vid) (fun v _ => .inl (all v)) ⟨rfl, rfl, all⟩)
    ⟨rfl, rfl, all⟩

theorem obeys_setRoute (all : ∀ v, e v = .fresh) (target sender : Vid) :
    Obeys .idle .idle e (vemuSetRoute target sender) := by
  unfold vemuSetRoute
  split_ifs with same
  · exact ⟨rfl, rfl, all⟩
  · have order : min sender target < max sender target := min_lt_max.mpr same
    have put : Obeys .reading .idle (Function.update e (min sender target) .critical)
        (vpartitionPut .outer (min sender target) .done) :=
      obeys_put_outer (all _) (fun v _ => .inl (all v)) ⟨rfl, rfl, all⟩
    have free : Function.update e (min sender target) .critical (max sender target) = .fresh := by
      rw [Function.update_of_ne order.ne', all]
    have below : ∀ v, v ≠ max sender target →
        Function.update e (min sender target) .critical v = .fresh ∨
        Function.update e (min sender target) .critical v = .critical ∧ v < max sender target := by
      intro v _
      by_cases first : v = min sender target
      · subst first
        exact .inr ⟨Function.update_self _ _ _, order⟩
      · exact .inl (by rw [Function.update_of_ne first, all])
    refine obeys_get_outer all (obeys_get_inner free below ?_ put) ⟨rfl, rfl, all⟩
    exact obeys_put_inner free (fun v apart => (below v apart).imp_right And.left) put

theorem obeys_entry (all : ∀ v, e v = .fresh) (vid : Vid) (valid : Bool) :
    Obeys .idle .idle e (.entryLock vid (.setValid vid valid (.entryUnlock vid .done))) := by
  refine ⟨.inl rfl, .inl rfl, .inl (all vid), fun v _ => .inl (all v), .inl rfl, .inl rfl, ?_,
    update_resting fun v _ => .inl (all v), ?_⟩
  · rw [Function.update_self]
    trivial
  · rw [update_fresh (all vid)]
    exact ⟨rfl, rfl, all⟩

/-- The code of every call fits a CPU that holds nothing. -/
theorem call_obeys (all : ∀ v, e v = .fresh) (call : Call) : Obeys .idle .idle e call.code := by
  cases call with
  | getPut vid => exact obeys_getThenPut all vid
  | place vid => exact obeys_entry all vid true
  | remove vid => exact obeys_entry all vid false
  | setRoute target sender => exact obeys_setRoute all target sender
  | finalizeTeardown vid root =>
      exact ⟨.inl rfl, rfl, all, .inl rfl, obeys_getThenPut all root⟩

end Obeys

/-! ## What the accesses of a call do -/

section Accesses

variable {Cpu : Type} [DecidableEq Cpu] {s t : Sys Cpu} {p q : Cpu} {rw : RwLock.Sys (Cpu × Level)}

theorem readLock_pc {l : Level} (place : s.rw.pc (p, l) = .idle ∨ ∃ wp, s.rw.pc (p, l) = .spinRin wp)
    (moved : RwLock.step s.rw (readLockNext s p l) = some rw) :
    rw.pc (p, l) = .reading ∨ ∃ wp, rw.pc (p, l) = .spinRin wp := by
  rcases place with idle | ⟨wp, spins⟩
  · simp only [readLockNext, idle] at moved
    obtain ⟨_, ⟨⟩⟩ := Option.ite_none_right_eq_some.mp moved
    simp only [RwLock.Sys.goto, Function.update_self]
    split_ifs
    · exact .inl rfl
    · exact .inr ⟨_, rfl⟩
  · simp only [readLockNext, spins, RwLock.step] at moved
    split_ifs at moved <;> cases moved
    · exact .inl (RwLock.Sys.goto_self _ _ _)
    · exact .inr ⟨wp, spins⟩

/-- A read that arrives while no writer is present does not wait. -/
theorem readLock_alone {l : Level} (idle : s.rw.pc (p, l) = .idle)
    (alone : s.rw.lock.rin &&& RwLock.pfWriterBits = 0#32)
    (moved : RwLock.step s.rw (readLockNext s p l) = some rw) : rw.pc (p, l) = .reading := by
  simp only [readLockNext, idle] at moved
  obtain ⟨_, ⟨⟩⟩ := Option.ite_none_right_eq_some.mp moved
  simp only [RwLock.Sys.goto, Function.update_self, alone, if_true]

theorem writeLock_pc (place : s.rw.pc (p, .outer) = .idle ∨
      (∃ ticket, s.rw.pc (p, .outer) = .spinWout ticket) ∨
      (∃ ticket, s.rw.pc (p, .outer) = .addRin ticket) ∨
      ∃ ticket, s.rw.pc (p, .outer) = .spinRout ticket)
    (moved : RwLock.step s.rw (writeLockNext s p) = some rw) :
    rw.pc (p, .outer) = .writing ∨ (∃ ticket, rw.pc (p, .outer) = .spinWout ticket) ∨
      (∃ ticket, rw.pc (p, .outer) = .addRin ticket) ∨
      ∃ ticket, rw.pc (p, .outer) = .spinRout ticket := by
  rcases place with idle | ⟨ticket, spins⟩ | ⟨ticket, turn⟩ | ⟨ticket, spins⟩
  · simp only [writeLockNext, idle] at moved
    obtain ⟨_, ⟨⟩⟩ := Option.ite_none_right_eq_some.mp moved
    exact .inr (.inl ⟨_, RwLock.Sys.goto_self _ _ _⟩)
  · simp only [writeLockNext, spins, RwLock.step] at moved
    split_ifs at moved <;> cases moved
    · exact .inr (.inr (.inl ⟨_, RwLock.Sys.goto_self _ _ _⟩))
    · exact .inr (.inl ⟨ticket, spins⟩)
  · simp only [writeLockNext, turn, RwLock.step] at moved
    cases moved
    exact .inr (.inr (.inr ⟨_, RwLock.Sys.goto_self _ _ _⟩))
  · simp only [writeLockNext, spins, RwLock.step] at moved
    split_ifs at moved <;> cases moved
    · exact .inl (RwLock.Sys.goto_self _ _ _)
    · exact .inr (.inr (.inr ⟨ticket, spins⟩))

theorem writeUnlock_pc (place : s.rw.pc (p, .outer) = .writing ∨ s.rw.pc (p, .outer) = .incWout)
    (moved : RwLock.step s.rw (writeUnlockNext s p) = some rw) :
    rw.pc (p, .outer) = .incWout ∨ rw.pc (p, .outer) = .idle := by
  rcases place with writing | last
  · simp only [writeUnlockNext, writing] at moved
    obtain ⟨_, ⟨⟩⟩ := Option.ite_none_right_eq_some.mp moved
    exact .inl (RwLock.Sys.goto_self _ _ _)
  · simp only [writeUnlockNext, last] at moved
    obtain ⟨_, ⟨⟩⟩ := Option.ite_none_right_eq_some.mp moved
    exact .inr (RwLock.Sys.goto_self _ _ _)

theorem readUnlock_pc {l : Level} (moved : RwLock.step s.rw (.unlockRead (p, l)) = some rw) :
    rw.pc (p, l) = .idle := by
  obtain ⟨_, ⟨⟩⟩ := Option.ite_none_right_eq_some.mp moved
  exact RwLock.Sys.goto_self _ _ _

theorem readLockNext_caller (l : Level) : (readLockNext s p l).caller = (p, l) := by
  unfold readLockNext
  split <;> rfl

theorem writeLockNext_caller : (writeLockNext s p).caller = (p, .outer) := by
  unfold writeLockNext
  split <;> rfl

theorem writeUnlockNext_caller : (writeUnlockNext s p).caller = (p, .outer) := by
  unfold writeUnlockNext
  split <;> rfl

variable {vid : Vid} {e : McsLock.Sys Cpu (Cpu × ℕ)}

theorem entryLock_pc (place : (s.entry vid).pc (s.node p vid) = .fresh ∨
      (∃ prev, (s.entry vid).pc (s.node p vid) = .setNext prev) ∨
      (s.entry vid).pc (s.node p vid) = .spin)
    (moved : McsLock.step Prod.fst (s.entry vid) (entryLockNext s p vid) = some e) :
    e.pc (s.node p vid) = .critical ∨ (∃ prev, e.pc (s.node p vid) = .setNext prev) ∨
      e.pc (s.node p vid) = .spin := by
  refine McsLock.LockAccess.pc ?_ moved
  unfold entryLockNext
  rcases place with fresh | ⟨prev, joining⟩ | spins
  · rw [fresh]
    exact .xchgTail
  · rw [joining]
    exact .setNext
  · rw [spins]
    exact .readState

theorem entryUnlock_pc (holds : ((s.entry vid).pc (s.node p vid)).Holding)
    (moved : McsLock.step Prod.fst (s.entry vid) (entryUnlockNext s p vid) = some e) :
    e.pc (s.node p vid) = .done ∨ (e.pc (s.node p vid)).Holding := by
  refine McsLock.UnlockAccess.pc ?_ moved
  unfold entryUnlockNext
  cases place : (s.entry vid).pc (s.node p vid) with
  | critical => exact .readNext
  | cmpxchg => exact .cmpxchgTail
  | spinNext => exact .rereadNext
  | setState next => exact .setState
  | _ => rw [place] at holds; exact holds.elim

theorem entryLockNext_node : (entryLockNext s p vid).node = s.node p vid := by
  unfold entryLockNext
  split <;> rfl

theorem entryUnlockNext_node : (entryUnlockNext s p vid).node = s.node p vid := by
  unfold entryUnlockNext
  split <;> rfl

end Accesses

end Twan.Vsched.PartitionTable
