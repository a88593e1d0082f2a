/-
# Twan.Base.QueueLock -- locks that hand over along an implicitly linked queue

A queue lock keeps one word, the tail, and one link per waiting node.  A node
joins by exchanging itself into the tail; only later does it store itself into
its predecessor's link, so between the two steps the queue is not linked.  The
holder leaves by granting its successor, after it has found the successor in its
own link or has seen, by a failed exchange of the tail, that one is on its way.

The steps are those of one node each and interleave freely.  The invariant
`Inv s old queue` splits the nodes in the order they joined into the ones that
are gone and the ones still queued; the head of the queue is the only node that
may hold the lock, and `Behind` describes the rest, linked or not.

* `inv_initial`, `inv_step`: the invariant holds at the start and every step keeps it;
* `Inv.active_unique`, `Inv.entered_in_order`, `Inv.draining_behind` and the
  `not_gone` lemmas are what a lock that refines this system inherits;
* `Inv.progress`: where a node waits, one holds the lock or goes on by itself.
-/
import Mathlib.Data.List.Basic
import Mathlib.Data.List.Nodup
import Mathlib.Logic.Function.Basic

namespace Twan.Base.QueueLock

set_option autoImplicit false

universe u

/-- Where one node is on its way through the lock. -/
inductive Phase (N : Type u) where
  | fresh
  | joining (prev : N)
  | waiting
  | holding
  | closing
  | draining
  | passing (succ : N)
  | gone

/-- The shared words, the phase of every node, and the two histories: the order
in which nodes exchanged themselves into the tail and the order in which they
came to hold the lock. -/
structure State (N : Type u) where
  tail : Option N
  next : N → Option N
  granted : N → Bool
  phase : N → Phase N
  joined : List N
  entered : List N

/-- A phase in which the node has entered and not yet handed the lock on. -/
def Phase.Active {N : Type u} : Phase N → Prop
  | .holding | .closing | .draining | .passing _ => True
  | _ => False

section System

variable {N : Type u} [DecidableEq N]

def State.initial : State N :=
  ⟨none, fun _ => none, fun _ => false, fun _ => .fresh, [], []⟩

def State.setPhase (s : State N) (n : N) (p : Phase N) : State N :=
  { s with phase := Function.update s.phase n p }

@[simp] theorem setPhase_tail (s : State N) (n : N) (p : Phase N) :
    (s.setPhase n p).tail = s.tail := rfl
@[simp] theorem setPhase_joined (s : State N) (n : N) (p : Phase N) :
    (s.setPhase n p).joined = s.joined := rfl

/-- One atomic step of one node. -/
inductive Step : State N → State N → Prop
  | joinFree {s : State N} (n : N) (new : s.phase n = .fresh) (free : s.tail = none) :
      Step s { s.setPhase n .holding with
        tail := some n, joined := s.joined ++ [n], entered := s.entered ++ [n] }
  | joinBehind {s : State N} (n p : N) (new : s.phase n = .fresh) (busy : s.tail = some p) :
      Step s { s.setPhase n (.joining p) with tail := some n, joined := s.joined ++ [n] }
  | link {s : State N} (n p : N) (joining : s.phase n = .joining p) :
      Step s { s.setPhase n .waiting with next := Function.update s.next p (some n) }
  | enter {s : State N} (n : N) (waiting : s.phase n = .waiting) (granted : s.granted n = true) :
      Step s { s.setPhase n .holding with entered := s.entered ++ [n] }
  | leaveLinked {s : State N} (n x : N) (holding : s.phase n = .holding)
      (linked : s.next n = some x) : Step s (s.setPhase n (.passing x))
  | leaveUnlinked {s : State N} (n : N) (holding : s.phase n = .holding)
      (unlinked : s.next n = none) : Step s (s.setPhase n .closing)
  | close {s : State N} (n : N) (closing : s.phase n = .closing) (last : s.tail = some n) :
      Step s { s.setPhase n .gone with tail := none }
  | contend {s : State N} (n : N) (closing : s.phase n = .closing) (behind : s.tail ≠ some n) :
      Step s (s.setPhase n .draining)
  | drain {s : State N} (n x : N) (draining : s.phase n = .draining)
      (linked : s.next n = some x) : Step s (s.setPhase n (.passing x))
  | pass {s : State N} (n x : N) (passing : s.phase n = .passing x) :
      Step s { s.setPhase n .gone with granted := Function.update s.granted x true }

end System

/-! ## The invariant -/

section Invariant

variable {N : Type u}

/-- The nodes queued behind `a`, in order: each has either not yet stored itself
into its predecessor's link or is waiting there, and none has been granted. -/
def Behind (s : State N) : N → List N → Prop
  | a, [] => s.next a = none
  | a, b :: rest =>
      (s.phase b = .joining a ∧ s.next a = none ∨ s.phase b = .waiting ∧ s.next a = some b) ∧
        s.granted b = false ∧ Behind s b rest

/-- The head of the queue: granted and about to enter, or active. -/
def Head (s : State N) (old : List N) (a : N) (rest : List N) : Prop :=
  s.phase a = .waiting ∧ s.granted a = true ∧ s.entered = old ∨
  (s.phase a).Active ∧ s.entered = old ++ [a] ∧ (s.phase a = .draining → rest ≠ []) ∧
    ∀ x, s.phase a = .passing x → s.next a = some x

structure Inv (s : State N) (old queue : List N) : Prop where
  order : s.joined = old ++ queue
  nodup : s.joined.Nodup
  unused : ∀ n, n ∉ s.joined → s.phase n = .fresh ∧ s.next n = none ∧ s.granted n = false
  gone : ∀ n ∈ old, s.phase n = .gone
  tail : s.tail = queue.getLast?
  head : ∀ a rest, queue = a :: rest → Head s old a rest ∧ Behind s a rest
  idle : queue = [] → s.entered = old

theorem behind_congr {s t : State N} : ∀ {a : N} {rest : List N}, Behind s a rest →
    (∀ b ∈ rest, t.phase b = s.phase b ∧ t.granted b = s.granted b) →
    (∀ b ∈ a :: rest, t.next b = s.next b) → Behind t a rest
  | a, [], behind, _, links => by
      simpa [Behind, links a (by simp)] using behind
  | a, b :: rest, ⟨shape, ungranted, behind⟩, same, links => by
      have sameB := same b (by simp)
      refine ⟨?_, by rw [sameB.2]; exact ungranted, ?_⟩
      · rw [sameB.1, links a (by simp)]; exact shape
      · exact behind_congr behind (fun c hc => same c (by simp [hc]))
          (fun c hc => links c (List.mem_cons_of_mem a hc))

/-- A queued node behind the head is joining or waiting, and not granted. -/
theorem behind_member {s : State N} : ∀ {a : N} {rest : List N}, Behind s a rest → ∀ b ∈ rest,
    ((∃ p ∈ a :: rest, s.phase b = .joining p) ∨ s.phase b = .waiting) ∧ s.granted b = false
  | _, [], _, b, member => by simp at member
  | a, c :: rest, ⟨shape, ungranted, behind⟩, b, member => by
      rcases List.mem_cons.mp member with rfl | later
      · refine ⟨?_, ungranted⟩
        rcases shape with ⟨joining, _⟩ | ⟨waiting, _⟩
        · exact .inl ⟨a, by simp, joining⟩
        · exact .inr waiting
      · obtain ⟨phase, granted⟩ := behind_member behind b later
        refine ⟨phase.imp_left ?_, granted⟩
        rintro ⟨p, hp, joining⟩
        exact ⟨p, List.mem_cons_of_mem a hp, joining⟩

theorem behind_next_last {s : State N} : ∀ {a : N} {rest : List N}, Behind s a rest →
    s.next ((a :: rest).getLast (by simp)) = none
  | a, [], behind => behind
  | a, b :: rest, behind => by
      rw [List.getLast_cons_cons]; exact behind_next_last behind.2.2

/-- What the holder finds in its own link is its queue neighbour. -/
theorem behind_next_some {s : State N} {a x : N} {rest : List N} (behind : Behind s a rest)
    (linked : s.next a = some x) : ∃ tail, rest = x :: tail ∧ s.phase x = .waiting := by
  cases rest with
  | nil => simp [Behind, linked] at behind
  | cons b rest =>
      rcases behind.1 with ⟨_, unlinked⟩ | ⟨waiting, found⟩
      · simp [linked] at unlinked
      · have same : b = x := by simpa [linked] using found.symm
        subst same
        exact ⟨rest, rfl, waiting⟩

namespace Inv

variable {s : State N} {old queue : List N}

/-- A queued node has been used, and is not gone. -/
theorem queued_present (inv : Inv s old queue) {n : N} (queued : n ∈ queue) :
    s.phase n ≠ .fresh ∧ s.phase n ≠ .gone := by
  cases queue with
  | nil => simp at queued
  | cons a rest =>
      obtain ⟨head, behind⟩ := inv.head a rest rfl
      rcases List.mem_cons.mp queued with rfl | later
      · rcases head with ⟨waiting, _⟩ | ⟨active, _⟩
        · simp [waiting]
        · constructor <;> intro phase <;> simp [phase, Phase.Active] at active
      · rcases (behind_member behind n later).1 with ⟨p, _, joining⟩ | waiting
        · simp [joining]
        · simp [waiting]

theorem phase_not_fresh (inv : Inv s old queue) {n : N} (member : n ∈ s.joined) :
    s.phase n ≠ .fresh := by
  rw [inv.order, List.mem_append] at member
  rcases member with past | queued
  · simp [inv.gone n past]
  · exact (inv.queued_present queued).1

theorem member_of_phase (inv : Inv s old queue) {n : N} (used : s.phase n ≠ .fresh) :
    n ∈ s.joined := by
  by_contra absent
  exact used (inv.unused n absent).1

/-- A node that is neither fresh nor gone is queued. -/
theorem queued_of_phase (inv : Inv s old queue) {n : N} (used : s.phase n ≠ .fresh)
    (present : s.phase n ≠ .gone) : n ∈ queue := by
  have member := inv.member_of_phase used
  rw [inv.order, List.mem_append] at member
  exact member.resolve_left fun past => present (inv.gone n past)

/-- A node that never joined is not one that is queued. -/
theorem ne_of_unused (inv : Inv s old queue) {m n : N} (absent : m ∉ s.joined)
    (queued : n ∈ queue) : m ≠ n :=
  fun e => absent (by rw [e, inv.order]; exact List.mem_append_right _ queued)

/-- Only the head of the queue is active. -/
theorem active_head (inv : Inv s old queue) {n : N} (active : (s.phase n).Active) :
    ∃ rest, queue = n :: rest := by
  have queued : n ∈ queue := inv.queued_of_phase
    (by intro h; simp [h, Phase.Active] at active) (by intro h; simp [h, Phase.Active] at active)
  cases queue with
  | nil => simp at queued
  | cons a rest =>
      rcases List.mem_cons.mp queued with rfl | later
      · exact ⟨rest, rfl⟩
      · rcases (behind_member (inv.head a rest rfl).2 n later).1 with ⟨p, _, joining⟩ | waiting
        · simp [joining, Phase.Active] at active
        · simp [waiting, Phase.Active] at active

/-- **Mutual exclusion**: two active nodes are one node. -/
theorem active_unique (inv : Inv s old queue) {m n : N} (activeM : (s.phase m).Active)
    (activeN : (s.phase n).Active) : m = n := by
  obtain ⟨_, headM⟩ := inv.active_head activeM
  obtain ⟨_, headN⟩ := inv.active_head activeN
  rw [headM] at headN
  exact (List.cons.inj headN).1

/-- Nodes enter in the order in which they joined. -/
theorem entered_in_order (inv : Inv s old queue) : s.entered <+: s.joined := by
  rw [inv.order]
  cases queue with
  | nil => simp [inv.idle rfl]
  | cons a rest =>
      rcases (inv.head a rest rfl).1 with ⟨_, _, entered⟩ | ⟨_, entered, _⟩
      · exact ⟨a :: rest, by rw [entered]⟩
      · exact ⟨rest, by simp [entered]⟩

/-- The active node's place in the joining order, with what joined behind it. -/
theorem active_order (inv : Inv s old queue) {n : N} (active : (s.phase n).Active) :
    ∃ rest, s.joined = old ++ n :: rest ∧ Behind s n rest ∧
      (s.phase n = .draining → rest ≠ []) ∧ (∀ x, s.phase n = .passing x → s.next n = some x) := by
  obtain ⟨rest, rfl⟩ := inv.active_head active
  obtain ⟨head, behind⟩ := inv.head n rest rfl
  rcases head with ⟨waiting, _⟩ | ⟨_, _, drains, passes⟩
  · simp [waiting, Phase.Active] at active
  · exact ⟨rest, inv.order, behind, drains, passes⟩

/-- A node drains only when another node has already joined right behind it. -/
theorem draining_behind (inv : Inv s old queue) {n : N} (draining : s.phase n = .draining) :
    ∃ m rest, s.joined = old ++ n :: m :: rest ∧
      ((∃ p, s.phase m = .joining p) ∨ s.phase m = .waiting) := by
  obtain ⟨rest, order, behind, drains, _⟩ :=
    inv.active_order (n := n) (by simp [draining, Phase.Active])
  cases rest with
  | nil => exact absurd rfl (drains draining)
  | cons m rest =>
      refine ⟨m, rest, order, ?_⟩
      rcases behind.1 with ⟨joining, _⟩ | ⟨waiting, _⟩
      · exact .inl ⟨n, joining⟩
      · exact .inr waiting

/-- The predecessor a joining node is about to link to is still queued. -/
theorem joining_queued (inv : Inv s old queue) {n p : N} (joining : s.phase n = .joining p) :
    p ∈ queue := by
  have queued : n ∈ queue := inv.queued_of_phase (by simp [joining]) (by simp [joining])
  cases queue with
  | nil => simp at queued
  | cons a rest =>
      obtain ⟨head, behind⟩ := inv.head a rest rfl
      rcases List.mem_cons.mp queued with rfl | later
      · rcases head with ⟨waiting, _⟩ | ⟨active, _⟩
        · simp [joining] at waiting
        · simp [joining, Phase.Active] at active
      · rcases (behind_member behind n later).1 with ⟨q, hq, joining'⟩ | waiting
        · have same : q = p := by simpa [joining] using joining'.symm
          exact same ▸ hq
        · simp [joining] at waiting

theorem joining_not_gone (inv : Inv s old queue) {n p : N} (joining : s.phase n = .joining p) :
    s.phase p ≠ .gone :=
  (inv.queued_present (inv.joining_queued joining)).2

/-- The successor a leaving node is about to grant is still waiting. -/
theorem passing_waiting (inv : Inv s old queue) {n x : N} (passing : s.phase n = .passing x) :
    s.phase x = .waiting := by
  obtain ⟨rest, _, behind, _, passes⟩ :=
    inv.active_order (n := n) (by simp [passing, Phase.Active])
  exact (behind_next_some behind (passes x passing)).choose_spec.2

end Inv

/-! ## Progress -/

/-- A node that goes on by itself. -/
def Ready (s : State N) (n : N) : Prop :=
  match s.phase n with
  | .joining _ | .closing | .passing _ => True
  | .waiting => s.granted n = true
  | .draining => s.next n ≠ none
  | _ => False

/-- A node that drains, or the one that is on its way behind it, goes on. -/
theorem Inv.draining_ready {s : State N} {old queue : List N} (inv : Inv s old queue) {n : N}
    (draining : s.phase n = .draining) : ∃ m, Ready s m := by
  obtain ⟨rest, _, behind, drains, _⟩ :=
    inv.active_order (n := n) (by simp [draining, Phase.Active])
  cases rest with
  | nil => exact absurd rfl (drains draining)
  | cons m rest =>
      rcases behind.1 with ⟨joining, _⟩ | ⟨_, linked⟩
      · exact ⟨m, by simp [Ready, joining]⟩
      · exact ⟨n, by simp [Ready, draining, linked]⟩

/-- Where a node is queued, one holds the lock or one goes on. -/
theorem Inv.progress {s : State N} {old queue : List N} (inv : Inv s old queue) {n : N}
    (queued : n ∈ queue) : ∃ m, s.phase m = .holding ∨ Ready s m := by
  cases queue with
  | nil => cases queued
  | cons a rest =>
      rcases (inv.head a rest rfl).1 with ⟨waiting, granted, _⟩ | ⟨active, _, _⟩
      · exact ⟨a, .inr (by simp [Ready, waiting, granted])⟩
      · cases phase : s.phase a with
        | holding => exact ⟨a, .inl phase⟩
        | draining =>
            obtain ⟨m, ready⟩ := inv.draining_ready phase
            exact ⟨m, .inr ready⟩
        | closing => exact ⟨a, .inr (by simp [Ready, phase])⟩
        | passing x => exact ⟨a, .inr (by simp [Ready, phase])⟩
        | _ => rw [phase] at active; cases active

end Invariant

/-! ## Every step keeps the invariant -/

section Preservation

variable {N : Type u} {s : State N} {old queue : List N}

theorem inv_initial : Inv (State.initial : State N) [] [] where
  order := rfl
  nodup := List.nodup_nil
  unused _ _ := ⟨rfl, rfl, rfl⟩
  gone _ h := by simp at h
  tail := rfl
  head _ _ h := by simp at h
  idle _ := rfl

/-- A joining node appends itself behind the last one. -/
theorem behind_append {t : State N} {n : N} : ∀ {a : N} {rest : List N}, Behind s a rest →
    t.phase n = .joining ((a :: rest).getLast (by simp)) → t.granted n = false →
    t.next n = none → (∀ b ∈ rest, t.phase b = s.phase b ∧ t.granted b = s.granted b) →
    (∀ b ∈ a :: rest, t.next b = s.next b) → Behind t a (rest ++ [n])
  | a, [], behind, joining, ungranted, unlinked, _, links => by
      refine ⟨.inl ⟨joining, ?_⟩, ungranted, unlinked⟩
      rw [links a (by simp)]; exact behind
  | a, b :: rest, ⟨shape, fresh, behind⟩, joining, ungranted, unlinked, same, links => by
      have sameB := same b (by simp)
      refine ⟨?_, by rw [sameB.2]; exact fresh, ?_⟩
      · rw [sameB.1, links a (by simp)]; exact shape
      · refine behind_append behind ?_ ungranted unlinked (fun c hc => same c (by simp [hc]))
          (fun c hc => links c (List.mem_cons_of_mem a hc))
        rw [joining, List.getLast_cons_cons]

namespace Inv

theorem queue_nodup (inv : Inv s old queue) : queue.Nodup :=
  (List.nodup_append.mp (inv.order ▸ inv.nodup)).2.1

theorem not_old (inv : Inv s old queue) {n : N} (queued : n ∈ queue) : n ∉ old :=
  fun past => (List.nodup_append.mp (inv.order ▸ inv.nodup)).2.2 n past n queued rfl

end Inv

variable [DecidableEq N]

/-- A joining node stores itself into its predecessor's link. -/
theorem behind_link {n p : N} (joining : s.phase n = .joining p) :
    ∀ {a : N} {rest : List N}, Behind s a rest → (a :: rest).Nodup → n ∈ rest →
      Behind { s.setPhase n .waiting with next := Function.update s.next p (some n) } a rest
  | _, [], _, _, member => by simp at member
  | a, b :: rest, ⟨shape, ungranted, behind⟩, nodup, member => by
      obtain ⟨outsideA, nodupB⟩ := List.nodup_cons.mp nodup
      by_cases here : b = n
      · subst here
        have same : p = a := by
          rcases shape with ⟨joining', _⟩ | ⟨waiting, _⟩
          · simpa [joining] using joining'
          · simp [joining] at waiting
        subst same
        refine ⟨.inr ⟨by simp [State.setPhase], by simp⟩, ungranted, ?_⟩
        refine behind_congr behind (fun c hc => ⟨?_, rfl⟩) (fun c hc => ?_)
        · have ne : c ≠ b := fun e => (List.nodup_cons.mp nodupB).1 (e ▸ hc)
          simp [State.setPhase, ne]
        · have ne : c ≠ p := fun e => outsideA (e ▸ hc)
          simp [ne]
      · have later : n ∈ rest := (List.mem_cons.mp member).resolve_left fun e => here e.symm
        -- the predecessor is one of `b :: rest`, so `a`'s own link stays as it is
        obtain ⟨q, hq, joining'⟩ : ∃ q ∈ b :: rest, s.phase n = .joining q :=
          (behind_member behind n later).1.resolve_right (by simp [joining])
        have same : q = p := by simpa [joining] using joining'.symm
        subst same
        have ne : a ≠ q := fun e => outsideA (e ▸ hq)
        refine ⟨?_, ungranted, behind_link joining behind nodupB later⟩
        simpa [State.setPhase, here, ne] using shape

namespace Inv

/-- The active head moves to another active phase. -/
theorem set_active (inv : Inv s old queue) {n : N} {p : Phase N} (active : (s.phase n).Active)
    (next : p.Active) (drains : p = .draining → s.tail ≠ some n)
    (passes : ∀ x, p = .passing x → s.next n = some x) : Inv (s.setPhase n p) old queue := by
  obtain ⟨rest, rfl⟩ := inv.active_head active
  obtain ⟨head, behind⟩ := inv.head n rest rfl
  have entered : s.entered = old ++ [n] := by
    rcases head with ⟨waiting, _⟩ | ⟨_, entered, _⟩
    · simp [waiting, Phase.Active] at active
    · exact entered
  have outside : n ∉ rest := (List.nodup_cons.mp inv.queue_nodup).1
  refine ⟨inv.order, inv.nodup, fun m absent => ?_, fun m past => ?_, inv.tail, ?_, by simp⟩
  · have ne : m ≠ n := inv.ne_of_unused absent (by simp)
    simpa [State.setPhase, ne] using inv.unused m absent
  · have ne : m ≠ n := fun e => inv.not_old (by simp) (e ▸ past)
    simpa [State.setPhase, ne] using inv.gone m past
  · rintro a rest' ⟨⟩
    refine ⟨.inr ⟨by simpa [State.setPhase] using next, entered, fun h => ?_, fun x h => ?_⟩, ?_⟩
    · rintro rfl
      exact drains (by simpa [State.setPhase] using h) (by simp [inv.tail])
    · exact passes x (by simpa [State.setPhase] using h)
    · refine behind_congr behind (fun b hb => ⟨?_, rfl⟩) (fun _ _ => rfl)
      have ne : b ≠ n := fun e => outside (e ▸ hb)
      simp [State.setPhase, ne]

theorem joinFree (inv : Inv s old queue) {n : N} (new : s.phase n = .fresh)
    (free : s.tail = none) : Inv { s.setPhase n .holding with
      tail := some n, joined := s.joined ++ [n], entered := s.entered ++ [n] } old [n] := by
  have empty : queue = [] := by simpa [inv.tail] using free
  subst empty
  have absent : n ∉ s.joined := fun h => inv.phase_not_fresh h new
  have order : s.joined = old := by simpa using inv.order
  refine ⟨by simp [order], ?_, fun m outside => ?_, fun m past => ?_, rfl, ?_, by simp⟩
  · exact List.nodup_append.mpr ⟨inv.nodup, by simp, fun a ha b hb e => by simp_all⟩
  · have ne : m ≠ n := fun e => outside (by simp [e])
    have : m ∉ s.joined := fun h => outside (by simp [h])
    simpa [State.setPhase, ne] using inv.unused m this
  · have ne : m ≠ n := fun e => absent (by rw [order]; exact e ▸ past)
    simpa [State.setPhase, ne] using inv.gone m past
  · rintro a rest ⟨⟩
    refine ⟨.inr ⟨by simp [State.setPhase, Phase.Active], ?_, ?_, ?_⟩, ?_⟩
    · simp [inv.idle rfl]
    · simp [State.setPhase]
    · simp [State.setPhase]
    · exact (inv.unused n absent).2.1

theorem joinBehind (inv : Inv s old queue) {n p : N} (new : s.phase n = .fresh)
    (busy : s.tail = some p) : Inv { s.setPhase n (.joining p) with
      tail := some n, joined := s.joined ++ [n] } old (queue ++ [n]) := by
  have absent : n ∉ s.joined := fun h => inv.phase_not_fresh h new
  have other : ∀ m ∈ s.joined, m ≠ n := fun m hm e => absent (e ▸ hm)
  have inOrder : ∀ m ∈ queue, m ∈ s.joined := fun m hm => by rw [inv.order]; simp [hm]
  obtain ⟨_, unlinked, ungranted⟩ := inv.unused n absent
  refine ⟨by simp [inv.order], ?_, fun m outside => ?_, fun m past => ?_, by simp, ?_, by simp⟩
  · exact List.nodup_append.mpr ⟨inv.nodup, by simp, fun a ha b hb e => by simp_all⟩
  · have ne : m ≠ n := fun e => outside (by simp [e])
    have : m ∉ s.joined := fun h => outside (by simp [h])
    simpa [State.setPhase, ne] using inv.unused m this
  · have ne := other m (by rw [inv.order]; simp [past])
    simpa [State.setPhase, ne] using inv.gone m past
  · cases queue with
    | nil => simp [inv.tail] at busy
    | cons h rest =>
        rintro a rest' same
        obtain ⟨rfl, rfl⟩ := List.cons.inj same
        obtain ⟨head, behind⟩ := inv.head h rest rfl
        have ne := other h (inOrder h (by simp))
        refine ⟨?_, ?_⟩
        · rcases head with ⟨waiting, granted, entered⟩ | ⟨active, entered, _, passes⟩
          · exact .inl ⟨by simpa [State.setPhase, ne] using waiting, granted, entered⟩
          · exact .inr ⟨by simpa [State.setPhase, ne] using active, entered, by simp,
              by simpa [State.setPhase, ne] using passes⟩
        · have last : (h :: rest).getLast (by simp) = p := by
            have := inv.tail.symm.trans busy
            rwa [List.getLast?_eq_some_getLast (by simp), Option.some.injEq] at this
          refine behind_append behind ?_ ungranted unlinked (fun b hb => ⟨?_, rfl⟩) (fun _ _ => rfl)
          · simp [State.setPhase, last]
          · have neB := other b (inOrder b (by simp [hb]))
            simp [State.setPhase, neB]

theorem link (inv : Inv s old queue) {n p : N} (joining : s.phase n = .joining p) :
    Inv { s.setPhase n .waiting with next := Function.update s.next p (some n) } old queue := by
  have queued : n ∈ queue := inv.queued_of_phase (by simp [joining]) (by simp [joining])
  have hq : p ∈ queue := inv.joining_queued joining
  cases queue with
  | nil => simp at queued
  | cons h rest =>
      obtain ⟨head, behind⟩ := inv.head h rest rfl
      have notHead : n ≠ h := by
        rintro rfl
        rcases head with ⟨waiting, _⟩ | ⟨active, _⟩
        · simp [joining] at waiting
        · simp [joining, Phase.Active] at active
      have later : n ∈ rest := (List.mem_cons.mp queued).resolve_left notHead
      refine ⟨inv.order, inv.nodup, fun m absent => ?_, fun m past => ?_, inv.tail, ?_, by simp⟩
      · have ne : m ≠ n := inv.ne_of_unused absent queued
        have neP : m ≠ p := inv.ne_of_unused absent hq
        simpa [State.setPhase, ne, neP] using inv.unused m absent
      · have ne : m ≠ n := fun e => inv.not_old queued (e ▸ past)
        simpa [State.setPhase, ne] using inv.gone m past
      · rintro a rest' ⟨⟩
        refine ⟨?_, behind_link joining behind inv.queue_nodup later⟩
        rcases head with ⟨waiting, granted, entered⟩ | ⟨active, entered, drains, passes⟩
        · exact .inl ⟨by simpa [State.setPhase, notHead.symm] using waiting, granted, entered⟩
        · refine .inr ⟨by simpa [State.setPhase, notHead.symm] using active, entered, ?_, ?_⟩
          · simpa [State.setPhase, notHead.symm] using drains
          · intro x passing
            have linked := passes x (by simpa [State.setPhase, notHead.symm] using passing)
            -- the head's link is already set, so it is not the one being stored
            have ne : h ≠ p := by
              rintro rfl
              obtain ⟨tail, rfl, waiting⟩ := behind_next_some behind linked
              rcases List.mem_cons.mp later with rfl | deeper
              · simp [joining] at waiting
              · obtain ⟨r, hr, joining''⟩ :=
                  (behind_member behind.2.2 n deeper).1.resolve_right (by simp [joining])
                have : r = h := by simpa [joining] using joining''.symm
                exact (List.nodup_cons.mp inv.queue_nodup).1 (this ▸ hr)
            simpa [ne] using linked

theorem enter (inv : Inv s old queue) {n : N} (waiting : s.phase n = .waiting)
    (granted : s.granted n = true) :
    Inv { s.setPhase n .holding with entered := s.entered ++ [n] } old queue := by
  have queued : n ∈ queue := inv.queued_of_phase (by simp [waiting]) (by simp [waiting])
  cases queue with
  | nil => simp at queued
  | cons h rest =>
      obtain ⟨head, behind⟩ := inv.head h rest rfl
      have isHead : n = h := by
        rcases List.mem_cons.mp queued with same | later
        · exact same
        · simp [(behind_member behind n later).2] at granted
      subst isHead
      have entered : s.entered = old := by
        rcases head with ⟨_, _, entered⟩ | ⟨active, _⟩
        · exact entered
        · simp [waiting, Phase.Active] at active
      refine ⟨inv.order, inv.nodup, fun m absent => ?_, fun m past => ?_, inv.tail, ?_, by simp⟩
      · have ne : m ≠ n := inv.ne_of_unused absent (by simp)
        simpa [State.setPhase, ne] using inv.unused m absent
      · have ne : m ≠ n := fun e => inv.not_old queued (e ▸ past)
        simpa [State.setPhase, ne] using inv.gone m past
      · rintro a rest' ⟨⟩
        refine ⟨.inr ⟨by simp [State.setPhase, Phase.Active], by simp [entered],
          by simp [State.setPhase], by simp [State.setPhase]⟩, ?_⟩
        refine behind_congr behind (fun b hb => ⟨?_, rfl⟩) (fun _ _ => rfl)
        have ne : b ≠ n := fun e => (List.nodup_cons.mp inv.queue_nodup).1 (e ▸ hb)
        simp [State.setPhase, ne]

theorem close (inv : Inv s old queue) {n : N} (closing : s.phase n = .closing)
    (last : s.tail = some n) : Inv { s.setPhase n .gone with tail := none } (old ++ [n]) [] := by
  have active : (s.phase n).Active := by simp [closing, Phase.Active]
  obtain ⟨rest, rfl⟩ := inv.active_head active
  have empty : rest = [] := by
    by_contra more
    have atEnd : rest.getLast more = n := by
      have := inv.tail.symm.trans last
      rwa [List.getLast?_eq_some_getLast (by simp), List.getLast_cons more,
        Option.some.injEq] at this
    exact (List.nodup_cons.mp inv.queue_nodup).1 (atEnd ▸ List.getLast_mem more)
  subst empty
  have entered : s.entered = old ++ [n] := by
    rcases (inv.head n [] rfl).1 with ⟨waiting, _⟩ | ⟨_, entered, _⟩
    · simp [closing] at waiting
    · exact entered
  refine ⟨by simp [inv.order], inv.nodup, fun m absent => ?_, fun m past => ?_, rfl, by simp,
    fun _ => entered⟩
  · have ne : m ≠ n := inv.ne_of_unused absent (by simp)
    simpa [State.setPhase, ne] using inv.unused m absent
  · by_cases e : m = n
    · simp [State.setPhase, e]
    · have earlier : m ∈ old := by simpa [e] using past
      simpa [State.setPhase, e] using inv.gone m earlier

theorem pass (inv : Inv s old queue) {n x : N} (passing : s.phase n = .passing x) :
    ∃ rest, Inv { s.setPhase n .gone with granted := Function.update s.granted x true }
      (old ++ [n]) (x :: rest) := by
  have active : (s.phase n).Active := by simp [passing, Phase.Active]
  obtain ⟨rest, rfl⟩ := inv.active_head active
  obtain ⟨head, behind⟩ := inv.head n rest rfl
  obtain ⟨entered, linked⟩ : s.entered = old ++ [n] ∧ s.next n = some x := by
    rcases head with ⟨waiting, _⟩ | ⟨_, entered, _, passes⟩
    · simp [passing] at waiting
    · exact ⟨entered, passes x passing⟩
  obtain ⟨tail, rfl, waiting⟩ := behind_next_some behind linked
  obtain ⟨outside, nodup⟩ := List.nodup_cons.mp inv.queue_nodup
  have ne : x ≠ n := fun e => outside (by simp [e])
  refine ⟨tail, by simp [inv.order], inv.nodup, fun m absent => ?_, fun m past => ?_, ?_, ?_,
    by simp⟩
  · have neN : m ≠ n := inv.ne_of_unused absent (by simp)
    have neX : m ≠ x := inv.ne_of_unused absent (by simp)
    simpa [State.setPhase, neN, neX] using inv.unused m absent
  · by_cases e : m = n
    · simp [State.setPhase, e]
    · have earlier : m ∈ old := by simpa [e] using past
      simpa [State.setPhase, e] using inv.gone m earlier
  · simpa using inv.tail
  · rintro a rest' ⟨⟩
    refine ⟨.inl ⟨by simpa [State.setPhase, ne] using waiting, by simp, entered⟩, ?_⟩
    refine behind_congr behind.2.2 (fun b hb => ⟨?_, ?_⟩) (fun _ _ => rfl)
    · have neB : b ≠ n := fun e => outside (by simp [← e, hb])
      simp [State.setPhase, neB]
    · have neB : b ≠ x := fun e => (List.nodup_cons.mp nodup).1 (e ▸ hb)
      simp [neB]

end Inv

/-- Every step keeps the invariant, for some split of the joining order. -/
theorem inv_step {t : State N} (inv : Inv s old queue) (step : Step s t) :
    ∃ old' queue', Inv t old' queue' := by
  cases step with
  | joinFree n new free => exact ⟨_, _, inv.joinFree new free⟩
  | joinBehind n p new busy => exact ⟨_, _, inv.joinBehind new busy⟩
  | link n p joining => exact ⟨_, _, inv.link joining⟩
  | enter n waiting granted => exact ⟨_, _, inv.enter waiting granted⟩
  | leaveLinked n x holding linked =>
      refine ⟨_, _, inv.set_active (by simp [holding, Phase.Active]) trivial (by simp) ?_⟩
      rintro y ⟨⟩
      exact linked
  | leaveUnlinked n holding unlinked =>
      exact ⟨_, _, inv.set_active (by simp [holding, Phase.Active]) trivial (by simp) (by simp)⟩
  | close n closing last => exact ⟨_, _, inv.close closing last⟩
  | contend n closing behind =>
      exact ⟨_, _, inv.set_active (by simp [closing, Phase.Active]) trivial (fun _ => behind) (by simp)⟩
  | drain n x draining linked =>
      refine ⟨_, _, inv.set_active (by simp [draining, Phase.Active]) trivial (by simp) ?_⟩
      rintro y ⟨⟩
      exact linked
  | pass n x passing =>
      obtain ⟨rest, inv'⟩ := inv.pass passing
      exact ⟨_, _, inv'⟩

end Preservation

end Twan.Base.QueueLock
