/-
# Twan.Base.Mailbox -- a slot from one sender to one receiver

The sender fills the slot when it is empty and the receiver empties it again, before it runs the
message or, for a message the sender waits for, after.  So a slot that is empty says that the
sender may go on, and of a message that was waited for, that it has been run.

`Ok` counts: what was accepted is what was run, then what the receiver has, then what is in the
slot, then what the sender still holds.  Nothing is run twice, left out or out of turn.
-/
import Mathlib.Logic.Function.Basic

namespace Twan.Base.Mailbox

set_option autoImplicit false

universe u

/-- What the sender is at. -/
inductive Post (α : Type u) where
  | away
  /-- The message is accepted and not in the slot yet. -/
  | calling (x : α)
  /-- The message is posted and the sender waits for it to be run. -/
  | waiting (x : α)

/-- What the receiver is at. -/
inductive Take (α : Type u) where
  | away
  /-- It has looked into the slot. -/
  | taking (x : α)
  /-- The slot is empty again and the message is still to be run. -/
  | ready (x : α)
  | running (x : α)
  /-- The message was run and the slot is still full. -/
  | done (x : α)

structure State (α : Type u) where
  slot : Option α
  post : Post α
  take : Take α
  accepted : List α
  started : List α
  finished : List α

variable {α : Type u} {later : α → Bool} {s : State α} {x : α}

def Post.held : Post α → List α
  | .calling x => [x]
  | _ => []

def Take.ready? : Take α → List α
  | .ready x => [x]
  | _ => []

def Take.running? : Take α → List α
  | .running x => [x]
  | _ => []

/-- What is in the slot and was not run: a message that the sender waits for stays there while it
is. -/
def State.posted (s : State α) (later : α → Bool) : List α :=
  match s.take with
  | .done _ => []
  | .running x => if later x then [] else s.slot.toList
  | _ => s.slot.toList

/-- What is accepted and not started. -/
def State.toRun (s : State α) (later : α → Bool) : List α :=
  s.take.ready? ++ s.posted later ++ s.post.held

structure Ok (later : α → Bool) (s : State α) : Prop where
  accepted : s.accepted = s.started ++ s.toRun later
  started : s.started = s.finished ++ s.take.running?
  taking : ∀ x, s.take = .taking x → s.slot = some x
  running : ∀ x, s.take = .running x → later x = true → s.slot = some x
  done : ∀ x, s.take = .done x → later x = true ∧ s.slot = some x
  ready : ∀ x, s.take = .ready x → later x = false
  asked : ∀ x, s.post = .waiting x → ∃ before, s.accepted = before ++ [x]
  waiting : ∀ x, s.post = .waiting x →
    later x = true ∧ (s.slot = some x ∨ s.slot = none ∧ s.finished = s.accepted)

namespace Ok

theorem init : Ok later (⟨none, .away, .away, [], [], []⟩ : State α) :=
  ⟨rfl, rfl, nofun, nofun, nofun, nofun, nofun, nofun⟩

/-- With both away and the slot empty everything was run. -/
theorem quiet (ok : Ok later s) (post : s.post = .away) (take : s.take = .away)
    (empty : s.slot = none) : s.finished = s.accepted := by
  rw [ok.accepted, ok.started]
  simp [State.toRun, State.posted, post, take, empty, Post.held, Take.ready?, Take.running?]

/-- A sender that waits and finds the slot empty has its message run. -/
theorem returns (ok : Ok later s) (post : s.post = .waiting x) (empty : s.slot = none) :
    s.finished = s.accepted ∧ ∃ before, s.finished = before ++ [x] := by
  obtain full | ⟨-, same⟩ := (ok.waiting x post).2
  · rw [empty] at full
    cases full
  · refine ⟨same, ?_⟩
    rw [same]
    exact ok.asked x post

/-- The sender takes on a message. -/
theorem accept (ok : Ok later s) (post : s.post = .away) :
    Ok later { s with post := .calling x, accepted := s.accepted ++ [x] } where
  accepted := by
    have before := ok.accepted
    simp only [State.toRun, post, Post.held, List.append_nil] at before
    show s.accepted ++ [x] = s.started ++ (s.take.ready? ++ s.posted later ++ [x])
    rw [before]
    simp
  started := ok.started
  taking := ok.taking
  running := ok.running
  done := ok.done
  ready := ok.ready
  asked := nofun
  waiting := nofun

/-- The message goes into the empty slot, and the sender waits for it if it is of that kind. -/
theorem post (ok : Ok later s) (here : s.post = .calling x) (empty : s.slot = none) :
    Ok later { s with slot := some x, post := if later x then .waiting x else .away } := by
  have nothing : ∀ y, s.slot ≠ some y := fun y full => by rw [empty] at full; cases full
  refine ⟨?_, ok.started, fun y at_ => absurd (ok.taking y at_) (nothing y),
    fun y at_ kind => absurd (ok.running y at_ kind) (nothing y),
    fun y at_ => absurd (ok.done y at_).2 (nothing y), ok.ready, fun y at_ => ?_, fun y at_ => ?_⟩
  · have before := ok.accepted
    have held : (if later x then (.waiting x : Post α) else .away).held = [] := by split <;> rfl
    simp only [State.toRun, here, Post.held] at before
    rw [before, State.toRun, held]
    cases take : s.take with
    | running y =>
        have kind : later y = false := by
          by_contra waits
          exact nothing y (ok.running y take (by simpa using waits))
        simp [State.posted, take, kind, empty]
    | done y => exact absurd (ok.done y take).2 (nothing y)
    | _ => simp [State.posted, take, empty]
  · change (if later x then (.waiting x : Post α) else .away) = _ at at_
    split at at_
    · cases at_
      refine ⟨s.started ++ (s.take.ready? ++ s.posted later), ?_⟩
      show s.accepted = _
      rw [ok.accepted, State.toRun, here, Post.held]
      simp
    · cases at_
  · change (if later x then (.waiting x : Post α) else .away) = _ at at_
    split at at_
    · rename_i kind
      cases at_
      exact ⟨kind, .inl rfl⟩
    · cases at_

/-- The sender goes on. -/
theorem leave (ok : Ok later s) (here : s.post = .waiting x) : Ok later { s with post := .away } where
  accepted := by
    have before := ok.accepted
    simp only [State.toRun, here, Post.held] at before
    exact before
  started := ok.started
  taking := ok.taking
  running := ok.running
  done := ok.done
  ready := ok.ready
  asked := nofun
  waiting := nofun

theorem take (ok : Ok later s) (away : s.take = .away) (full : s.slot = some x) :
    Ok later { s with take := .taking x } where
  accepted := by
    have before := ok.accepted
    simp only [State.toRun, State.posted, away] at before
    exact before
  started := by
    have before := ok.started
    simp only [away] at before
    exact before
  taking := by
    intro y at_
    cases at_
    exact full
  running := nofun
  done := nofun
  ready := nofun
  asked := ok.asked
  waiting := ok.waiting

/-- The receiver empties the slot before it runs the message. -/
theorem ack (ok : Ok later s) (taking : s.take = .taking x) (kind : later x = false) :
    Ok later { s with slot := none, take := .ready x } where
  accepted := by
    have before := ok.accepted
    simp only [State.toRun, State.posted, taking, ok.taking x taking] at before
    rw [before]
    simp [State.toRun, State.posted, Take.ready?]
  started := by
    have before := ok.started
    simp only [taking] at before
    exact before
  taking := nofun
  running := nofun
  done := nofun
  ready := by
    intro y at_
    cases at_
    exact kind
  asked := ok.asked
  waiting := by
    intro y at_
    obtain ⟨waits, full | ⟨empty, -⟩⟩ := ok.waiting y at_
    · rw [ok.taking x taking] at full
      cases full
      rw [kind] at waits
      cases waits
    · rw [ok.taking x taking] at empty
      cases empty

/-- The message is run. -/
theorem start (ok : Ok later s)
    (here : s.take = .taking x ∧ later x = true ∨ s.take = .ready x) :
    Ok later { s with take := .running x, started := s.started ++ [x] } where
  accepted := by
    have before := ok.accepted
    obtain ⟨taking, kind⟩ | ready := here
    · simp only [State.toRun, State.posted, taking, ok.taking x taking] at before
      rw [before]
      simp [State.toRun, State.posted, Take.ready?, kind]
    · simp only [State.toRun, State.posted, ready] at before
      rw [before]
      simp [State.toRun, State.posted, Take.ready?, ok.ready x ready]
  started := by
    have before := ok.started
    obtain ⟨taking, -⟩ | ready := here
    · simp only [taking, Take.running?, List.append_nil] at before
      rw [before]
      rfl
    · simp only [ready, Take.running?, List.append_nil] at before
      rw [before]
      rfl
  taking := nofun
  running := by
    intro y at_ kind
    cases at_
    obtain ⟨taking, -⟩ | ready := here
    · exact ok.taking x taking
    · rw [ok.ready x ready] at kind
      cases kind
  done := nofun
  ready := nofun
  asked := ok.asked
  waiting := by
    intro y at_
    obtain ⟨kind, full | ⟨empty, same⟩⟩ := ok.waiting y at_
    · exact ⟨kind, .inl full⟩
    · obtain ⟨taking, -⟩ | ready := here
      · have full := ok.taking x taking
        rw [empty] at full
        cases full
      · -- what is still to be run is not finished
        have before := ok.accepted
        rw [ok.started, ← same] at before
        simp [State.toRun, ready, Take.ready?] at before

/-- The run is over; the slot is emptied now if the sender waits for it. -/
theorem finish (ok : Ok later s) (here : s.take = .running x) :
    Ok later { s with take := if later x then .done x else .away, finished := s.finished ++ [x] } where
  accepted := by
    have before := ok.accepted
    simp only [State.toRun, State.posted, here] at before
    cases kind : later x <;>
      simp only [kind] at before <;> rw [before] <;> simp [State.toRun, State.posted, Take.ready?]
  started := by
    have before := ok.started
    simp only [here, Take.running?] at before
    rw [before]
    cases later x <;> simp [Take.running?]
  taking := by
    intro y at_
    change (if later x then (.done x : Take α) else .away) = _ at at_
    split at at_ <;> cases at_
  running := by
    intro y at_
    change (if later x then (.done x : Take α) else .away) = _ at at_
    split at at_ <;> cases at_
  done := by
    intro y at_
    change (if later x then (.done x : Take α) else .away) = _ at at_
    split at at_
    · rename_i kind
      cases at_
      exact ⟨kind, ok.running x here kind⟩
    · cases at_
  ready := by
    intro y at_
    change (if later x then (.done x : Take α) else .away) = _ at at_
    split at at_ <;> cases at_
  asked := ok.asked
  waiting := by
    intro y at_
    obtain ⟨kind, full | ⟨empty, same⟩⟩ := ok.waiting y at_
    · exact ⟨kind, .inl full⟩
    · -- what is running is not finished
      have before := ok.accepted
      rw [ok.started, ← same] at before
      simp [here, Take.running?] at before

/-- The slot is emptied after the run. -/
theorem release (ok : Ok later s) (here : s.take = .done x) :
    Ok later { s with slot := none, take := .away } where
  accepted := by
    have before := ok.accepted
    simp only [State.toRun, State.posted, here, Take.ready?] at before
    exact before
  started := by
    have before := ok.started
    simp only [here, Take.running?] at before
    exact before
  taking := nofun
  running := nofun
  done := nofun
  ready := nofun
  asked := ok.asked
  waiting := by
    intro y at_
    obtain ⟨kind, full | ⟨empty, -⟩⟩ := ok.waiting y at_
    · refine ⟨kind, .inr ⟨rfl, ?_⟩⟩
      have waits : s.post = .waiting y := at_
      show s.finished = s.accepted
      rw [ok.accepted, ok.started]
      simp [State.toRun, State.posted, here, waits, Take.ready?, Take.running?, Post.held]
    · rw [(ok.done x here).2] at empty
      cases empty

end Ok

end Twan.Base.Mailbox
