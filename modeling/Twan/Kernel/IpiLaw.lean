/-
# Twan.Kernel.IpiLaw -- requests arrive

* `run_remaining`: a request that is on its way is handled within a number of turns of its target,
  whatever the others do;
* `ipi_law`: each request that was accepted is run once and in turn, from the values it was made with,
  and a caller that waits returns when it has been.
-/
import Twan.Kernel.IpiSteps

namespace Twan.Kernel.Ipi

set_option autoImplicit false
set_option linter.dupNamespace false

open Twan.Base Twan.Base.Mailbox

section View

variable {F : Type}
variable {k : Config} {s u : Sys F} {t c i : ℕ}

/-! ## Requests arrive -/

/-- The steps that a target takes for others: the interrupt and its handler. -/
def Action.isTurn (t : ℕ) : Action F → Bool
  | .deliver u | .handler u => u == t
  | _ => false

/-- How many steps of the handler are left before it is idle, at most. -/
def Handler.left (k : Config) : Handler F → ℕ
  | .idle => 0
  | .scan i => 7 * (k.maxCpus - i) + 1
  | .readFunc i => 7 * (k.maxCpus - (i + 1)) + 7
  | .readArg i _ => 7 * (k.maxCpus - (i + 1)) + 6
  | .readWait i _ _ => 7 * (k.maxCpus - (i + 1)) + 5
  | .call i req => 7 * (k.maxCpus - (i + 1)) + if req.wait then 4 else 3
  | .running i req => 7 * (k.maxCpus - (i + 1)) + if req.wait then 3 else 2
  | .ack i req => 7 * (k.maxCpus - (i + 1)) + if req.wait then 2 else 4

/-- Every step of the handler is one less, so it ends. -/
theorem stepHandler_left (moved : stepHandler k s t = some u) :
    (u.handler t).left k < (s.handler t).left k := by
  rw [stepHandler] at moved
  cases here : s.handler t with
  | idle => simp [here] at moved
  | scan i =>
      simp only [here] at moved
      cases moved
      simp only [Sys.handleAt, Function.update_self]
      split
      · split <;> simp only [Handler.left] <;> omega
      · simp only [Handler.left]
        omega
  | readFunc i | readArg i func =>
      simp only [here] at moved
      cases moved
      simp only [Sys.handleAt, Function.update_self, Handler.left]
      omega
  | readWait i func arg =>
      simp only [here] at moved
      cases moved
      simp only [Sys.handleAt, Function.update_self]
      split <;> simp [Handler.left]
  | call i req | running i req | ack i req =>
      simp only [here] at moved
      cases moved
      simp only [Sys.handleAt, Function.update_self]
      cases waits : req.wait <;> simp [Handler.left, waits]

/-- The handler has emptied the slot of `c` and not started its request. -/
def Handler.isReady (c : ℕ) : Handler F → Bool
  | .call i req => decide (i = c) && !req.wait
  | _ => false

/-- How many requests were started, or are in the hands of the handler. -/
def begun (s : Sys F) (t c : ℕ) : ℕ :=
  (s.started t c).length + ((s.handler t).isReady c).toNat

theorem Handler.ready_take (pc : Handler F) (data : IpiData F) :
    (pc.take c data).ready?.length = (pc.isReady c).toNat := by
  cases pc with
  | call i req =>
      by_cases same : i = c <;> cases waits : req.wait <;>
        simp [Handler.take, Handler.isReady, Take.ready?, same, waits]
  | ack i req =>
      by_cases same : i = c <;> cases waits : req.wait <;>
        simp [Handler.take, Handler.isReady, Take.ready?, same, waits]
  | idle | scan i => rfl
  | readFunc i | readArg i func | readWait i func arg | running i req =>
      by_cases same : i = c <;> simp [Handler.take, Handler.isReady, Take.ready?, same]

theorem stepHandler_begun (moved : stepHandler k s t = some u) :
    begun s t c ≤ begun u t c ∧ (s.finished t c).length ≤ (u.finished t c).length := by
  rw [stepHandler] at moved
  cases here : s.handler t with
  | idle => simp [here] at moved
  | call i req =>
      simp only [here] at moved
      cases moved
      refine ⟨?_, Nat.le_refl _⟩
      by_cases same : c = i
      · subst same
        have most := Bool.toNat_le ((s.handler t).isReady c)
        simp only [begun, Sys.handleAt, update₂_self, List.length_append, List.length_singleton]
        omega
      · simp [begun, Sys.handleAt, Handler.isReady, here, update₂_of_ne (f := s.started) (.inr same),
          Ne.symm same]
  | running i req =>
      simp only [here] at moved
      cases moved
      refine ⟨?_, ?_⟩
      · simp [begun, Sys.handleAt, Handler.isReady, here]
      · by_cases same : c = i
        · subst same
          simp [Sys.handleAt]
        · simp [Sys.handleAt, update₂_of_ne (f := s.finished) (.inr same)]
  | _ =>
      simp only [here] at moved
      cases moved
      exact ⟨by simp [begun, Sys.handleAt, Sys.setData, Handler.isReady, here], Nat.le_refl _⟩

/-- A step of a caller leaves the handlers and the other callers alone. -/
theorem stepCaller_frame {c' : ℕ} (moved : stepCaller s c' = some u) :
    u.handler = s.handler ∧ u.started = s.started ∧ u.finished = s.finished ∧
      u.accepted = s.accepted ∧ ∀ c, c ≠ c' → u.caller c = s.caller c := by
  rw [stepCaller] at moved
  cases here : s.caller c' with
  | idle => simp [here] at moved
  | wait v req | waitDone v req =>
      simp only [here] at moved
      obtain ⟨-, ⟨⟩⟩ := Option.ite_none_right_eq_some.mp moved
      exact ⟨rfl, rfl, rfl, rfl, fun c apart => Function.update_of_ne apart _ _⟩
  | _ =>
      simp only [here] at moved
      cases moved
      exact ⟨rfl, rfl, rfl, rfl, fun c apart => Function.update_of_ne apart _ _⟩

/-- A step of a handler leaves the callers and the other handlers alone. -/
theorem stepHandler_frame {v : ℕ} (moved : stepHandler k s v = some u) :
    u.caller = s.caller ∧ u.accepted = s.accepted ∧ ∀ t, t ≠ v →
      u.handler t = s.handler t ∧ u.started t = s.started t ∧ u.finished t = s.finished t := by
  rw [stepHandler] at moved
  cases here : s.handler v with
  | idle => simp [here] at moved
  | call i req =>
      simp only [here] at moved
      cases moved
      exact ⟨rfl, rfl, fun t apart =>
        ⟨Function.update_of_ne apart _ _, Function.update_of_ne apart _ _, rfl⟩⟩
  | running i req =>
      simp only [here] at moved
      cases moved
      exact ⟨rfl, rfl, fun t apart =>
        ⟨Function.update_of_ne apart _ _, rfl, Function.update_of_ne apart _ _⟩⟩
  | _ =>
      simp only [here] at moved
      cases moved
      exact ⟨rfl, rfl, fun t apart => ⟨Function.update_of_ne apart _ _, rfl, rfl⟩⟩

/-- Who does not take a turn for `t` does not run anything there. -/
theorem step_frame {a : Action F} (moved : step k s a = some u) (other : a.isTurn t = false) :
    u.handler t = s.handler t ∧ u.started t = s.started t ∧ u.finished t = s.finished t := by
  cases a with
  | call c processorId active req =>
      rw [step] at moved
      split at moved
      · obtain ⟨-, rest⟩ := Option.ite_none_right_eq_some.mp moved
        split at rest <;> cases rest <;> exact ⟨rfl, rfl, rfl⟩
      · cases moved
  | caller c =>
      obtain ⟨handler, started, finished, -⟩ := stepCaller_frame moved
      exact ⟨congrFun handler t, congrFun started t, congrFun finished t⟩
  | deliver v =>
      have apart : t ≠ v := by
        intro same
        simp [Action.isTurn, same] at other
      rw [step] at moved
      split at moved
      · obtain ⟨-, ⟨⟩⟩ := Option.ite_none_right_eq_some.mp moved
        exact ⟨Function.update_of_ne apart _ _, rfl, rfl⟩
      · cases moved
  | handler v =>
      have apart : t ≠ v := by
        intro same
        simp [Action.isTurn, same] at other
      exact (stepHandler_frame moved).2.2 t apart

/-- The first `n` requests of `c` to `t` have been sent. -/
structure Sent (n t c : ℕ) (s : Sys F) : Prop where
  posted : n + ((s.caller c).post t).held.length ≤ (s.accepted t c).length
  sent : n ≤ begun s t c ∨ ∀ req, s.caller c ≠ .send t req

/-- A request that was posted and is not with the handler yet is in the slot. -/
theorem Inv.locked_of_posted (inv : Inv k s) {n : ℕ}
    (posted : n + ((s.caller c).post t).held.length ≤ (s.accepted t c).length)
    (less : begun s t c < n) : (s.table t c).signal = .locked := by
  have accepted := (inv.channel t c).accepted
  change s.accepted t c = s.started t c ++ (view s t c).toRun Request.wait at accepted
  rw [accepted, State.toRun] at posted
  simp only [List.length_append] at posted
  change n + ((s.caller c).post t).held.length ≤ (s.started t c).length +
    (((s.handler t).take c (s.table t c)).ready?.length + ((view s t c).posted Request.wait).length +
      ((s.caller c).post t).held.length) at posted
  rw [Handler.ready_take] at posted
  rw [begun] at less
  have some_ : 0 < ((view s t c).posted Request.wait).length := by omega
  cases signal : (s.table t c).signal with
  | locked => rfl
  | unlocked =>
      have empty : (view s t c).slot = none := by simp [view, IpiData.slot, signal]
      have none : (view s t c).posted Request.wait = [] := by
        unfold State.posted
        rw [empty]
        split
        · rfl
        · split <;> rfl
        · rfl
      rw [none] at some_
      cases some_

/-- An idle handler has finished what it began. -/
theorem Inv.begun_of_idle (inv : Inv k s) (idle : s.handler t = .idle) :
    begun s t c = (s.finished t c).length := by
  have started := (inv.channel t c).started
  change s.started t c = s.finished t c ++ ((s.handler t).take c (s.table t c)).running? at started
  rw [idle] at started
  simp [begun, idle, Handler.isReady, started, Handler.take, Take.running?]

theorem stepCaller_sent (inv : Inv k s) {n c' : ℕ} (sent : Sent n t c s)
    (moved : stepCaller s c' = some u) : Sent n t c u := by
  by_cases own : c' = c
  · subst own
    rw [stepCaller] at moved
    cases here : s.caller c' with
    | idle => simp [here] at moved
    | assert v req =>
        have writes := inv.writes c'
        rw [here] at writes
        obtain ⟨posted, -⟩ := sent
        rw [here] at posted
        simp only [here] at moved
        cases moved
        by_cases same : v = t
        · subst same
          have nothing : ¬ begun s v c' < n := fun less => by
            have full := inv.locked_of_posted (t := v) (c := c') (by rw [here]; exact posted) less
            rw [writes.1] at full
            cases full
          refine ⟨?_, .inl (Nat.not_lt.mp nothing)⟩
          simp only [Sys.callAt, Sys.setData, Function.update_self, Caller.post]
          refine Nat.le_trans ?_ posted
          refine Nat.add_le_add_left ?_ _
          split <;> exact Nat.zero_le _
        · refine ⟨?_, .inr fun req' => ?_⟩
          · simpa [Sys.callAt, Sys.setData, Caller.post, same] using posted
          · simp [Sys.callAt, same]
    | wait v req | waitDone v req =>
        obtain ⟨posted, -⟩ := sent
        rw [here] at posted
        simp only [here] at moved
        obtain ⟨-, ⟨⟩⟩ := Option.ite_none_right_eq_some.mp moved
        refine ⟨?_, .inr fun req' => by simp [Sys.callAt]⟩
        refine Nat.le_trans (Nat.add_le_add_left ?_ _) posted
        simp [Sys.callAt, Caller.post, Post.held]
    | send v req =>
        obtain ⟨posted, -⟩ := sent
        simp only [here] at moved
        cases moved
        have none : ((if req.wait then .waitDone v req else .idle : Caller F).post t).held = [] := by
          cases req.wait with
          | true => simp only [Caller.post, if_true]; split <;> rfl
          | false => rfl
        refine ⟨?_, .inr fun req' => ?_⟩
        · refine Nat.le_trans (Nat.add_le_add_left ?_ _) posted
          simp only [Sys.callAt, Function.update_self]
          rw [none]
          exact Nat.zero_le _
        · cases waits : req.wait <;> simp [Sys.callAt]
    | _ =>
        obtain ⟨posted, -⟩ := sent
        rw [here] at posted
        simp only [here] at moved
        cases moved
        refine ⟨?_, .inr fun req' => by simp [Sys.callAt]⟩
        refine Nat.le_trans (Nat.add_le_add_left ?_ _) posted
        simp [Sys.callAt, Caller.post]
  · obtain ⟨handler, started, -, accepted, others⟩ := stepCaller_frame moved
    have same : u.caller c = s.caller c := others c (Ne.symm own)
    refine ⟨?_, ?_⟩
    · rw [same, accepted]
      exact sent.posted
    · rw [begun, handler, started, same]
      exact sent.sent

theorem step_sent {a : Action F} (inv : Inv k s) {n : ℕ} (sent : Sent n t c s)
    (moved : step k s a = some u) : Sent n t c u := by
  cases a with
  | caller c' => exact stepCaller_sent inv sent moved
  | call c' processorId active req =>
      rw [step] at moved
      split at moved
      · rename_i idle
        obtain ⟨-, rest⟩ := Option.ite_none_right_eq_some.mp moved
        split at rest <;> cases rest
        · by_cases own : c' = c
          · subst own
            have posted := sent.posted
            rw [idle] at posted
            refine ⟨?_, .inr fun req' => by simp [Sys.callAt]⟩
            by_cases same : processorId = t
            · subst same
              simpa [Sys.callAt, Caller.post, Post.held] using posted
            · simpa [Sys.callAt, Caller.post, Post.held, same, update₂_of_ne (.inl (Ne.symm same))]
                using posted
          · refine ⟨?_, ?_⟩
            · simpa [Sys.callAt, Function.update_of_ne (Ne.symm own),
                update₂_of_ne (.inr (Ne.symm own))] using sent.posted
            · simpa [Sys.callAt, Function.update_of_ne (Ne.symm own), begun] using sent.sent
        · exact sent
      · cases moved
  | deliver v =>
      rw [step] at moved
      split at moved
      · rename_i idle
        obtain ⟨-, ⟨⟩⟩ := Option.ite_none_right_eq_some.mp moved
        refine ⟨sent.posted, sent.sent.imp_left fun less => ?_⟩
        refine Nat.le_trans less (Nat.add_le_add_left ?_ _)
        by_cases same : t = v
        · subst same
          simp [idle, Handler.isReady]
        · simp [Sys.handleAt, Function.update_of_ne same]
      · cases moved
  | handler v =>
      obtain ⟨callers, accepted, others⟩ := stepHandler_frame moved
      refine ⟨?_, ?_⟩
      · rw [callers, accepted]
        exact sent.posted
      · rw [callers]
        refine sent.sent.imp_left fun less => Nat.le_trans less ?_
        by_cases same : t = v
        · subst same
          exact (stepHandler_begun moved).1
        · obtain ⟨handler, started, -⟩ := others t same
          exact Nat.le_of_eq (by rw [begun, begun, handler, started])

theorem Handler.left_pos {pc : Handler F} (busy : pc ≠ .idle) : 0 < pc.left k := by
  cases pc with
  | idle => exact absurd rfl busy
  | scan i | readFunc i | readArg i func | readWait i func arg => simp [Handler.left]
  | call i req | running i req | ack i req =>
      simp only [Handler.left]
      split <;> omega

open Classical in
/-- How many turns of `t` it takes, at most, to finish the first `n` requests of `c`: those that are
left of this run of the handler, and a whole run if the slot is not before it. -/
noncomputable def remaining (k : Config) (n t c : ℕ) (s : Sys F) : ℕ :=
  if n ≤ (s.finished t c).length then 0
  else (s.handler t).left k +
    if begun s t c < n ∧ ¬ (s.handler t).Reaches c then 7 * k.maxCpus + 2 else 0

theorem remaining_le (n : ℕ) : remaining k n t c s ≤ 14 * k.maxCpus + 9 := by
  have left : (s.handler t).left k ≤ 7 * k.maxCpus + 7 := by
    cases s.handler t with
    | idle => exact Nat.zero_le _
    | scan i | readFunc i | readArg i func | readWait i func arg => simp only [Handler.left]; omega
    | call i req | running i req | ack i req =>
        simp only [Handler.left]
        split <;> omega
  unfold remaining
  split
  · exact Nat.zero_le _
  · split <;> omega

theorem Inv.finished_of_remaining (inv : Inv k s) {n : ℕ} (none : remaining k n t c s = 0) :
    n ≤ (s.finished t c).length := by
  by_contra less
  rw [remaining, if_neg less] at none
  have begun_ : ¬ begun s t c < n ∨ (s.handler t).Reaches c := by
    by_contra both
    rw [if_pos (by simpa [not_or] using both)] at none
    omega
  by_cases idle : s.handler t = .idle
  · have same := inv.begun_of_idle (c := c) idle
    rw [idle] at begun_
    obtain enough | reaches := begun_
    · omega
    · exact reaches
  · have more := Handler.left_pos (k := k) idle
    omega

/-- A turn brings the requests nearer. -/
theorem Inv.remaining_turn {a : Action F} (inv : Inv k s) {n : ℕ} (sent : Sent n t c s)
    (turn : a.isTurn t = true) (moved : step k s a = some u) :
    remaining k n t c u ≤ remaining k n t c s - 1 := by
  cases a with
  | call c' processorId active req => cases turn
  | caller c' => cases turn
  | deliver v =>
      obtain rfl : v = t := by simpa [Action.isTurn] using turn
      rw [step] at moved
      split at moved
      · rename_i idle
        obtain ⟨-, next⟩ := Option.ite_none_right_eq_some.mp moved
        have handler : u.handler v = .scan 0 := by
          rw [← Option.some.inj next]
          exact Function.update_self ..
        have finished : u.finished = s.finished := by
          rw [← Option.some.inj next]
          rfl
        by_cases less : n ≤ (s.finished v c).length
        · rw [remaining, finished, if_pos less]
          exact Nat.zero_le _
        · have same := inv.begun_of_idle (c := c) idle
          have before : begun s v c < n ∧ ¬ (s.handler v).Reaches c :=
            ⟨by omega, by rw [idle]; exact id⟩
          have after : ¬ (begun u v c < n ∧ ¬ (u.handler v).Reaches c) := by
            rw [handler]
            exact fun missed => missed.2 (Nat.zero_le c)
          rw [remaining, remaining, finished, if_neg less, if_neg less, if_pos before, if_neg after,
            handler, idle]
          simp only [Handler.left]
          omega
      · cases moved
  | handler v =>
      obtain rfl : v = t := by simpa [Action.isTurn] using turn
      have left := stepHandler_left moved
      obtain ⟨more, finished⟩ := stepHandler_begun (c := c) moved
      by_cases less : n ≤ (s.finished v c).length
      · rw [remaining, if_pos (Nat.le_trans less finished)]
        exact Nat.zero_le _
      · by_cases after : n ≤ (u.finished v c).length
        · rw [remaining, if_pos after]
          exact Nat.zero_le _
        · rw [remaining, remaining, if_neg less, if_neg after]
          by_cases missed : begun u v c < n ∧ ¬ (u.handler v).Reaches c
          · have before : begun s v c < n ∧ ¬ (s.handler v).Reaches c := by
              refine ⟨Nat.lt_of_le_of_lt more missed.1, fun reaches => missed.2 ?_⟩
              refine inv.stepHandler_reaches moved ?_ reaches
              have next := step_sent inv sent (a := .handler v) moved
              exact (step_inv inv (a := .handler v) moved).locked_of_posted next.posted missed.1
            rw [if_pos missed, if_pos before]
            omega
          · rw [if_neg missed]
            split <;> omega

theorem remaining_other {a : Action F} (other : a.isTurn t = false) (moved : step k s a = some u)
    (n : ℕ) : remaining k n t c u = remaining k n t c s := by
  obtain ⟨handler, started, finished⟩ := step_frame moved other
  have same : begun u t c = begun s t c := by rw [begun, begun, handler, started]
  rw [remaining, remaining, same, handler, finished]

theorem run_remaining {run : List (Action F)} (inv : Inv k s) {n : ℕ} (sent : Sent n t c s)
    (ran : exec (step k) s run = some u) :
    remaining k n t c u ≤ remaining k n t c s - run.countP (Action.isTurn t) := by
  induction run generalizing s with
  | nil =>
      cases ran
      exact Nat.le_refl _
  | cons a run ih =>
      obtain ⟨v, moved, rest⟩ := exec_cons ran
      have less := ih (step_inv inv moved) (step_sent inv sent moved) rest
      rw [List.countP_cons]
      cases turn : a.isTurn t with
      | true =>
          have turned := inv.remaining_turn sent turn moved
          simp only [if_true]
          omega
      | false =>
          have same := remaining_other (c := c) turn moved n
          simp only [Bool.false_eq_true, if_false]
          omega

theorem step_accepted {a : Action F} (moved : step k s a = some u) :
    s.accepted t c <+: u.accepted t c := by
  cases a with
  | call c' processorId active req =>
      rw [step] at moved
      split at moved
      · obtain ⟨-, rest⟩ := Option.ite_none_right_eq_some.mp moved
        split at rest <;> cases rest
        · show _ <+: update₂ s.accepted processorId c' _ t c
          by_cases here : t = processorId ∧ c = c'
          · obtain ⟨rfl, rfl⟩ := here
            rw [update₂_self]
            exact List.prefix_append _ _
          · simp only [update₂_of_ne (not_and_or.mp here), List.prefix_rfl]
        · exact List.prefix_refl _
      · cases moved
  | caller c' =>
      obtain ⟨-, -, -, accepted, -⟩ := stepCaller_frame moved
      exact accepted ▸ List.prefix_rfl
  | deliver v =>
      rw [step] at moved
      split at moved
      · obtain ⟨-, ⟨⟩⟩ := Option.ite_none_right_eq_some.mp moved
        exact List.prefix_refl _
      · cases moved
  | handler v =>
      obtain ⟨-, accepted, -⟩ := stepHandler_frame moved
      exact accepted ▸ List.prefix_rfl

theorem run_accepted {run : List (Action F)} (ran : exec (step k) s run = some u) :
    s.accepted t c <+: u.accepted t c :=
  exec_invariant (I := fun v => s.accepted t c <+: v.accepted t c)
    (fun _ _ _ before moved => before.trans (step_accepted moved)) (List.prefix_refl _) ran

/-! ## The law -/

/-- The call of `c` to `t` is over, or waits for the function; there may be none. -/
def Sys.HasSent (s : Sys F) (t c : ℕ) : Prop :=
  ((s.caller c).post t).held = [] ∧ ∀ req, s.caller c ≠ .send t req

/-- The requests of a caller to a target are run once each, in turn, and with the values they were
made with. -/
structure Law (k : Config) (s : Sys F) : Prop where
  /-- What was accepted is what was started, and what is with the handler, in the slot or with the
  caller. -/
  accepted : ∀ t c, s.accepted t c = s.started t c ++ (view s t c).toRun Request.wait
  started : ∀ t c, s.started t c = s.finished t c ++ (view s t c).take.running?
  /-- A slot that is stored to is empty, and no one reads it. -/
  intact : ∀ c, (s.caller c).Writes fun t => s.table t c
  unread : ∀ t c req, (s.table t c).signal = .unlocked → (view s t c).take ≠ .taking req
  returns : ∀ t c req, s.caller c = .waitDone t req → (s.table t c).signal = .unlocked →
    s.finished t c = s.accepted t c ∧ ∃ before, s.finished t c = before ++ [req]
  /-- While something that was sent is not finished its target has a turn to take, -/
  turns : ∀ t c, s.HasSent t c → s.finished t c ≠ s.accepted t c →
    ∃ a, Action.isTurn t a = true ∧ (step k s a).isSome = true
  /-- and so many turns finish all of it, whatever happens in between. -/
  arrives : ∀ t c, s.HasSent t c → ∀ run u, exec (step k) s run = some u →
    14 * k.maxCpus + 9 ≤ run.countP (Action.isTurn t) → s.accepted t c <+: u.finished t c

theorem Inv.turns (inv : Inv k s) (sent : s.HasSent t c)
    (unfinished : s.finished t c ≠ s.accepted t c) :
    ∃ a, Action.isTurn t a = true ∧ (step k s a).isSome = true := by
  cases here : s.handler t with
  | idle =>
      refine ⟨.deliver t, by simp [Action.isTurn], ?_⟩
      have accepted := (inv.channel t c).accepted
      have started := (inv.channel t c).started
      have more : begun s t c < (s.accepted t c).length := by
        rw [inv.begun_of_idle here]
        change s.started t c = s.finished t c ++ ((s.handler t).take c (s.table t c)).running? at started
        change s.accepted t c = s.started t c ++ (view s t c).toRun Request.wait at accepted
        rw [here] at started
        simp only [Handler.take, Take.running?, List.append_nil] at started
        rw [accepted, started, List.length_append]
        refine Nat.lt_add_of_pos_right (List.length_pos_iff.mpr fun none => unfinished ?_)
        rw [accepted, none, List.append_nil, started]
      have full := inv.locked_of_posted (by rw [sent.1]; exact Nat.le_refl _) more
      obtain pending | ⟨req, sends⟩ | reaches := inv.onItsWay t c full
      · simp [step, here, pending]
      · exact absurd sends (sent.2 req)
      · rw [here] at reaches
        exact reaches.elim
  | _ => exact ⟨.handler t, by simp [Action.isTurn], by simp [step, stepHandler, here]⟩

theorem Inv.arrives (inv : Inv k s) (sent : s.HasSent t c) {run : List (Action F)}
    (ran : exec (step k) s run = some u)
    (turns : 14 * k.maxCpus + 9 ≤ run.countP (Action.isTurn t)) :
    s.accepted t c <+: u.finished t c := by
  have start : Sent (s.accepted t c).length t c s := by
    refine ⟨?_, .inr sent.2⟩
    rw [sent.1]
    exact Nat.le_refl _
  have left := run_remaining inv start ran
  have bound := remaining_le (k := k) (s := s) (t := t) (c := c) (s.accepted t c).length
  have after := run_inv inv ran
  have enough := after.finished_of_remaining (c := c) (t := t) (n := (s.accepted t c).length)
    (by omega)
  have whole : u.finished t c <+: u.accepted t c := by
    have accepted := (after.channel t c).accepted
    have started := (after.channel t c).started
    change u.accepted t c = u.started t c ++ _ at accepted
    change u.started t c = u.finished t c ++ _ at started
    rw [accepted, started, List.append_assoc]
    exact List.prefix_append _ _
  exact List.prefix_of_prefix_length_le (run_accepted ran) whole enough

/-- **Calls on other processors are made exactly once**, for any processors, any requests and any
order of their steps. -/
theorem ipi_law {data : ℕ → ℕ → Request F} {run : List (Action F)}
    (ran : exec (step k) (Sys.init data) run = some s) : Law k s := by
  have inv := run_inv (init_inv data) ran
  refine ⟨fun t c => (inv.channel t c).accepted, fun t c => (inv.channel t c).started, inv.writes,
    fun t c req unlocked taking => ?_, fun t c req here unlocked => ?_,
    fun t c sent unfinished => inv.turns sent unfinished,
    fun t c sent run u ran turns => inv.arrives sent ran turns⟩
  · have full := (inv.channel t c).taking req taking
    simp [view, IpiData.slot, unlocked] at full
  · exact (inv.channel t c).returns (x := req) (by simp [view, here, Caller.post])
      (by simp [view, IpiData.slot, unlocked])

/-- Processors 1 and 2 call processor 0; 1 does not wait and calls again while its first function
runs, 2 waits. -/
def overlapping : List (Action ℕ) :=
  [.call 1 0 true ⟨7, 1#64, false⟩] ++ List.replicate 6 (.caller 1) ++ [.deliver 0] ++
    List.replicate 7 (.handler 0) ++ [.call 1 0 true ⟨8, 2#64, false⟩] ++
    List.replicate 6 (.caller 1) ++ [.call 2 0 true ⟨9, 3#64, true⟩] ++ List.replicate 6 (.caller 2) ++
    List.replicate 10 (.handler 0) ++ [.caller 2]

theorem ipi_law_overlapping : ∃ s : Sys ℕ,
    exec (step ⟨3, 4, by decide⟩) (Sys.init fun _ _ => ⟨0, 0#64, false⟩) overlapping = some s ∧
      Law ⟨3, 4, by decide⟩ s ∧
        ((s.finished 0 1).length, (s.accepted 0 1).length, (s.finished 0 2).length) = (1, 2, 1) := by
  have reached : (exec (step ⟨3, 4, by decide⟩) (Sys.init fun _ _ => ⟨0, 0#64, false⟩)
      overlapping).map (fun s => ((s.finished 0 1).length, (s.accepted 0 1).length,
        (s.finished 0 2).length)) = some (1, 2, 1) := by decide +kernel
  obtain ⟨s, ran, lengths⟩ := Option.map_eq_some_iff.mp reached
  exact ⟨s, ran, ipi_law ran, lengths⟩

end View

end Twan.Kernel.Ipi
