/-
# Twan.Kernel.IpiSteps -- what callers and handlers keep

Every access of a caller or of a handler is a step of the mailbox of its slot, or none, and leaves the
other slots alone (`Beside`), so that the invariant is kept by every step and every run (`run_inv`).
-/
import Twan.Kernel.Ipi

namespace Twan.Kernel.Ipi

set_option autoImplicit false
set_option linter.dupNamespace false

open Twan.Base Twan.Base.Mailbox

section View

variable {F : Type}

/-! ## Steps of a caller -/

variable {k : Config} {s u : Sys F} {t c i : ℕ}

/-- The two states differ in one slot, its history, and interrupts that were sent. -/
structure Beside (s : Sys F) (t c : ℕ) (u : Sys F) : Prop where
  table : ∀ t' c', t' ≠ t ∨ c' ≠ c → u.table t' c' = s.table t' c'
  accepted : ∀ t' c', t' ≠ t ∨ c' ≠ c → u.accepted t' c' = s.accepted t' c'
  started : ∀ t' c', t' ≠ t ∨ c' ≠ c → u.started t' c' = s.started t' c'
  finished : ∀ t' c', t' ≠ t ∨ c' ≠ c → u.finished t' c' = s.finished t' c'
  caller : u.caller = s.caller
  handler : u.handler = s.handler
  pending : ∀ t', s.pending t' = true → u.pending t' = true

theorem Beside.refl : Beside s t c s :=
  ⟨fun _ _ _ => rfl, fun _ _ _ => rfl, fun _ _ _ => rfl, fun _ _ _ => rfl, rfl, rfl, fun _ => id⟩

theorem Beside.setData {data : IpiData F} : Beside s t c (s.setData t c data) :=
  ⟨fun _ _ => update₂_of_ne, fun _ _ _ => rfl, fun _ _ _ => rfl, fun _ _ _ => rfl, rfl, rfl,
    fun _ => id⟩

theorem Beside.accept {reqs : List (Request F)} :
    Beside s t c { s with accepted := update₂ s.accepted t c reqs } :=
  ⟨fun _ _ _ => rfl, fun _ _ => update₂_of_ne, fun _ _ _ => rfl, fun _ _ _ => rfl, rfl, rfl,
    fun _ => id⟩

theorem Beside.pend : Beside s t c { s with pending := Function.update s.pending t true } := by
  refine ⟨fun _ _ _ => rfl, fun _ _ _ => rfl, fun _ _ _ => rfl, fun _ _ _ => rfl, rfl, rfl,
    fun t' pending => ?_⟩
  show Function.update s.pending t true t' = true
  by_cases same : t' = t
  · rw [same, Function.update_self]
  · rw [Function.update_of_ne same]
    exact pending

/-- The caller moves at one slot; the mailboxes of the others stay. -/
theorem Beside.view_callAt (beside : Beside s t c u) {pc : Caller F}
    (old : ∀ t', (s.caller c).target = some t' → t' = t) (new : ∀ t', pc.target = some t' → t' = t)
    {t' c' : ℕ} (other : t' ≠ t ∨ c' ≠ c) : view (u.callAt c pc) t' c' = view s t' c' := by
  have post : ((u.callAt c pc).caller c').post t' = (s.caller c').post t' := by
    show (Function.update u.caller c pc c').post t' = _
    by_cases own : c' = c
    · subst own
      have apart : t' ≠ t := other.resolve_right fun away => away rfl
      rw [Function.update_self, Caller.post_of_ne fun about => apart (new t' about),
        Caller.post_of_ne fun about => apart (old t' about)]
    · rw [Function.update_of_ne own, beside.caller]
  show State.mk _ (((u.callAt c pc).caller c').post t') _ _ _ _ = _
  rw [post]
  simp [view, Sys.callAt, beside.table t' c' other, beside.accepted t' c' other,
    beside.started t' c' other, beside.finished t' c' other, beside.handler]

/-- The same for a handler. -/
theorem Beside.view_handleAt (beside : Beside s t i u) {pc : Handler F}
    (old : ∀ c, (s.handler t).index = some c → c = i) (new : ∀ c, pc.index = some c → c = i)
    {t' c' : ℕ} (other : t' ≠ t ∨ c' ≠ i) : view (u.handleAt t pc) t' c' = view s t' c' := by
  have take : ((u.handleAt t pc).handler t').take c' (u.table t' c') =
      (s.handler t').take c' (s.table t' c') := by
    show (Function.update u.handler t pc t').take c' _ = _
    rw [beside.table t' c' other]
    by_cases own : t' = t
    · subst own
      have apart : c' ≠ i := other.resolve_left fun away => away rfl
      rw [Function.update_self, Handler.take_of_ne fun about => apart (new c' about),
        Handler.take_of_ne fun about => apart (old c' about)]
    · rw [Function.update_of_ne own, beside.handler]
  show State.mk _ _ (((u.handleAt t pc).handler t').take c' (u.table t' c')) _ _ _ = _
  rw [take]
  simp [view, Sys.handleAt, beside.table t' c' other, beside.accepted t' c' other,
    beside.started t' c' other, beside.finished t' c' other, beside.caller]

/-- A step of the caller `c` that is in a call to `t`. -/
theorem Inv.callAt (inv : Inv k s) (beside : Beside s t c u) {pc : Caller F}
    (old : ∀ t', (s.caller c).target = some t' → t' = t) (new : ∀ t', pc.target = some t' → t' = t)
    (target : pc.target = some t → t ≠ c ∧ c < k.maxCpus)
    (ok : Ok Request.wait (view (u.callAt c pc) t c)) (writes : pc.Writes fun t' => u.table t' c)
    (reads : (s.handler t).Reads (u.table t))
    (slot : (u.table t c).signal = .locked → t ≠ c ∧ c < k.maxCpus)
    (onItsWay : (u.table t c).signal = .locked →
      u.pending t = true ∨ (∃ req, pc = .send t req) ∨ (s.handler t).Reaches c) :
    Inv k (u.callAt c pc) where
  channel := by
    intro t' c'
    by_cases here : t' = t ∧ c' = c
    · obtain ⟨rfl, rfl⟩ := here
      exact ok
    · have same := beside.view_callAt old new (not_and_or.mp here)
      rw [same]
      exact inv.channel t' c'
  writes := by
    intro c'
    show (Function.update u.caller c pc c').Writes fun t' => u.table t' c'
    by_cases own : c' = c
    · subst own
      rw [Function.update_self]
      exact writes
    · rw [Function.update_of_ne own, beside.caller]
      have row : (fun t' => u.table t' c') = fun t' => s.table t' c' :=
        funext fun t' => beside.table t' c' (.inr own)
      rw [row]
      exact inv.writes c'
  reads := by
    intro t'
    show (u.handler t').Reads (u.table t')
    rw [beside.handler]
    by_cases same : t' = t
    · rw [same]
      exact reads
    · rw [show u.table t' = s.table t' from funext fun c' => beside.table t' c' (.inl same)]
      exact inv.reads t'
  targets := by
    intro c' t'
    show (Function.update u.caller c pc c').target = some t' → _
    by_cases own : c' = c
    · subst own
      rw [Function.update_self]
      intro about
      obtain rfl := new t' about
      exact target about
    · rw [Function.update_of_ne own, beside.caller]
      exact inv.targets c' t'
  slots := by
    intro t' c'
    show (u.table t' c').signal = .locked → _
    by_cases here : t' = t ∧ c' = c
    · obtain ⟨rfl, rfl⟩ := here
      exact slot
    · rw [beside.table t' c' (not_and_or.mp here)]
      exact inv.slots t' c'
  onItsWay := by
    intro t' c'
    show (u.table t' c').signal = .locked →
      u.pending t' = true ∨ (∃ req, Function.update u.caller c pc c' = .send t' req) ∨
        (u.handler t').Reaches c'
    rw [beside.handler]
    by_cases here : t' = t ∧ c' = c
    · obtain ⟨rfl, rfl⟩ := here
      rw [Function.update_self]
      exact onItsWay
    · rw [beside.table t' c' (not_and_or.mp here)]
      intro locked
      obtain pending | ⟨req, sends⟩ | reaches := inv.onItsWay t' c' locked
      · exact .inl (beside.pending t' pending)
      · refine .inr (.inl ⟨req, ?_⟩)
        by_cases own : c' = c
        · subst own
          have same := old t' (by rw [sends]; rfl)
          exact absurd ⟨same, rfl⟩ here
        · rw [Function.update_of_ne own, beside.caller, sends]
      · exact .inr (.inr reaches)

/-- The post of the caller as the mailbox sees it. -/
theorem view_callAt {pc : Caller F} : view (u.callAt c pc) t c = { view u t c with post := pc.post t } := by
  simp [view, Sys.callAt]

/-- While the slot is empty the handler does not look at it. -/
theorem Inv.take_of_unlocked (inv : Inv k s) (unlocked : (s.table t c).signal = .unlocked)
    (data : IpiData F) : (s.handler t).take c data = (s.handler t).take c (s.table t c) ∧
      ∀ slots : ℕ → IpiData F, (∀ i, i ≠ c → slots i = s.table t i) → (s.handler t).Reads slots := by
  have empty : (s.table t c).slot = none := by rw [IpiData.slot, unlocked]
  have notTaking : ∀ req, (s.handler t).take c (s.table t c) ≠ .taking req := by
    intro req taking
    have full := (inv.channel t c).taking req taking
    change (s.table t c).slot = _ at full
    rw [empty] at full
    cases full
  have reads := inv.reads t
  cases here : s.handler t with
  | readFunc i =>
      rw [here] at notTaking
      have other : i ≠ c := fun same => notTaking _ (if_pos same)
      exact ⟨by simp [Handler.take, other], fun _ _ => trivial⟩
  | readArg i func =>
      rw [here] at notTaking reads
      have other : i ≠ c := fun same => notTaking _ (if_pos same)
      refine ⟨by simp [Handler.take, other], fun slots rest => ?_⟩
      rw [Handler.Reads, rest i other]
      exact reads
  | readWait i func arg =>
      rw [here] at notTaking reads
      have other : i ≠ c := fun same => notTaking _ (if_pos same)
      refine ⟨by simp [Handler.take, other], fun slots rest => ?_⟩
      rw [Handler.Reads, rest i other]
      exact reads
  | _ => exact ⟨rfl, fun _ _ => trivial⟩

/-- A store to the slot, which is empty. -/
theorem Inv.store (inv : Inv k s) (req : Request F) {pc : Caller F} {data : IpiData F}
    (target : (s.caller c).target = some t) (next : pc.target = some t)
    (old : (s.caller c).post t = .calling req) (new : pc.post t = .calling req)
    (unlocked : (s.table t c).signal = .unlocked) (signal : data.signal = .unlocked)
    (writes : pc.Writes fun t' => update₂ s.table t c data t' c) :
    Inv k ((s.setData t c data).callAt c pc) := by
  obtain ⟨take, reads⟩ := inv.take_of_unlocked unlocked data
  refine inv.callAt .setData (fun t' about => Option.some.inj (about.symm.trans target))
    (fun t' about => Option.some.inj (about.symm.trans next)) (fun _ => inv.targets c t target) ?_
    writes (reads _ fun i other => ?_) ?_ ?_
  · have same : view ((s.setData t c data).callAt c pc) t c = view s t c := by
      rw [view_callAt, new]
      simp only [view, Sys.setData, update₂_self, take, old]
      simp [IpiData.slot, signal, unlocked]
    rw [same]
    exact inv.channel t c
  · exact update₂_of_ne (.inr other)
  · intro locked
    simp only [Sys.setData, update₂_self, signal] at locked
    cases locked
  · intro locked
    simp only [Sys.setData, update₂_self, signal] at locked
    cases locked

theorem Inv.assert (inv : Inv k s) {req : Request F} (here : s.caller c = .assert t req) :
    Inv k ((s.setData t c { s.table t c with signal := .locked }).callAt c (.send t req)) := by
  have target : (s.caller c).target = some t := by rw [here]; rfl
  have writes := inv.writes c
  rw [here] at writes
  obtain ⟨unlocked, request⟩ := writes
  obtain ⟨take, reads⟩ := inv.take_of_unlocked unlocked { s.table t c with signal := .locked }
  refine inv.callAt .setData (fun t' about => Option.some.inj (about.symm.trans target))
    (fun t' about => (Option.some.inj about).symm) (fun _ => inv.targets c t target) ?_
    trivial (reads _ fun i other => ?_) (fun _ => inv.targets c t target)
    fun _ => .inr (.inl ⟨req, rfl⟩)
  · have posted := (inv.channel t c).post (x := req)
      (by simp [view, here, Caller.post]) (by simp [view, IpiData.slot, unlocked])
    have same : view ((s.setData t c { s.table t c with signal := .locked }).callAt c (.send t req)) t c =
        { view s t c with
          slot := some req
          post := if req.wait then .waiting req else .away } := by
      rw [view_callAt]
      simp only [view, Sys.setData, update₂_self, take, IpiData.slot, Caller.post]
      simp [← request, IpiData.request]
    rw [same]
    exact posted
  · exact update₂_of_ne (.inr other)

/-- A step that leaves the slots alone. -/
theorem Inv.goOn (inv : Inv k s) {pc : Caller F} (target : (s.caller c).target = some t)
    (next : pc.target = some t ∨ pc.target = none)
    (ok : Ok Request.wait (view (s.callAt c pc) t c)) (writes : pc.Writes fun t' => s.table t' c)
    (sent : ∀ req, s.caller c ≠ .send t req) : Inv k (s.callAt c pc) := by
  refine inv.callAt .refl (fun t' about => Option.some.inj (about.symm.trans target))
    (fun t' about => ?_) (fun _ => inv.targets c t target) ok writes (inv.reads t) (inv.slots t c) ?_
  · obtain some_ | none := next
    · exact Option.some.inj (about.symm.trans some_)
    · rw [none] at about
      cases about
  · intro locked
    obtain pending | ⟨req, sends⟩ | reaches := inv.onItsWay t c locked
    · exact .inl pending
    · exact absurd sends (sent req)
    · exact .inr (.inr reaches)

theorem Inv.send (inv : Inv k s) {req : Request F} (here : s.caller c = .send t req) :
    Inv k ({ s with pending := Function.update s.pending t true }.callAt c
      (if req.wait then .waitDone t req else .idle)) := by
  have target : (s.caller c).target = some t := by rw [here]; rfl
  refine inv.callAt .pend (fun t' about => Option.some.inj (about.symm.trans target))
    (fun t' about => ?_) (fun _ => inv.targets c t target) ?_ ?_ (inv.reads t) (inv.slots t c)
    fun _ => .inl ?_
  · split at about
    · exact (Option.some.inj about).symm
    · cases about
  · have same : view ({ s with pending := Function.update s.pending t true }.callAt c
        (if req.wait then .waitDone t req else .idle)) t c = view s t c := by
      rw [view_callAt]
      cases waits : req.wait <;> simp [view, here, Caller.post, waits]
    rw [same]
    exact inv.channel t c
  · split <;> trivial
  · exact Function.update_self ..

theorem stepCaller_inv (inv : Inv k s) (moved : stepCaller s c = some u) : Inv k u := by
  have writes := inv.writes c
  rw [stepCaller] at moved
  cases here : s.caller c with
  | idle => simp [here] at moved
  | wait t req =>
      simp only [here] at moved
      obtain ⟨unlocked, ⟨⟩⟩ := Option.ite_none_right_eq_some.mp moved
      refine inv.goOn (t := t) (by rw [here]; rfl) (.inl rfl) ?_ unlocked
        fun _ sends => by rw [here] at sends; cases sends
      have same : view (s.callAt c (.setFunc t req)) t c = view s t c := by
        rw [view_callAt]
        simp [view, here, Caller.post]
      rw [same]
      exact inv.channel t c
  | setFunc t req =>
      rw [here] at writes
      simp only [here] at moved
      cases moved
      refine inv.store req (by rw [here]; rfl) rfl (by rw [here]; exact if_pos rfl) (if_pos rfl)
        writes writes ?_
      simp only [Caller.Writes, update₂_self]
      exact ⟨writes, trivial⟩
  | setArg t req =>
      rw [here] at writes
      simp only [here] at moved
      cases moved
      refine inv.store req (by rw [here]; rfl) rfl (by rw [here]; exact if_pos rfl) (if_pos rfl)
        writes.1 writes.1 ?_
      simp only [Caller.Writes, update₂_self]
      exact ⟨writes.1, writes.2, trivial⟩
  | setWait t req =>
      rw [here] at writes
      simp only [here] at moved
      cases moved
      refine inv.store req (by rw [here]; rfl) rfl (by rw [here]; exact if_pos rfl) (if_pos rfl)
        writes.1 writes.1 ?_
      simp only [Caller.Writes, update₂_self, IpiData.request]
      refine ⟨writes.1, ?_⟩
      rw [writes.2.1, writes.2.2]
  | assert t req =>
      simp only [here] at moved
      cases moved
      exact inv.assert here
  | send t req =>
      simp only [here] at moved
      cases moved
      exact inv.send here
  | waitDone t req =>
      simp only [here] at moved
      obtain ⟨unlocked, ⟨⟩⟩ := Option.ite_none_right_eq_some.mp moved
      refine inv.goOn (t := t) (by rw [here]; rfl) (.inr rfl) ?_ trivial
        fun _ sends => by rw [here] at sends; cases sends
      rw [view_callAt]
      exact (inv.channel t c).leave (x := req) (by simp [view, here, Caller.post])

theorem call_inv (inv : Inv k s) (idle : s.caller c = .idle) (this : c < k.numCpus) {active : Bool}
    {req : Request F} (accepts : k.accepts c t active = true) :
    Inv k ({ s with accepted := update₂ s.accepted t c (s.accepted t c ++ [req]) }.callAt c
      (.wait t req)) := by
  have apart : t ≠ c ∧ c < k.maxCpus := by
    simp only [Config.accepts, Bool.and_eq_true, bne_iff_ne] at accepts
    exact ⟨accepts.1.2, Nat.lt_of_lt_of_le this k.le⟩
  refine inv.callAt .accept (fun t' about => by rw [idle] at about; cases about)
    (fun t' about => (Option.some.inj about).symm) (fun _ => apart) ?_ trivial (inv.reads t)
    (inv.slots t c) ?_
  · have accepted := (inv.channel t c).accept (x := req) (by simp [view, idle, Caller.post])
    have same : view ({ s with accepted := update₂ s.accepted t c (s.accepted t c ++ [req]) }.callAt c
        (.wait t req)) t c =
        { view s t c with post := .calling req, accepted := (view s t c).accepted ++ [req] } := by
      rw [view_callAt]
      simp [view, Caller.post]
    rw [same]
    exact accepted
  · intro locked
    obtain pending | ⟨req, sends⟩ | reaches := inv.onItsWay t c locked
    · exact .inl pending
    · rw [idle] at sends
      cases sends
    · exact .inr (.inr reaches)

/-! ## Steps of a handler -/

/-- A slot that is full when the handler has made a step is still before it. -/
theorem Inv.stepHandler_reaches (inv : Inv k s) (moved : stepHandler k s t = some u)
    (full : (u.table t c).signal = .locked) (reaches : (s.handler t).Reaches c) :
    (u.handler t).Reaches c := by
  rw [stepHandler] at moved
  cases here : s.handler t with
  | idle => simp [here] at moved
  | scan i =>
      rw [here] at reaches
      simp only [here] at moved
      cases moved
      have slot := inv.slots t c full
      simp only [Sys.handleAt, Function.update_self]
      split
      · split
        · rename_i skip
          refine Nat.lt_of_le_of_ne reaches fun same => ?_
          subst same
          obtain own | unlocked := skip
          · exact slot.1 own.symm
          · change (s.table t i).signal = _ at full
            rw [unlocked] at full
            cases full
        · exact reaches
      · rename_i more
        exact absurd (Nat.lt_of_le_of_lt reaches slot.2) more
  | readFunc i | readArg i func =>
      rw [here] at reaches
      simp only [here] at moved
      cases moved
      simp only [Sys.handleAt, Function.update_self]
      exact reaches
  | readWait i func arg =>
      rw [here] at reaches
      simp only [here] at moved
      cases moved
      simp only [Sys.handleAt, Function.update_self]
      split
      · obtain less | same := Nat.lt_or_eq_of_le reaches
        · exact .inl less
        · exact .inr ⟨same, rfl⟩
      · exact reaches
  | call i req =>
      rw [here] at reaches
      simp only [here] at moved
      cases moved
      simp only [Sys.handleAt, Function.update_self]
      exact reaches
  | running i req =>
      rw [here] at reaches
      simp only [here] at moved
      cases moved
      simp only [Sys.handleAt, Function.update_self]
      obtain less | ⟨rfl, waits⟩ := reaches
      · split
        · exact Nat.le_of_lt less
        · exact less
      · rw [if_pos waits]
        exact Nat.le_refl _
  | ack i req =>
      rw [here] at reaches
      simp only [here] at moved
      cases moved
      have apart : c ≠ i := by
        intro same
        subst same
        simp [Sys.setData, Sys.handleAt] at full
      have less : i < c := Nat.lt_of_le_of_ne reaches apart.symm
      simp only [Sys.handleAt, Function.update_self]
      split
      · exact less
      · exact .inl less

/-- A step of the handler of `t` that is at the slot of `i`. -/
theorem Inv.handleAt (inv : Inv k s) (beside : Beside s t i u) {pc : Handler F}
    (old : ∀ c, (s.handler t).index = some c → c = i) (new : ∀ c, pc.index = some c → c = i)
    (ok : Ok Request.wait (view (u.handleAt t pc) t i))
    (writes : ∀ c, (s.caller c).Writes fun t' => u.table t' c) (reads : pc.Reads (u.table t))
    (locked : ∀ c, (u.table t c).signal = .locked → (s.table t c).signal = .locked)
    (reach : ∀ c, (u.table t c).signal = .locked → (s.handler t).Reaches c →
      ((u.handleAt t pc).handler t).Reaches c) :
    Inv k (u.handleAt t pc) where
  channel := by
    intro t' c'
    by_cases here : t' = t ∧ c' = i
    · obtain ⟨rfl, rfl⟩ := here
      exact ok
    · have same := beside.view_handleAt old new (not_and_or.mp here)
      rw [same]
      exact inv.channel t' c'
  writes := by
    intro c'
    show (u.caller c').Writes fun t' => u.table t' c'
    rw [beside.caller]
    exact writes c'
  reads := by
    intro t'
    show (Function.update u.handler t pc t').Reads (u.table t')
    by_cases same : t' = t
    · subst same
      rw [Function.update_self]
      exact reads
    · rw [Function.update_of_ne same, beside.handler,
        show u.table t' = s.table t' from funext fun c' => beside.table t' c' (.inl same)]
      exact inv.reads t'
  targets := by
    intro c' t'
    show (u.caller c').target = some t' → _
    rw [beside.caller]
    exact inv.targets c' t'
  slots := by
    intro t' c' full
    by_cases same : t' = t
    · subst same
      exact inv.slots t' c' (locked c' full)
    · refine inv.slots t' c' ?_
      rw [← beside.table t' c' (.inl same)]
      exact full
  onItsWay := by
    intro t' c' full
    show u.pending t' = true ∨ (∃ req, u.caller c' = .send t' req) ∨
      (Function.update u.handler t pc t').Reaches c'
    rw [beside.caller]
    by_cases same : t' = t
    · subst same
      obtain pending | sends | reaches := inv.onItsWay t' c' (locked c' full)
      · exact .inl (beside.pending t' pending)
      · exact .inr (.inl sends)
      · exact .inr (.inr (reach c' full reaches))
    · have before : (s.table t' c').signal = .locked := by
        rw [← beside.table t' c' (.inl same)]
        exact full
      rw [Function.update_of_ne same, beside.handler]
      obtain pending | rest := inv.onItsWay t' c' before
      · exact .inl (beside.pending t' pending)
      · exact .inr rest

/-- The handler goes on without touching anything. -/
theorem Inv.look (inv : Inv k s) {pc : Handler F}
    (old : ∀ c, (s.handler t).index = some c → c = i) (new : ∀ c, pc.index = some c → c = i)
    (take : pc.take i (s.table t i) = (s.handler t).take i (s.table t i))
    (reads : pc.Reads (s.table t))
    (reach : ∀ c, (s.table t c).signal = .locked → (s.handler t).Reaches c →
      ((s.handleAt t pc).handler t).Reaches c) :
    Inv k (s.handleAt t pc) := by
  refine inv.handleAt .refl old new ?_ inv.writes reads (fun _ => id) reach
  have same : view (s.handleAt t pc) t i = view s t i := by
    simp [view, Sys.handleAt, take]
  rw [same]
  exact inv.channel t i

theorem Inv.scan (inv : Inv k s) (here : s.handler t = .scan i)
    (moved : stepHandler k s t = some u) : Inv k u := by
  have reach := fun c => inv.stepHandler_reaches (c := c) moved
  have old : ∀ c, (s.handler t).index = some c → c = i := by rw [here]; nofun
  simp only [stepHandler, here] at moved
  cases moved
  split at reach
  · split at reach
    · rename_i more skip
      rw [if_pos more, if_pos skip]
      exact inv.look old nofun (by rw [here]; rfl) trivial reach
    · rename_i more look
      rw [if_pos more, if_neg look]
      have full : (s.table t i).signal = .locked := by
        cases signal : (s.table t i).signal with
        | locked => rfl
        | unlocked => exact absurd (.inr signal) look
      refine inv.handleAt .refl old (fun c about => (Option.some.inj about).symm) ?_ inv.writes trivial
        (fun _ => id) reach
      have taken := (inv.channel t i).take (x := (s.table t i).request)
        (by simp [view, here, Handler.take]) (by simp [view, IpiData.slot, full])
      have same : view (s.handleAt t (.readFunc i)) t i =
          { view s t i with take := .taking (s.table t i).request } := by
        simp [view, Sys.handleAt, Handler.take]
      rw [same]
      exact taken
  · rename_i more
    rw [if_neg more]
    exact inv.look old nofun (by rw [here]; rfl) trivial reach

/-- The three reads give the request in the slot. -/
theorem Inv.readWait (inv : Inv k s) {func : F} {arg : BitVec 64}
    (here : s.handler t = .readWait i func arg) (moved : stepHandler k s t = some u) : Inv k u := by
  have reach := fun c => inv.stepHandler_reaches (c := c) moved
  have reads := inv.reads t
  rw [here] at reads
  obtain ⟨rfl, rfl⟩ := reads
  have old : ∀ c, (s.handler t).index = some c → c = i := by
    rw [here]
    exact fun c about => (Option.some.inj about).symm
  simp only [stepHandler, here] at moved
  cases moved
  cases waits : (s.table t i).wait with
  | true =>
      rw [waits] at reach
      refine inv.look old (fun c about => (Option.some.inj about).symm) ?_ trivial reach
      simp [here, Handler.take, IpiData.request, waits]
  | false =>
      rw [waits] at reach
      refine inv.look old (fun c about => (Option.some.inj about).symm) ?_ trivial reach
      simp [here, Handler.take, IpiData.request, waits]

theorem Beside.start {reqs : List (Request F)} :
    Beside s t c { s with started := update₂ s.started t c reqs } :=
  ⟨fun _ _ _ => rfl, fun _ _ _ => rfl, fun _ _ => update₂_of_ne, fun _ _ _ => rfl, rfl, rfl,
    fun _ => id⟩

theorem Beside.finish {reqs : List (Request F)} :
    Beside s t c { s with finished := update₂ s.finished t c reqs } :=
  ⟨fun _ _ _ => rfl, fun _ _ _ => rfl, fun _ _ _ => rfl, fun _ _ => update₂_of_ne, rfl, rfl,
    fun _ => id⟩

theorem Inv.call (inv : Inv k s) {req : Request F} (here : s.handler t = .call i req)
    (moved : stepHandler k s t = some u) : Inv k u := by
  have reach := fun c => inv.stepHandler_reaches (c := c) moved
  have started := (inv.channel t i).start (x := req) (by
    cases waits : req.wait <;> simp [view, here, Handler.take, waits])
  simp only [stepHandler, here] at moved
  cases moved
  refine inv.handleAt .start (fun c about => by rw [here] at about; exact (Option.some.inj about).symm)
    (fun c about => (Option.some.inj about).symm) ?_ inv.writes trivial (fun _ => id) reach
  have same : view ({ s with started := update₂ s.started t i (s.started t i ++ [req]) }.handleAt t
      (.running i req)) t i =
      { view s t i with take := .running req, started := (view s t i).started ++ [req] } := by
    simp [view, Sys.handleAt, Handler.take]
  rw [same]
  exact started

theorem Inv.return (inv : Inv k s) {req : Request F} (here : s.handler t = .running i req)
    (moved : stepHandler k s t = some u) : Inv k u := by
  have reach := fun c => inv.stepHandler_reaches (c := c) moved
  have finished := (inv.channel t i).finish (x := req) (by simp [view, here, Handler.take])
  simp only [stepHandler, here] at moved
  cases moved
  refine inv.handleAt .finish (fun c about => by rw [here] at about; exact (Option.some.inj about).symm)
    (fun c about => ?_) ?_ inv.writes ?_ (fun _ => id) reach
  · split at about
    · exact (Option.some.inj about).symm
    · cases about
  · have same : view ({ s with finished := update₂ s.finished t i (s.finished t i ++ [req]) }.handleAt t
        (if req.wait then .ack i req else .scan (i + 1))) t i =
        { view s t i with
          take := if req.wait then .done req else .away
          finished := (view s t i).finished ++ [req] } := by
      cases waits : req.wait <;> simp [view, Sys.handleAt, Handler.take, waits]
    rw [same]
    exact finished
  · split <;> trivial

/-- An empty slot suits every caller. -/
theorem Caller.Writes.unlock {pc : Caller F} {slots slots' : ℕ → IpiData F}
    (writes : pc.Writes slots)
    (same : ∀ t, slots' t = slots t ∨ slots' t = { slots t with signal := .unlocked }) :
    pc.Writes slots' := by
  cases pc with
  | setFunc t req | setArg t req | setWait t req | assert t req =>
      obtain here | here := same t
      · simpa only [Caller.Writes, here] using writes
      · simp_all [Caller.Writes, IpiData.request]
  | _ => trivial

theorem Inv.ack (inv : Inv k s) {req : Request F} (here : s.handler t = .ack i req)
    (moved : stepHandler k s t = some u) : Inv k u := by
  have reach := fun c => inv.stepHandler_reaches (c := c) moved
  simp only [stepHandler, here] at moved
  cases moved
  refine inv.handleAt .setData (fun c about => by rw [here] at about; exact (Option.some.inj about).symm)
    (fun c about => ?_) ?_ (fun c => (inv.writes c).unlock fun t' => ?_) ?_ (fun c full => ?_) reach
  · split at about
    · cases about
    · exact (Option.some.inj about).symm
  · cases waits : req.wait with
    | true =>
        have released := (inv.channel t i).release (x := req) (by simp [view, here, Handler.take, waits])
        have same : view ((s.setData t i { s.table t i with signal := .unlocked }).handleAt t
            (if true then .scan (i + 1) else .call i req)) t i =
            { view s t i with slot := none, take := .away } := by
          simp [view, Sys.handleAt, Sys.setData, Handler.take, IpiData.slot]
        rw [same]
        exact released
    | false =>
        have acked := (inv.channel t i).ack (x := req) (by simp [view, here, Handler.take, waits]) waits
        have same : view ((s.setData t i { s.table t i with signal := .unlocked }).handleAt t
            (if false then .scan (i + 1) else .call i req)) t i =
            { view s t i with slot := none, take := .ready req } := by
          simp [view, Sys.handleAt, Sys.setData, Handler.take, IpiData.slot, waits]
        rw [same]
        exact acked
  · show update₂ s.table t i _ t' c = _ ∨ update₂ s.table t i _ t' c = _
    by_cases own : t' = t ∧ c = i
    · obtain ⟨rfl, rfl⟩ := own
      exact .inr update₂_self
    · exact .inl (update₂_of_ne (not_and_or.mp own))
  · split <;> trivial
  · by_cases same : c = i
    · subst same
      simp [Sys.setData] at full
    · rw [← update₂_of_ne (f := s.table) (.inr same)]
      exact full

theorem stepHandler_inv (inv : Inv k s) (moved : stepHandler k s t = some u) : Inv k u := by
  cases here : s.handler t with
  | idle => simp [stepHandler, here] at moved
  | scan i => exact inv.scan here moved
  | readWait i func arg => exact inv.readWait here moved
  | call i req => exact inv.call here moved
  | running i req => exact inv.return here moved
  | ack i req => exact inv.ack here moved
  | readFunc i =>
      have reach := fun c => inv.stepHandler_reaches (c := c) moved
      simp only [stepHandler, here] at moved
      cases moved
      refine inv.look (i := i) (fun c about => ?_) (fun c about => (Option.some.inj about).symm) ?_ rfl
        reach
      · rw [here] at about
        exact (Option.some.inj about).symm
      · rw [here]
        rfl
  | readArg i func =>
      have reach := fun c => inv.stepHandler_reaches (c := c) moved
      have reads := inv.reads t
      rw [here] at reads
      simp only [stepHandler, here] at moved
      cases moved
      refine inv.look (i := i) (fun c about => ?_) (fun c about => (Option.some.inj about).symm) ?_
        ⟨reads, rfl⟩ reach
      · rw [here] at about
        exact (Option.some.inj about).symm
      · rw [here]
        rfl

/-- The target takes the interrupt: from there it reaches every slot. -/
theorem deliver_inv (inv : Inv k s) (idle : s.handler t = .idle) :
    Inv k ({ s with pending := Function.update s.pending t false }.handleAt t (.scan 0)) where
  channel := by
    intro t' c'
    have take : (Function.update s.handler t (.scan 0) t').take c' (s.table t' c') =
        (s.handler t').take c' (s.table t' c') := by
      by_cases own : t' = t
      · subst own
        rw [Function.update_self, idle]
        rfl
      · rw [Function.update_of_ne own]
    have same : view ({ s with pending := Function.update s.pending t false }.handleAt t (.scan 0)) t' c' =
        view s t' c' := by
      show State.mk _ _ ((Function.update s.handler t (.scan 0) t').take c' (s.table t' c')) _ _ _ = _
      rw [take]
      rfl
    rw [same]
    exact inv.channel t' c'
  writes := inv.writes
  reads := by
    intro t'
    show (Function.update s.handler t (.scan 0) t').Reads (s.table t')
    by_cases own : t' = t
    · subst own
      rw [Function.update_self]
      trivial
    · rw [Function.update_of_ne own]
      exact inv.reads t'
  targets := inv.targets
  slots := inv.slots
  onItsWay := by
    intro t' c' full
    show Function.update s.pending t false t' = true ∨ (∃ req, s.caller c' = .send t' req) ∨
      (Function.update s.handler t (.scan 0) t').Reaches c'
    by_cases own : t' = t
    · subst own
      rw [Function.update_self, Function.update_self]
      exact .inr (.inr (Nat.zero_le c'))
    · rw [Function.update_of_ne own, Function.update_of_ne own]
      exact inv.onItsWay t' c' full

theorem step_inv {a : Action F} (inv : Inv k s) (moved : step k s a = some u) : Inv k u := by
  cases a with
  | call c processorId active req =>
      rw [step] at moved
      split at moved
      · rename_i idle
        obtain ⟨this, rest⟩ := Option.ite_none_right_eq_some.mp moved
        split at rest
        · rename_i accepts
          cases rest
          exact call_inv inv idle this accepts
        · cases rest
          exact inv
      · cases moved
  | caller c => exact stepCaller_inv inv moved
  | deliver t =>
      rw [step] at moved
      split at moved
      · rename_i idle
        obtain ⟨-, ⟨⟩⟩ := Option.ite_none_right_eq_some.mp moved
        exact deliver_inv inv idle
      · cases moved
  | handler t => exact stepHandler_inv inv moved

theorem init_inv (data : ℕ → ℕ → Request F) : Inv k (Sys.init data) where
  channel _ _ := Ok.init
  writes _ := trivial
  reads _ := trivial
  targets := nofun
  slots := nofun
  onItsWay := nofun

theorem run_inv {run : List (Action F)} (inv : Inv k s) (ran : exec (step k) s run = some u) :
    Inv k u :=
  exec_invariant (fun _ _ _ before moved => step_inv before moved) inv ran

end View

end Twan.Kernel.Ipi
