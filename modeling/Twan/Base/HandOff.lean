/-
# Twan.Base.HandOff -- a counted lock that its owner hands to a waiter

The abstract lock.  Its owner may acquire it again and counts; a final release either frees it or
hands it to one of those that wait.  `Role` says what a party is at: an acquisition of a free lock
is in three parts (`fresh`), so is a release (`dec`, `releasing`, `handing`), and a party that was
chosen is `woken` before it has noticed.

`Ok` lists the three shapes of the whole: free, owned, or being handed over.  Each operation has its
lemma, and what the lock is for follows from the shapes (`Ok.unique`, `Ok.counted_of_out`,
`Ok.holder_of_waiting`).
-/
import Mathlib.Logic.Function.Basic
import Mathlib.Data.Nat.Notation

namespace Twan.Base.HandOff

set_option autoImplicit false

universe u

inductive Role (T : Type u) where
  | out
  /-- The lock was free and is taken, the count is still to be set. -/
  | fresh
  /-- The lock is its own already, the count is still to be raised. -/
  | inc
  | dec
  /-- The count is 0 and no one is chosen yet. -/
  | releasing
  /-- The one that is chosen, if any, does not own the lock yet. -/
  | handing (chosen : Option T)
  | woken
  /-- The lock was not free, the party does not wait yet. -/
  | going
  | queued

/-- What a party that neither owns the lock nor is about to may be at. -/
def Role.isBystander {T : Type u} : Role T → Bool
  | .out | .going | .queued => true
  | _ => false

/-- The party waits, or is about to. -/
def Role.waits {T : Type u} : Role T → Bool
  | .going | .queued => true
  | _ => false

/-- What the owner is at, by how often it holds the lock. -/
def Own {T : Type u} : Role T → ℕ → Prop
  | .out, held | .dec, held => 0 < held
  | .inc, _ => True
  | .fresh, held | .releasing, held | .woken, held => held = 0
  | .handing _, _ | .going, _ | .queued, _ => False

/-- `held t` is how many acquisitions of `t` are outstanding. -/
structure State (T : Type u) where
  holder : Option T
  count : ℕ
  held : T → ℕ
  role : T → Role T

variable {T : Type u}

inductive Ok (s : State T) : Prop
  | free (holder : s.holder = none) (others : ∀ u, s.held u = 0 ∧ s.role u = .out)
  | owned (t : T) (holder : s.holder = some t) (counted : s.role t ≠ .fresh → s.count = s.held t)
      (own : Own (s.role t) (s.held t))
      (others : ∀ u, u ≠ t → s.held u = 0 ∧ (s.role u).isBystander = true)
  | handing (t : T) (chosen : Option T) (holder : s.holder = some t)
      (role : s.role t = .handing chosen) (count : s.count = 0) (held : s.held t = 0)
      (last : chosen = none → ∀ u, s.role u ≠ .queued) (self : chosen ≠ some t)
      (others : ∀ u, u ≠ t → s.held u = 0 ∧
        (chosen = some u ∧ s.role u = .woken ∨ chosen ≠ some u ∧ (s.role u).isBystander = true))

/-- A step that changes no more than the role of one party. -/
def State.goto [DecidableEq T] (s : State T) (t : T) (role : Role T) : State T :=
  { s with role := Function.update s.role t role }

namespace Ok

variable {s : State T} {t u : T}

/-! ## What the lock is for -/

theorem holder_of_held (ok : Ok s) (holds : 0 < s.held t) : s.holder = some t := by
  cases ok with
  | free _ others => exact absurd (others t).1 (Nat.ne_of_gt holds)
  | owned v holder _ _ others =>
      by_cases same : t = v
      · rw [same]
        exact holder
      · exact absurd (others t same).1 (Nat.ne_of_gt holds)
  | handing v _ holder _ _ none _ _ others =>
      by_cases same : t = v
      · rw [same]
        exact holder
      · exact absurd (others t same).1 (Nat.ne_of_gt holds)

/-- At most one party owns the lock. -/
theorem unique (ok : Ok s) (left : 0 < s.held t) (right : 0 < s.held u) : t = u := by
  have here := ok.holder_of_held left
  rw [ok.holder_of_held right] at here
  exact (Option.some.inj here).symm

theorem counted_of_out (ok : Ok s) (holder : s.holder = some t) (out : s.role t = .out) :
    s.count = s.held t ∧ 0 < s.held t := by
  cases ok with
  | free none _ => rw [none] at holder; cases holder
  | owned v same counted own _ =>
      obtain rfl : v = t := Option.some.inj (same.symm.trans holder)
      rw [out] at counted own
      exact ⟨counted nofun, own⟩
  | handing v _ same role _ _ _ _ _ =>
      obtain rfl : v = t := Option.some.inj (same.symm.trans holder)
      rw [out] at role
      cases role

/-- No one waits for a lock that is free. -/
theorem holder_of_waiting (ok : Ok s) (waits : (s.role t).waits = true) : s.holder ≠ none := by
  cases ok with
  | free _ others =>
      rw [(others t).2] at waits
      cases waits
  | owned v holder _ _ _ => rw [holder]; exact nofun
  | handing v _ holder _ _ _ _ _ _ => rw [holder]; exact nofun

theorem holder_ne_of_waiting (ok : Ok s) (waits : (s.role t).waits = true) : s.holder ≠ some t := by
  intro own
  cases ok with
  | free none _ => rw [none] at own; cases own
  | owned v holder _ owner _ =>
      obtain rfl : v = t := Option.some.inj (holder.symm.trans own)
      cases here : s.role v <;> simp [here, Role.waits, Own] at waits owner
  | handing v _ holder role _ _ _ _ _ =>
      obtain rfl : v = t := Option.some.inj (holder.symm.trans own)
      rw [role] at waits
      cases waits

/-- Who was chosen owns the lock once it is passed. -/
theorem holder_of_woken (ok : Ok s) (woken : s.role t = .woken)
    (settled : ∀ v chosen, s.role v ≠ .handing chosen) : s.holder = some t := by
  cases ok with
  | free _ others => rw [(others t).2] at woken; cases woken
  | owned v holder _ _ others =>
      by_cases same : t = v
      · rw [same]
        exact holder
      · have bystander := (others t same).2
        rw [woken] at bystander
        cases bystander
  | handing v chosen _ role _ _ _ _ _ => exact absurd role (settled v chosen)

/-- While the lock is handed over it is still the old owner's, and the one that is chosen waits for
it. -/
theorem of_handing (ok : Ok s) {chosen : Option T} (role : s.role t = .handing chosen) :
    s.holder = some t ∧ chosen ≠ some t ∧
      ∀ u, chosen = some u → s.role u = .woken ∧ s.held u = 0 := by
  cases ok with
  | free _ others => rw [(others t).2] at role; cases role
  | owned v _ _ own others =>
      by_cases same : t = v
      · rw [← same, role] at own
        exact own.elim
      · have bystander := (others t same).2
        rw [role] at bystander
        cases bystander
  | handing v chosen' holder role' _ _ _ self others =>
      have mine : t = v := by
        by_contra different
        obtain ⟨-, ⟨-, woken⟩ | ⟨-, bystander⟩⟩ := others t different
        · rw [role] at woken
          cases woken
        · rw [role] at bystander
          cases bystander
      subst mine
      obtain rfl : chosen = chosen' := Role.handing.inj (role.symm.trans role')
      refine ⟨holder, self, fun u named => ?_⟩
      obtain ⟨held, ⟨-, woken⟩ | ⟨elsewhere, -⟩⟩ := others u fun same => self (same ▸ named)
      · exact ⟨woken, held⟩
      · exact absurd named elsewhere

/-- While a release is under way no one holds the lock. -/
theorem held_of_releasing (ok : Ok s)
    (role : s.role t = .releasing ∨ (∃ chosen, s.role t = .handing chosen) ∨ s.role t = .woken) :
    ∀ v, s.held v = 0 := by
  intro v
  cases ok with
  | free _ others => exact (others v).1
  | handing w _ _ _ _ none _ _ others =>
      by_cases same : v = w
      · rw [same, none]
      · exact (others v same).1
  | owned w _ _ own others =>
      by_cases same : v = w
      · subst same
        by_cases other : t = v
        · subst other
          obtain here | ⟨chosen, here⟩ | here := role
          · rw [here] at own
            exact own
          · rw [here] at own
            exact own.elim
          · rw [here] at own
            exact own
        · have bystander := (others t other).2
          obtain here | ⟨chosen, here⟩ | here := role <;> rw [here] at bystander <;> cases bystander
      · exact (others v same).1

end Ok

/-! ## Operations -/

variable [DecidableEq T] {s : State T} {t u : T}

/-- An owner in the middle of a call. -/
def Role.isActing : Role T → Bool
  | .fresh | .inc | .dec | .releasing => true
  | _ => false

theorem Ok.acting (ok : Ok s) (acting : (s.role t).isActing = true) :
    s.holder = some t ∧ (s.role t ≠ .fresh → s.count = s.held t) ∧ Own (s.role t) (s.held t) ∧
      ∀ v, v ≠ t → s.held v = 0 ∧ (s.role v).isBystander = true := by
  cases ok with
  | free _ others => rw [(others t).2] at acting; cases acting
  | owned v holder counted own others =>
      by_cases same : t = v
      · subst same
        exact ⟨holder, counted, own, others⟩
      · have bystander := (others t same).2
        cases here : s.role t <;> simp [here, Role.isActing, Role.isBystander] at acting bystander
  | handing v chosen _ role _ _ _ _ others =>
      by_cases same : t = v
      · subst same
        rw [role] at acting
        cases acting
      · obtain ⟨-, ⟨-, woken⟩ | ⟨-, bystander⟩⟩ := others t same
        · rw [woken] at acting
          cases acting
        · cases here : s.role t <;> simp [here, Role.isActing, Role.isBystander] at acting bystander

/-- While someone holds the lock or is in the middle of a call, the others are bystanders. -/
theorem Ok.bystanders (ok : Ok s) (owns : 0 < s.held t ∨ (s.role t).isActing = true) :
    ∀ v, v ≠ t → s.held v = 0 ∧ (s.role v).isBystander = true := by
  obtain holds | acting := owns
  · cases ok with
    | free _ others => exact absurd (others t).1 (Nat.ne_of_gt holds)
    | owned w _ _ _ others =>
        by_cases same : t = w
        · rw [same]
          exact others
        · exact absurd (others t same).1 (Nat.ne_of_gt holds)
    | handing w _ _ _ _ none _ _ others =>
        by_cases same : t = w
        · rw [same, none] at holds
          cases holds
        · exact absurd (others t same).1 (Nat.ne_of_gt holds)
  · exact (ok.acting acting).2.2.2

/-- The owner goes on and stays the owner. -/
theorem Ok.own_step (holder : s.holder = some t) {count : ℕ} {held : ℕ} {role : Role T}
    (counted : role ≠ .fresh → count = held) (own : Own role held)
    (others : ∀ v, v ≠ t → s.held v = 0 ∧ (s.role v).isBystander = true) :
    Ok { s with count := count, held := Function.update s.held t held,
                role := Function.update s.role t role } := by
  refine .owned t holder ?_ ?_ fun v other => ?_
  · simpa using counted
  · simpa using own
  · simpa [Function.update_of_ne other] using others v other

/-- A free lock is taken. -/
theorem Ok.take (ok : Ok s) (none : s.holder = none) :
    Ok { s.goto t .fresh with holder := some t } := by
  cases ok with
  | free _ others =>
      refine .owned t rfl (fun fresh => absurd ?_ fresh) ?_ fun v other => ?_
      · simp [State.goto]
      · simpa [State.goto, Own] using (others t).1
      · simp [State.goto, Function.update_of_ne other, others v, Role.isBystander]
  | owned v holder _ _ _ => rw [none] at holder; cases holder
  | handing v _ holder _ _ _ _ _ _ => rw [none] at holder; cases holder

theorem Ok.settle (ok : Ok s) (fresh : s.role t = .fresh) :
    Ok { s with count := 1, held := Function.update s.held t (s.held t + 1),
                role := Function.update s.role t .out } := by
  obtain ⟨holder, -, own, others⟩ := ok.acting (t := t) (by rw [fresh]; rfl)
  rw [fresh] at own
  have none : s.held t = 0 := own
  rw [none]
  exact own_step holder (fun _ => rfl) Nat.one_pos others

theorem Ok.again (ok : Ok s) (inc : s.role t = .inc) :
    Ok { s with count := s.count + 1, held := Function.update s.held t (s.held t + 1),
                role := Function.update s.role t .out } := by
  obtain ⟨holder, counted, -, others⟩ := ok.acting (t := t) (by rw [inc]; rfl)
  rw [counted (by rw [inc]; nofun)]
  exact own_step holder (fun _ => rfl) (Nat.succ_pos _) others

/-- One acquisition less; the last one starts a release. -/
theorem Ok.drop (ok : Ok s) (dec : s.role t = .dec) :
    Ok { s with count := s.count - 1, held := Function.update s.held t (s.held t - 1),
                role := Function.update s.role t (if s.count - 1 > 0 then .out else .releasing) } := by
  obtain ⟨holder, counted, -, others⟩ := ok.acting (t := t) (by rw [dec]; rfl)
  rw [counted (by rw [dec]; nofun)]
  split
  · rename_i more
    exact own_step holder (fun _ => rfl) more others
  · rename_i done
    exact own_step holder (fun _ => rfl) (Nat.eq_zero_of_not_pos done) others

/-- The owner starts a call. -/
theorem Ok.act (ok : Ok s) (holder : s.holder = some t) {role : Role T}
    (call : s.role t = .out ∧ (role = .inc ∨ role = .dec) ∨ s.role t = .woken ∧ role = .inc) :
    Ok (s.goto t role) := by
  have same : s.goto t role = { s with count := s.count, held := Function.update s.held t (s.held t),
                                       role := Function.update s.role t role } := by
    rw [Function.update_eq_self]
    rfl
  rw [same]
  cases ok with
  | free none _ => rw [none] at holder; cases holder
  | owned v holder' counted own others =>
      obtain rfl : v = t := Option.some.inj (holder'.symm.trans holder)
      obtain ⟨out, rfl | rfl⟩ | ⟨woken, rfl⟩ := call
      · rw [out] at counted
        exact own_step holder (fun _ => counted nofun) trivial others
      · rw [out] at counted own
        exact own_step holder (fun _ => counted nofun) own others
      · rw [woken] at counted
        exact own_step holder (fun _ => counted nofun) trivial others
  | handing v chosen holder' role' _ _ _ _ _ =>
      obtain rfl : v = t := Option.some.inj (holder'.symm.trans holder)
      obtain ⟨out, -⟩ | ⟨woken, -⟩ := call
      · rw [out] at role'
        cases role'
      · rw [woken] at role'
        cases role'

/-- A party that does not own the lock begins to wait, or stops.  No one begins while the lock is
about to be freed. -/
theorem Ok.bystand (ok : Ok s) (apart : s.holder ≠ some t) (taken : s.holder ≠ none)
    (old : (s.role t).isBystander = true) {role : Role T} (new : role.isBystander = true)
    (open_ : role = .queued → ∀ v chosen, s.role v ≠ .handing chosen) : Ok (s.goto t role) := by
  cases ok with
  | free none _ => exact absurd none taken
  | owned v holder counted own others =>
      have other : v ≠ t := fun same => apart (same ▸ holder)
      refine .owned v holder ?_ ?_ fun u different => ?_
      · simpa [State.goto, Function.update_of_ne other] using counted
      · simpa [State.goto, Function.update_of_ne other] using own
      · by_cases same : u = t
        · subst same
          simpa [State.goto, new] using (others u different).1
        · simpa [State.goto, Function.update_of_ne same] using others u different
  | handing v chosen holder role' count held last self others =>
      have other : v ≠ t := fun same => apart (same ▸ holder)
      refine .handing v chosen holder ?_ count held ?_ self fun u different => ?_
      · simpa [State.goto, Function.update_of_ne other] using role'
      · intro freed u
        by_cases same : u = t
        · subst same
          simp only [State.goto, Function.update_self]
          exact fun queued => open_ queued v chosen role'
        · simpa [State.goto, Function.update_of_ne same] using last freed u
      · by_cases same : u = t
        · subst same
          refine ⟨(others u different).1, .inr ⟨?_, by simpa [State.goto] using new⟩⟩
          obtain ⟨-, ⟨-, woken⟩ | ⟨elsewhere, -⟩⟩ := others u different
          · rw [woken] at old
            cases old
          · exact elsewhere
        · simpa [State.goto, Function.update_of_ne same] using others u different

/-- The release chooses one that waits. -/
theorem Ok.choose (ok : Ok s) (releasing : s.role t = .releasing) (waits : s.role u = .queued) :
    Ok ((s.goto u .woken).goto t (.handing (some u))) := by
  obtain ⟨holder, counted, own, others⟩ := ok.acting (t := t) (by rw [releasing]; rfl)
  have other : u ≠ t := by
    intro same
    rw [same, releasing] at waits
    cases waits
  rw [releasing] at counted own
  refine .handing t (some u) holder ?_ ((counted nofun).trans own) own nofun
    (fun same => other (Option.some.inj same)) fun v different => ?_
  · simp [State.goto]
  · refine ⟨(others v different).1, ?_⟩
    by_cases same : v = u
    · subst same
      simp [State.goto, Function.update_of_ne different]
    · simpa [State.goto, Function.update_of_ne different, Function.update_of_ne same, Ne.symm same]
        using (others v different).2

/-- There is no one to choose. -/
theorem Ok.choose_none (ok : Ok s) (releasing : s.role t = .releasing)
    (empty : ∀ u, s.role u ≠ .queued) : Ok (s.goto t (.handing none)) := by
  obtain ⟨holder, counted, own, others⟩ := ok.acting (t := t) (by rw [releasing]; rfl)
  rw [releasing] at counted own
  refine .handing t none holder ?_ ((counted nofun).trans own) own (fun _ v => ?_) nofun
    fun v different => ⟨(others v different).1, .inr ⟨nofun, ?_⟩⟩
  · simp [State.goto]
  · by_cases same : v = t
    · subst same
      simp [State.goto]
    · simpa [State.goto, Function.update_of_ne same] using empty v
  · simpa [State.goto, Function.update_of_ne different] using (others v different).2

/-- The lock goes to the one that was chosen, or is free. -/
theorem Ok.pass (ok : Ok s) {chosen : Option T} (handing : s.role t = .handing chosen)
    (settled : ∀ u, s.role u ≠ .going) : Ok { s.goto t .out with holder := chosen } := by
  cases ok with
  | free _ others => rw [(others t).2] at handing; cases handing
  | owned v _ _ own others =>
      by_cases same : t = v
      · rw [← same, handing] at own
        exact own.elim
      · have bystander := (others t same).2
        rw [handing] at bystander
        cases bystander
  | handing v chosen' _ role count held last self others =>
      have mine : t = v := by
        by_contra different
        obtain ⟨-, ⟨-, woken⟩ | ⟨-, bystander⟩⟩ := others t different
        · rw [handing] at woken
          cases woken
        · rw [handing] at bystander
          cases bystander
      subst mine
      obtain rfl : chosen = chosen' := by
        rw [handing] at role
        exact Role.handing.inj role
      cases chosen with
      | none =>
          refine .free rfl fun u => ?_
          by_cases same : u = t
          · subst same
            exact ⟨held, by simp [State.goto]⟩
          · obtain ⟨none, ⟨elsewhere, -⟩ | ⟨-, bystander⟩⟩ := others u same
            · cases elsewhere
            · refine ⟨none, ?_⟩
              have waits := last rfl u
              have goes := settled u
              simp only [State.goto, Function.update_of_ne same]
              cases here : s.role u <;> simp [here, Role.isBystander] at bystander waits goes ⊢
      | some w =>
          have apart : w ≠ t := fun same => self (congrArg some same)
          obtain ⟨none, ⟨-, woken⟩ | ⟨elsewhere, -⟩⟩ := others w apart
          · refine .owned w rfl (fun _ => ?_) ?_ fun u different => ?_
            · exact count.trans none.symm
            · simpa [State.goto, Function.update_of_ne apart, woken, Own] using none
            · by_cases same : u = t
              · subst same
                exact ⟨held, by simp [State.goto, Role.isBystander]⟩
              · obtain ⟨none', ⟨elsewhere, -⟩ | ⟨-, bystander⟩⟩ := others u same
                · exact absurd (Option.some.inj elsewhere).symm different
                · exact ⟨none', by simpa [State.goto, Function.update_of_ne same] using bystander⟩
          · exact absurd rfl elsewhere

end Twan.Base.HandOff
