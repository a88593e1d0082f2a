/-
# Twan.Kernel.ApBootSafe -- what a boot is safe from

`Inv` ties what is under way to each processor, and how far it is, to how far the loop of the booting
processor is.  `ap_boot_safe`: where no id that is woken reaches two processors or the one that boots,
every processor executes the blob only while it is there with its own stack in it, no two share a
stack, and only one of them is executing kernel code until the blob is gone.
-/
import Twan.Kernel.ApBoot

namespace Twan.Kernel.ApBoot

set_option autoImplicit false
set_option linter.unusedSectionVars false

open Twan.Base

section Proofs

variable {N : ℕ} {P : Type} [DecidableEq P] {cpus : PerCpuData N} {apicId : P → ℕ}
  {s t : Sys N P}

/-! ## What is under way to a processor -/

/-- No IPI will make the processor leave where it is. -/
structure Idle (inbox : List Ipi) (a : Ap N) : Prop where
  rests : a.Rests
  init : .init ∉ inbox
  startup : a = .waitSipi → .startup ∉ inbox

/-- At most one INIT is under way; a processor that waits is not started before it, and one that is
neither waiting nor halted has had it. -/
structure Inbox (inbox : List Ipi) (a : Ap N) : Prop where
  once : inbox.Pairwise fun x y => x = .init → y ≠ .init
  before : a = .waitSipi → inbox.Pairwise fun x y => x = .startup → y ≠ .init
  busy : ¬ a.Rests → .init ∉ inbox

section Inboxes

variable {inbox rest : List Ipi} {ipi : Ipi} {a : Ap N}

theorem Ap.IsHalted.rests (halted : a.IsHalted) : a.Rests := by
  cases a <;> trivial

theorem Ap.IsHalted.ne (halted : a.IsHalted) : a ≠ .waitSipi := by
  rintro rfl
  cases halted

theorem Idle.of_halted (halted : a.IsHalted) (init : .init ∉ inbox) : Idle inbox a :=
  ⟨halted.rests, init, fun waits => absurd waits halted.ne⟩

theorem take_of_halted (halted : a.IsHalted) (other : ipi ≠ .init) : Sys.take ipi a = a := by
  cases ipi with
  | init => exact absurd rfl other
  | deassert => rfl
  | startup => cases a <;> first | rfl | cases halted

theorem Idle.take (idle : Idle (ipi :: rest) a) : Sys.take ipi a = a := by
  cases ipi with
  | init => exact absurd List.mem_cons_self idle.init
  | deassert => rfl
  | startup =>
      cases a with
      | waitSipi => exact absurd List.mem_cons_self (idle.startup rfl)
      | _ => rfl

theorem Idle.tail (idle : Idle (ipi :: rest) a) : Idle rest a where
  rests := idle.rests
  init inside := idle.init (List.mem_cons_of_mem ipi inside)
  startup waits inside := idle.startup waits (List.mem_cons_of_mem ipi inside)

theorem Inbox.take (ok : Inbox (ipi :: rest) a) : Inbox rest (Sys.take ipi a) := by
  obtain ⟨first, once⟩ := List.pairwise_cons.mp ok.once
  have kept : Inbox rest a :=
    ⟨once, fun waits => (List.pairwise_cons.mp (ok.before waits)).2,
      fun busy inside => ok.busy busy (List.mem_cons_of_mem ipi inside)⟩
  cases ipi with
  | deassert => exact kept
  | init =>
      -- there is no second INIT behind it
      have none : .init ∉ rest := fun inside => first .init inside rfl rfl
      refine ⟨once, fun _ => ?_, fun _ => none⟩
      exact once.imp_of_mem fun _ inside _ _ same => none (same ▸ inside)
  | startup =>
      cases a with
      | waitSipi =>
          obtain ⟨behind, -⟩ := List.pairwise_cons.mp (ok.before rfl)
          exact ⟨once, nofun, fun _ inside => behind .init inside rfl rfl⟩
      | _ => exact kept

/-- INIT is sent to a processor to which nothing is under way. -/
theorem Inbox.sendInit (ok : Inbox inbox a) (idle : Idle inbox a) : Inbox (inbox ++ [.init]) a where
  once := by
    refine List.pairwise_append.mpr ⟨ok.once, List.pairwise_singleton _ _, fun x inside _ _ => ?_⟩
    rintro rfl
    exact absurd inside idle.init
  before waits := by
    refine List.pairwise_append.mpr
      ⟨ok.before waits, List.pairwise_singleton _ _, fun x inside _ _ => ?_⟩
    rintro rfl
    exact absurd inside (idle.startup waits)
  busy busy := absurd idle.rests busy

theorem Inbox.send (ok : Inbox inbox a) (other : ipi ≠ .init) : Inbox (inbox ++ [ipi]) a where
  once := by
    refine List.pairwise_append.mpr ⟨ok.once, List.pairwise_singleton _ _, fun _ _ y last _ => ?_⟩
    rwa [List.mem_singleton.mp last]
  before waits := by
    refine List.pairwise_append.mpr
      ⟨ok.before waits, List.pairwise_singleton _ _, fun _ _ y last _ => ?_⟩
    rwa [List.mem_singleton.mp last]
  busy busy := by
    rw [List.mem_append, List.mem_singleton]
    exact fun inside => inside.elim (ok.busy busy) fun same => other same.symm

end Inboxes

/-! ## The loop and its entries -/

theorem Bsp.Waits.woke {b : Bsp N} {i : Fin N} (waits : b.Waits i) : b.Woke i := by
  cases b with
  | wake j w => exact .inr waits
  | _ => cases waits

/-- The entries are woken in order. -/
theorem Bsp.Woke.le {b : Bsp N} {i j : Fin N} (woke : b.Woke j) (le : i ≤ j) : b.Woke i := by
  cases b with
  | save | copy => cases woke
  | loop k =>
      simp only [Bsp.Woke, Fin.le_def] at woke le ⊢
      omega
  | wake k w =>
      obtain earlier | ⟨rfl, sent⟩ := woke
      · exact .inl (lt_of_le_of_lt le earlier)
      · exact (lt_or_eq_of_le le).imp id fun same => ⟨same, sent⟩
  | multicore | restore | done | reset => trivial

theorem find_some {id : ℕ} {i : Fin N} (found : cpus.find id = some i) :
    cpus.lapicId i = id ∧ ∀ j < i, cpus.lapicId j ≠ id := by
  obtain ⟨same, before, after, split, others⟩ := List.find?_eq_some_iff_append.mp found
  refine ⟨by simpa using same, fun j lt => ?_⟩
  have sorted : (before ++ i :: after).Pairwise (· < ·) := split ▸ List.pairwise_lt_finRange N
  have inside : j ∈ before ++ i :: after := split ▸ List.mem_finRange j
  obtain inside | inside := List.mem_append.mp inside
  · simpa using others j inside
  · -- what comes later in the list is greater
    obtain rfl | inside := List.mem_cons.mp inside
    · exact absurd lt (lt_irrefl j)
    · obtain ⟨-, behind, -⟩ := List.pairwise_append.mp sorted
      exact absurd lt (lt_asymm ((List.pairwise_cons.mp behind).1 j inside))

theorem find_of_mem {id : ℕ} {i : Fin N} (same : cpus.lapicId i = id) : cpus.find id ≠ none := by
  intro none
  have others := List.find?_eq_none.mp none i (List.mem_finRange i)
  simp [same] at others

/-! ## The invariant -/

/-- What is at `WAKEUP_ADDR`. -/
def AreaOk (area : Area N) : Bsp N → Prop
  | .save | .copy | .done => area = .firmware
  | .loop _ | .multicore | .restore | .wake _ .apRsp => ∃ rsp, area = .blob rsp
  | .wake i _ => area = .blob (some i)
  | .reset => True

structure Inv (cpus : PerCpuData N) (apicId : P → ℕ) (s : Sys N P) : Prop where
  inbox : ∀ p, Inbox (s.inbox p) (s.ap p)
  idle : ∀ p, (∀ i, s.bsp.Waits i → apicId p ≠ cpus.lapicId i) → Idle (s.inbox p) (s.ap p)
  stack : ∀ p rsp, (s.ap p).stack = some rsp →
    ∃ i, rsp = some i ∧ cpus.Wakes i ∧ s.bsp.Woke i ∧ apicId p = cpus.lapicId i
  found : ∀ p i, (s.ap p).found = some i → cpus.find (apicId p) = some i
  /-- The flag of an entry is set by a processor that halts, while the loop waits for it. -/
  active : ∀ i, cpus.Wakes i → s.active i = true →
    s.bsp.Woke i ∧ ∃ p, cpus.find (apicId p) = some i ∧
      (s.bsp.Waits i → (s.ap p).IsHalted ∧ .init ∉ s.inbox p)
  passed : ∀ i, cpus.Wakes i → s.bsp.Passed i → s.active i = true
  area : AreaOk s.area s.bsp
  saved : s.bsp ≠ .save → s.saved = some .firmware
  wakes : ∀ i w, s.bsp = .wake i w → cpus.Wakes i
  bsp : s.bsp ≠ .reset
  intact : ∀ p, s.ap p ≠ .lost
  multicore : s.multicoreInitialized = true → s.bsp = .restore ∨ s.bsp = .done

theorem start_inv (single : Single cpus apicId) : Inv cpus apicId (start cpus : Sys N P) where
  inbox _ := ⟨.nil, fun _ => .nil, fun busy => absurd trivial busy⟩
  idle _ _ := ⟨trivial, List.not_mem_nil, fun _ => List.not_mem_nil⟩
  stack := nofun
  found := nofun
  active i wakes active := absurd (of_decide_eq_true active) (single.bsp i wakes)
  passed := nofun
  area := rfl
  saved fresh := absurd rfl fresh
  wakes := nofun
  bsp := nofun
  intact := nofun
  multicore := nofun

/-! ## Steps of a processor -/

theorem take_stack {ipi : Ipi} {a : Ap N} {rsp : Option (Fin N)}
    (stack : (Sys.take ipi a).stack = some rsp) : a.stack = some rsp := by
  cases ipi with
  | init => cases stack
  | deassert => exact stack
  | startup => cases a <;> exact stack

theorem take_found {ipi : Ipi} {a : Ap N} {i : Fin N} (found : (Sys.take ipi a).found = some i) :
    a.found = some i := by
  cases ipi with
  | init => cases found
  | deassert => exact found
  | startup => cases a <;> exact found

theorem take_ne_lost {ipi : Ipi} {a : Ap N} (intact : a ≠ .lost) : Sys.take ipi a ≠ .lost := by
  cases ipi with
  | init => exact nofun
  | deassert => exact intact
  | startup =>
      cases a with
      | lost => exact absurd rfl intact
      | _ => exact nofun

theorem Inv.waited (inv : Inv cpus apicId s) {p : P} (busy : ¬ Idle (s.inbox p) (s.ap p)) :
    ∃ i, s.bsp.Waits i ∧ apicId p = cpus.lapicId i := by
  by_contra none
  refine busy (inv.idle p fun i waits same => none ⟨i, waits, same⟩)

/-- While the loop waits, the blob has the stack of the entry. -/
theorem Inv.blob (inv : Inv cpus apicId s) {i : Fin N} (waits : s.bsp.Waits i) :
    s.area = .blob (some i) ∧ cpus.Wakes i := by
  have area := inv.area
  cases bsp : s.bsp with
  | wake j w =>
      rw [bsp] at waits area
      obtain ⟨rfl, apRsp, init⟩ := waits
      refine ⟨?_, inv.wakes i w bsp⟩
      cases w with
      | apRsp => exact absurd rfl apRsp
      | _ => exact area
  | _ => rw [bsp] at waits; cases waits

/-- A step of one processor. -/
theorem Inv.move (inv : Inv cpus apicId s) (p : P) (a : Ap N) (box : List Ipi) (inbox : Inbox box a)
    (idle : (∀ i, s.bsp.Waits i → apicId p ≠ cpus.lapicId i) → Idle box a)
    (stack : ∀ rsp, a.stack = some rsp →
      ∃ i, rsp = some i ∧ cpus.Wakes i ∧ s.bsp.Woke i ∧ apicId p = cpus.lapicId i)
    (found : ∀ i, a.found = some i → cpus.find (apicId p) = some i) (intact : a ≠ .lost)
    (kept : (s.ap p).IsHalted → .init ∉ s.inbox p → a.IsHalted ∧ .init ∉ box) :
    Inv cpus apicId { s with
      ap := Function.update s.ap p a, inbox := Function.update s.inbox p box } := by
  have both : ∀ q, Function.update s.ap p a q = a ∧ Function.update s.inbox p box q = box ∧ q = p ∨
      Function.update s.ap p a q = s.ap q ∧ Function.update s.inbox p box q = s.inbox q := by
    intro q
    by_cases same : q = p
    · subst same
      exact .inl ⟨Function.update_self q a s.ap, Function.update_self q box s.inbox, rfl⟩
    · exact .inr ⟨Function.update_of_ne same a s.ap, Function.update_of_ne same box s.inbox⟩
  refine ⟨fun q => ?_, fun q others => ?_, fun q rsp has => ?_, fun q i has => ?_,
    fun i wakes set => ?_, inv.passed, inv.area, inv.saved, inv.wakes, inv.bsp, fun q => ?_,
    inv.multicore⟩
  · change Inbox (Function.update s.inbox p box q) (Function.update s.ap p a q)
    obtain ⟨ap, box, -⟩ | ⟨ap, box⟩ := both q <;> rw [ap, box]
    · exact inbox
    · exact inv.inbox q
  · change Idle (Function.update s.inbox p box q) (Function.update s.ap p a q)
    obtain ⟨ap, box, rfl⟩ | ⟨ap, box⟩ := both q <;> rw [ap, box]
    · exact idle others
    · exact inv.idle q others
  · change (Function.update s.ap p a q).stack = some rsp at has
    obtain ⟨ap, -, rfl⟩ | ⟨ap, -⟩ := both q <;> rw [ap] at has
    · exact stack rsp has
    · exact inv.stack q rsp has
  · change (Function.update s.ap p a q).found = some i at has
    obtain ⟨ap, -, rfl⟩ | ⟨ap, -⟩ := both q <;> rw [ap] at has
    · exact found i has
    · exact inv.found q i has
  · obtain ⟨woke, q, first, halted⟩ := inv.active i wakes set
    refine ⟨woke, q, first, fun waits => ?_⟩
    change (Function.update s.ap p a q).IsHalted ∧ .init ∉ Function.update s.inbox p box q
    obtain ⟨ap, box, rfl⟩ | ⟨ap, box⟩ := both q <;> rw [ap, box]
    · exact kept (halted waits).1 (halted waits).2
    · exact halted waits
  · change Function.update s.ap p a q ≠ .lost
    obtain ⟨ap, -⟩ | ⟨ap, -⟩ := both q <;> rw [ap]
    · exact intact
    · exact inv.intact q

theorem Inv.deliver (inv : Inv cpus apicId s) {p : P} (moved : s.deliver p = some t) :
    Inv cpus apicId t := by
  unfold Sys.deliver at moved
  split at moved
  · cases moved
  · rename_i ipi rest box
    cases moved
    apply inv.move p
    · exact (box ▸ inv.inbox p).take
    · intro others
      have idle : Idle (ipi :: rest) (s.ap p) := box ▸ inv.idle p others
      rw [idle.take]
      exact idle.tail
    · exact fun rsp stack => inv.stack p rsp (take_stack stack)
    · exact fun i found => inv.found p i (take_found found)
    · exact take_ne_lost (inv.intact p)
    · intro halted none
      rw [box] at none
      have other : ipi ≠ .init := fun same => none (same ▸ List.mem_cons_self)
      rw [take_of_halted halted other]
      exact ⟨halted, fun inside => none (List.mem_cons_of_mem ipi inside)⟩

/-- A processor goes on in the blob, or in the kernel. -/
theorem Inv.go (inv : Inv cpus apicId s) {p : P} {a : Ap N} (busy : ¬ (s.ap p).Rests)
    (awake : a ≠ .waitSipi)
    (stack : ∀ rsp, a.stack = some rsp →
      ∃ i, rsp = some i ∧ cpus.Wakes i ∧ s.bsp.Woke i ∧ apicId p = cpus.lapicId i)
    (found : ∀ i, a.found = some i → cpus.find (apicId p) = some i) (intact : a ≠ .lost) :
    Inv cpus apicId (s.setAp p a) := by
  obtain ⟨i, waits, same⟩ := inv.waited fun idle => busy idle.rests
  have box := inv.inbox p
  have moved := inv.move p a (s.inbox p)
    ⟨box.once, fun waits => absurd waits awake, fun _ => box.busy busy⟩
    (fun others => absurd same (others i waits)) stack found intact
    (fun halted => absurd halted.rests busy)
  rwa [Function.update_eq_self] at moved

theorem Inv.apStep (inv : Inv cpus apicId s) {p : P} (moved : s.apStep cpus apicId p = some t) :
    Inv cpus apicId t := by
  unfold Sys.apStep at moved
  have blob : ¬ (s.ap p).Rests → ∃ i, s.area = .blob (some i) ∧ cpus.Wakes i ∧ s.bsp.Woke i ∧
      apicId p = cpus.lapicId i := by
    intro busy
    obtain ⟨i, waits, same⟩ := inv.waited fun idle => busy idle.rests
    exact ⟨i, (inv.blob waits).1, (inv.blob waits).2, waits.woke, same⟩
  cases ap : s.ap p with
  | wakeup =>
      have busy : ¬ (s.ap p).Rests := by
        rw [ap]
        exact id
      obtain ⟨i, area, wakes, woke, same⟩ := blob busy
      rw [ap, area] at moved
      cases moved
      refine inv.go busy nofun (fun rsp stack => ?_) nofun nofun
      cases stack
      exact ⟨i, rfl, wakes, woke, same⟩
  | stacked rsp =>
      have busy : ¬ (s.ap p).Rests := by
        rw [ap]
        exact id
      obtain ⟨i, area, -⟩ := blob busy
      rw [ap, area] at moved
      cases moved
      exact inv.go busy nofun (fun rsp stack => inv.stack p rsp (ap ▸ stack)) nofun nofun
  | entered rsp =>
      have busy : ¬ (s.ap p).Rests := by
        rw [ap]
        exact id
      have kept : ∀ rsp', some rsp = some rsp' → ∃ i, rsp' = some i ∧ cpus.Wakes i ∧
          s.bsp.Woke i ∧ apicId p = cpus.lapicId i := by
        intro rsp' stack
        refine inv.stack p rsp' ?_
        rw [ap]
        exact stack
      rw [ap] at moved
      dsimp only at moved
      split at moved
      · rename_i cpu find
        cases moved
        refine inv.go busy nofun kept (fun i found => ?_) nofun
        cases found
        exact find
      · cases moved
        exact inv.go busy nofun kept nofun nofun
  | setup rsp cpu =>
      have busy : ¬ (s.ap p).Rests := by
        rw [ap]
        exact id
      rw [ap] at moved
      cases moved
      have kept : ∀ rsp', some rsp = some rsp' → ∃ i, rsp' = some i ∧ cpus.Wakes i ∧
          s.bsp.Woke i ∧ apicId p = cpus.lapicId i := by
        intro rsp' stack
        refine inv.stack p rsp' ?_
        rw [ap]
        exact stack
      have found : cpus.find (apicId p) = some cpu := by
        apply inv.found p cpu
        rw [ap]
        rfl
      have next := inv.go (a := .halted rsp (some cpu)) busy nofun kept
        (fun i same => by cases same; exact found) nofun
      have set : ∀ i, s.active i = true → Function.update s.active cpu true i = true := by
        intro i set
        by_cases same : i = cpu
        · rw [same, Function.update_self]
        · rwa [Function.update_of_ne same]
      refine { next with active := fun i wakes active => ?_, passed := fun i wakes passed => ?_ }
      · by_cases same : i = cpu
        · subst same
          -- it was woken for an entry with this id, and the one it found is the first of them
          obtain ⟨j, -, -, woke, id⟩ := kept rsp rfl
          have first : i ≤ j := by
            apply le_of_not_gt
            intro earlier
            exact (find_some found).2 j earlier id.symm
          refine ⟨woke.le first, p, found, fun _ => ?_⟩
          have halted : (s.setAp p (.halted rsp (some i))).ap p = .halted rsp (some i) :=
            Function.update_self p _ s.ap
          refine ⟨?_, (inv.inbox p).busy busy⟩
          change ((s.setAp p (.halted rsp (some i))).ap p).IsHalted
          rw [halted]
          trivial
        · refine next.active i wakes ?_
          have active : Function.update s.active cpu true i = true := active
          rwa [Function.update_of_ne same] at active
      · exact set i (inv.passed i wakes passed)
  | waitSipi | halted _ _ | lost => rw [ap] at moved; cases moved

/-! ## Steps of the processor that boots -/

/-- A step that sends nothing. -/
theorem Inv.goto (inv : Inv cpus apicId s) {b : Bsp N} {area : Area N} {saved : Option (Area N)}
    {multicore : Bool}
    (idle : ∀ p, (∀ i, b.Waits i → apicId p ≠ cpus.lapicId i) → Idle (s.inbox p) (s.ap p))
    (woke : ∀ i, s.bsp.Woke i → b.Woke i) (waits : ∀ i, ¬ b.Waits i)
    (passed : ∀ i, cpus.Wakes i → b.Passed i → s.bsp.Passed i ∨ s.active i = true)
    (areaOk : AreaOk area b) (kept : saved = some .firmware) (wakes : ∀ i w, b = .wake i w → cpus.Wakes i)
    (alive : b ≠ .reset) (multi : multicore = true → b = .restore ∨ b = .done) :
    Inv cpus apicId
      { s with area := area, saved := saved, bsp := b, multicoreInitialized := multicore } where
  inbox := inv.inbox
  idle := idle
  stack p rsp has := by
    obtain ⟨i, same, wakes, sent, id⟩ := inv.stack p rsp has
    exact ⟨i, same, wakes, woke i sent, id⟩
  found := inv.found
  active i wakes set := by
    obtain ⟨sent, p, first, -⟩ := inv.active i wakes set
    exact ⟨woke i sent, p, first, fun here => absurd here (waits i)⟩
  passed i wakes done := (passed i wakes done).elim (inv.passed i wakes) id
  area := areaOk
  saved _ := kept
  wakes := wakes
  bsp := alive
  intact := inv.intact
  multicore := multi

theorem Inv.quiet (inv : Inv cpus apicId s) (waits : ∀ i, ¬ s.bsp.Waits i) (p : P) :
    Idle (s.inbox p) (s.ap p) :=
  inv.idle p fun i here => absurd here (waits i)

theorem reaches_iff {i : Fin N} {id : ℕ} (single : Single cpus apicId) (wakes : cpus.Wakes i) :
    reaches (cpus.lapicId i) id = true ↔ id = cpus.lapicId i := by
  simp [reaches, single.broadcast i wakes]

/-- INIT is sent to the processor of the entry. -/
theorem Inv.sendInit (inv : Inv cpus apicId s) (single : Single cpus apicId) {i : Fin N}
    (at' : s.bsp = .wake i .init) : Inv cpus apicId (s.sendIpi cpus apicId i .init .deassert) := by
  have wakes : cpus.Wakes i := inv.wakes i .init at'
  have spared : reaches (cpus.lapicId i) (cpus.lapicId cpus.bsp) = false := by
    rw [Bool.eq_false_iff]
    intro hit
    exact single.bsp i wakes ((reaches_iff single wakes).mp hit).symm
  have quiet : ∀ p, Idle (s.inbox p) (s.ap p) := by
    apply inv.quiet
    rw [at']
    exact fun j waits => waits.2.2 rfl
  have area := inv.area
  rw [at'] at area
  have sent : s.sendIpi cpus apicId i .init .deassert = { s with
      inbox := fun p => if reaches (cpus.lapicId i) (apicId p) then s.inbox p ++ [.init] else s.inbox p
      bsp := .wake i .deassert } := by
    simp [Sys.sendIpi, spared]
  rw [sent]
  refine ⟨fun p => ?_, fun p others => ?_, fun p rsp has => ?_, inv.found, fun j wakesJ set => ?_,
    fun j wakesJ passed => ?_, area, fun _ => ?_, fun j w same => ?_, nofun, inv.intact, fun set => ?_⟩
  · dsimp only
    split
    · exact (inv.inbox p).sendInit (quiet p)
    · exact inv.inbox p
  · have missed : apicId p ≠ cpus.lapicId i := others i ⟨rfl, nofun, nofun⟩
    dsimp only
    rw [if_neg (missed ∘ (reaches_iff single wakes).mp)]
    exact quiet p
  · obtain ⟨j, same, wakesJ, woke, own⟩ := inv.stack p rsp has
    rw [at'] at woke
    exact ⟨j, same, wakesJ, woke.imp id fun here => absurd rfl here.2.2, own⟩
  · obtain ⟨woke, p, first, -⟩ := inv.active j wakesJ set
    rw [at'] at woke
    -- the flag of this entry is not set yet
    have earlier : j < i := woke.elim id fun here => absurd rfl here.2.2
    exact ⟨.inl earlier, p, first, fun waits => absurd waits.1 (ne_of_lt earlier)⟩
  · refine inv.passed j wakesJ ?_
    rw [at']
    exact passed
  · refine inv.saved ?_
    rw [at']
    exact nofun
  · cases same
    exact wakes
  · have done := inv.multicore set
    rw [at'] at done
    exact absurd done (by simp)

/-- What follows INIT is sent to the processor of the entry. -/
theorem Inv.send (inv : Inv cpus apicId s) (single : Single cpus apicId) {i : Fin N} {w next : Wake}
    {ipi : Ipi} (at' : s.bsp = .wake i w) (after : w ≠ .apRsp ∧ w ≠ .init)
    (then' : next ≠ .apRsp ∧ next ≠ .init) (other : ipi ≠ .init) :
    Inv cpus apicId (s.sendIpi cpus apicId i ipi next) := by
  have wakes : cpus.Wakes i := inv.wakes i w at'
  have waits : s.bsp.Waits i := by
    rw [at']
    exact ⟨rfl, after⟩
  have same : ∀ j, (Bsp.wake i next).Waits j ↔ s.bsp.Waits j := by
    intro j
    rw [at']
    exact ⟨fun here => ⟨here.1, after⟩, fun here => ⟨here.1, then'⟩⟩
  have woke : ∀ j, (Bsp.wake i next).Woke j ↔ s.bsp.Woke j := by
    intro j
    rw [at']
    exact or_congr_right ⟨fun here => ⟨here.1, after⟩, fun here => ⟨here.1, then'⟩⟩
  have sent : s.sendIpi cpus apicId i ipi next = { s with
      inbox := fun p => if reaches (cpus.lapicId i) (apicId p) then s.inbox p ++ [ipi] else s.inbox p
      bsp := .wake i next } := by
    simp [Sys.sendIpi, other]
  rw [sent]
  refine ⟨fun p => ?_, fun p others => ?_, fun p rsp has => ?_, inv.found, fun j wakesJ set => ?_,
    fun j wakesJ passed => ?_, ?_, fun _ => ?_, fun j w same => ?_, nofun, inv.intact, fun set => ?_⟩
  · dsimp only
    split
    · exact (inv.inbox p).send other
    · exact inv.inbox p
  · have missed : apicId p ≠ cpus.lapicId i := others i ⟨rfl, then'⟩
    dsimp only
    rw [if_neg (missed ∘ (reaches_iff single wakes).mp)]
    exact inv.idle p fun j here => others j ((same j).mpr here)
  · obtain ⟨j, eq, wakesJ, before, id⟩ := inv.stack p rsp has
    exact ⟨j, eq, wakesJ, (woke j).mpr before, id⟩
  · obtain ⟨before, p, first, halted⟩ := inv.active j wakesJ set
    refine ⟨(woke j).mpr before, p, first, fun here => ?_⟩
    obtain ⟨rests, none⟩ := halted ((same j).mp here)
    refine ⟨rests, ?_⟩
    dsimp only
    split
    · rw [List.mem_append, List.mem_singleton]
      exact fun inside => inside.elim none fun eq => other eq.symm
    · exact none
  · refine inv.passed j wakesJ ?_
    rw [at']
    exact passed
  · have area := (inv.blob waits).1
    cases next with
    | apRsp => exact absurd rfl then'.1
    | init => exact absurd rfl then'.2
    | _ => exact area
  · refine inv.saved ?_
    rw [at']
    exact nofun
  · cases same
    exact wakes
  · have done := inv.multicore set
    rw [at'] at done
    exact absurd done (by simp)

/-- The loop goes on to wake an entry, or to the next one, or ends. -/
theorem Inv.loop (inv : Inv cpus apicId s) {i : ℕ} (bsp : s.bsp = .loop i)
    (moved : s.bspStep cpus apicId = some t) : Inv cpus apicId t := by
  unfold Sys.bspStep at moved
  have area := inv.area
  have multi := inv.multicore
  have saved := inv.saved
  have quiet := inv.quiet
  rw [bsp] at moved area multi quiet saved
  dsimp only at moved
  split at moved
  · rename_i inside
    split at moved
    · rename_i wakes
      cases moved
      refine inv.goto (fun p _ => quiet (fun _ => id) p) ?_ (fun _ here => here.2.1 rfl) ?_ area
        (saved nofun) (fun j w same => ?_) nofun fun set => absurd (multi set) (by simp)
      · rw [bsp]
        exact fun j woke => .inl woke
      · rw [bsp]
        exact fun j _ passed => .inl passed
      · cases same
        exact wakes
    · rename_i skipped
      cases moved
      refine inv.goto (fun p _ => quiet (fun _ => id) p) ?_ (fun _ => id) (fun j wakes passed => ?_)
        area (saved nofun) nofun nofun fun set => absurd (multi set) (by simp)
      · rw [bsp]
        exact fun j woke => Nat.lt_succ_of_lt woke
      · rw [bsp]
        obtain before | same := Nat.lt_succ_iff_lt_or_eq.mp passed
        · exact .inl before
        · exact absurd (same ▸ wakes : cpus.Wakes ⟨i, inside⟩) skipped
  · rename_i outside
    cases moved
    refine inv.goto (fun p _ => quiet (fun _ => id) p) (fun _ _ => trivial) (fun _ => id)
      (fun j _ _ => ?_) area (saved nofun) nofun nofun fun set => absurd (multi set) (by simp)
    rw [bsp]
    exact .inl (lt_of_lt_of_le j.isLt (Nat.le_of_not_lt outside))

/-- The processor that was waited for halts where it ends, and the loop goes on. -/
theorem Inv.spin (inv : Inv cpus apicId s) (single : Single cpus apicId) {i : Fin N}
    (bsp : s.bsp = .wake i .spin) (moved : s.bspStep cpus apicId = some t) : Inv cpus apicId t := by
  unfold Sys.bspStep at moved
  have wakes : cpus.Wakes i := inv.wakes i _ bsp
  have area := inv.area
  have multi := inv.multicore
  have saved := inv.saved
  rw [bsp] at moved area multi saved
  obtain ⟨set, ⟨⟩⟩ := Option.ite_none_right_eq_some.mp moved
  have waits : ∀ j, s.bsp.Waits j ↔ j = i := by
    intro j
    rw [bsp]
    exact ⟨And.left, fun same => ⟨same, nofun, nofun⟩⟩
  obtain ⟨-, p, first, halted⟩ := inv.active i wakes set
  obtain ⟨halts, none⟩ := halted ((waits i).mpr rfl)
  have id' := (find_some first).1
  refine inv.goto (fun q _ => ?_) ?_ (fun _ => id) ?_ ⟨some i, area⟩ (saved nofun) nofun nofun
    fun set => absurd (multi set) (by simp)
  · by_cases same : apicId q = cpus.lapicId i
    · -- the processor that was waited for
      obtain rfl := single.unique i p q wakes id'.symm same
      exact .of_halted halts none
    · refine inv.idle q fun j here => ?_
      rw [(waits j).mp here]
      exact same
  · rw [bsp]
    intro j woke
    refine Nat.lt_succ_of_le (woke.elim le_of_lt fun here => ?_)
    rw [here.1]
  · intro j _ passed
    rw [bsp]
    obtain before | same := Nat.lt_succ_iff_lt_or_eq.mp passed
    · exact .inl before
    · rw [Fin.ext same]
      exact .inr set

theorem Inv.bspStep (inv : Inv cpus apicId s) (single : Single cpus apicId)
    (moved : s.bspStep cpus apicId = some t) : Inv cpus apicId t := by
  have area := inv.area
  have multi := inv.multicore
  have saved := inv.saved
  have quiet := inv.quiet
  cases bsp : s.bsp with
  | save =>
      rw [Sys.bspStep, bsp] at moved
      rw [bsp] at area multi quiet
      cases moved
      have firmware : s.area = .firmware := area
      refine inv.goto (fun p _ => quiet (fun _ => id) p) ?_ (fun _ => id) (fun _ _ => False.elim) area
        (by rw [firmware]) nofun nofun fun set => absurd (multi set) (by simp)
      rw [bsp]
      exact fun _ => id
  | copy =>
      rw [Sys.bspStep, bsp] at moved
      rw [bsp] at area multi quiet saved
      cases moved
      refine inv.goto (fun p _ => quiet (fun _ => id) p) ?_ (fun _ => id) ?_ ⟨none, rfl⟩
        (saved nofun) nofun nofun fun set => absurd (multi set) (by simp)
      · rw [bsp]
        exact fun _ => False.elim
      · intro i _ passed
        have passed : i.val < 0 := passed
        omega
  | loop i => exact inv.loop bsp moved
  | wake i w =>
      have wakes : cpus.Wakes i := inv.wakes i w bsp
      cases w with
      | apRsp =>
          rw [Sys.bspStep, bsp] at moved
          rw [bsp] at area multi quiet saved
          cases moved
          obtain ⟨rsp, blob⟩ : ∃ rsp, s.area = .blob rsp := area
          refine inv.goto (fun p _ => quiet (fun _ here => here.2.1 rfl) p) ?_
            (fun _ here => here.2.2 rfl) ?_ ?_ (saved nofun) (fun j w same => ?_) nofun
            fun set => absurd (multi set) (by simp)
          · rw [bsp]
            exact fun j woke => woke.imp id fun here => absurd rfl here.2.1
          · rw [bsp]
            exact fun j _ passed => .inl passed
          · rw [blob]
            rfl
          · cases same
            exact wakes
      | init =>
          rw [Sys.bspStep, bsp] at moved
          cases moved
          exact inv.sendInit single bsp
      | deassert | startup | again =>
          rw [Sys.bspStep, bsp] at moved
          cases moved
          exact inv.send single bsp ⟨nofun, nofun⟩ ⟨nofun, nofun⟩ nofun
      | spin => exact inv.spin single bsp moved
  | multicore =>
      rw [Sys.bspStep, bsp] at moved
      rw [bsp] at area multi quiet saved
      cases moved
      refine inv.goto (fun p _ => quiet (fun _ => id) p) (fun _ _ => trivial) (fun _ => id) ?_ area
        (saved nofun) nofun nofun fun _ => .inl rfl
      rw [bsp]
      exact fun _ _ _ => .inl trivial
  | restore =>
      rw [Sys.bspStep, bsp] at moved
      rw [bsp] at area multi quiet saved
      cases moved
      refine inv.goto (fun p _ => quiet (fun _ => id) p) (fun _ _ => trivial) (fun _ => id) ?_ ?_
        (saved nofun) nofun nofun fun _ => .inr rfl
      · rw [bsp]
        exact fun _ _ _ => .inl trivial
      · rw [saved nofun]
        rfl
  | done | reset => rw [Sys.bspStep, bsp] at moved; cases moved

theorem step_inv (single : Single cpus apicId) (s : Sys N P) (a : Action P) (t : Sys N P)
    (inv : Inv cpus apicId s) (moved : step cpus apicId s a = some t) : Inv cpus apicId t := by
  cases a with
  | bsp => exact inv.bspStep single moved
  | deliver p => exact inv.deliver moved
  | ap p => exact inv.apStep moved

theorem inv_of_run (single : Single cpus apicId) {run : List (Action P)}
    (ran : exec (step cpus apicId) (start cpus) run = some s) : Inv cpus apicId s :=
  exec_invariant (step_inv single) (start_inv single) ran

/-! ## What a boot is safe from -/

theorem Bsp.Waits.unique {b : Bsp N} {i j : Fin N} (left : b.Waits i) (right : b.Waits j) : i = j := by
  cases b with
  | wake k w => exact left.1.trans right.1.symm
  | _ => cases left

theorem Bsp.Waits.wake {b : Bsp N} {i : Fin N} (waits : b.Waits i) : ∃ w, b = .wake i w := by
  cases b with
  | wake k w => exact ⟨w, by rw [waits.1]⟩
  | _ => cases waits

theorem Ap.InBlob.busy {a : Ap N} (inside : a.InBlob) : ¬ a.Rests := by
  cases a <;> first | exact id | cases inside

theorem Inv.busy (inv : Inv cpus apicId s) {p : P} (busy : ¬ (s.ap p).Rests) :
    ∃ i, s.bsp.Waits i ∧ apicId p = cpus.lapicId i :=
  inv.waited fun idle => busy idle.rests

theorem Inv.safe (inv : Inv cpus apicId s) (single : Single cpus apicId) : Safe cpus apicId s where
  blob p inside := by
    obtain ⟨i, waits, same⟩ := inv.busy inside.busy
    exact ⟨i, (inv.blob waits).1, (inv.blob waits).2, same⟩
  intact := inv.intact
  stack p rsp has := by
    obtain ⟨i, eq, wakes, -, same⟩ := inv.stack p rsp has
    exact ⟨i, eq, wakes, same⟩
  apart p q rsp left right := by
    obtain ⟨i, rfl, wakes, -, first⟩ := inv.stack p rsp left
    obtain ⟨j, eq, -, -, second⟩ := inv.stack q _ right
    cases eq
    exact single.unique i p q wakes first second
  alone p q left right := by
    obtain ⟨i, waits, first⟩ := inv.busy left
    obtain ⟨j, waits', second⟩ := inv.busy right
    obtain rfl := waits.unique waits'
    exact single.unique i p q (inv.blob waits).2 first second
  waited p busy := by
    obtain ⟨i, waits, same⟩ := inv.busy busy
    obtain ⟨w, bsp⟩ := waits.wake
    exact ⟨i, w, bsp, same⟩
  bsp := inv.bsp
  multicore set i wakes := by
    refine inv.passed i wakes ?_
    obtain bsp | bsp := inv.multicore set <;> rw [bsp] <;> trivial
  done bsp := by
    have area := inv.area
    rw [bsp] at area
    refine ⟨area, fun p => ?_⟩
    have idle := inv.quiet (by rw [bsp]; exact fun _ => id) p
    exact ⟨idle.rests, idle.init, idle.startup⟩

/-- However the processors and the delivery of the IPIs are interleaved, nobody executes what is not
the blob, or on a stack that is not its own, or along with another before all are awake. -/
theorem ap_boot_safe (single : Single cpus apicId) {run : List (Action P)}
    (ran : exec (step cpus apicId) (start cpus) run = some s) : Safe cpus apicId s :=
  (inv_of_run single ran).safe single

/-- Three entries, the first of which is the one of the processor that boots. -/
def sample : PerCpuData 3 := ⟨fun i => i, fun _ => true, 0⟩

def sampleId (p : Fin 2) : ℕ := p + 1

theorem sample_single : Single sample sampleId := by
  constructor <;> decide

/-- A processor is woken and comes; its second startup IPI arrives when it has halted. -/
def wakeRun (p : Fin 2) : List (Action (Fin 2)) :=
  [.bsp, .bsp, .bsp, .deliver p, .bsp, .bsp, .deliver p, .deliver p, .ap p, .ap p, .bsp, .ap p,
    .ap p, .deliver p, .bsp]

def sampleRun : List (Action (Fin 2)) :=
  [.bsp, .bsp, .bsp] ++ wakeRun 0 ++ wakeRun 1 ++ [.bsp, .bsp, .bsp]

def sampleEnd : Sys 3 (Fin 2) :=
  (exec (step sample sampleId) (start sample) sampleRun).get (by decide)

theorem sample_ran : exec (step sample sampleId) (start sample) sampleRun = some sampleEnd :=
  (Option.some_get _).symm

theorem ap_boot_safe_three : sampleEnd.bsp = .done ∧ Safe sample sampleId sampleEnd :=
  ⟨by decide, ap_boot_safe sample_single sample_ran⟩

/-- An entry with the id 255: the INIT for it is a broadcast. -/
example : (exec (step ⟨fun i : Fin 2 => 255 * i.val, fun _ => true, 0⟩ fun _ : Fin 2 => 255)
    (start ⟨fun i => 255 * i.val, fun _ => true, 0⟩)
    [.bsp, .bsp, .bsp, .bsp, .bsp, .bsp]).map Sys.bsp = some .reset := by decide

end Proofs

end Twan.Kernel.ApBoot
