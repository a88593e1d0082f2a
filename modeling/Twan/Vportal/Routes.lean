/-
# Twan.Vportal.Routes -- partitions, their routes and their teardown

The table of partitions with the allocation of vids (`vsched/vpartition.c`), the
route maps that `vpartition_setup` and `vemu_set_route` write, and the unwinding of
these maps in `vdo_finalize_teardown` (`vportal/vrecovery.c`).  Each partition has a
map of receivers and one of senders for each route type; `vdo_finalize_teardown`
walks them in eight loops of one shape, except that the second of the two ipi loops
walks the senders again.

Creation, a route change and a teardown each hold the locks they need from start to
end, so each is one step.  `no_dangling_authority` is about every run in which no
partition is torn down while it still has an ipi receiver.
-/
import Twan.Base.Run
import Twan.Lib.Bmp256

namespace Twan.Vportal.Routes

set_option autoImplicit false

open Twan.Base Twan.Lib

/-- `vroute_type_t`. -/
inductive RouteType where
  | ipi
  | tlbShootdown
  | readVcpuState
  | pvSpinKick
  deriving DecidableEq, Repr

/-- The two maps of a route type, `*_receivers` and `*_senders`. -/
inductive Side where
  | receivers
  | senders
  deriving DecidableEq, Repr

/-- The map on the other end of a route. -/
def Side.other : Side → Side
  | .receivers => .senders
  | .senders => .receivers

/-- The route maps of `struct vpartition`. -/
structure Vpartition where
  map : Side → RouteType → Bmp256

def Vpartition.blank : Vpartition := ⟨fun _ _ => Bmp256.empty⟩

/-- The part of `vpartition_precheck` that looks at the maps. -/
def Vpartition.precheck (p : Vpartition) : Bool :=
  [RouteType.ipi, .tlbShootdown, .readVcpuState, .pvSpinKick].all fun type =>
    (p.map .receivers type).ffs.isNone && (p.map .senders type).ffs.isNone

/-- `vpartition_setup`: the root may send on every route. -/
def Vpartition.setup (p : Vpartition) (rootVid : Fin 256) : Vpartition where
  map
    | .receivers, type => p.map .receivers type
    | .senders, type => (p.map .senders type).set rootVid

/-- The free vids and the partition table.  `fault` records a failed
`VDYNAMIC_ASSERT`. -/
structure Sys where
  vids : Bmp256
  table : Fin 256 → Option Vpartition
  rootVid : Fin 256
  fault : Bool

namespace Sys

variable (s : Sys)

def modify (vid : Fin 256) (f : Vpartition → Vpartition) : Sys :=
  { s with table := Function.update s.table vid ((s.table vid).map f) }

/-- `bmp256_set` in one map of partition `vid`. -/
def set (side : Side) (type : RouteType) (vid bit : Fin 256) : Sys :=
  s.modify vid fun p =>
    ⟨fun side' type' => if side' = side ∧ type' = type then (p.map side type).set bit
      else p.map side' type'⟩

/-- `bmp256_unset` in one map of partition `vid`. -/
def unset (side : Side) (type : RouteType) (vid bit : Fin 256) : Sys :=
  s.modify vid fun p =>
    ⟨fun side' type' => if side' = side ∧ type' = type then (p.map side type).unset bit
      else p.map side' type'⟩

/-- `bmp256_test` in one map of a partition, if there is one. -/
def test (side : Side) (type : RouteType) (vid bit : Fin 256) : Bool :=
  match s.table vid with
  | some p => (p.map side type).test bit
  | none => false

def live (vid : Fin 256) : Bool := (s.table vid).isSome

/-- `vpartition_id_alloc`; `none` is -1. -/
def idAlloc : Option (Sys × Fin 256) :=
  s.vids.ffs.map fun bit => ({ s with vids := s.vids.unset (Fin.ofNat 256 bit) }, Fin.ofNat 256 bit)

/-- `vpartition_id_free`. -/
def idFree (vid : Fin 256) : Sys := { s with vids := s.vids.set vid }

/-- `__vpartition_place`. -/
def place (vid : Fin 256) (p : Vpartition) : Sys :=
  { s with table := Function.update s.table vid (some p) }

/-- `__vpartition_remove`. -/
def remove (vid : Fin 256) : Sys := { s with table := Function.update s.table vid none }

/-- `vcreate_partition`; `none` is an error. -/
def createPartition (p : Vpartition) : Option (Sys × Fin 256) :=
  if p.precheck then
    match s.idAlloc with
    | none => none
    | some (s, vid) => some (s.place vid (p.setup s.rootVid), vid)
  else none

/-- `vset_route` and `vemu_set_route`; `none` is `-EINVAL`. -/
def setRoute (targetVid senderVid : Fin 256) (type : RouteType) (allow : Bool) : Option Sys :=
  if senderVid = s.rootVid ∨ senderVid = targetVid then none
  else if s.live senderVid ∧ s.live targetVid then
    if allow then
      some ((s.set .receivers type senderVid targetVid).set .senders type targetVid senderVid)
    else
      some ((s.unset .receivers type senderVid targetVid).unset .senders type targetVid senderVid)
  else none

/-- One of the loops of `vdo_finalize_teardown`: while the map on side `walk` has a
bit, take the highest, and unset the two ends of the route on side `drop`. -/
def unwind (walk drop : Side) (type : RouteType) (vid : Fin 256) : ℕ → Sys → Sys
  | 0, s => s
  | fuel + 1, s =>
      match (s.table vid).bind fun p => (p.map walk type).fls with
      | none => s
      | some bit =>
          let pairVid := Fin.ofNat 256 bit
          if s.live pairVid then
            unwind walk drop type vid fuel
              ((s.unset drop.other type pairVid vid).unset drop type vid pairVid)
          else { s with fault := true }

/-- `vdo_finalize_teardown`. -/
def finalizeTeardown (vid : Fin 256) : Sys :=
  let rootVid := s.rootVid
  if s.live vid then
    let s := s.unset .senders .ipi vid rootVid
    let s := s.unset .senders .tlbShootdown vid rootVid
    let s := s.unset .senders .readVcpuState vid rootVid
    let s := s.unset .senders .pvSpinKick vid rootVid
    let s := unwind .senders .senders .ipi vid 256 s
    -- the loop that should take the ipi receivers walks the senders
    let s := unwind .senders .receivers .ipi vid 256 s
    let s := unwind .senders .senders .tlbShootdown vid 256 s
    let s := unwind .receivers .receivers .tlbShootdown vid 256 s
    let s := unwind .senders .senders .readVcpuState vid 256 s
    let s := unwind .receivers .receivers .readVcpuState vid 256 s
    let s := unwind .senders .senders .pvSpinKick vid 256 s
    let s := unwind .receivers .receivers .pvSpinKick vid 256 s
    (s.remove vid).idFree vid
  else { s with fault := true }

end Sys

/-- The root partition may send to everyone. -/
def Vpartition.root : Vpartition where
  map
    | .receivers, _ => Bmp256.full
    | .senders, _ => Bmp256.empty

/-- `vpartition_table_init` and `root_partition_init`. -/
def Sys.initial : Sys :=
  let vid := Fin.ofNat 256 ((Bmp256.ffs Bmp256.full).getD 0)
  { vids := Bmp256.full.unset vid, table := Function.update (fun _ => none) vid (some .root),
    rootVid := vid, fault := false }

inductive Action where
  | create (p : Vpartition)
  | setRoute (targetVid senderVid : Fin 256) (type : RouteType) (allow : Bool)
  | teardown (vid : Fin 256)

/-- A failed request leaves the state; the root is never torn down, and nothing
happens after a failed assertion. -/
def step (s : Sys) (a : Action) : Option Sys :=
  if s.fault then none
  else
    match a with
    | .create p => some (((s.createPartition p).map Prod.fst).getD s)
    | .setRoute targetVid senderVid type allow =>
        some ((s.setRoute targetVid senderVid type allow).getD s)
    | .teardown vid => if s.live vid ∧ vid ≠ s.rootVid then some (s.finalizeTeardown vid) else none

/-! ## What the operations do to the maps -/

namespace Sys

variable {s : Sys} {side side' : Side} {type type' : RouteType} {a b a' b' vid : Fin 256}

theorem live_modify (f : Vpartition → Vpartition) : (s.modify vid f).live a = s.live a := by
  simp only [live, modify, Function.update_apply]
  split
  · rename_i same
    rw [same, Option.isSome_map]
  · rfl

theorem test_modify (f : Vpartition → Vpartition) (other : a ≠ vid) :
    (s.modify vid f).test side type a b = s.test side type a b := by
  simp only [test, modify, Function.update_of_ne other]

theorem live_set : (s.set side type a b).live vid = s.live vid := live_modify _

theorem live_unset : (s.unset side type a b).live vid = s.live vid := live_modify _

theorem test_unset : (s.unset side type a b).test side' type' a' b' =
    (s.test side' type' a' b' && !decide (side' = side ∧ type' = type ∧ a' = a ∧ b' = b)) := by
  by_cases here : a' = a
  · subst here
    simp only [test, unset, modify, Function.update_self]
    cases s.table a' with
    | none => rfl
    | some p =>
        simp only [Option.map_some]
        split
        · rename_i same
          obtain ⟨rfl, rfl⟩ := same
          rw [Bmp256.test_unset, Bool.and_comm]
          simp
        · rename_i other
          rw [not_and] at other
          by_cases sides : side' = side
          · simp [sides, other sides]
          · simp [sides]
  · rw [unset, test_modify _ here]
    simp [here]

theorem test_set (alive : s.live a = true) : (s.set side type a b).test side' type' a' b' =
    (s.test side' type' a' b' || decide (side' = side ∧ type' = type ∧ a' = a ∧ b' = b)) := by
  by_cases here : a' = a
  · subst here
    simp only [test, set, modify, Function.update_self]
    simp only [live] at alive
    cases found : s.table a' with
    | none =>
        rw [found] at alive
        cases alive
    | some p =>
        simp only [Option.map_some]
        split
        · rename_i same
          obtain ⟨rfl, rfl⟩ := same
          rw [Bmp256.test_set, Bool.or_comm]
          simp
        · rename_i other
          rw [not_and] at other
          by_cases sides : side' = side
          · simp [sides, other sides]
          · simp [sides]
  · rw [set, test_modify _ here]
    simp [here]

theorem live_of_test (set : s.test side type a b = true) : s.live a = true := by
  simp only [test] at set
  split at set
  · rename_i found
    simp [live, found]
  · cases set

theorem live_place (p : Vpartition) :
    (s.place vid p).live a = (decide (a = vid) || s.live a) := by
  simp only [live, place, Function.update_apply]
  split <;> simp_all

theorem test_place (p : Vpartition) : (s.place vid p).test side type a b =
    if a = vid then (p.map side type).test b else s.test side type a b := by
  simp only [test, place, Function.update_apply]
  by_cases here : a = vid <;> simp [here]

theorem live_remove : (s.remove vid).live a = (!decide (a = vid) && s.live a) := by
  simp only [live, remove, Function.update_apply]
  split <;> simp_all

theorem test_remove : (s.remove vid).test side type a b =
    (!decide (a = vid) && s.test side type a b) := by
  simp only [test, remove, Function.update_apply]
  by_cases here : a = vid <;> simp [here]

end Sys

/-- What a loop and a teardown leave alone. -/
structure Frame (s t : Sys) : Prop where
  vids : t.vids = s.vids
  rootVid : t.rootVid = s.rootVid
  fault : t.fault = s.fault
  live : ∀ a, t.live a = s.live a

theorem Frame.refl (s : Sys) : Frame s s := ⟨rfl, rfl, rfl, fun _ => rfl⟩

theorem Frame.trans {s t u : Sys} (one : Frame s t) (two : Frame t u) : Frame s u :=
  ⟨two.vids.trans one.vids, two.rootVid.trans one.rootVid, two.fault.trans one.fault,
    fun a => (two.live a).trans (one.live a)⟩

theorem frame_unset {s : Sys} {side : Side} {type : RouteType} {a b : Fin 256} :
    Frame s (s.unset side type a b) :=
  ⟨rfl, rfl, rfl, fun _ => Sys.live_unset⟩

/-- The maps after the routes of `vid` on one side are unwound. -/
def unwound (s : Sys) (side : Side) (type : RouteType) (vid : Fin 256) (side' : Side)
    (type' : RouteType) (a b : Fin 256) : Bool :=
  s.test side' type' a b && !decide (side' = side ∧ type' = type ∧ a = vid) &&
    !(decide (side' = side.other ∧ type' = type ∧ b = vid) && s.test side type vid a)

theorem unwound_iff {s : Sys} {side side' : Side} {type type' : RouteType} {vid a b : Fin 256} :
    unwound s side type vid side' type' a b = true ↔
      s.test side' type' a b = true ∧ ¬ (side' = side ∧ type' = type ∧ a = vid) ∧
        ¬ (side' = side.other ∧ type' = type ∧ b = vid ∧ s.test side type vid a = true) := by
  simp only [unwound, Bool.and_eq_true, Bool.not_eq_true', decide_eq_false_iff_not,
    Bool.and_eq_false_imp, decide_eq_true_eq, and_assoc]
  refine and_congr_right fun _ => and_congr_right fun _ => ?_
  constructor
  · rintro clear ⟨sides, types, same, set⟩
    rw [clear ⟨sides, types, same⟩] at set
    cases set
  · rintro clear ⟨sides, types, same⟩
    by_contra set
    exact clear ⟨sides, types, same, by simpa using set⟩

/-- Without a route there is nothing to unwind. -/
theorem unwound_of_clear {s : Sys} {side : Side} {type : RouteType} {vid : Fin 256}
    (clear : ∀ b, s.test side type vid b = false) (side' : Side) (type' : RouteType)
    (a b : Fin 256) : s.test side' type' a b = unwound s side type vid side' type' a b := by
  rw [Bool.eq_iff_iff, unwound_iff]
  constructor
  · intro set
    refine ⟨set, ?_, ?_⟩
    · rintro ⟨rfl, rfl, rfl⟩
      rw [clear] at set
      cases set
    · rintro ⟨-, -, -, other⟩
      rw [clear] at other
      cases other
  · exact And.left

theorem Side.other_ne (side : Side) : side.other ≠ side := by
  cases side <;> decide

/-- Unsetting both ends of one route and unwinding the rest. -/
theorem unwound_step {s : Sys} {side : Side} {type : RouteType} {vid pair : Fin 256}
    (set : s.test side type vid pair = true) (side' : Side) (type' : RouteType) (a b : Fin 256) :
    unwound ((s.unset side.other type pair vid).unset side type vid pair) side type vid
      side' type' a b = unwound s side type vid side' type' a b := by
  have apart := side.other_ne
  rw [Bool.eq_iff_iff, unwound_iff, unwound_iff]
  simp only [Sys.test_unset, Bool.and_eq_true, Bool.not_eq_true', decide_eq_false_iff_not]
  constructor
  · rintro ⟨⟨⟨old, first⟩, second⟩, own, others⟩
    refine ⟨old, own, ?_⟩
    rintro ⟨rfl, rfl, rfl, route⟩
    by_cases here : a = pair
    · exact first ⟨rfl, rfl, here, rfl⟩
    · refine others ⟨rfl, rfl, rfl, ⟨route, ?_⟩, ?_⟩
      · rintro ⟨sides, -⟩
        exact apart sides.symm
      · rintro ⟨-, -, -, same⟩
        exact here same
  · rintro ⟨old, own, others⟩
    refine ⟨⟨⟨old, ?_⟩, ?_⟩, own, ?_⟩
    · rintro ⟨rfl, rfl, rfl, rfl⟩
      exact others ⟨rfl, rfl, rfl, set⟩
    · rintro ⟨rfl, rfl, rfl, -⟩
      exact own ⟨rfl, rfl, rfl⟩
    · rintro ⟨rfl, rfl, rfl, ⟨route, -⟩, -⟩
      exact others ⟨rfl, rfl, rfl, route⟩

/-- A loop that walks the map whose bits it unsets clears that map, and with it the
other ends of its routes. -/
theorem unwind_spec {side : Side} {type : RouteType} {vid : Fin 256} (n : ℕ) {s : Sys}
    (low : ∀ b : Fin 256, n ≤ b.val → s.test side type vid b = false)
    (alive : ∀ b, s.test side type vid b = true → s.live b = true) :
    Frame s (Sys.unwind side side type vid n s) ∧
    ∀ side' type' a b, (Sys.unwind side side type vid n s).test side' type' a b =
      unwound s side type vid side' type' a b := by
  induction n generalizing s with
  | zero => exact ⟨Frame.refl s, unwound_of_clear fun b => low b (Nat.zero_le _)⟩
  | succ n ih =>
      unfold Sys.unwind
      cases found : s.table vid with
      | none => exact ⟨Frame.refl s, unwound_of_clear fun b => by simp [Sys.test, found]⟩
      | some p =>
          have tests : ∀ b, s.test side type vid b = (p.map side type).test b := fun b => by
            simp [Sys.test, found]
          have search := Bmp256.fls_spec (p.map side type)
          simp only [Option.bind_some]
          cases highest : (p.map side type).fls with
          | none =>
              rw [highest] at search
              exact ⟨Frame.refl s, unwound_of_clear fun b => (tests b).trans (search b)⟩
          | some bit =>
              rw [highest] at search
              obtain ⟨lt, set, above⟩ := search
              have same : Fin.ofNat 256 bit = ⟨bit, lt⟩ := Fin.ext (Nat.mod_eq_of_lt lt)
              rw [← tests] at set
              have reached : bit ≤ n := by
                by_contra more
                rw [low ⟨bit, lt⟩ (by simp only; omega)] at set
                cases set
              simp only [same, alive _ set, if_true]
              obtain ⟨frame, result⟩ :=
                ih (s := (s.unset side.other type ⟨bit, lt⟩ vid).unset side type vid ⟨bit, lt⟩)
                  (by
                    intro b ge
                    rw [Sys.test_unset, Sys.test_unset]
                    by_cases here : b = ⟨bit, lt⟩
                    · simp [here]
                    · have more : bit < b.val := by
                        have apart : b.val ≠ bit := fun e => here (Fin.ext e)
                        omega
                      rw [tests, above b more]
                      rfl)
                  (by
                    intro b route
                    rw [Sys.test_unset, Sys.test_unset, Bool.and_eq_true, Bool.and_eq_true] at route
                    rw [Sys.live_unset, Sys.live_unset]
                    exact alive b route.1.1)
              refine ⟨(frame_unset.trans frame_unset).trans frame, fun side' type' a b => ?_⟩
              rw [result, unwound_step set]

/-- A loop over a map without bits does nothing. -/
theorem unwind_of_clear {walk drop : Side} {type : RouteType} {vid : Fin 256} {s : Sys} {n : ℕ}
    (clear : ∀ b, s.test walk type vid b = false) : Sys.unwind walk drop type vid n s = s := by
  cases n with
  | zero => rfl
  | succ n =>
      unfold Sys.unwind
      cases found : s.table vid with
      | none => rfl
      | some p =>
          have search := Bmp256.fls_spec (p.map walk type)
          simp only [Option.bind_some]
          cases highest : (p.map walk type).fls with
          | none => rfl
          | some bit =>
              rw [highest] at search
              obtain ⟨lt, set, -⟩ := search
              have here := clear ⟨bit, lt⟩
              simp only [Sys.test, found] at here
              rw [here] at set
              cases set

/-- The routes of one type with `vid` at an end are gone from the other partitions'
maps, and nothing else has changed there. -/
structure Unwound (type : RouteType) (vid : Fin 256) (s t : Sys) : Prop where
  frame : Frame s t
  below : ∀ side type' a b, t.test side type' a b = true → s.test side type' a b = true
  others : ∀ side type' a b, type' ≠ type → t.test side type' a b = s.test side type' a b
  ends : ∀ side a b, a ≠ vid → t.test side type a b =
    (s.test side type a b && !(decide (b = vid) && s.test side.other type vid a))

section Loops

variable {type : RouteType} {vid : Fin 256} {s : Sys}

theorem unwound_senders (alive : ∀ b, s.test .senders type vid b = true → s.live b = true) :
    Frame s (Sys.unwind .senders .senders type vid 256 s) ∧
    ∀ side' type' a b, (Sys.unwind .senders .senders type vid 256 s).test side' type' a b =
      unwound s .senders type vid side' type' a b :=
  unwind_spec 256 (fun b ge => absurd b.isLt (Nat.not_lt.mpr ge)) alive

/-- The two loops of a route type. -/
theorem unwound_both
    (alive : ∀ side b, s.test side type vid b = true → s.live b = true) :
    Unwound type vid s (Sys.unwind .receivers .receivers type vid 256
      (Sys.unwind .senders .senders type vid 256 s)) := by
  obtain ⟨frame, first⟩ := unwound_senders (alive .senders)
  have alive' : ∀ b, (Sys.unwind .senders .senders type vid 256 s).test .receivers type vid b = true →
      (Sys.unwind .senders .senders type vid 256 s).live b = true := by
    intro b set
    rw [first, unwound_iff] at set
    rw [frame.live]
    exact alive .receivers b set.1
  obtain ⟨frame', second⟩ := unwind_spec 256
    (fun b ge => absurd b.isLt (Nat.not_lt.mpr ge)) alive'
  refine ⟨frame.trans frame', ?_, ?_, ?_⟩
  · intro side type' a b set
    rw [second, unwound_iff, first, unwound_iff] at set
    exact set.1.1
  · intro side type' a b other
    rw [second, unwound, first, unwound]
    simp [other]
  · intro side a b other
    rw [second, unwound, first, first, unwound, unwound]
    cases side <;> simp [other, Side.other]

/-- The two ipi loops, for a partition without ipi receivers. -/
theorem unwound_ipi (alive : ∀ b, s.test .senders .ipi vid b = true → s.live b = true)
    (none_ : ∀ b, s.test .receivers .ipi vid b = false) :
    Unwound .ipi vid s (Sys.unwind .senders .receivers .ipi vid 256
      (Sys.unwind .senders .senders .ipi vid 256 s)) := by
  obtain ⟨frame, first⟩ := unwound_senders alive
  have clear : ∀ b, (Sys.unwind .senders .senders .ipi vid 256 s).test .senders .ipi vid b = false := by
    intro b
    rw [first, unwound]
    simp
  rw [unwind_of_clear clear]
  refine ⟨frame, ?_, ?_, ?_⟩
  · intro side type' a b set
    rw [first, unwound_iff] at set
    exact set.1
  · intro side type' a b other
    rw [first, unwound]
    simp [other]
  · intro side a b other
    rw [first, unwound]
    cases side <;> simp [other, Side.other, none_]

end Loops

/-! ## The invariant -/

/-- What holds of the maps in every reachable state. -/
structure Good (s : Sys) : Prop where
  noFault : s.fault = false
  rootLive : s.live s.rootVid = true
  freeVids : ∀ v, s.vids.test v = true → s.live v = false
  symmetric : ∀ type a b, a ≠ s.rootVid → s.live a = true → s.live b = true →
    s.test .receivers type a b = s.test .senders type b a
  sendersLive : ∀ type a b, s.test .senders type a b = true → s.live b = true
  receiversLive : ∀ type a b, a ≠ s.rootVid → s.test .receivers type a b = true → s.live b = true

theorem good_initial : Good Sys.initial := by
  have first : Fin.ofNat 256 ((Bmp256.ffs Bmp256.full).getD 0) = 0 := by decide
  have start : Sys.initial = ⟨Bmp256.full.unset 0, Function.update (fun _ => none) 0 (some .root),
      0, false⟩ := by
    unfold Sys.initial
    rw [first]
  have lives : ∀ v, Sys.initial.live v = decide (v = 0) := by
    intro v
    rw [start]
    simp only [Sys.live, Function.update_apply]
    split <;> simp_all
  have senders : ∀ type a b, Sys.initial.test .senders type a b = false := by
    intro type a b
    rw [start]
    simp only [Sys.test, Function.update_apply]
    split
    · rename_i found
      split at found
      · cases found
        exact Bmp256.test_empty b
      · cases found
    · rfl
  have receivers : ∀ type a b, a ≠ 0 → Sys.initial.test .receivers type a b = false := by
    intro type a b other
    rw [start]
    simp [Sys.test, Function.update_of_ne other]
  have root : Sys.initial.rootVid = 0 := by rw [start]
  refine ⟨by rw [start], by rw [root, lives]; rfl, ?_, ?_, ?_, ?_⟩
  · intro v isFree
    rw [start] at isFree
    simp only [Bmp256.test_unset, Bmp256.test_full, Bool.and_true, Bool.not_eq_true',
      decide_eq_false_iff_not] at isFree
    rw [lives]
    exact decide_eq_false isFree
  · intro type a b other _ _
    rw [root] at other
    rw [receivers type a b other, senders]
  · intro type a b set
    rw [senders] at set
    cases set
  · intro type a b other set
    rw [root] at other
    rw [receivers type a b other] at set
    cases set

section Steps

variable {s t : Sys}

/-- A partition that passes the precheck has empty maps. -/
theorem Vpartition.precheck_empty {p : Vpartition} (checked : p.precheck = true) (side : Side)
    (type : RouteType) (b : Fin 256) : (p.map side type).test b = false := by
  have empty : ∀ bmp : Bmp256, bmp.ffs.isNone = true → bmp.test b = false := by
    intro bmp absent
    have search := Bmp256.ffs_spec bmp
    rw [Option.isNone_iff_eq_none.mp absent] at search
    exact search b
  simp only [Vpartition.precheck, List.all_cons, List.all_nil, Bool.and_true, Bool.and_eq_true]
    at checked
  apply empty
  cases side <;> cases type <;> simp [checked]

/-- `vcreate_partition` places the partition at a vid that was free. -/
theorem createPartition_spec {p : Vpartition} {vid : Fin 256}
    (created : s.createPartition p = some (t, vid)) :
    p.precheck = true ∧ s.vids.test vid = true ∧
      t = ({ s with vids := s.vids.unset vid } : Sys).place vid (p.setup s.rootVid) := by
  unfold Sys.createPartition Sys.idAlloc at created
  split at created
  case isFalse => cases created
  rename_i checked
  have search := Bmp256.ffs_spec s.vids
  cases lowest : s.vids.ffs with
  | none => rw [lowest] at created; cases created
  | some bit =>
      rw [lowest] at search created
      obtain ⟨lt, isFree, -⟩ := search
      have same : Fin.ofNat 256 bit = ⟨bit, lt⟩ := Fin.ext (Nat.mod_eq_of_lt lt)
      simp only [Option.map_some, same, Option.some.injEq, Prod.mk.injEq] at created
      obtain ⟨rfl, rfl⟩ := created
      exact ⟨checked, isFree, rfl⟩

/-- A new vid belongs to nobody, so no map of a live partition names it. -/
theorem Good.create (good : Good s) {p : Vpartition} {vid : Fin 256}
    (created : s.createPartition p = some (t, vid)) :
    Good t ∧ ∀ type a, a ≠ vid → t.test .senders type a vid = false := by
  obtain ⟨checked, isFree, placed⟩ := createPartition_spec created
  have unused := good.freeVids vid isFree
  have notRoot : vid ≠ s.rootVid := by
    rintro rfl
    rw [good.rootLive] at unused
    cases unused
  have root : t.rootVid = s.rootVid := by rw [placed]; rfl
  have lives : ∀ a, t.live a = (decide (a = vid) || s.live a) := fun a => by
    rw [placed, Sys.live_place]; rfl
  have rows : ∀ side type a b, a ≠ vid → t.test side type a b = s.test side type a b := by
    intro side type a b other
    rw [placed, Sys.test_place, if_neg other]
    rfl
  have receivers : ∀ type b, t.test .receivers type vid b = false := by
    intro type b
    rw [placed, Sys.test_place, if_pos rfl]
    exact Vpartition.precheck_empty checked .receivers type b
  have senders : ∀ type b, t.test .senders type vid b = decide (b = s.rootVid) := by
    intro type b
    rw [placed, Sys.test_place, if_pos rfl]
    simp only [Vpartition.setup, Bmp256.test_set]
    rw [Vpartition.precheck_empty checked, Bool.or_false]
  -- a bit for the new vid would have been a bit for a partition that is not there
  have unnamed : ∀ type a, s.test .senders type a vid = false := by
    intro type a
    by_contra set
    have alive := good.sendersLive type a vid (by simpa using set)
    rw [unused] at alive
    cases alive
  refine ⟨⟨by rw [placed]; exact good.noFault, ?_, ?_, ?_, ?_, ?_⟩, ?_⟩
  · rw [root, lives, good.rootLive, Bool.or_true]
  · intro v set
    rw [placed] at set
    change (s.vids.unset vid).test v = true at set
    rw [Bmp256.test_unset, Bool.and_eq_true, Bool.not_eq_true', decide_eq_false_iff_not] at set
    rw [lives, good.freeVids v set.2]
    simp [set.1]
  · intro type a b other aliveA aliveB
    rw [lives] at aliveA aliveB
    rw [root] at other
    by_cases newA : a = vid
    · subst newA
      rw [receivers]
      by_cases newB : b = a
      · rw [newB, senders, decide_eq_false notRoot]
      · rw [rows _ _ _ _ newB, unnamed]
    · rw [rows _ _ _ _ newA]
      by_cases newB : b = vid
      · subst newB
        rw [senders, decide_eq_false other]
        by_contra set
        have alive := good.receiversLive type a b other (by simpa using set)
        rw [unused] at alive
        cases alive
      · rw [rows _ _ _ _ newB]
        exact good.symmetric type a b other (by simpa [newA] using aliveA) (by simpa [newB] using aliveB)
  · intro type a b set
    rw [lives]
    by_cases newA : a = vid
    · subst newA
      rw [senders, decide_eq_true_eq] at set
      rw [set, good.rootLive, Bool.or_true]
    · rw [rows _ _ _ _ newA] at set
      rw [good.sendersLive type a b set, Bool.or_true]
  · intro type a b other set
    rw [lives]
    rw [root] at other
    by_cases newA : a = vid
    · subst newA
      rw [receivers] at set
      cases set
    · rw [rows _ _ _ _ newA] at set
      rw [good.receiversLive type a b other set, Bool.or_true]
  · intro type a other
    rw [rows _ _ _ _ other]
    exact unnamed type a

/-- Both ends of one route are written, the route being between live partitions. -/
theorem Good.reroute (good : Good s) {targetVid senderVid : Fin 256} (type : RouteType)
    (allow : Bool) (frame : Frame s t) (aliveS : s.live senderVid = true)
    (aliveT : s.live targetVid = true)
    (receivers : ∀ type' a b, t.test .receivers type' a b =
      if type' = type ∧ a = senderVid ∧ b = targetVid then allow else s.test .receivers type' a b)
    (senders : ∀ type' a b, t.test .senders type' b a =
      if type' = type ∧ a = senderVid ∧ b = targetVid then allow else s.test .senders type' b a) :
    Good t := by
  refine ⟨by rw [frame.fault]; exact good.noFault, ?_, ?_, ?_, ?_, ?_⟩
  · rw [frame.rootVid, frame.live]
    exact good.rootLive
  · intro v isFree
    rw [frame.vids] at isFree
    rw [frame.live]
    exact good.freeVids v isFree
  · intro type' a b other aliveA aliveB
    rw [frame.live] at aliveA aliveB
    rw [frame.rootVid] at other
    rw [receivers, senders, good.symmetric type' a b other aliveA aliveB]
  · intro type' b a set
    rw [frame.live]
    rw [senders] at set
    split at set
    · rename_i here
      rw [here.2.1]
      exact aliveS
    · exact good.sendersLive type' b a set
  · intro type' a b other set
    rw [frame.live]
    rw [frame.rootVid] at other
    rw [receivers] at set
    split at set
    · rename_i here
      rw [here.2.2]
      exact aliveT
    · exact good.receiversLive type' a b other set

theorem Good.setRoute (good : Good s) {targetVid senderVid : Fin 256} {type : RouteType}
    {allow : Bool} (changed : s.setRoute targetVid senderVid type allow = some t) : Good t := by
  unfold Sys.setRoute at changed
  split at changed
  · cases changed
  split at changed
  case isFalse => cases changed
  rename_i alive
  have aliveT : (s.set .receivers type senderVid targetVid).live targetVid = true := by
    rw [Sys.live_set]
    exact alive.2
  split at changed <;> cases changed
  · have frame : Frame s ((s.set .receivers type senderVid targetVid).set .senders type
        targetVid senderVid) := ⟨rfl, rfl, rfl, fun a => by rw [Sys.live_set, Sys.live_set]⟩
    refine good.reroute type true frame alive.1 alive.2 (fun type' a b => ?_) (fun type' a b => ?_)
    · rw [Sys.test_set aliveT, Sys.test_set alive.1]
      by_cases here : type' = type ∧ a = senderVid ∧ b = targetVid <;> simp [here]
    · rw [Sys.test_set aliveT, Sys.test_set alive.1]
      by_cases here : type' = type ∧ a = senderVid ∧ b = targetVid
      · simp [here]
      · have swapped : ¬ (type' = type ∧ b = targetVid ∧ a = senderVid) := by tauto
        simp [here, swapped]
  · have frame : Frame s ((s.unset .receivers type senderVid targetVid).unset .senders type
        targetVid senderVid) := frame_unset.trans frame_unset
    refine good.reroute type false frame alive.1 alive.2 (fun type' a b => ?_) (fun type' a b => ?_)
    · rw [Sys.test_unset, Sys.test_unset]
      by_cases here : type' = type ∧ a = senderVid ∧ b = targetVid <;> simp [here]
    · rw [Sys.test_unset, Sys.test_unset]
      by_cases here : type' = type ∧ a = senderVid ∧ b = targetVid
      · simp [here]
      · have swapped : ¬ (type' = type ∧ b = targetVid ∧ a = senderVid) := by tauto
        simp [here, swapped]

/-- The state in which the loops of a teardown start: the root is out of the senders. -/
theorem unset_root {vid root : Fin 256} (side : Side) (type : RouteType) (a b : Fin 256) :
    ((((s.unset .senders .ipi vid root).unset .senders .tlbShootdown vid root).unset
      .senders .readVcpuState vid root).unset .senders .pvSpinKick vid root).test side type a b =
    (s.test side type a b && !decide (side = .senders ∧ a = vid ∧ b = root)) := by
  rw [Sys.test_unset, Sys.test_unset, Sys.test_unset, Sys.test_unset]
  cases type <;> simp

/-- The four route types unwound one after the other. -/
theorem unwound_all {vid : Fin 256} {u u1 u2 u3 : Sys} (ipi : Unwound .ipi vid s u)
    (tlb : Unwound .tlbShootdown vid u u1) (read : Unwound .readVcpuState vid u1 u2)
    (kick : Unwound .pvSpinKick vid u2 u3) :
    Frame s u3 ∧ ∀ side type a b, a ≠ vid → u3.test side type a b =
      (s.test side type a b && !(decide (b = vid) && s.test side.other type vid a)) := by
  refine ⟨((ipi.frame.trans tlb.frame).trans read.frame).trans kick.frame, ?_⟩
  intro side type a b other
  cases type with
  | ipi =>
      rw [kick.others _ _ _ _ (by decide), read.others _ _ _ _ (by decide),
        tlb.others _ _ _ _ (by decide), ipi.ends _ _ _ other]
  | tlbShootdown =>
      rw [kick.others _ _ _ _ (by decide), read.others _ _ _ _ (by decide), tlb.ends _ _ _ other,
        ipi.others _ _ _ _ (by decide), ipi.others _ _ _ _ (by decide)]
  | readVcpuState =>
      rw [kick.others _ _ _ _ (by decide), read.ends _ _ _ other, tlb.others _ _ _ _ (by decide),
        tlb.others _ _ _ _ (by decide), ipi.others _ _ _ _ (by decide),
        ipi.others _ _ _ _ (by decide)]
  | pvSpinKick =>
      rw [kick.ends _ _ _ other, read.others _ _ _ _ (by decide), read.others _ _ _ _ (by decide),
        tlb.others _ _ _ _ (by decide), tlb.others _ _ _ _ (by decide),
        ipi.others _ _ _ _ (by decide), ipi.others _ _ _ _ (by decide)]

/-- A teardown without ipi receivers: no map names the partition any more. -/
theorem finalizeTeardown_spec (good : Good s) {vid : Fin 256} (alive : s.live vid = true)
    (notRoot : vid ≠ s.rootVid) (none_ : ∀ b, s.test .receivers .ipi vid b = false) :
    (s.finalizeTeardown vid).fault = false ∧ (s.finalizeTeardown vid).rootVid = s.rootVid ∧
    (s.finalizeTeardown vid).vids = s.vids.set vid ∧
    (∀ a, (s.finalizeTeardown vid).live a = (!decide (a = vid) && s.live a)) ∧
    ∀ side type a b, (s.finalizeTeardown vid).test side type a b =
      (!decide (a = vid) && s.test side type a b && !(decide (b = vid) &&
        (s.test side.other type vid a && !decide (side = .receivers ∧ a = s.rootVid)))) := by
  unfold Sys.finalizeTeardown
  simp only [if_pos alive]
  generalize start : (((s.unset .senders .ipi vid s.rootVid).unset .senders .tlbShootdown vid
    s.rootVid).unset .senders .readVcpuState vid s.rootVid).unset .senders .pvSpinKick vid
    s.rootVid = u
  have frame : Frame s u := by
    rw [← start]
    exact ((frame_unset.trans frame_unset).trans frame_unset).trans frame_unset
  have tests : ∀ side type a b, u.test side type a b =
      (s.test side type a b && !decide (side = .senders ∧ a = vid ∧ b = s.rootVid)) := by
    rw [← start]
    exact unset_root
  have below : ∀ side type a b, u.test side type a b = true → s.test side type a b = true := by
    intro side type a b set
    rw [tests, Bool.and_eq_true] at set
    exact set.1
  -- what the maps of vid name is live, before the loops and between them
  have named : ∀ {v : Sys}, Frame s v →
      (∀ side type a b, v.test side type a b = true → s.test side type a b = true) →
      ∀ type side b, v.test side type vid b = true → v.live b = true := by
    intro v same below type side b set
    rw [same.live]
    have old := below _ _ _ _ set
    cases side with
    | receivers => exact good.receiversLive type vid b notRoot old
    | senders => exact good.sendersLive type vid b old
  have ipi := unwound_ipi (named frame below .ipi .senders) (fun b => by rw [tests, none_]; rfl)
  have frame1 := frame.trans ipi.frame
  have below1 := fun side type a b set => below side type a b (ipi.below side type a b set)
  have tlb := unwound_both (named frame1 below1 .tlbShootdown)
  have frame2 := frame1.trans tlb.frame
  have below2 := fun side type a b set => below1 side type a b (tlb.below side type a b set)
  have read := unwound_both (named frame2 below2 .readVcpuState)
  have frame3 := frame2.trans read.frame
  have below3 := fun side type a b set => below2 side type a b (read.below side type a b set)
  have kick := unwound_both (named frame3 below3 .pvSpinKick)
  obtain ⟨whole, ends⟩ := unwound_all ipi tlb read kick
  generalize Sys.unwind .receivers .receivers .pvSpinKick vid 256 _ = w at *
  have all := frame.trans whole
  refine ⟨all.fault.trans good.noFault, all.rootVid, ?_, ?_, ?_⟩
  · show w.vids.set vid = _
    rw [all.vids]
  · intro a
    show (w.remove vid).live a = _
    rw [Sys.live_remove, all.live]
  · intro side type a b
    show (w.remove vid).test side type a b = _
    rw [Sys.test_remove]
    by_cases here : a = vid
    · simp [here]
    · rw [ends side type a b here, tests, tests]
      cases side <;> simp [here, Side.other]

/-- The partition's vid is free again and no live partition has a bit for it. -/
theorem Good.teardown (good : Good s) {vid : Fin 256} (alive : s.live vid = true)
    (notRoot : vid ≠ s.rootVid) (none_ : ∀ b, s.test .receivers .ipi vid b = false) :
    Good (s.finalizeTeardown vid) := by
  obtain ⟨fault, root, vids, lives, tests⟩ := finalizeTeardown_spec good alive notRoot none_
  -- by symmetry the loops reached every map that named the partition
  have senders : ∀ type a b, (s.finalizeTeardown vid).test .senders type a b =
      (!decide (a = vid) && !decide (b = vid) && s.test .senders type a b) := by
    intro type a b
    rw [tests]
    by_cases last : b = vid
    · subst last
      cases set : s.test .senders type a b with
      | false => simp
      | true =>
          have mirror := good.symmetric type b a notRoot alive (Sys.live_of_test set)
          simp [Side.other, mirror, set]
    · simp [last]
  have receivers : ∀ type a b, a ≠ s.rootVid → (s.finalizeTeardown vid).test .receivers type a b =
      (!decide (a = vid) && !decide (b = vid) && s.test .receivers type a b) := by
    intro type a b other
    rw [tests]
    by_cases last : b = vid
    · subst last
      cases set : s.test .receivers type a b with
      | false => simp
      | true =>
          have mirror := good.symmetric type a b other (Sys.live_of_test set) alive
          simp [Side.other, ← mirror, set, other]
    · simp [last]
  refine ⟨fault, ?_, ?_, ?_, ?_, ?_⟩
  · rw [root, lives, good.rootLive]
    simp [Ne.symm notRoot]
  · intro v isFree
    rw [vids, Bmp256.test_set, Bool.or_eq_true, decide_eq_true_eq] at isFree
    rw [lives]
    rcases isFree with same | old
    · simp [same]
    · rw [good.freeVids v old, Bool.and_false]
  · intro type a b other aliveA aliveB
    rw [root] at other
    rw [lives, Bool.and_eq_true] at aliveA aliveB
    rw [receivers type a b other, senders, good.symmetric type a b other aliveA.2 aliveB.2,
      Bool.and_comm (!decide (a = vid))]
  · intro type a b set
    rw [senders, Bool.and_eq_true, Bool.and_eq_true] at set
    rw [lives, set.1.2, good.sendersLive type a b set.2]
    rfl
  · intro type a b other set
    rw [root] at other
    rw [receivers type a b other, Bool.and_eq_true, Bool.and_eq_true] at set
    rw [lives, set.1.2, good.receiversLive type a b other set.2]
    rfl

end Steps

/-! ## Every run -/

/-- The authority that the route maps express. -/
structure NoDangling (s : Sys) : Prop where
  symmetric : ∀ type a b, a ≠ s.rootVid → b ≠ s.rootVid → s.live a = true → s.live b = true →
    (s.test .receivers type a b = true ↔ s.test .senders type b a = true)
  senders : ∀ type a b, s.live a = true → s.test .senders type a b = true → s.live b = true
  receivers : ∀ type a b, s.live a = true → a ≠ s.rootVid → s.test .receivers type a b = true →
    s.live b = true
  reused : ∀ p t vid, s.createPartition p = some (t, vid) →
    ∀ type a, a ≠ vid → t.test .senders type a vid = false

/-- No partition is torn down while it has an ipi receiver. -/
def NoIpiReceivers (s : Sys) : Action → Prop
  | .teardown vid => ∀ b, s.test .receivers .ipi vid b = false
  | _ => True

theorem step_good {s t : Sys} {a : Action} (good : Good s) (allowed : NoIpiReceivers s a)
    (moved : step s a = some t) : Good t := by
  unfold step at moved
  rw [if_neg (by simp [good.noFault])] at moved
  cases a with
  | create p =>
      simp only [Option.some.injEq] at moved
      subst moved
      cases created : s.createPartition p with
      | none => exact good
      | some result =>
          obtain ⟨t, vid⟩ := result
          exact (good.create created).1
  | setRoute targetVid senderVid type allow =>
      simp only [Option.some.injEq] at moved
      subst moved
      cases changed : s.setRoute targetVid senderVid type allow with
      | none => exact good
      | some t => exact good.setRoute changed
  | teardown vid =>
      simp only at moved
      split at moved <;> cases moved
      rename_i ready
      exact good.teardown ready.1 ready.2 allowed

theorem Good.noDangling {s : Sys} (good : Good s) : NoDangling s where
  symmetric := by
    intro type a b other _ aliveA aliveB
    rw [good.symmetric type a b other aliveA aliveB]
  senders := fun type a b _ set => good.sendersLive type a b set
  receivers := fun type a b _ other set => good.receiversLive type a b other set
  reused := fun _ _ _ created => (good.create created).2

/-- **No dangling authority**, in every run in which no partition is torn down while
it has an ipi receiver: the two ends of every route agree, every vid in a map is the
vid of a live partition, a reused vid comes without authority, and no assertion of a
teardown fails. -/
theorem no_dangling_authority {run : List Action} {s : Sys}
    (allowed : Along NoIpiReceivers step .initial run) (ran : exec step .initial run = some s) :
    NoDangling s ∧ s.fault = false := by
  have good : Good s :=
    exec_invariant_along (fun _ _ _ good allowed moved => step_good good allowed moved)
      good_initial allowed ran
  exact ⟨good.noDangling, good.noFault⟩

/-- Two partitions with a tlb shootdown route; the sender is torn down. -/
theorem no_dangling_authority_shootdown :
    ∃ s, exec step .initial [.create .blank, .create .blank, .setRoute 2 1 .tlbShootdown true,
        .teardown 1] = some s ∧ s.live 2 = true ∧ s.live 1 = false ∧ NoDangling s := by
  have ran : exec step .initial [.create .blank, .create .blank, .setRoute 2 1 .tlbShootdown true,
      .teardown 1] = some _ := rfl
  have allowed : Along NoIpiReceivers step .initial [.create .blank, .create .blank,
      .setRoute 2 1 .tlbShootdown true, .teardown 1] := by
    refine ⟨trivial, fun _ first => ⟨trivial, fun _ second => ⟨trivial, fun _ third => ⟨?_, ?_⟩⟩⟩⟩
    · obtain rfl := Option.some.inj first
      obtain rfl := Option.some.inj second
      obtain rfl := Option.some.inj third
      exact Bmp256.test_empty
    · intro _ _
      trivial
  exact ⟨_, ran, by decide, by decide, (no_dangling_authority allowed ran).1⟩

/-- Two partitions with an ipi route; the sender is torn down and its vid reused: the
new partition may send ipis to the other one. -/
theorem dangling_ipi_sender :
    ∃ s, exec step .initial [.create .blank, .create .blank, .setRoute 2 1 .ipi true, .teardown 1] =
        some s ∧ s.live 2 = true ∧ s.live 1 = false ∧ s.test .senders .ipi 2 1 = true ∧
      ¬ NoDangling s := by
  have ran : ∃ s, exec step .initial [.create .blank, .create .blank, .setRoute 2 1 .ipi true,
      .teardown 1] = some s ∧ s.live 2 = true ∧ s.live 1 = false ∧
      s.test .senders .ipi 2 1 = true := ⟨_, rfl, by decide, by decide, by decide⟩
  obtain ⟨s, done, alive, gone, stale⟩ := ran
  refine ⟨s, done, alive, gone, stale, fun noDangling => ?_⟩
  have named := noDangling.senders .ipi 2 1 alive stale
  rw [gone] at named
  cases named

end Twan.Vportal.Routes
