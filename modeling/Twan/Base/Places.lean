/-
# Twan.Base.Places -- things that are in one place at a time

Each place holds a list of things.  `Apart` says that nothing is in two places, or twice in one.
One thing comes, leaves or moves (`Goes`), and all others stay where they are: `Apart.goes` keeps
the things apart, and `Apart.move` says which changes of the lists are of this kind.
-/
import Mathlib.Data.List.Nodup

namespace Twan.Base

set_option autoImplicit false

universe u v

variable {P : Type u} {T : Type v}

structure Apart (contents : P → List T) : Prop where
  nodup : ∀ p, (contents p).Nodup
  unique : ∀ {t p q}, t ∈ contents p → t ∈ contents q → p = q

/-- The thing is in some place. -/
def Somewhere (contents : P → List T) (t : T) : Prop := ∃ p, t ∈ contents p

/-- Only `t` changes its place; it is then in `place`, if that is one. -/
structure Goes (t : T) (place : Option P) (contents contents' : P → List T) : Prop where
  nodup : ∀ p, (contents' p).Nodup
  others : ∀ u, u ≠ t → ∀ p, u ∈ contents' p ↔ u ∈ contents p
  here : ∀ p, t ∈ contents' p ↔ place = some p

variable {contents contents' : P → List T} {t u : T} {place : Option P}

theorem Apart.empty : Apart fun _ : P => ([] : List T) where
  nodup _ := List.nodup_nil
  unique inside := absurd inside List.not_mem_nil

theorem Apart.goes (apart : Apart contents) (goes : Goes t place contents contents') :
    Apart contents' where
  nodup := goes.nodup
  unique {u p q} left right := by
    by_cases same : u = t
    · subst same
      exact Option.some.inj (((goes.here p).mp left).symm.trans ((goes.here q).mp right))
    · exact apart.unique ((goes.others u same p).mp left) ((goes.others u same q).mp right)

/-- Every place keeps what it holds. -/
theorem Apart.perm (apart : Apart contents) (same : ∀ p, (contents' p).Perm (contents p)) :
    Apart contents' where
  nodup p := (same p).nodup_iff.mpr (apart.nodup p)
  unique left right := apart.unique ((same _).mem_iff.mp left) ((same _).mem_iff.mp right)

theorem Goes.somewhere_iff (goes : Goes t place contents contents') (other : u ≠ t) :
    Somewhere contents' u ↔ Somewhere contents u :=
  exists_congr fun p => goes.others u other p

theorem Goes.somewhere_self (goes : Goes t place contents contents') :
    Somewhere contents' t ↔ place.isSome = true := by
  rw [Option.isSome_iff_exists]
  exact exists_congr fun p => goes.here p

/-- `t` leaves where it was, if it was anywhere, and comes where it goes to, if it goes anywhere. -/
theorem Apart.move (apart : Apart contents) (source : Option P) {target : Option P}
    (fresh : source = none → ∀ p, t ∉ contents p)
    (loses : ∀ p, source = some p → (contents p).Perm (t :: contents' p))
    (gains : ∀ p, target = some p → (contents' p).Perm (t :: contents p))
    (moves : ∀ p, source = some p → target ≠ some p)
    (rest : ∀ p, source ≠ some p → target ≠ some p → contents' p = contents p) :
    Goes t target contents contents' := by
  have was : ∀ p, source ≠ some p → t ∉ contents p := by
    intro p elsewhere inside
    cases origin : source with
    | none => exact fresh origin p inside
    | some q =>
        have there : t ∈ contents q := (loses q origin).mem_iff.mpr List.mem_cons_self
        rw [origin] at elsewhere
        exact elsewhere (congrArg some (apart.unique there inside))
  refine ⟨fun p => ?_, fun u other p => ?_, fun p => ?_⟩
  · by_cases left : source = some p
    · exact (List.nodup_cons.mp ((loses p left).nodup_iff.mp (apart.nodup p))).2
    · by_cases came : target = some p
      · refine (gains p came).nodup_iff.mpr (List.nodup_cons.mpr ⟨was p left, apart.nodup p⟩)
      · rw [rest p left came]
        exact apart.nodup p
  · by_cases left : source = some p
    · rw [(loses p left).mem_iff, List.mem_cons]
      simp [other]
    · by_cases came : target = some p
      · rw [(gains p came).mem_iff, List.mem_cons]
        simp [other]
      · rw [rest p left came]
  · by_cases left : source = some p
    · have gone := (List.nodup_cons.mp ((loses p left).nodup_iff.mp (apart.nodup p))).1
      exact iff_of_false gone (moves p left)
    · by_cases came : target = some p
      · exact iff_of_true ((gains p came).mem_iff.mpr List.mem_cons_self) came
      · rw [rest p left came]
        exact iff_of_false (was p left) came

end Twan.Base
