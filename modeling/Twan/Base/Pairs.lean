/-
# Twan.Base.Pairs -- two numbers in a row

The search for the lowest number that is in an ascending list with its successor, made on the
list two members at a time.  A pair that begins at an odd place is cut in two and missed:
`inTwos_iff` says that the search is right exactly when the lowest pair has an even number of
members below it.
-/
import Mathlib.Data.List.Range
import Mathlib.Algebra.Group.Nat.Even

namespace Twan.Base

set_option autoImplicit false

/-- The search for two numbers in a row, on the list taken two at a time. -/
def inTwos : List ℕ → Option ℕ
  | first :: next :: rest => if next = first + 1 then some first else inTwos rest
  | _ => none

/-- `b` is the lowest number that is a member with its successor. -/
def LowestPair (member : ℕ → Prop) (b : ℕ) : Prop :=
  (member b ∧ member (b + 1)) ∧ ∀ c < b, ¬ (member c ∧ member (c + 1))

/-- What the search is for. -/
def Answers (member : ℕ → Prop) : Option ℕ → Prop
  | some b => LowestPair member b
  | none => ∀ b, ¬ (member b ∧ member (b + 1))

theorem LowestPair.unique {member : ℕ → Prop} {b b' : ℕ} (pair : LowestPair member b)
    (pair' : LowestPair member b') : b = b' := by
  rcases Nat.lt_trichotomy b b' with less | same | more
  · exact absurd pair.1 (pair'.2 b less)
  · exact same
  · exact absurd pair'.1 (pair.2 b' more)

/-- What is found is a pair of the list, though not always the lowest. -/
theorem inTwos_some : ∀ {l : List ℕ} {b : ℕ}, inTwos l = some b → b ∈ l ∧ b + 1 ∈ l
  | [], _, found => by cases found
  | [_], _, found => by cases found
  | first :: next :: rest, b, found => by
      unfold inTwos at found
      split_ifs at found with adjacent
      · obtain rfl := Option.some.inj found
        subst adjacent
        simp
      · have inside := inTwos_some found
        exact ⟨by simp [inside.1], by simp [inside.2]⟩

theorem pair_cons_iff {first : ℕ} {rest : List ℕ} (ascending : (first :: rest).Pairwise (· < ·))
    (alone : first + 1 ∉ rest) (b : ℕ) :
    (b ∈ first :: rest ∧ b + 1 ∈ first :: rest) ↔ (b ∈ rest ∧ b + 1 ∈ rest) := by
  have later := (List.pairwise_cons.mp ascending).1
  simp only [List.mem_cons]
  constructor
  · rintro ⟨rfl | here, same | here'⟩
    · omega
    · exact absurd here' alone
    · have := later b here
      omega
    · exact ⟨here, here'⟩
  · rintro ⟨here, here'⟩
    exact ⟨.inr here, .inr here'⟩

theorem lowestPair_congr {member member' : ℕ → Prop}
    (same : ∀ b, (member b ∧ member (b + 1)) ↔ (member' b ∧ member' (b + 1))) (b : ℕ) :
    LowestPair member b ↔ LowestPair member' b := by
  simp only [LowestPair, same]

theorem answers_congr {member member' : ℕ → Prop}
    (same : ∀ b, (member b ∧ member (b + 1)) ↔ (member' b ∧ member' (b + 1))) (found : Option ℕ) :
    Answers member found ↔ Answers member' found := by
  cases found with
  | none => simp only [Answers, same]
  | some b => simp only [Answers, lowestPair_congr same]

/-- A pair at the head of an ascending list is the lowest. -/
theorem lowestPair_head {first : ℕ} {rest : List ℕ} (ascending : (first :: rest).Pairwise (· < ·))
    (here : first + 1 ∈ rest) : LowestPair (· ∈ first :: rest) first := by
  refine ⟨⟨List.mem_cons_self, List.mem_cons_of_mem _ here⟩, fun c below pair => ?_⟩
  rcases List.mem_cons.mp pair.1 with rfl | later
  · exact Nat.lt_irrefl _ below
  · exact Nat.lt_asymm below ((List.pairwise_cons.mp ascending).1 c later)

theorem countP_lt_eq_zero {b : ℕ} {l : List ℕ} (above : ∀ c ∈ l, b ≤ c) :
    l.countP (· < b) = 0 := by
  rw [List.countP_eq_zero]
  intro c here
  simp only [decide_eq_true_eq]
  exact Nat.not_lt.mpr (above c here)

/-- A pair whose first member was dropped is not found. -/
theorem not_answers_dropped {member : ℕ → Prop} {b : ℕ} {rest : List ℕ}
    (lowest : LowestPair member b) (dropped : b ∉ rest) : ¬ Answers member (inTwos rest) := by
  intro answers
  cases found : inTwos rest with
  | none =>
      rw [found] at answers
      exact answers b lowest.1
  | some b' =>
      rw [found] at answers
      have inside := (inTwos_some found).1
      rw [answers.unique lowest] at inside
      exact dropped inside

/-- **Two at a time finds the lowest pair exactly when an even number of members lies below it.** -/
theorem inTwos_iff : ∀ {l : List ℕ}, l.Pairwise (· < ·) →
    (Answers (· ∈ l) (inTwos l) ↔ ∀ b, LowestPair (· ∈ l) b → Even (l.countP (· < b)))
  | [], _ => by simp [Answers, inTwos, LowestPair]
  | [a], _ => by
      have none : ∀ b, ¬ (b ∈ [a] ∧ b + 1 ∈ [a]) := by
        rintro b ⟨here, here'⟩
        simp only [List.mem_singleton] at here here'
        omega
      exact iff_of_true none fun b pair => absurd pair.1 (none b)
  | first :: next :: rest, ascending => by
      have tail := (List.pairwise_cons.mp ascending).2
      have order := (List.pairwise_cons.mp ascending).1
      have order' := (List.pairwise_cons.mp tail).1
      have less := order next List.mem_cons_self
      unfold inTwos
      split_ifs with adjacent
      · subst adjacent
        have lowest := lowestPair_head ascending List.mem_cons_self
        refine iff_of_true lowest fun b pair => ?_
        obtain rfl := pair.unique lowest
        rw [countP_lt_eq_zero fun c here => ?_]
        · exact Even.zero
        · rcases List.mem_cons.mp here with rfl | later
          · exact Nat.le_refl _
          · exact Nat.le_of_lt (order c later)
      · have alone : first + 1 ∉ next :: rest := by
          intro here
          rcases List.mem_cons.mp here with rfl | later
          · exact adjacent rfl
          · have := order' _ later
            omega
        have same := pair_cons_iff ascending alone
        by_cases odd : next + 1 ∈ rest
        · -- The lowest pair begins with the second of the two, which is dropped.
          have lowest := (lowestPair_congr same next).mpr (lowestPair_head tail odd)
          have none := countP_lt_eq_zero fun c later => Nat.le_of_lt (order' c later)
          have count : (first :: next :: rest).countP (· < next) = 1 := by simp [less, none]
          refine iff_of_false (not_answers_dropped lowest fun here => ?_) fun even => ?_
          · exact Nat.lt_irrefl _ (order' next here)
          · have one := even next lowest
            rw [count] at one
            exact absurd one (by decide)
        · have same' : ∀ b, (b ∈ first :: next :: rest ∧ b + 1 ∈ first :: next :: rest) ↔
              (b ∈ rest ∧ b + 1 ∈ rest) := fun b =>
            (same b).trans (pair_cons_iff tail odd b)
          rw [answers_congr same', inTwos_iff (List.pairwise_cons.mp tail).2]
          apply forall_congr'
          intro b
          rw [lowestPair_congr same']
          apply imp_congr_right
          intro pair
          have higher := order' b pair.1.1
          have count : (first :: next :: rest).countP (· < b) = rest.countP (· < b) + 2 := by
            simp [higher, Nat.lt_trans less higher]
          have two : Even 2 := ⟨1, rfl⟩
          simp only [count, Nat.even_add, two, iff_true]

theorem countP_range_lt (member : ℕ → Bool) {b n : ℕ} (le : b ≤ n) :
    (List.range n).countP (fun c => decide (c < b) && member c) =
      (List.range b).countP member := by
  induction n, le using Nat.le_induction with
  | base =>
      apply List.countP_congr
      intro c below
      simp [List.mem_range.mp below]
  | succ n le ih =>
      rw [List.range_succ, List.countP_append, ih]
      simp [Nat.not_lt.mpr le]

end Twan.Base
