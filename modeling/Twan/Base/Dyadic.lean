/-
# Twan.Base.Dyadic -- tilings of a power of two by dyadic blocks

A block of order `o` and index `i` is the set of cells `x` with `x / 2 ^ o = i`.
`Tiles K P` says that the blocks `P` holds, each under a tag (who owns it), lie in
the first `2 ^ K` cells and that every one of these is in exactly one of them.

`Tiles.replace` exchanges some blocks for others that cover the same cells;
`Tiles.retag`, `Tiles.split` and `Tiles.merge` are its uses: a block changes hands,
a block becomes its two halves, two halves become their parent.
-/
import Mathlib.Tactic.Ring
import Mathlib.Tactic.Linarith

namespace Twan.Base.Dyadic

set_option autoImplicit false

/-- The `idx`-th block of `2 ^ order` cells. -/
structure Block where
  order : ℕ
  idx : ℕ
  deriving DecidableEq, Repr

def Block.Covers (b : Block) (x : ℕ) : Prop := x / 2 ^ b.order = b.idx

def Block.Inside (b : Block) (K : ℕ) : Prop := b.order ≤ K ∧ b.idx < 2 ^ (K - b.order)

theorem Block.covers_start (b : Block) : b.Covers (b.idx * 2 ^ b.order) :=
  Nat.mul_div_cancel _ (Nat.two_pow_pos _)

theorem pow_split {o K : ℕ} (le : o ≤ K) : 2 ^ (K - o) * 2 ^ o = 2 ^ K := by
  rw [← pow_add, Nat.sub_add_cancel le]

theorem Block.start_lt {b : Block} {K : ℕ} (inside : b.Inside K) : b.idx * 2 ^ b.order < 2 ^ K := by
  rw [← pow_split inside.1]
  exact Nat.mul_lt_mul_of_pos_right inside.2 (Nat.two_pow_pos _)

/-- The end of a block inside is inside. -/
theorem Block.end_le {b : Block} {K : ℕ} (inside : b.Inside K) :
    (b.idx + 1) * 2 ^ b.order ≤ 2 ^ K := by
  rw [← pow_split inside.1]
  exact Nat.mul_le_mul_right _ inside.2

theorem half_div (x o : ℕ) : x / 2 ^ (o + 1) = x / 2 ^ o / 2 := by
  rw [pow_succ, Nat.div_div_eq_div_mul]

/-- The cells of a block are those of its two halves. -/
theorem covers_halves (o i x : ℕ) : (Block.mk (o + 1) i).Covers x ↔
    (Block.mk o (2 * i)).Covers x ∨ (Block.mk o (2 * i + 1)).Covers x := by
  simp only [Block.Covers, half_div]
  omega

theorem inside_half {o i K : ℕ} (inside : (Block.mk (o + 1) i).Inside K) {j : ℕ}
    (half : j = 2 * i ∨ j = 2 * i + 1) : (Block.mk o j).Inside K := by
  obtain ⟨le, lt⟩ := inside
  simp only at le lt
  have double : 2 ^ (K - o) = 2 * 2 ^ (K - (o + 1)) := by
    rw [← pow_succ', show K - (o + 1) + 1 = K - o by omega]
  refine ⟨by simp only; omega, ?_⟩
  show j < 2 ^ (K - o)
  rw [double]
  omega

theorem inside_parent {o i K : ℕ} (inside : (Block.mk o i).Inside K) (below : o < K) :
    (Block.mk (o + 1) (i / 2)).Inside K := by
  have lt : i < 2 ^ (K - o) := inside.2
  have double : 2 ^ (K - o) = 2 * 2 ^ (K - (o + 1)) := by
    rw [← pow_succ', show K - (o + 1) + 1 = K - o by omega]
  refine ⟨by simp only; omega, ?_⟩
  show i / 2 < 2 ^ (K - (o + 1))
  omega

variable {T : Type}

/-- The tagged blocks of `P` tile the first `2 ^ K` cells. -/
structure Tiles (K : ℕ) (P : T → Block → Prop) : Prop where
  inside : ∀ t b, P t b → b.Inside K
  cover : ∀ x, x < 2 ^ K → ∃ t b, P t b ∧ b.Covers x
  disjoint : ∀ x t b t' b', P t b → P t' b' → b.Covers x → b'.Covers x → t = t' ∧ b = b'

variable {K : ℕ} {P Q R A : T → Block → Prop}

theorem tiles_whole (t : T) : Tiles K fun t' b => t' = t ∧ b = ⟨K, 0⟩ := by
  refine ⟨?_, ?_, ?_⟩
  · rintro _ _ ⟨-, rfl⟩
    exact ⟨le_rfl, by simp⟩
  · intro x lt
    exact ⟨t, ⟨K, 0⟩, ⟨rfl, rfl⟩, Nat.div_eq_of_lt lt⟩
  · rintro x _ _ _ _ ⟨rfl, rfl⟩ ⟨rfl, rfl⟩ - -
    exact ⟨rfl, rfl⟩

theorem Tiles.congr (tiles : Tiles K P) (same : ∀ t b, Q t b ↔ P t b) : Tiles K Q := by
  have equal : Q = P := funext fun t => funext fun b => propext (same t b)
  exact equal ▸ tiles

/-- The blocks of `A` take the place of those of `R`, which cover the same cells. -/
theorem Tiles.replace (tiles : Tiles K P) (removed : ∀ t b, R t b → P t b)
    (after : ∀ t b, Q t b ↔ (P t b ∧ ¬ R t b) ∨ A t b) (inside : ∀ t b, A t b → b.Inside K)
    (same : ∀ x, (∃ t b, R t b ∧ b.Covers x) ↔ ∃ t b, A t b ∧ b.Covers x)
    (unique : ∀ x t b t' b', A t b → A t' b' → b.Covers x → b'.Covers x → t = t' ∧ b = b') :
    Tiles K Q := by
  -- a block that stays shares no cell with one that comes in
  have apart : ∀ x t b t' b', P t b → ¬ R t b → A t' b' → b.Covers x → b'.Covers x → False := by
    intro x t b t' b' held kept added covers covers'
    obtain ⟨u, c, old, covers''⟩ := (same x).mpr ⟨t', b', added, covers'⟩
    obtain ⟨rfl, rfl⟩ := tiles.disjoint x t b u c held (removed u c old) covers covers''
    exact kept old
  refine ⟨?_, ?_, ?_⟩
  · intro t b held
    rcases (after t b).mp held with ⟨before, -⟩ | added
    · exact tiles.inside t b before
    · exact inside t b added
  · intro x lt
    obtain ⟨t, b, held, covers⟩ := tiles.cover x lt
    by_cases old : R t b
    · obtain ⟨t', b', added, covers'⟩ := (same x).mp ⟨t, b, old, covers⟩
      exact ⟨t', b', (after t' b').mpr (.inr added), covers'⟩
    · exact ⟨t, b, (after t b).mpr (.inl ⟨held, old⟩), covers⟩
  · intro x t b t' b' held held' covers covers'
    rcases (after t b).mp held with ⟨before, kept⟩ | added <;>
      rcases (after t' b').mp held' with ⟨before', kept'⟩ | added'
    · exact tiles.disjoint x t b t' b' before before' covers covers'
    · exact (apart x t b t' b' before kept added' covers covers').elim
    · exact (apart x t' b' t b before' kept' added covers' covers).elim
    · exact unique x t b t' b' added added' covers covers'

/-- A block changes hands. -/
theorem Tiles.retag (tiles : Tiles K P) {s t : T} {b : Block} (held : P s b)
    (after : ∀ u c, Q u c ↔ (P u c ∧ ¬ (u = s ∧ c = b)) ∨ (u = t ∧ c = b)) : Tiles K Q := by
  refine tiles.replace ?_ after ?_ ?_ ?_
  · rintro u c ⟨rfl, rfl⟩
    exact held
  · rintro u c ⟨-, rfl⟩
    exact tiles.inside s c held
  · intro x
    constructor <;> rintro ⟨u, c, ⟨-, rfl⟩, covers⟩
    · exact ⟨t, c, ⟨rfl, rfl⟩, covers⟩
    · exact ⟨s, c, ⟨rfl, rfl⟩, covers⟩
  · rintro x u c u' c' ⟨rfl, rfl⟩ ⟨rfl, rfl⟩ - -
    exact ⟨rfl, rfl⟩

/-- A block becomes its two halves. -/
theorem Tiles.split (tiles : Tiles K P) {s l r : T} {o i : ℕ} (held : P s ⟨o + 1, i⟩)
    (after : ∀ u c, Q u c ↔ (P u c ∧ ¬ (u = s ∧ c = ⟨o + 1, i⟩)) ∨
      (u = l ∧ c = ⟨o, 2 * i⟩ ∨ u = r ∧ c = ⟨o, 2 * i + 1⟩)) : Tiles K Q := by
  have inside := tiles.inside s _ held
  refine tiles.replace ?_ after ?_ ?_ ?_
  · rintro u c ⟨rfl, rfl⟩
    exact held
  · rintro u c (⟨-, rfl⟩ | ⟨-, rfl⟩)
    · exact inside_half inside (.inl rfl)
    · exact inside_half inside (.inr rfl)
  · intro x
    constructor
    · rintro ⟨u, c, ⟨-, rfl⟩, covers⟩
      rcases (covers_halves o i x).mp covers with left | right
      · exact ⟨l, _, .inl ⟨rfl, rfl⟩, left⟩
      · exact ⟨r, _, .inr ⟨rfl, rfl⟩, right⟩
    · rintro ⟨u, c, ⟨-, rfl⟩ | ⟨-, rfl⟩, covers⟩
      · exact ⟨s, _, ⟨rfl, rfl⟩, (covers_halves o i x).mpr (.inl covers)⟩
      · exact ⟨s, _, ⟨rfl, rfl⟩, (covers_halves o i x).mpr (.inr covers)⟩
  · rintro x u c u' c' (⟨rfl, rfl⟩ | ⟨rfl, rfl⟩) (⟨rfl, rfl⟩ | ⟨rfl, rfl⟩) covers covers'
    · exact ⟨rfl, rfl⟩
    · simp only [Block.Covers] at covers covers'
      omega
    · simp only [Block.Covers] at covers covers'
      omega
    · exact ⟨rfl, rfl⟩

/-- Two halves become their parent. -/
theorem Tiles.merge (tiles : Tiles K P) {s l r : T} {o i : ℕ} (inside : (Block.mk (o + 1) i).Inside K)
    (left : P l ⟨o, 2 * i⟩) (right : P r ⟨o, 2 * i + 1⟩)
    (after : ∀ u c, Q u c ↔
      (P u c ∧ ¬ (u = l ∧ c = ⟨o, 2 * i⟩ ∨ u = r ∧ c = ⟨o, 2 * i + 1⟩)) ∨
        (u = s ∧ c = ⟨o + 1, i⟩)) : Tiles K Q := by
  refine tiles.replace ?_ after ?_ ?_ ?_
  · rintro u c (⟨rfl, rfl⟩ | ⟨rfl, rfl⟩)
    · exact left
    · exact right
  · rintro u c ⟨-, rfl⟩
    exact inside
  · intro x
    constructor
    · rintro ⟨u, c, ⟨-, rfl⟩ | ⟨-, rfl⟩, covers⟩
      · exact ⟨s, _, ⟨rfl, rfl⟩, (covers_halves o i x).mpr (.inl covers)⟩
      · exact ⟨s, _, ⟨rfl, rfl⟩, (covers_halves o i x).mpr (.inr covers)⟩
    · rintro ⟨u, c, ⟨-, rfl⟩, covers⟩
      rcases (covers_halves o i x).mp covers with first | second
      · exact ⟨l, _, .inl ⟨rfl, rfl⟩, first⟩
      · exact ⟨r, _, .inr ⟨rfl, rfl⟩, second⟩
  · rintro x u c u' c' ⟨rfl, rfl⟩ ⟨rfl, rfl⟩ - -
    exact ⟨rfl, rfl⟩

/-- A block is held once. -/
theorem Tiles.tag_unique (tiles : Tiles K P) {s t : T} {b : Block} (one : P s b) (two : P t b) :
    s = t :=
  (tiles.disjoint _ s b t b one two b.covers_start b.covers_start).1

end Twan.Base.Dyadic
