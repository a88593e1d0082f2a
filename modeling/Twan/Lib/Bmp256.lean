/-
# Twan.Lib.Bmp256 -- bitmaps of 256 bits

`include/lib/dsa/bmp256.h`: four words of 64 bits, tested, set and searched.  The
lemmas say what each operation does to `test`, and that the searches find the lowest
and the highest set bit; everything above uses these and not the words.
-/
import Mathlib.Logic.Function.Basic
import Twan.Lib.Bits

namespace Twan.Lib

open Twan.Base

set_option autoImplicit false

/-- `struct bmp256`. -/
abbrev Bmp256 := Fin 4 → BitVec 64

namespace Bmp256

def index (bit : Fin 256) : Fin 4 := ⟨bit / 64, by omega⟩

/-- `bmp256_test`. -/
def test (bmp : Bmp256) (bit : Fin 256) : Bool :=
  (bmp (index bit) >>> (bit.val % 64)) &&& 1#64 != 0#64

/-- `bmp256_set`. -/
def set (bmp : Bmp256) (bit : Fin 256) : Bmp256 :=
  Function.update bmp (index bit) (bmp (index bit) ||| 1#64 <<< (bit.val % 64))

/-- `bmp256_unset`. -/
def unset (bmp : Bmp256) (bit : Fin 256) : Bmp256 :=
  Function.update bmp (index bit) (bmp (index bit) &&& ~~~(1#64 <<< (bit.val % 64)))

/-- `bmp256_set_all`. -/
def full : Bmp256 := fun _ => BitVec.allOnes 64

/-- `bmp256_unset_all`. -/
def empty : Bmp256 := fun _ => 0#64

/-- `bmp256_and(bmp_dest, bmp_src)`. -/
def and (dest src : Bmp256) : Bmp256 := fun word => dest word &&& src word

/-- The mask of `bmp256_unset_all_above` for the word of the bit. -/
def upTo (bit : Fin 256) : BitVec 64 :=
  if bit.val % 64 = 63 then ~~~0#64 else 1#64 <<< (bit.val % 64 + 1) - 1#64

/-- `bmp256_unset_all_above`. -/
def unsetAllAbove (bmp : Bmp256) (bit : Fin 256) : Bmp256 :=
  let bmp := Function.update bmp (index bit) (bmp (index bit) &&& upTo bit)
  let bmp := if index bit < 3 then Function.update bmp 3 0#64 else bmp
  let bmp := if index bit < 2 then Function.update bmp 2 0#64 else bmp
  if index bit < 1 then Function.update bmp 1 0#64 else bmp

/-- `bmp256_ffs`; `none` is -1. -/
def ffs (bmp : Bmp256) : Option ℕ :=
  match ffs64 (bmp 0).toNat with
  | some base => some base
  | none =>
      match ffs64 (bmp 1).toNat with
      | some base => some (base + 64)
      | none =>
          match ffs64 (bmp 2).toNat with
          | some base => some (base + 128)
          | none => (ffs64 (bmp 3).toNat).map (· + 192)

/-- `bmp256_fls`; `none` is -1. -/
def fls (bmp : Bmp256) : Option ℕ :=
  match fls64 (bmp 3).toNat with
  | some base => some (base + 192)
  | none =>
      match fls64 (bmp 2).toNat with
      | some base => some (base + 128)
      | none =>
          match fls64 (bmp 1).toNat with
          | some base => some (base + 64)
          | none => fls64 (bmp 0).toNat

/-! ## Single bits -/

theorem test_eq (bmp : Bmp256) (bit : Fin 256) :
    test bmp bit = (bmp (index bit)).getLsbD (bit.val % 64) := by
  have low := BitVec.getLsbD_ushiftRight (bmp (index bit)) (bit.val % 64) 0
  unfold test
  rw [BitVec.and_one_eq_setWidth_ofBool_getLsbD, low, Nat.add_zero]
  cases (bmp (index bit)).getLsbD (bit.val % 64) <;> decide

/-- Two bits of one word at one offset are one bit. -/
theorem eq_of_index {a b : Fin 256} (word : index a = index b) (off : a.val % 64 = b.val % 64) :
    a = b := by
  have same : a.val / 64 = b.val / 64 := congrArg Fin.val word
  omega

theorem place_iff {a b : Fin 256} : (index a = index b ∧ a.val % 64 = b.val % 64) ↔ b = a := by
  constructor
  · intro same
    exact (eq_of_index same.1 same.2).symm
  · intro same
    subst same
    exact ⟨rfl, rfl⟩

theorem test_set (bmp : Bmp256) (bit bit' : Fin 256) :
    test (set bmp bit) bit' = (decide (bit' = bit) || test bmp bit') := by
  have written := getLsbD_update_set bmp (index bit) (index bit') (bit'.val % 64)
    (Nat.mod_lt bit.val (by decide))
  simp only [place_iff] at written
  simp only [test_eq]
  exact written

theorem test_unset (bmp : Bmp256) (bit bit' : Fin 256) :
    test (unset bmp bit) bit' = (!decide (bit' = bit) && test bmp bit') := by
  have written := getLsbD_update_clear bmp (index bit) (index bit') (k := bit.val % 64)
    (bit'.val % 64)
  simp only [place_iff] at written
  simp only [test_eq]
  exact written

theorem test_full (bit : Fin 256) : test full bit = true := by
  have off := Nat.mod_lt bit.val (show 64 > 0 by decide)
  rw [test_eq, full, BitVec.getLsbD_allOnes]
  simp [off]

theorem test_empty (bit : Fin 256) : test empty bit = false := by
  rw [test_eq, empty, BitVec.getLsbD_zero]

theorem test_and (dest src : Bmp256) (bit : Fin 256) :
    test (and dest src) bit = (test dest bit && test src bit) := by
  simp only [test_eq, and, BitVec.getLsbD_and]

theorem getLsbD_upTo (bit : Fin 256) {i : ℕ} (small : i < 64) :
    (upTo bit).getLsbD i = decide (i ≤ bit.val % 64) := by
  have off := Nat.mod_lt bit.val (show 64 > 0 by decide)
  unfold upTo
  split_ifs with last
  · have below : i ≤ bit.val % 64 := by omega
    rw [BitVec.not_zero, BitVec.getLsbD_allOnes]
    simp [small, below]
  · have word : (1#64 <<< (bit.val % 64 + 1) - 1#64).toNat = 2 ^ (bit.val % 64 + 1) - 1 := by
      have bound : 2 ^ (bit.val % 64 + 1) < 2 ^ 64 :=
        Nat.pow_lt_pow_right (by decide) (by omega)
      have positive : 0 < 2 ^ (bit.val % 64 + 1) := Nat.two_pow_pos _
      rw [BitVec.toNat_sub, BitVec.toNat_shiftLeft, Nat.shiftLeft_eq]
      simp only [BitVec.toNat_ofNat]
      omega
    rw [← BitVec.testBit_toNat, word, Nat.testBit_two_pow_sub_one]
    exact decide_eq_decide.mpr Nat.lt_succ_iff

/-- The words of `bmp256_unset_all_above`. -/
theorem unsetAllAbove_word (bmp : Bmp256) (bit : Fin 256) (w : Fin 4) : unsetAllAbove bmp bit w =
    if w = index bit then bmp w &&& upTo bit else if index bit < w then 0#64 else bmp w := by
  unfold unsetAllAbove
  generalize index bit = i
  have words : ∀ w : Fin 4, w = 0 ∨ w = 1 ∨ w = 2 ∨ w = 3 := by decide
  rcases words i with rfl | rfl | rfl | rfl <;> rcases words w with rfl | rfl | rfl | rfl <;> rfl

theorem test_unsetAllAbove (bmp : Bmp256) (bit bit' : Fin 256) :
    test (unsetAllAbove bmp bit) bit' = (test bmp bit' && decide (bit' ≤ bit)) := by
  have off' := Nat.mod_lt bit'.val (show 64 > 0 by decide)
  rw [test_eq, test_eq, unsetAllAbove_word]
  split_ifs with same above
  · have word : bit'.val / 64 = bit.val / 64 := congrArg Fin.val same
    rw [BitVec.getLsbD_and, getLsbD_upTo bit off']
    have order : bit'.val % 64 ≤ bit.val % 64 ↔ bit' ≤ bit := by
      rw [Fin.le_def]
      omega
    simp only [order]
  · have word : bit.val / 64 < bit'.val / 64 := above
    have higher : ¬ bit' ≤ bit := by
      rw [Fin.le_def]
      omega
    simp [higher]
  · have apart : bit'.val / 64 ≠ bit.val / 64 := fun e => same (Fin.ext e)
    have word : bit'.val / 64 ≤ bit.val / 64 := Nat.not_lt.mp above
    have lower : bit' ≤ bit := by
      rw [Fin.le_def]
      omega
    simp [lower]

/-! ## The searches -/

/-- The four words side by side. -/
def value (bmp : Bmp256) : BitVec 256 := bmp 3 ++ bmp 2 ++ bmp 1 ++ bmp 0

theorem getLsbD_value (bmp : Bmp256) (bit : Fin 256) : bmp.value.getLsbD bit = test bmp bit := by
  have word : ∀ {w : Fin 4}, bit.val / 64 = w.val → index bit = w := fun same => Fin.ext same
  rw [test_eq, value]
  simp only [BitVec.getLsbD_append]
  split_ifs with first second third
  · rw [word (w := 0) (show _ = 0 by omega), Nat.mod_eq_of_lt first]
  · have offset : bit.val % 64 = bit.val - 64 := by omega
    rw [word (w := 1) (show _ = 1 by omega), offset]
  · have offset : bit.val % 64 = bit.val - 64 - 64 := by omega
    rw [word (w := 2) (show _ = 2 by omega), offset]
  · have offset : bit.val % 64 = bit.val - 64 - 64 - 64 := by omega
    rw [word (w := 3) (show _ = 3 by omega), offset]

/-- `bmp256_ffs` goes through the words from the low one on. -/
theorem ffs_words (bmp : Bmp256) : ffs bmp = (ffs64 (bmp 0).toNat).or
    (((ffs64 (bmp 1).toNat).or (((ffs64 (bmp 2).toNat).or
      ((ffs64 (bmp 3).toNat).map (· + 64))).map (· + 64))).map (· + 64)) := by
  unfold ffs
  cases ffs64 (bmp 0).toNat <;> cases ffs64 (bmp 1).toNat <;> cases ffs64 (bmp 2).toNat <;>
    cases ffs64 (bmp 3).toNat <;> rfl

/-- `bmp256_fls` goes through them from the high one down. -/
theorem fls_words (bmp : Bmp256) : fls bmp =
    (((((((fls64 (bmp 3).toNat).map (· + 64)).or (fls64 (bmp 2).toNat)).map (· + 64)).or
      (fls64 (bmp 1).toNat)).map (· + 64)).or (fls64 (bmp 0).toNat)) := by
  unfold fls
  cases fls64 (bmp 3).toNat <;> cases fls64 (bmp 2).toNat <;> cases fls64 (bmp 1).toNat <;>
    cases fls64 (bmp 0).toNat <;> rfl

theorem lowest_ffs (bmp : Bmp256) : Lowest bmp.value (ffs bmp) := by
  have upper := (lowest_ffs64 (bmp 2)).append (lowest_ffs64 (bmp 3))
  rw [ffs_words]
  exact (lowest_ffs64 (bmp 0)).append ((lowest_ffs64 (bmp 1)).append upper)

theorem highest_fls (bmp : Bmp256) : Highest bmp.value (fls bmp) := by
  have upper := (highest_fls64 (bmp 3)).append (highest_fls64 (bmp 2))
  rw [fls_words]
  exact (upper.append (highest_fls64 (bmp 1))).append (highest_fls64 (bmp 0))

/-- `bmp256_ffs` finds the lowest set bit, and -1 when there is none. -/
theorem ffs_spec (bmp : Bmp256) :
    match ffs bmp with
    | none => ∀ bit, test bmp bit = false
    | some k => ∃ lt : k < 256, test bmp ⟨k, lt⟩ = true ∧
        ∀ bit : Fin 256, bit.val < k → test bmp bit = false := by
  have lowest := lowest_ffs bmp
  simp only [← getLsbD_value]
  cases found : ffs bmp with
  | none =>
      rw [found] at lowest
      exact fun bit => lowest bit
  | some k =>
      rw [found] at lowest
      exact ⟨BitVec.lt_of_getLsbD lowest.1, lowest.1, fun bit below => lowest.2 bit below⟩

/-- `bmp256_fls` finds the highest set bit, and -1 when there is none. -/
theorem fls_spec (bmp : Bmp256) :
    match fls bmp with
    | none => ∀ bit, test bmp bit = false
    | some k => ∃ lt : k < 256, test bmp ⟨k, lt⟩ = true ∧
        ∀ bit : Fin 256, k < bit.val → test bmp bit = false := by
  have highest := highest_fls bmp
  simp only [← getLsbD_value]
  cases found : fls bmp with
  | none =>
      rw [found] at highest
      exact fun bit => highest bit
  | some k =>
      rw [found] at highest
      exact ⟨BitVec.lt_of_getLsbD highest.1, highest.1, fun bit above => highest.2 bit above⟩

/-- `bmp256_fls` as a bit; `none` is -1. -/
def last (bmp : Bmp256) : Option (Fin 256) := (fls bmp).map (Fin.ofNat 256)

theorem last_eq_none {bmp : Bmp256} : last bmp = none ↔ ∀ bit, test bmp bit = false := by
  have spec := fls_spec bmp
  unfold last
  cases found : fls bmp with
  | none =>
      rw [found] at spec
      exact iff_of_true rfl spec
  | some k =>
      rw [found] at spec
      obtain ⟨lt, hit, _⟩ := spec
      refine iff_of_false (by simp) fun clear => ?_
      rw [clear] at hit
      cases hit

theorem last_eq_some {bmp : Bmp256} {bit : Fin 256} : last bmp = some bit ↔
    test bmp bit = true ∧ ∀ higher, bit < higher → test bmp higher = false := by
  have spec := fls_spec bmp
  unfold last
  cases found : fls bmp with
  | none =>
      rw [found] at spec
      refine iff_of_false (by simp) fun hit => ?_
      rw [spec bit] at hit
      cases hit.1
  | some k =>
      rw [found] at spec
      obtain ⟨lt, hit, above⟩ := spec
      have same : Fin.ofNat 256 k = ⟨k, lt⟩ := Fin.ext (Nat.mod_eq_of_lt lt)
      rw [Option.map_some, same, Option.some.injEq]
      constructor
      · rintro rfl
        exact ⟨hit, above⟩
      · rintro ⟨hit', above'⟩
        rcases Nat.lt_trichotomy k bit.val with less | equal | more
        · rw [above bit less] at hit'
          cases hit'
        · exact Fin.ext equal
        · rw [above' ⟨k, lt⟩ more] at hit
          cases hit

end Bmp256

end Twan.Lib
