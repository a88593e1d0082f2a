/-
# Twan.Lib.Bmp512 -- bitmaps of 512 bits

`include/lib/dsa/bmp512.h`: two bitmaps of 256 bits.  `bits` is the ascending list of the set bits;
`ffs_eq` and `bits_unset` say what the search and the clearing of a bit are on it, and everything
above uses these and not the halves.

The search for two adjacent bits takes the set bits off a copy, lowest first and two at a time
(`ffs2_eq`).  A pair that begins at an even place of the list is found; one that begins at an odd
place is cut in two.  `ffs2_iff` is the exact condition.
-/
import Twan.Base.Pairs
import Twan.Lib.Bmp256

namespace Twan.Lib

open Twan.Base

set_option autoImplicit false

/-- `struct bmp512`. -/
structure Bmp512 where
  high256 : Bmp256
  low256 : Bmp256

namespace Bmp512

/-- `bmp512_set`. -/
def set (bmp : Bmp512) (bit : ℕ) : Bmp512 :=
  if 256 ≤ bit then { bmp with high256 := bmp.high256.set (Fin.ofNat 256 (bit - 256)) }
  else { bmp with low256 := bmp.low256.set (Fin.ofNat 256 bit) }

/-- `bmp512_unset`. -/
def unset (bmp : Bmp512) (bit : ℕ) : Bmp512 :=
  if 256 ≤ bit then { bmp with high256 := bmp.high256.unset (Fin.ofNat 256 (bit - 256)) }
  else { bmp with low256 := bmp.low256.unset (Fin.ofNat 256 bit) }

/-- `bmp512_ffs`; `none` is -1. -/
def ffs (bmp : Bmp512) : Option ℕ :=
  match bmp.low256.ffs with
  | some bit => some bit
  | none => bmp.high256.ffs.map (· + 256)

/-- `bmp512_fls`; `none` is -1. -/
def fls (bmp : Bmp512) : Option ℕ :=
  match bmp.high256.fls with
  | some bit => some (bit + 256)
  | none => bmp.low256.fls

/-- `bmp512_set_all`. -/
def full : Bmp512 := ⟨Bmp256.full, Bmp256.full⟩

/-- `bmp512_unset2`. -/
def unset2 (bmp : Bmp512) (firstBit : ℕ) : Bmp512 := (bmp.unset firstBit).unset (firstBit + 1)

/-- The loop of `bmp512_ffs2`, on the copy `bmp_tmp`. -/
def ffs2Loop : ℕ → Bmp512 → Option ℕ
  | 0, _ => none
  | fuel + 1, bmpTmp =>
      match bmpTmp.ffs with
      | none => none
      | some bit =>
          let bmpTmp := bmpTmp.unset bit
          match bmpTmp.ffs with
          | none => none
          | some next => if next = bit + 1 then some bit else ffs2Loop fuel (bmpTmp.unset next)

/-- `bmp512_ffs2`; `none` is -1.  A turn of the loop clears a bit, so 512 turns are enough. -/
def ffs2 (bmp : Bmp512) : Option ℕ := ffs2Loop 513 bmp

/-- `bmp512_ffs_unset`. -/
def ffsUnset (bmp : Bmp512) : Option ℕ × Bmp512 :=
  match bmp.ffs with
  | none => (none, bmp)
  | some bit => (some bit, bmp.unset bit)

/-- `bmp512_ffs2_unset2`. -/
def ffs2Unset2 (bmp : Bmp512) : Option ℕ × Bmp512 :=
  match bmp.ffs2 with
  | none => (none, bmp)
  | some bit => (some bit, bmp.unset2 bit)

/-! ## Single bits -/

/-- The bit of the map; there are none from 512 on. -/
def test (bmp : Bmp512) (bit : ℕ) : Bool :=
  if 256 ≤ bit then decide (bit < 512) && bmp.high256.test (Fin.ofNat 256 (bit - 256))
  else bmp.low256.test (Fin.ofNat 256 bit)

theorem ofNat_eq_iff {a b : ℕ} (small : a < 256) (small' : b < 256) :
    Fin.ofNat 256 a = Fin.ofNat 256 b ↔ a = b := by
  rw [Fin.ext_iff]
  show a % 256 = b % 256 ↔ a = b
  omega

theorem test_lt {bmp : Bmp512} {bit : ℕ} (here : test bmp bit = true) : bit < 512 := by
  unfold test at here
  split_ifs at here with high
  · exact of_decide_eq_true (Bool.and_eq_true_iff.mp here).1
  · omega

theorem test_set (bmp : Bmp512) {bit : ℕ} (small : bit < 512) (bit' : ℕ) :
    test (set bmp bit) bit' = (decide (bit' = bit) || test bmp bit') := by
  unfold test set
  split_ifs with high' high high
  · by_cases small' : bit' < 512
    · have same := ofNat_eq_iff (show bit' - 256 < 256 by omega) (show bit - 256 < 256 by omega)
      have shift : bit' - 256 = bit - 256 ↔ bit' = bit := by omega
      simp only [Bmp256.test_set, same, shift, small', decide_true, Bool.true_and]
    · have apart : bit' ≠ bit := by omega
      simp only [small', apart, decide_false, Bool.false_and, Bool.or_false]
  · have apart : bit' ≠ bit := by omega
    rw [decide_eq_false apart, Bool.false_or]
  · have apart : bit' ≠ bit := by omega
    rw [decide_eq_false apart, Bool.false_or]
  · have same := ofNat_eq_iff (show bit' < 256 by omega) (show bit < 256 by omega)
    simp only [Bmp256.test_set, same]

theorem test_unset (bmp : Bmp512) {bit : ℕ} (small : bit < 512) (bit' : ℕ) :
    test (unset bmp bit) bit' = (!decide (bit' = bit) && test bmp bit') := by
  unfold test unset
  split_ifs with high' high high
  · by_cases small' : bit' < 512
    · have same := ofNat_eq_iff (show bit' - 256 < 256 by omega) (show bit - 256 < 256 by omega)
      have shift : bit' - 256 = bit - 256 ↔ bit' = bit := by omega
      simp only [Bmp256.test_unset, same, shift, small', decide_true, Bool.true_and]
    · simp only [small', decide_false, Bool.false_and, Bool.and_false]
  · have apart : bit' ≠ bit := by omega
    rw [decide_eq_false apart, Bool.not_false, Bool.true_and]
  · have apart : bit' ≠ bit := by omega
    rw [decide_eq_false apart, Bool.not_false, Bool.true_and]
  · have same := ofNat_eq_iff (show bit' < 256 by omega) (show bit < 256 by omega)
    simp only [Bmp256.test_unset, same]

theorem test_full {bit : ℕ} : test full bit = true ↔ bit < 512 := by
  unfold test full
  split_ifs with high
  · rw [Bmp256.test_full, Bool.and_true, decide_eq_true_iff]
  · rw [Bmp256.test_full]
    exact iff_of_true rfl (by omega)

/-- The halves side by side. -/
def value (bmp : Bmp512) : BitVec 512 := bmp.high256.value ++ bmp.low256.value

theorem getLsbD_value (bmp : Bmp512) (bit : ℕ) : bmp.value.getLsbD bit = test bmp bit := by
  rw [value, BitVec.getLsbD_append, test]
  split_ifs with low high high
  · omega
  · have same : Fin.ofNat 256 bit = ⟨bit, low⟩ := Fin.ext (Nat.mod_eq_of_lt low)
    rw [same]
    exact Bmp256.getLsbD_value bmp.low256 ⟨bit, low⟩
  · by_cases small : bit < 512
    · have inside : bit - 256 < 256 := by omega
      have same : Fin.ofNat 256 (bit - 256) = ⟨bit - 256, inside⟩ :=
        Fin.ext (Nat.mod_eq_of_lt inside)
      rw [same, decide_eq_true small, Bool.true_and]
      exact Bmp256.getLsbD_value bmp.high256 ⟨bit - 256, inside⟩
    · rw [decide_eq_false small, Bool.false_and]
      exact BitVec.getLsbD_of_ge _ _ (by omega)
  · omega

theorem lowest_ffs (bmp : Bmp512) : Lowest bmp.value (ffs bmp) := by
  have halves : ffs bmp = bmp.low256.ffs.or (bmp.high256.ffs.map (· + 256)) := by
    unfold ffs
    cases bmp.low256.ffs <;> rfl
  rw [halves]
  exact (Bmp256.lowest_ffs bmp.low256).append (Bmp256.lowest_ffs bmp.high256)

theorem highest_fls (bmp : Bmp512) : Highest bmp.value (fls bmp) := by
  have halves : fls bmp = (bmp.high256.fls.map (· + 256)).or bmp.low256.fls := by
    unfold fls
    cases bmp.high256.fls <;> rfl
  rw [halves]
  exact (Bmp256.highest_fls bmp.high256).append (Bmp256.highest_fls bmp.low256)

/-- `bmp512_ffs` finds the lowest set bit, and -1 when there is none. -/
theorem ffs_spec (bmp : Bmp512) :
    match ffs bmp with
    | none => ∀ bit, test bmp bit = false
    | some k => test bmp k = true ∧ ∀ bit < k, test bmp bit = false := by
  have lowest := lowest_ffs bmp
  simp only [← getLsbD_value]
  cases found : ffs bmp with
  | none =>
      rw [found] at lowest
      exact lowest
  | some k =>
      rw [found] at lowest
      exact lowest

/-! ## The set bits, in ascending order -/

def bits (bmp : Bmp512) : List ℕ := (List.range 512).filter (test bmp)

@[simp] theorem mem_bits {bmp : Bmp512} {bit : ℕ} : bit ∈ bits bmp ↔ test bmp bit = true := by
  rw [bits, List.mem_filter, List.mem_range]
  exact ⟨fun here => here.2, fun here => ⟨test_lt here, here⟩⟩

theorem bits_ascending (bmp : Bmp512) : (bits bmp).Pairwise (· < ·) :=
  List.pairwise_lt_range.filter _

theorem length_bits_le (bmp : Bmp512) : (bits bmp).length ≤ 512 := by
  have all := List.length_filter_le (test bmp) (List.range 512)
  rwa [List.length_range] at all

theorem ffs_eq (bmp : Bmp512) : ffs bmp = (bits bmp).head? := by
  have spec := ffs_spec bmp
  rw [bits, List.head?_filter]
  symm
  cases found : ffs bmp with
  | none =>
      rw [found] at spec
      exact List.find?_eq_none.mpr fun bit _ => by simp [spec bit]
  | some k =>
      rw [found] at spec
      have lt := test_lt spec.1
      rw [List.find?_range_eq_some]
      exact ⟨spec.1, List.mem_range.mpr lt, fun bit less => by simp [spec.2 bit less]⟩

theorem bits_unset (bmp : Bmp512) {bit : ℕ} {rest : List ℕ} (front : bits bmp = bit :: rest) :
    bits (unset bmp bit) = rest := by
  have small : bit < 512 := test_lt (mem_bits.mp (front ▸ List.mem_cons_self))
  have ascending := bits_ascending bmp
  rw [front, List.pairwise_cons] at ascending
  have cleared : test (unset bmp bit) = fun bit' => decide (bit' ≠ bit) && test bmp bit' := by
    funext bit'
    rw [test_unset bmp small, decide_not]
  rw [bits, cleared, ← List.filter_filter]
  change (bits bmp).filter _ = rest
  rw [front, List.filter_cons_of_neg (by simp)]
  apply List.filter_eq_self.mpr
  intro bit' later
  exact decide_eq_true (Nat.ne_of_gt (ascending.1 bit' later))

/-! ## Two adjacent bits -/

theorem ffs2Loop_eq (fuel : ℕ) (bmp : Bmp512) (enough : (bits bmp).length < fuel) :
    ffs2Loop fuel bmp = inTwos (bits bmp) := by
  induction fuel generalizing bmp with
  | zero => exact absurd enough (Nat.not_lt_zero _)
  | succ fuel ih =>
      unfold ffs2Loop
      rw [ffs_eq]
      cases front : bits bmp with
      | nil => rfl
      | cons bit rest =>
          have cleared := bits_unset bmp front
          rw [front, List.length_cons] at enough
          simp only [List.head?_cons, ffs_eq (unset bmp bit), cleared]
          cases rest with
          | nil => rfl
          | cons next rest =>
              have cleared' := bits_unset _ cleared
              rw [List.length_cons] at enough
              have turn := ih ((bmp.unset bit).unset next) (by rw [cleared']; omega)
              simp only [List.head?_cons, inTwos, turn, cleared']

theorem ffs2_eq (bmp : Bmp512) : ffs2 bmp = inTwos (bits bmp) :=
  ffs2Loop_eq 513 bmp (Nat.lt_succ_of_le (length_bits_le bmp))

/-- How many bits are set below `b`. -/
def setBelow (bmp : Bmp512) (b : ℕ) : ℕ := (List.range b).countP (test bmp)

theorem countP_bits (bmp : Bmp512) {b : ℕ} (le : b ≤ 512) :
    (bits bmp).countP (· < b) = setBelow bmp b := by
  rw [bits, List.countP_filter]
  exact countP_range_lt (test bmp) le

/-- `bmp512_ffs2` finds the lowest two adjacent bits, and -1 when there are none, exactly when an
even number of bits is set below the lowest two. -/
theorem ffs2_iff (bmp : Bmp512) : Answers (fun b => test bmp b = true) (ffs2 bmp) ↔
    ∀ b, LowestPair (fun b => test bmp b = true) b → Even (setBelow bmp b) := by
  have spec := inTwos_iff (bits_ascending bmp)
  simp only [mem_bits, ← ffs2_eq] at spec
  rw [spec]
  apply forall_congr'
  intro b
  apply imp_congr_right
  intro pair
  rw [countP_bits bmp (Nat.le_of_lt (test_lt pair.1.1))]

/-- What `bmp512_ffs2` finds is set, with the next bit. -/
theorem ffs2_some {bmp : Bmp512} {b : ℕ} (found : ffs2 bmp = some b) :
    test bmp b = true ∧ test bmp (b + 1) = true := by
  rw [ffs2_eq] at found
  have inside := inTwos_some found
  exact ⟨mem_bits.mp inside.1, mem_bits.mp inside.2⟩

theorem ffs_some {bmp : Bmp512} {b : ℕ} (found : ffs bmp = some b) : test bmp b = true := by
  have spec := ffs_spec bmp
  rw [found] at spec
  exact spec.1

theorem test_unset2 (bmp : Bmp512) {bit : ℕ} (small : bit + 1 < 512) (bit' : ℕ) :
    test (unset2 bmp bit) bit' =
      (!decide (bit' = bit ∨ bit' = bit + 1) && test bmp bit') := by
  rw [unset2, test_unset _ small, test_unset _ (by omega)]
  by_cases first : bit' = bit <;> by_cases second : bit' = bit + 1 <;> simp [first, second]

end Bmp512

end Twan.Lib
