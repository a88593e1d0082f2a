/-
# Twan.Lib.Searches -- the bit searches as they are written

`std.h`, `bmp256.h` and `bmp512.h` with their masks, shifts and offsets, on words and with the `int`
that they return, -1 where there is no bit.  The rest of the development uses the searches of
`Twan.Lib.Bits`, `Bmp256` and `Bmp512`, whose masks are computed and whose -1 is `none`; here each is
shown to be the other (`ffs32_eq` and the like), step by step, since every mask is the one that is
computed (`Reads.ffsStep`, `ReadsDown.flsStep`).

`bit_searches`: they return the lowest and the highest set bit, and -1 exactly when none is set, and
`bmp256_unset_all_above` keeps the bits up to the given one.
-/
import Twan.Lib.Bmp512

namespace Twan.Lib.Searches

set_option autoImplicit false

open Twan.Base

/-! ## The searches -/

/-- `if (!(val & mask)) { val >>= n; bit += n; }`. -/
def ffsStep {w : ℕ} (mask : BitVec w) (n : ℕ) (s : BitVec w × Int) : BitVec w × Int :=
  if s.1 &&& mask = 0 then (s.1 >>> n, s.2 + n) else s

/-- `if (!(val & mask)) { val <<= n; bit -= n; }`. -/
def flsStep {w : ℕ} (mask : BitVec w) (n : ℕ) (s : BitVec w × Int) : BitVec w × Int :=
  if s.1 &&& mask = 0 then (s.1 <<< n, s.2 - n) else s

/-- `fls32(val)`. -/
def fls32 (val : BitVec 32) : Int :=
  if val = 0 then -1
  else
    let s := flsStep 0xffff0000#32 16 (val, 31)
    let s := flsStep 0xff000000#32 8 s
    let s := flsStep 0xf0000000#32 4 s
    let s := flsStep 0xc0000000#32 2 s
    if s.1 &&& 0x80000000#32 = 0 then s.2 - 1 else s.2

/-- `ffs32(val)`. -/
def ffs32 (val : BitVec 32) : Int :=
  if val = 0 then -1
  else
    let s := ffsStep 0x0000ffff#32 16 (val, 0)
    let s := ffsStep 0x000000ff#32 8 s
    let s := ffsStep 0x0000000f#32 4 s
    let s := ffsStep 0x00000003#32 2 s
    if s.1 &&& 0x00000001#32 = 0 then s.2 + 1 else s.2

/-- `fls64(val)`. -/
def fls64 (val : BitVec 64) : Int :=
  if val = 0 then -1
  else
    let s := flsStep 0xffffffff00000000#64 32 (val, 63)
    let s := flsStep 0xffff000000000000#64 16 s
    let s := flsStep 0xff00000000000000#64 8 s
    let s := flsStep 0xf000000000000000#64 4 s
    let s := flsStep 0xc000000000000000#64 2 s
    if s.1 &&& 0x8000000000000000#64 = 0 then s.2 - 1 else s.2

/-- `ffs64(val)`. -/
def ffs64 (val : BitVec 64) : Int :=
  if val = 0 then -1
  else
    let s := ffsStep 0x00000000ffffffff#64 32 (val, 0)
    let s := ffsStep 0x000000000000ffff#64 16 s
    let s := ffsStep 0x00000000000000ff#64 8 s
    let s := ffsStep 0x000000000000000f#64 4 s
    let s := ffsStep 0x0000000000000003#64 2 s
    if s.1 &&& 0x0000000000000001#64 = 0 then s.2 + 1 else s.2

/-- `bmp256_ffs(bmp)`. -/
def bmp256Ffs (bmp : Bmp256) : Int :=
  let base := ffs64 (bmp 0)
  if base ≠ -1 then base
  else
    let base := ffs64 (bmp 1)
    if base ≠ -1 then base + 64
    else
      let base := ffs64 (bmp 2)
      if base ≠ -1 then base + 128
      else
        let base := ffs64 (bmp 3)
        if base ≠ -1 then base + 192 else base

/-- `bmp256_fls(bmp)`. -/
def bmp256Fls (bmp : Bmp256) : Int :=
  let base := fls64 (bmp 3)
  if base ≠ -1 then base + 192
  else
    let base := fls64 (bmp 2)
    if base ≠ -1 then base + 128
    else
      let base := fls64 (bmp 1)
      if base ≠ -1 then base + 64 else fls64 (bmp 0)

/-- `bmp512_ffs(bmp)`. -/
def bmp512Ffs (bmp : Bmp512) : Int :=
  let bit := bmp256Ffs bmp.low256
  if bit ≠ -1 then bit
  else
    let bit := bmp256Ffs bmp.high256
    if bit = -1 then bit else bit + 256

/-- `bmp512_fls(bmp)`. -/
def bmp512Fls (bmp : Bmp512) : Int :=
  let bit := bmp256Fls bmp.high256
  if bit ≠ -1 then bit + 256
  else
    let bit := bmp256Fls bmp.low256
    if bit = -1 then bit else bit

/-! ## What they are for -/

/-- The index of the set bit that has none before it, and -1 exactly when no bit is set. -/
structure FirstBit {w : ℕ} (before : ℕ → ℕ → Prop) (value : BitVec w) (answer : Int) : Prop where
  none : answer = -1 ↔ ∀ i, value.getLsbD i = false
  some : ∀ k : ℕ, answer = k ↔
    value.getLsbD k = true ∧ ∀ i, before i k → value.getLsbD i = false

abbrev LowestBit {w : ℕ} (value : BitVec w) (answer : Int) : Prop := FirstBit (· < ·) value answer

abbrev HighestBit {w : ℕ} (value : BitVec w) (answer : Int) : Prop := FirstBit (· > ·) value answer

/-! ## The steps -/

/-- The `int` of an answer. -/
def int : Option ℕ → Int
  | none => -1
  | some k => k

/-- The words and the numbers are in the same state. -/
structure Reads {w : ℕ} (s : BitVec w × Int) (t : ℕ × ℕ) : Prop where
  val : s.1.toNat = t.1
  bit : s.2 = t.2

section Steps

variable {w : ℕ} {s : BitVec w × Int} {t : ℕ × ℕ}

theorem and_eq_zero_iff (v mask : BitVec w) : v &&& mask = 0 ↔ v.toNat &&& mask.toNat = 0 := by
  rw [← BitVec.toNat_and, ← BitVec.toNat_inj]
  simp

theorem Reads.ffsStep (reads : Reads s t) (mask : BitVec w) (n : ℕ)
    (low : mask.toNat = 2 ^ n - 1) : Reads (Searches.ffsStep mask n s) (Lib.ffsStep n t) := by
  unfold Searches.ffsStep Lib.ffsStep
  simp only [and_eq_zero_iff, reads.val, low]
  split
  · constructor
    · rw [BitVec.toNat_ushiftRight, reads.val]
    · have bit := reads.bit
      show s.2 + n = ((t.2 + n : ℕ) : Int)
      omega
  · exact reads

/-- The same, with at least `m` to take off the offset. -/
structure ReadsDown (m : ℕ) (s : BitVec w × Int) (t : ℕ × ℕ) : Prop extends Reads s t where
  room : m ≤ t.2

theorem ReadsDown.flsStep {m n : ℕ} (reads : ReadsDown (m + n) s t) (mask : BitVec w)
    (high : mask.toNat = 2 ^ w - 2 ^ (w - n)) :
    ReadsDown m (Searches.flsStep mask n s) (Lib.flsStep w n t) := by
  have bit := reads.bit
  have room := reads.room
  unfold Searches.flsStep Lib.flsStep
  simp only [and_eq_zero_iff, reads.val, high]
  split
  · refine ⟨⟨?_, ?_⟩, Nat.le_sub_of_add_le room⟩
    · rw [BitVec.toNat_shiftLeft, reads.val]
    · show s.2 - n = ((t.2 - n : ℕ) : Int)
      omega
  · exact ⟨reads.toReads, Nat.le_of_add_right_le room⟩

end Steps

/-! ## The words -/

theorem toNat_ne_zero {w : ℕ} {val : BitVec w} (nonzero : val ≠ 0) : val.toNat ≠ 0 := by
  intro zero
  apply nonzero
  apply BitVec.eq_of_toNat_eq
  rw [zero]
  simp

/-- The last step of a search from below does not shift. -/
theorem ffsStep_last {w : ℕ} (mask : BitVec w) (s : BitVec w × Int) :
    (if s.1 &&& mask = 0 then s.2 + 1 else s.2) = (ffsStep mask 1 s).2 := by
  unfold ffsStep
  split <;> rfl

/-- The last step of a search from above does not shift. -/
theorem flsStep_last {w : ℕ} (mask : BitVec w) (s : BitVec w × Int) :
    (if s.1 &&& mask = 0 then s.2 - 1 else s.2) = (flsStep mask 1 s).2 := by
  unfold flsStep
  split <;> rfl

theorem ffs32_eq (val : BitVec 32) : ffs32 val = int (Lib.ffs32 val.toNat) := by
  unfold ffs32 Lib.ffs32
  by_cases zero : val = 0
  · subst zero
    rfl
  · have start : Reads (val, 0) (val.toNat, 0) := ⟨rfl, rfl⟩
    have s16 := start.ffsStep 0x0000ffff#32 16 rfl
    have s8 := s16.ffsStep 0x000000ff#32 8 rfl
    have s4 := s8.ffsStep 0x0000000f#32 4 rfl
    have s2 := s4.ffsStep 0x00000003#32 2 rfl
    have s1 := s2.ffsStep 0x00000001#32 1 rfl
    rw [if_neg zero, if_neg (toNat_ne_zero zero)]
    exact (ffsStep_last _ _).trans s1.bit

theorem ffs64_eq (val : BitVec 64) : ffs64 val = int (Lib.ffs64 val.toNat) := by
  unfold ffs64 Lib.ffs64
  by_cases zero : val = 0
  · subst zero
    rfl
  · have start : Reads (val, 0) (val.toNat, 0) := ⟨rfl, rfl⟩
    have s32 := start.ffsStep 0x00000000ffffffff#64 32 rfl
    have s16 := s32.ffsStep 0x000000000000ffff#64 16 rfl
    have s8 := s16.ffsStep 0x00000000000000ff#64 8 rfl
    have s4 := s8.ffsStep 0x000000000000000f#64 4 rfl
    have s2 := s4.ffsStep 0x0000000000000003#64 2 rfl
    have s1 := s2.ffsStep 0x0000000000000001#64 1 rfl
    rw [if_neg zero, if_neg (toNat_ne_zero zero)]
    exact (ffsStep_last _ _).trans s1.bit

theorem fls32_eq (val : BitVec 32) : fls32 val = int (Lib.fls32 val.toNat) := by
  unfold fls32 Lib.fls32
  by_cases zero : val = 0
  · subst zero
    rfl
  · have start : ReadsDown (15 + 16) (val, 31) (val.toNat, 31) := ⟨⟨rfl, rfl⟩, Nat.le_refl 31⟩
    have s16 : ReadsDown (7 + 8) _ _ := start.flsStep 0xffff0000#32 rfl
    have s8 : ReadsDown (3 + 4) _ _ := s16.flsStep 0xff000000#32 rfl
    have s4 : ReadsDown (1 + 2) _ _ := s8.flsStep 0xf0000000#32 rfl
    have s2 : ReadsDown (0 + 1) _ _ := s4.flsStep 0xc0000000#32 rfl
    have s1 := s2.flsStep 0x80000000#32 rfl
    rw [if_neg zero, if_neg (toNat_ne_zero zero)]
    exact (flsStep_last _ _).trans s1.bit

theorem fls64_eq (val : BitVec 64) : fls64 val = int (Lib.fls64 val.toNat) := by
  unfold fls64 Lib.fls64
  by_cases zero : val = 0
  · subst zero
    rfl
  · have start : ReadsDown (31 + 32) (val, 63) (val.toNat, 63) := ⟨⟨rfl, rfl⟩, Nat.le_refl 63⟩
    have s32 : ReadsDown (15 + 16) _ _ := start.flsStep 0xffffffff00000000#64 rfl
    have s16 : ReadsDown (7 + 8) _ _ := s32.flsStep 0xffff000000000000#64 rfl
    have s8 : ReadsDown (3 + 4) _ _ := s16.flsStep 0xff00000000000000#64 rfl
    have s4 : ReadsDown (1 + 2) _ _ := s8.flsStep 0xf000000000000000#64 rfl
    have s2 : ReadsDown (0 + 1) _ _ := s4.flsStep 0xc000000000000000#64 rfl
    have s1 := s2.flsStep 0x8000000000000000#64 rfl
    rw [if_neg zero, if_neg (toNat_ne_zero zero)]
    exact (flsStep_last _ _).trans s1.bit

/-! ## The maps -/

@[simp] theorem int_eq_neg_one_iff {a : Option ℕ} : int a = -1 ↔ a = none := by
  cases a with
  | none => exact iff_of_true rfl rfl
  | some k =>
      apply iff_of_false
      · show (k : Int) ≠ -1
        omega
      · exact Option.some_ne_none k

@[simp] theorem int_eq_cast_iff {a : Option ℕ} {k : ℕ} : int a = k ↔ a = some k := by
  cases a with
  | none =>
      apply iff_of_false
      · show -1 ≠ (k : Int)
        omega
      · exact Option.some_ne_none k ∘ Eq.symm
  | some j => exact Int.ofNat_inj.trans Option.some_inj.symm

theorem bmp256Ffs_eq (bmp : Bmp256) : bmp256Ffs bmp = int bmp.ffs := by
  unfold bmp256Ffs Bmp256.ffs
  simp only [ffs64_eq, Ne, int_eq_neg_one_iff]
  cases Lib.ffs64 (bmp 0).toNat with
  | some base => rfl
  | none =>
      cases Lib.ffs64 (bmp 1).toNat with
      | some base => rfl
      | none =>
          cases Lib.ffs64 (bmp 2).toNat with
          | some base => rfl
          | none => cases Lib.ffs64 (bmp 3).toNat <;> rfl

theorem bmp256Fls_eq (bmp : Bmp256) : bmp256Fls bmp = int bmp.fls := by
  unfold bmp256Fls Bmp256.fls
  simp only [fls64_eq, Ne, int_eq_neg_one_iff]
  cases Lib.fls64 (bmp 3).toNat with
  | some base => rfl
  | none =>
      cases Lib.fls64 (bmp 2).toNat with
      | some base => rfl
      | none => cases Lib.fls64 (bmp 1).toNat <;> rfl

theorem bmp512Ffs_eq (bmp : Bmp512) : bmp512Ffs bmp = int bmp.ffs := by
  unfold bmp512Ffs Bmp512.ffs
  simp only [bmp256Ffs_eq, Ne, int_eq_neg_one_iff]
  cases bmp.low256.ffs with
  | some bit => rfl
  | none => cases bmp.high256.ffs <;> rfl

theorem bmp512Fls_eq (bmp : Bmp512) : bmp512Fls bmp = int bmp.fls := by
  unfold bmp512Fls Bmp512.fls
  simp only [bmp256Fls_eq, Ne, int_eq_neg_one_iff]
  cases bmp.high256.fls with
  | some bit => rfl
  | none => cases bmp.low256.fls <;> rfl

/-! ## Exactness -/

theorem firstBit_int {w : ℕ} {before : ℕ → ℕ → Prop} {value : BitVec w} {a : Option ℕ}
    (total : ∀ j k, before j k ∨ j = k ∨ before k j) (found : First before value a) :
    FirstBit before value (int a) := by
  -- a word has one answer
  have only : ∀ b, a = b ↔ First before value b := by
    intro b
    constructor
    · intro same
      rw [← same]
      exact found
    · exact found.unique total
  constructor
  · rw [int_eq_neg_one_iff, only]
    rfl
  · intro k
    rw [int_eq_cast_iff, only]
    rfl

theorem lowestBit_int {w : ℕ} {value : BitVec w} {a : Option ℕ} (found : Lowest value a) :
    LowestBit value (int a) :=
  firstBit_int Nat.lt_trichotomy found

theorem highestBit_int {w : ℕ} {value : BitVec w} {a : Option ℕ} (found : Highest value a) :
    HighestBit value (int a) :=
  firstBit_int gt_trichotomy found

/-- `bmp256_unset_all_above` on the four words as one. -/
theorem getLsbD_unsetAllAbove (bmp : Bmp256) (bit : Fin 256) (i : ℕ) :
    (bmp.unsetAllAbove bit).value.getLsbD i = (bmp.value.getLsbD i && decide (i ≤ bit)) := by
  by_cases small : i < 256
  · have kept := Bmp256.test_unsetAllAbove bmp bit ⟨i, small⟩
    rw [← Bmp256.getLsbD_value, ← Bmp256.getLsbD_value] at kept
    exact kept
  · have large : 256 ≤ i := Nat.le_of_not_lt small
    rw [BitVec.getLsbD_of_ge _ _ large, BitVec.getLsbD_of_ge _ _ large, Bool.false_and]

theorem bit_searches :
    (∀ val : BitVec 32, HighestBit val (fls32 val) ∧ LowestBit val (ffs32 val)) ∧
    (∀ val : BitVec 64, HighestBit val (fls64 val) ∧ LowestBit val (ffs64 val)) ∧
    (∀ bmp : Bmp256,
      HighestBit bmp.value (bmp256Fls bmp) ∧ LowestBit bmp.value (bmp256Ffs bmp)) ∧
    (∀ bmp : Bmp512,
      HighestBit bmp.value (bmp512Fls bmp) ∧ LowestBit bmp.value (bmp512Ffs bmp)) ∧
    ∀ (bmp : Bmp256) (bit : Fin 256) (i : ℕ),
      (bmp.unsetAllAbove bit).value.getLsbD i = (bmp.value.getLsbD i && decide (i ≤ bit)) := by
  refine ⟨?_, ?_, ?_, ?_, getLsbD_unsetAllAbove⟩
  · intro val
    rw [fls32_eq, ffs32_eq]
    exact ⟨highestBit_int (highest_fls32 val), lowestBit_int (lowest_ffs32 val)⟩
  · intro val
    rw [fls64_eq, ffs64_eq]
    exact ⟨highestBit_int (highest_fls64 val), lowestBit_int (lowest_ffs64 val)⟩
  · intro bmp
    rw [bmp256Fls_eq, bmp256Ffs_eq]
    exact ⟨highestBit_int bmp.highest_fls, lowestBit_int bmp.lowest_ffs⟩
  · intro bmp
    rw [bmp512Fls_eq, bmp512Ffs_eq]
    exact ⟨highestBit_int bmp.highest_fls, lowestBit_int bmp.lowest_ffs⟩

end Twan.Lib.Searches
