import Mathlib.Data.BitVec
import Mathlib.Data.Set.Insert
import Mathlib.Logic.Function.Basic

/-!
# Sets of numbers packed into words

A bank of `w`-bit words stands for a set of numbers: `i` is in it when bit `i % w` of word
`i / w` is set. Registers of this kind are written through a mask, which adds the numbers it
names (write one to set) or removes them (write one to clear).

* `toSet_setWord`, `toSet_clearWord`: the mask of one number adds or removes that number.
* `mask_and_eq_zero`: a masked read tells membership.
* `prefix_iff`: a bank holds an initial segment below a width exactly when each word does.
* `getLsbD_ones`, `getLsbD_putField`: the words of low bits and the fields of a word.
-/

namespace BitSet

variable {w : Nat}

/-! ## Membership -/

/-- The number `i` is in the set that the words stand for. -/
def Mem (words : Nat → BitVec w) (i : Nat) : Prop := (words (i / w)).getLsbD (i % w) = true

instance (words : Nat → BitVec w) (i : Nat) : Decidable (Mem words i) :=
  inferInstanceAs (Decidable (_ = true))

/-- The set that the words stand for. -/
def toSet (words : Nat → BitVec w) : Set Nat := {i | Mem words i}

@[simp] theorem mem_toSet {words : Nat → BitVec w} {i : Nat} : i ∈ toSet words ↔ Mem words i :=
  Iff.rfl

/-- Words with the same set are the same. -/
theorem toSet_injective (hw : 0 < w) : Function.Injective (toSet : (Nat → BitVec w) → Set Nat) := by
  intro words words' h
  funext k
  apply BitVec.eq_of_getLsbD_eq
  intro j hj
  have hMem : w * k + j ∈ toSet words ↔ w * k + j ∈ toSet words' := by rw [h]
  rw [mem_toSet, mem_toSet, Mem, Mem, Nat.mul_add_div hw, Nat.div_eq_of_lt hj, Nat.add_zero,
    Nat.mul_add_mod, Nat.mod_eq_of_lt hj] at hMem
  exact Bool.eq_iff_iff.mpr hMem

/-- The mask that names `i` in its word. -/
def mask (w i : Nat) : BitVec w := 1#w <<< (i % w)

theorem getLsbD_mask (hw : 0 < w) (i j : Nat) : (mask w i).getLsbD j = decide (j = i % w) := by
  have hi := Nat.mod_lt i hw
  rw [mask, BitVec.getLsbD_shiftLeft, BitVec.getLsbD_one]
  by_cases hj : j = i % w
  · subst hj
    simp [hi, hw]
  · by_cases hlt : j < i % w
    · simp [hj, hlt]
    · have : j - i % w ≠ 0 := by omega
      simp [hj, this]

/-- Two numbers with the same word and the same bit are the same. -/
theorem eq_iff_word_bit (i j : Nat) : j = i ↔ j / w = i / w ∧ j % w = i % w := by
  constructor
  · intro h
    subst h
    exact ⟨rfl, rfl⟩
  · intro h
    have hi := Nat.div_add_mod i w
    have hj := Nat.div_add_mod j w
    rw [h.1, h.2] at hj
    exact hj.symm.trans hi

/-! ## Masked writes and reads -/

/-- Write one to set: the ones of the value are set in word `k`. -/
def setWord (words : Nat → BitVec w) (k : Nat) (value : BitVec w) : Nat → BitVec w :=
  Function.update words k (words k ||| value)

/-- Write one to clear: the ones of the value are cleared in word `k`. -/
def clearWord (words : Nat → BitVec w) (k : Nat) (value : BitVec w) : Nat → BitVec w :=
  Function.update words k (words k &&& ~~~value)

theorem mem_setWord_mask (hw : 0 < w) (words : Nat → BitVec w) (i j : Nat) :
    Mem (setWord words (i / w) (mask w i)) j ↔ j = i ∨ Mem words j := by
  unfold Mem setWord
  by_cases hWord : j / w = i / w
  · rw [hWord, Function.update_self, BitVec.getLsbD_or, getLsbD_mask hw, Bool.or_eq_true,
      decide_eq_true_eq, eq_iff_word_bit (w := w) i j, and_iff_right hWord]
    exact or_comm
  · have hne : j ≠ i := fun h => hWord (by rw [h])
    rw [Function.update_of_ne hWord]
    simp [hne]

theorem mem_clearWord_mask (hw : 0 < w) (words : Nat → BitVec w) (i j : Nat) :
    Mem (clearWord words (i / w) (mask w i)) j ↔ Mem words j ∧ j ≠ i := by
  have hlt := Nat.mod_lt j hw
  unfold Mem clearWord
  by_cases hWord : j / w = i / w
  · rw [hWord, Function.update_self, BitVec.getLsbD_and, BitVec.getLsbD_not, getLsbD_mask hw,
      Ne, eq_iff_word_bit (w := w) i j]
    simp [hWord, hlt]
  · have hne : j ≠ i := fun h => hWord (by rw [h])
    rw [Function.update_of_ne hWord]
    simp [hne]

/-- Setting through the mask of `i` adds `i` and no other number. -/
theorem toSet_setWord (hw : 0 < w) (words : Nat → BitVec w) (i : Nat) :
    toSet (setWord words (i / w) (mask w i)) = insert i (toSet words) := by
  ext j
  exact mem_setWord_mask hw words i j

/-- Clearing through the mask of `i` removes `i` and no other number. -/
theorem toSet_clearWord (hw : 0 < w) (words : Nat → BitVec w) (i : Nat) :
    toSet (clearWord words (i / w) (mask w i)) = toSet words \ {i} := by
  ext j
  exact mem_clearWord_mask hw words i j

/-- Reading the word of `i` through its mask tells whether `i` is in the set. -/
theorem mask_and_eq_zero (hw : 0 < w) (words : Nat → BitVec w) (i : Nat) :
    mask w i &&& words (i / w) = 0 ↔ ¬ Mem words i := by
  have hi := Nat.mod_lt i hw
  constructor
  · intro h hMem
    have hBit := congrArg (fun x => x.getLsbD (i % w)) h
    simp only [BitVec.getLsbD_and, getLsbD_mask hw, decide_true, Bool.true_and] at hBit
    rw [Mem, hBit] at hMem
    simp at hMem
  · intro h
    apply BitVec.eq_of_getLsbD_eq
    intro j hj
    rw [BitVec.getLsbD_and, getLsbD_mask hw]
    by_cases hji : j = i % w
    · subst hji
      simpa [Mem] using h
    · simp [hji]

/-! ## Initial segments -/

/-- Below the width the set is the initial segment of the numbers under `n`. -/
def Prefix (words : Nat → BitVec w) (n width : Nat) : Prop :=
  ∀ i < width, Mem words i ↔ i < n

/-- Word `k` of a bank holds its part of the initial segment. -/
def WordPrefix (n width k : Nat) (word : BitVec w) : Prop :=
  ∀ j < w, w * k + j < width → (word.getLsbD j = true ↔ w * k + j < n)

instance (n width k : Nat) (word : BitVec w) : Decidable (WordPrefix n width k word) :=
  inferInstanceAs (Decidable (∀ j < w, _))

theorem prefix_iff (hw : 0 < w) (words : Nat → BitVec w) (n width : Nat) :
    Prefix words n width ↔ ∀ k, WordPrefix n width k (words k) := by
  constructor
  · intro h k j hj hlt
    have hMem := h (w * k + j) hlt
    rwa [Mem, Nat.mul_add_div hw, Nat.div_eq_of_lt hj, Nat.add_zero, Nat.mul_add_mod,
      Nat.mod_eq_of_lt hj] at hMem
  · intro h i hi
    have hWord := h (i / w) (i % w) (Nat.mod_lt i hw)
    rw [Nat.div_add_mod] at hWord
    exact hWord hi

/-! ## Words of low bits -/

theorem toNat_ones {m : Nat} (h : m < w) : (1#w <<< m - 1).toNat = 2 ^ m - 1 := by
  have hPow : 2 ^ m < 2 ^ w := Nat.pow_lt_pow_right (by omega) h
  have hPos : 0 < 2 ^ m := Nat.two_pow_pos m
  have hOne : (1#w).toNat = 1 := by
    rw [BitVec.toNat_ofNat]
    exact Nat.mod_eq_of_lt (by omega)
  have hShift : (1#w <<< m).toNat = 2 ^ m := by
    rw [BitVec.toNat_shiftLeft, hOne, Nat.shiftLeft_eq, Nat.one_mul, Nat.mod_eq_of_lt hPow]
  rw [BitVec.toNat_sub, hShift]
  change (2 ^ w - (1#w).toNat + 2 ^ m) % 2 ^ w = _
  rw [hOne, show 2 ^ w - 1 + 2 ^ m = 2 ^ w + (2 ^ m - 1) by omega,
    Nat.add_mod_left, Nat.mod_eq_of_lt (by omega)]

/-- A shifted one minus one has the bits below the shift. -/
theorem getLsbD_ones {m : Nat} (h : m < w) (j : Nat) :
    (1#w <<< m - 1).getLsbD j = decide (j < m) := by
  rw [BitVec.getLsbD, toNat_ones h, Nat.testBit_two_pow_sub_one]

theorem ones_eq_zero_iff {m : Nat} (h : m < w) : 1#w <<< m - 1 = 0 ↔ m = 0 := by
  rw [← BitVec.toNat_inj, toNat_ones h, show (0 : BitVec w).toNat = 0 from BitVec.toNat_zero]
  constructor
  · intro hZero
    by_contra hm
    have : 2 ^ 1 ≤ 2 ^ m := Nat.pow_le_pow_right (by omega) (by omega)
    omega
  · intro hm
    subst hm
    rfl

/-! ## Fields -/

/-- The word `x` with the field from bit `lo` on replaced by `v`. -/
def putField {n : Nat} (x : BitVec w) (lo : Nat) (v : BitVec n) : BitVec w :=
  x &&& ~~~((BitVec.allOnes n).setWidth w <<< lo) ||| v.setWidth w <<< lo

/-- Inside the field the bits are those of `v`, outside those of `x`. -/
theorem getLsbD_putField {n : Nat} (x : BitVec w) (lo : Nat) (v : BitVec n) {i : Nat}
    (hi : i < w) :
    (putField x lo v).getLsbD i =
      if lo ≤ i ∧ i < lo + n then v.getLsbD (i - lo) else x.getLsbD i := by
  simp only [putField, BitVec.getLsbD_or, BitVec.getLsbD_and, BitVec.getLsbD_not,
    BitVec.getLsbD_shiftLeft, BitVec.getLsbD_setWidth, BitVec.getLsbD_allOnes, hi, decide_true,
    Bool.true_and]
  by_cases hLow : i < lo
  · have hOut : ¬ (lo ≤ i ∧ i < lo + n) := by omega
    simp [hLow, hOut]
  · have hShift : i - lo < w := by omega
    by_cases hHigh : i < lo + n
    · have hIn : i - lo < n := by omega
      have hLe : lo ≤ i := by omega
      simp [hLow, hHigh, hIn, hLe, hShift]
    · have hIn : ¬ i - lo < n := by omega
      have hZero : v.getLsbD (i - lo) = false := BitVec.getLsbD_of_ge _ _ (by omega)
      simp [hLow, hHigh, hIn, hZero]

end BitSet
