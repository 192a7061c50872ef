import Mathlib.Algebra.BigOperators.Group.List.Basic
import Mathlib.Algebra.GroupWithZero.Nat

/-!
# Items numbered through a list of blocks

Blocks of some sizes lie one after the other, and their items are numbered through. Item `i` is
number `j` of block `k` when `j` items lie before it in the block, and it is in the block.

* `getElem?_flatten`: that place is where the concatenation of the blocks has it.
* `reach_spec`: the search that passes a block only when the number is larger than the size.
* `at_reach_iff`: it finds the place exactly of the items that are not the first after the end of
  a block.
-/

namespace Blocks

/-- The number of the first item of block `k`. -/
def start (sizes : List Nat) (k : Nat) : Nat := (sizes.take k).sum

/-- Item `i` is number `j` of block `k`. -/
structure At (sizes : List Nat) (i k j : Nat) : Prop where
  split : start sizes k + j = i
  inside : ∃ size, sizes[k]? = some size ∧ j < size

variable {sizes : List Nat} {i j k : Nat}

@[simp] theorem start_zero (sizes : List Nat) : start sizes 0 = 0 := rfl

@[simp] theorem start_cons_succ (size k : Nat) (sizes : List Nat) :
    start (size :: sizes) (k + 1) = size + start sizes k := by
  rw [start, List.take_succ_cons, List.sum_cons, start]

theorem start_length (sizes : List Nat) : start sizes sizes.length = sizes.sum := by
  rw [start, List.take_length]

theorem start_mono (sizes : List Nat) {k m : Nat} (h : k ≤ m) : start sizes k ≤ start sizes m := by
  induction sizes generalizing k m with
  | nil => simp [start]
  | cons size sizes ih =>
    cases k with
    | zero => exact Nat.zero_le _
    | succ k =>
      obtain ⟨m, rfl⟩ := Nat.exists_eq_add_of_le' (Nat.lt_of_lt_of_le (Nat.succ_pos k) h)
      rw [start_cons_succ, start_cons_succ]
      exact Nat.add_le_add_left (ih (Nat.le_of_succ_le_succ h)) size

theorem start_succ {size : Nat} (h : sizes[k]? = some size) :
    start sizes (k + 1) = start sizes k + size := by
  rw [start, List.take_add_one, h, Option.toList_some, List.sum_append, List.sum_singleton, start]

theorem start_le_sum (sizes : List Nat) (k : Nat) : start sizes k ≤ sizes.sum := by
  rcases Nat.le_total k sizes.length with hk | hk
  · rw [← start_length]
    exact start_mono sizes hk
  · have hWhole : start sizes k = sizes.sum := by rw [start, List.take_of_length_le hk]
    exact Nat.le_of_eq hWhole

/-- The items of a block are those between its start and the next. -/
theorem at_iff : At sizes i k j ↔
    start sizes k + j = i ∧ k < sizes.length ∧ i < start sizes (k + 1) := by
  constructor
  · rintro ⟨hSplit, size, hSize, hj⟩
    rw [start_succ hSize]
    exact ⟨hSplit, (List.getElem?_eq_some_iff.mp hSize).1, by omega⟩
  · rintro ⟨hSplit, hk, hi⟩
    have hSize := List.getElem?_eq_getElem hk
    rw [start_succ hSize] at hi
    exact ⟨hSplit, _, hSize, by omega⟩

theorem At.lt_sum (h : At sizes i k j) : i < sizes.sum :=
  Nat.lt_of_lt_of_le (at_iff.mp h).2.2 (start_le_sum sizes (k + 1))

/-- The concatenation of blocks has item `i` in its place. -/
theorem getElem?_flatten {α : Type*} {blocks : List (List α)}
    (h : At (blocks.map List.length) i k j) :
    blocks.flatten[i]? = blocks[k]?.bind fun block => block[j]? := by
  obtain ⟨hSplit, size, hSize, hj⟩ := h
  induction blocks generalizing k i with
  | nil => cases hSize
  | cons block blocks ih =>
    rw [List.map_cons] at hSplit hSize
    cases k with
    | zero =>
      obtain rfl := Option.some_inj.mp hSize
      rw [start_zero, Nat.zero_add] at hSplit
      rw [List.flatten_cons, List.getElem?_append_left (hSplit ▸ hj), hSplit]
      rfl
    | succ k =>
      rw [start_cons_succ] at hSplit
      rw [List.flatten_cons, List.getElem?_append_right (by omega), List.getElem?_cons_succ]
      exact ih (by omega) hSize

/-! ## The search that goes one too far -/

/-- The block and the number where the search stops: the first block whose size is not below
the number left. -/
def reach : List Nat → Nat → Nat × Nat
  | [], i => (0, i)
  | size :: sizes, i =>
    if size < i then ((reach sizes (i - size)).1 + 1, (reach sizes (i - size)).2) else (0, i)

theorem reach_cons_of_lt {size : Nat} (h : size < i) :
    reach (size :: sizes) i = ((reach sizes (i - size)).1 + 1, (reach sizes (i - size)).2) :=
  if_pos h

theorem reach_cons_of_le {size : Nat} (h : i ≤ size) : reach (size :: sizes) i = (0, i) :=
  if_neg (Nat.not_lt_of_le h)

theorem reach_split (sizes : List Nat) (i : Nat) :
    start sizes (reach sizes i).1 + (reach sizes i).2 = i := by
  induction sizes generalizing i with
  | nil => simp [reach, start]
  | cons size sizes ih =>
    by_cases h : size < i
    · rw [reach_cons_of_lt h, start_cons_succ, Nat.add_assoc, ih,
        Nat.add_sub_cancel' (Nat.le_of_lt h)]
    · rw [reach_cons_of_le (Nat.le_of_not_lt h), start_zero, Nat.zero_add]

/-- Within the items the search stops at a block, and at most at its size. -/
theorem reach_inside (hi : i ≤ sizes.sum) (hSizes : sizes ≠ []) :
    ∃ size, sizes[(reach sizes i).1]? = some size ∧ (reach sizes i).2 ≤ size := by
  induction sizes generalizing i with
  | nil => exact absurd rfl hSizes
  | cons size sizes ih =>
    by_cases h : size < i
    · rw [List.sum_cons] at hi
      have hRest : sizes ≠ [] := by
        rintro rfl
        rw [List.sum_nil] at hi
        omega
      rw [reach_cons_of_lt h]
      exact ih (by omega) hRest
    · rw [reach_cons_of_le (Nat.le_of_not_lt h)]
      exact ⟨size, rfl, Nat.le_of_not_lt h⟩

theorem reach_fst_lt_or (hi : i ≤ sizes.sum) :
    (reach sizes i).1 < sizes.length ∨ (reach sizes i).1 = 0 := by
  rcases eq_or_ne sizes [] with rfl | hSizes
  · exact Or.inr rfl
  · obtain ⟨size, hSize, -⟩ := reach_inside hi hSizes
    exact Or.inl (List.getElem?_eq_some_iff.mp hSize).1

/-- The search passes a block only with a number left. -/
theorem start_reach_lt (h : 0 < (reach sizes i).1) : start sizes (reach sizes i).1 < i := by
  induction sizes generalizing i with
  | nil => exact absurd h (Nat.lt_irrefl 0)
  | cons size sizes ih =>
    by_cases hLess : size < i
    · rw [reach_cons_of_lt hLess, start_cons_succ]
      rcases Nat.eq_zero_or_pos (reach sizes (i - size)).1 with hZero | hPos
      · rw [hZero, start_zero]
        omega
      · have := ih hPos
        omega
    · rw [reach_cons_of_le (Nat.le_of_not_lt hLess)] at h
      exact absurd h (Nat.lt_irrefl 0)

theorem le_start_reach (hi : i ≤ sizes.sum) : i ≤ start sizes ((reach sizes i).1 + 1) := by
  rcases eq_or_ne sizes [] with rfl | hSizes
  · exact Nat.le_trans hi (Nat.zero_le _)
  · obtain ⟨size, hSize, hLe⟩ := reach_inside hi hSizes
    have := reach_split sizes i
    rw [start_succ hSize]
    omega

/-- The items that stop at a later block than the first. -/
theorem reach_fst_iff (hi : i ≤ sizes.sum) (hk : 0 < k) :
    (reach sizes i).1 = k ↔ start sizes k < i ∧ i ≤ start sizes (k + 1) := by
  constructor
  · rintro rfl
    exact ⟨start_reach_lt hk, le_start_reach hi⟩
  · rintro ⟨hAfter, hUpTo⟩
    rcases Nat.lt_trichotomy (reach sizes i).1 k with hLess | hSame | hMore
    · have := start_mono sizes (show (reach sizes i).1 + 1 ≤ k from hLess)
      have := le_start_reach hi
      omega
    · exact hSame
    · have := start_mono sizes (show k + 1 ≤ (reach sizes i).1 from hMore)
      have : start sizes (reach sizes i).1 < i := start_reach_lt (by omega)
      omega

/-- The number of the first item after the end of some block. -/
def Boundary (sizes : List Nat) (i : Nat) : Prop := ∃ k < sizes.length, i = start sizes (k + 1)

instance (sizes : List Nat) (i : Nat) : Decidable (Boundary sizes i) :=
  inferInstanceAs (Decidable (∃ k < sizes.length, i = start sizes (k + 1)))

/-- At a boundary the search stops behind the last item of a block. -/
theorem reach_boundary (h : Boundary sizes i) :
    sizes[(reach sizes i).1]? = some (reach sizes i).2 := by
  obtain ⟨k, hk, hi⟩ := h
  have hSizes : sizes ≠ [] := List.ne_nil_of_length_pos (Nat.zero_lt_of_lt hk)
  obtain ⟨size, hSize, hLe⟩ := reach_inside (hi ▸ start_le_sum sizes (k + 1)) hSizes
  have hSplit := reach_split sizes i
  have hNext := start_succ hSize
  -- the block of the boundary is not before the one reached
  have hNotBefore : (reach sizes i).1 ≤ k := by
    by_contra hBefore
    have hLater : start sizes (reach sizes i).1 < i := start_reach_lt (by omega)
    have := start_mono sizes (show k + 1 ≤ (reach sizes i).1 by omega)
    omega
  have := start_mono sizes (show (reach sizes i).1 + 1 ≤ k + 1 by omega)
  rw [hSize, show size = (reach sizes i).2 by omega]

/-- Exactly the items that are no boundary are found. -/
theorem at_reach_iff (hi : i < sizes.sum) :
    At sizes i (reach sizes i).1 (reach sizes i).2 ↔ ¬ Boundary sizes i := by
  have hSizes : sizes ≠ [] := by
    rintro rfl
    exact absurd hi (Nat.not_lt_zero i)
  constructor
  · rintro ⟨-, size, hSize, hj⟩ hBoundary
    rw [reach_boundary hBoundary, Option.some.injEq] at hSize
    omega
  · intro hBoundary
    obtain ⟨size, hSize, hLe⟩ := reach_inside (Nat.le_of_lt hi) hSizes
    refine ⟨reach_split sizes i, size, hSize, Nat.lt_of_le_of_ne hLe ?_⟩
    rintro rfl
    refine hBoundary ⟨_, (List.getElem?_eq_some_iff.mp hSize).1, ?_⟩
    rw [start_succ hSize, reach_split]

end Blocks
