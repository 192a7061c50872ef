import Mathlib.Data.List.Basic
import Mathlib.Order.Bounds.Basic

/-!
# Loops that keep an extremum

A loop goes through a list and keeps the largest, or the smallest, of the values of the elements
it selects. Its state need not be the value itself.

* `foldl_isGreatest`, `foldl_isLeast`: the value at the end is the extremum of those seen.
* `lastBelow_eq_some_iff`: the search downwards for a number with a property.
* `toNat_smaller`, `toNat_larger`: the choice between two words.
-/

namespace Extremum

variable {σ α β : Type*} {selects : α → Prop} {value : α → β}

/-- The values of the elements that are selected. -/
def selected (selects : α → Prop) (value : α → β) (l : List α) : Set β :=
  {b | ∃ a ∈ l, selects a ∧ b = value a}

theorem selected_nil : selected selects value [] = ∅ := by
  ext b
  exact iff_of_false (fun ⟨_, hMem, _⟩ => List.not_mem_nil hMem) (Set.notMem_empty b)

theorem selected_cons_of_pos {a : α} (h : selects a) (l : List α) :
    selected selects value (a :: l) = {value a} ∪ selected selects value l := by
  ext b
  refine (List.exists_mem_cons_iff (fun a => selects a ∧ b = value a) a l).trans ?_
  rw [Set.mem_union, Set.mem_singleton_iff, and_iff_right h]
  rfl

theorem selected_cons_of_neg {a : α} (h : ¬ selects a) (l : List α) :
    selected selects value (a :: l) = selected selects value l := by
  ext b
  refine (List.exists_mem_cons_iff (fun a => selects a ∧ b = value a) a l).trans ?_
  exact or_iff_right fun hHead => h hHead.1

variable [LinearOrder β] (view : σ → β) (selects : α → Prop) (value : α → β) {f : σ → α → σ}

/-- A step takes the larger one of the value so far and that of a selected element. -/
theorem foldl_isGreatest (hTakes : ∀ s a, selects a → view (f s a) = max (view s) (value a))
    (hKeeps : ∀ s a, ¬ selects a → view (f s a) = view s) (l : List α) {s : σ} {seen : Set β}
    (hSeen : IsGreatest seen (view s)) :
    IsGreatest (seen ∪ selected selects value l) (view (l.foldl f s)) := by
  induction l generalizing s seen with
  | nil =>
    rw [selected_nil, Set.union_empty]
    exact hSeen
  | cons a l ih =>
    rw [List.foldl_cons]
    by_cases h : selects a
    · have hStep := hSeen.union (isGreatest_singleton (a := value a))
      rw [← hTakes s a h] at hStep
      rw [selected_cons_of_pos h, ← Set.union_assoc]
      exact ih hStep
    · rw [selected_cons_of_neg h]
      rw [← hKeeps s a h] at hSeen
      exact ih hSeen

/-- The same in the dual order. -/
theorem foldl_isLeast (hTakes : ∀ s a, selects a → view (f s a) = min (view s) (value a))
    (hKeeps : ∀ s a, ¬ selects a → view (f s a) = view s) (l : List α) {s : σ} {seen : Set β}
    (hSeen : IsLeast seen (view s)) :
    IsLeast (seen ∪ selected selects value l) (view (l.foldl f s)) :=
  foldl_isGreatest (β := βᵒᵈ) view selects value hTakes hKeeps l hSeen

/-- The least number is zero when zero is one of them. -/
theorem isLeast_eq_zero_iff {numbers : Set Nat} {least : Nat} (h : IsLeast numbers least) :
    least = 0 ↔ 0 ∈ numbers := by
  apply Iff.intro
  · intro hZero
    rw [← hZero]
    exact h.1
  · intro hMem
    exact Nat.le_zero.mp (h.2 hMem)

/-- The greatest number is zero when all of them are. -/
theorem isGreatest_eq_zero_iff {numbers : Set Nat} {greatest : Nat}
    (h : IsGreatest numbers greatest) : greatest = 0 ↔ ∀ n ∈ numbers, n = 0 := by
  apply Iff.intro
  · intro hZero n hMem
    have hLe := h.2 hMem
    rw [hZero] at hLe
    exact Nat.le_zero.mp hLe
  · exact fun hAll => hAll greatest h.1

/-! ## Downwards -/

section Downwards

variable (p : Nat → Bool) {n m : Nat}

/-- The largest number below the bound that has the property. -/
def lastBelow : Nat → Option Nat
  | 0 => none
  | n + 1 => if p n then some n else lastBelow n

theorem lastBelow_of_true (h : p n = true) : lastBelow p (n + 1) = some n := if_pos h

theorem lastBelow_of_false (h : p n = false) : lastBelow p (n + 1) = lastBelow p n :=
  if_neg (Bool.eq_false_iff.mp h)

theorem lastBelow_eq_none_iff : lastBelow p n = none ↔ ∀ k < n, p k = false := by
  induction n with
  | zero => exact iff_of_true rfl fun k hk => absurd hk (Nat.not_lt_zero k)
  | succ n ih =>
    cases hp : p n with
    | false => rw [lastBelow_of_false p hp, ih, Nat.forall_lt_succ_right, and_iff_left hp]
    | true =>
      rw [lastBelow_of_true p hp]
      refine iff_of_false (Option.some_ne_none n) fun h => ?_
      rw [h n (Nat.lt_succ_self n)] at hp
      exact Bool.false_ne_true hp

theorem lastBelow_eq_some_iff : lastBelow p n = some m ↔
    m < n ∧ p m = true ∧ ∀ k, m < k → k < n → p k = false := by
  induction n with
  | zero => exact iff_of_false nofun fun h => absurd h.1 (Nat.not_lt_zero m)
  | succ n ih =>
    cases hp : p n with
    | false =>
      rw [lastBelow_of_false p hp, ih]
      constructor
      · rintro ⟨hm, hHit, hLater⟩
        refine ⟨Nat.lt_succ_of_lt hm, hHit, fun k hk hkn => ?_⟩
        rcases Nat.lt_succ_iff_lt_or_eq.mp hkn with hLess | rfl
        · exact hLater k hk hLess
        · exact hp
      · rintro ⟨hm, hHit, hLater⟩
        refine ⟨?_, hHit, fun k hk hkn => hLater k hk (Nat.lt_succ_of_lt hkn)⟩
        rcases Nat.lt_succ_iff_lt_or_eq.mp hm with hLess | rfl
        · exact hLess
        · exact absurd (hp.symm.trans hHit) Bool.false_ne_true
    | true =>
      rw [lastBelow_of_true p hp, Option.some.injEq]
      constructor
      · rintro rfl
        exact ⟨Nat.lt_succ_self n, hp, fun k hk hkn => absurd hkn (by omega)⟩
      · rintro ⟨hm, hHit, hLater⟩
        by_contra hOther
        have hMiss := hLater n (by omega) (Nat.lt_succ_self n)
        exact absurd (hMiss.symm.trans hp) Bool.false_ne_true

end Downwards

/-! ## Words -/

theorem toNat_smaller {w : Nat} (a b : BitVec w) :
    (if a > b then b else a).toNat = min a.toNat b.toNat := by
  split
  · rename_i h
    exact (Nat.min_eq_right (Nat.le_of_lt (BitVec.lt_def.mp h))).symm
  · rename_i h
    exact (Nat.min_eq_left (Nat.le_of_not_lt fun hLt => h (BitVec.lt_def.mpr hLt))).symm

theorem toNat_larger {w : Nat} (a b : BitVec w) :
    (if a > b then a else b).toNat = max a.toNat b.toNat := by
  split
  · rename_i h
    exact (Nat.max_eq_left (Nat.le_of_lt (BitVec.lt_def.mp h))).symm
  · rename_i h
    exact (Nat.max_eq_right (Nat.le_of_not_lt fun hLt => h (BitVec.lt_def.mpr hLt))).symm

end Extremum
