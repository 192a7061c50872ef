import Mathlib.Algebra.BigOperators.Group.List.Basic
import Mathlib.Data.List.Forall2
import Mathlib.Tactic.Ring

/-!
# Mixed-radix numbers and their odometer

Digits and radices are lists with the least significant place first. A numeral is valid
when every digit is below its radix.

* `value_lt`, `value_injective`: the value of a valid numeral is below the product of the
  radices, and determines the digits.
* `next_eq_some_iff`: the odometer `next` goes from a valid numeral to the valid numeral
  with the next value, and stops at the last one.
* `value_eq_index_iff`: a list of valid numerals has the values `0, 1, 2, …` in this order
  exactly when it counts, i.e. starts at zero and follows the odometer.
-/

namespace MixedRadix

/-- Every digit is below the radix of its place. -/
abbrev Valid (ds rs : List Nat) : Prop := List.Forall₂ (· < ·) ds rs

def value : List Nat → List Nat → Nat
  | d :: ds, r :: rs => d + r * value ds rs
  | _, _ => 0

@[simp] theorem value_nil (rs : List Nat) : value [] rs = 0 := by
  cases rs <;> rfl

@[simp] theorem value_cons (d r : Nat) (ds rs : List Nat) :
    value (d :: ds) (r :: rs) = d + r * value ds rs := rfl

theorem value_lt {ds rs : List Nat} (h : Valid ds rs) : value ds rs < rs.prod := by
  induction h with
  | nil => simp
  | @cons d r ds rs hd _ ih =>
    rw [value_cons, List.prod_cons]
    calc d + r * value ds rs < r + r * value ds rs := by omega
      _ = r * (value ds rs + 1) := by ring
      _ ≤ r * rs.prod := Nat.mul_le_mul_left r ih

/-- A digit and a value above it are read off their sum. -/
theorem digit_split {d e r x y : Nat} (hd : d < r) (he : e < r)
    (h : d + r * x = e + r * y) : d = e ∧ x = y := by
  have hr : 0 < r := by omega
  have hmod := congrArg (· % r) h
  have hdiv := congrArg (· / r) h
  simp only [Nat.add_mul_mod_self_left, Nat.mod_eq_of_lt hd, Nat.mod_eq_of_lt he] at hmod
  simp only [Nat.add_mul_div_left _ _ hr, Nat.div_eq_of_lt hd, Nat.div_eq_of_lt he,
    Nat.zero_add] at hdiv
  exact ⟨hmod, hdiv⟩

theorem value_injective {ds es rs : List Nat} (hd : Valid ds rs) (he : Valid es rs)
    (h : value ds rs = value es rs) : ds = es := by
  induction hd generalizing es with
  | nil =>
    cases he
    rfl
  | cons hlt _ ih =>
    cases he with
    | cons hlt' hes =>
      obtain ⟨hHead, hTail⟩ := digit_split hlt hlt' h
      rw [hHead, ih hes hTail]

/-- The odometer: raise the lowest place, or reset it and carry. `none` past the last
numeral. -/
def next : List Nat → List Nat → Option (List Nat)
  | d :: ds, r :: rs => if d + 1 < r then some ((d + 1) :: ds) else (next ds rs).map (0 :: ·)
  | _, _ => none

theorem next_valid {ds es rs : List Nat} (hd : Valid ds rs) (h : next ds rs = some es) :
    Valid es rs := by
  induction hd generalizing es with
  | nil => cases h
  | cons hlt hds ih =>
    simp only [next] at h
    split at h
    · cases h
      exact .cons (by assumption) hds
    · obtain ⟨tail, hTail, rfl⟩ := Option.map_eq_some_iff.mp h
      exact .cons (by omega) (ih hTail)

theorem next_value {ds es rs : List Nat} (hd : Valid ds rs) (h : next ds rs = some es) :
    value es rs = value ds rs + 1 := by
  induction hd generalizing es with
  | nil => cases h
  | @cons d r ds rs hlt hds ih =>
    simp only [next] at h
    split at h
    · cases h
      simp only [value_cons]
      omega
    · obtain ⟨tail, hTail, rfl⟩ := Option.map_eq_some_iff.mp h
      have hr : d + 1 = r := by omega
      simp only [value_cons, ih hTail, Nat.mul_add]
      omega

/-- The odometer stops only at the numeral with the largest value. -/
theorem value_of_next_none {ds rs : List Nat} (hd : Valid ds rs) (h : next ds rs = none) :
    value ds rs + 1 = rs.prod := by
  induction hd with
  | nil => rfl
  | @cons d r ds rs hlt hds ih =>
    simp only [next] at h
    split at h
    · cases h
    · have hr : d + 1 = r := by omega
      rw [List.prod_cons, ← ih (Option.map_eq_none_iff.mp h), value_cons, Nat.mul_add]
      omega

theorem next_eq_some_iff {ds es rs : List Nat} (hd : Valid ds rs) (he : Valid es rs) :
    next ds rs = some es ↔ value es rs = value ds rs + 1 := by
  constructor
  · exact next_value hd
  · intro h
    cases hn : next ds rs with
    | none =>
      have := value_of_next_none hd hn
      have := value_lt he
      omega
    | some fs =>
      have hfs := next_value hd hn
      rw [value_injective (next_valid hd hn) he (hfs.trans h.symm)]

theorem value_eq_zero_iff {ds rs : List Nat} (hd : Valid ds rs) :
    value ds rs = 0 ↔ ds = List.replicate rs.length 0 := by
  induction hd with
  | nil => simp
  | @cons d r ds rs hlt hds ih =>
    have hr : r ≠ 0 := by omega
    simp [List.replicate_succ, ih, hr]

/-- The numerals of `ts` count from zero, each one the odometer successor of the one
before it. -/
def Counts (rs : List Nat) (ts : List (List Nat)) : Prop :=
  (∀ t, ts[0]? = some t → t = List.replicate rs.length 0) ∧
    ∀ i t u, ts[i]? = some t → ts[i + 1]? = some u → next t rs = some u

theorem value_eq_index_iff {rs : List Nat} {ts : List (List Nat)}
    (hValid : ∀ t ∈ ts, Valid t rs) :
    (∀ i t, ts[i]? = some t → value t rs = i) ↔ Counts rs ts := by
  have hAt : ∀ {i t}, ts[i]? = some t → Valid t rs := fun h =>
    hValid _ (List.mem_of_getElem? h)
  constructor
  · intro h
    refine ⟨fun t ht => (value_eq_zero_iff (hAt ht)).mp (h 0 t ht), ?_⟩
    intro i t u ht hu
    rw [next_eq_some_iff (hAt ht) (hAt hu), h i t ht, h (i + 1) u hu]
  · rintro ⟨hFirst, hNext⟩ i
    induction i with
    | zero =>
      intro t ht
      exact (value_eq_zero_iff (hAt ht)).mpr (hFirst t ht)
    | succ i ih =>
      intro u hu
      obtain ⟨hlt, -⟩ := List.getElem?_eq_some_iff.mp hu
      have ht : ts[i]? = some ts[i] := List.getElem?_eq_getElem (by omega)
      rw [next_value (hAt ht) (hNext i _ u ht hu), ih _ ht]

end MixedRadix
