import Mathlib.Data.List.Chain

/-!
# Registers across a loop

A loop over a list sets a register at each element that has a value for it, and leaves it alone at
the others.

* `latch_eq_each_iff`: when the register never shows the value of an earlier element.
* `renewed_of_uniform`: lists on which this is so in every order.
-/

namespace Latch

variable {α : Type*}

/-- The register after each element. -/
def latch : α → List (Option α) → List α
  | _, [] => []
  | v, x :: xs => x.getD v :: latch (x.getD v) xs

/-- The same when the register is set back before each element. -/
def each (init : α) (xs : List (Option α)) : List α := xs.map fun x => x.getD init

theorem latch_cons (v : α) (x : Option α) (xs : List (Option α)) :
    latch v (x :: xs) = x.getD v :: latch (x.getD v) xs := rfl

theorem each_cons (init : α) (x : Option α) (xs : List (Option α)) :
    each init (x :: xs) = x.getD init :: each init xs := rfl

/-- The register is as at the start after the first element, or the second one sets it. -/
def Renews (init : α) (x y : Option α) : Prop := (∀ v, x = some v → v = init) ∨ y ≠ none

/-- No element with another value than that at the start is followed by one without. -/
abbrev Renewed (init : α) (xs : List (Option α)) : Prop := xs.IsChain (Renews init)

theorem renewed_none_cons {init : α} {xs : List (Option α)} :
    Renewed init (none :: xs) ↔ Renewed init xs := by
  rw [Renewed, List.isChain_cons]
  refine and_iff_right fun y _ => Or.inl ?_
  rintro v ⟨⟩

theorem renewed_some_cons {init v : α} {xs : List (Option α)} :
    Renewed init (some v :: xs) ↔ (xs.head? = some none → v = init) ∧ Renewed init xs := by
  rw [Renewed, List.isChain_cons]
  refine and_congr_left fun _ => ⟨fun h hHead => ?_, fun h y hy => ?_⟩
  · exact (h none hHead).resolve_right (not_not.mpr rfl) v rfl
  · cases y with
    | none =>
      refine Or.inl fun w hw => ?_
      rw [← Option.some_inj.mp hw]
      exact h hy
    | some w => exact Or.inr (Option.some_ne_none w)

/-- From any value on. -/
theorem latch_eq_each_from {init : α} (v : α) (xs : List (Option α)) :
    latch v xs = each init xs ↔ (xs.head? = some none → v = init) ∧ Renewed init xs := by
  induction xs generalizing v with
  | nil => exact iff_of_true rfl ⟨nofun, .nil⟩
  | cons x xs ih =>
    rw [latch_cons, each_cons, List.cons_eq_cons, ih, List.head?_cons]
    cases x with
    | none =>
      rw [renewed_none_cons, Option.getD_none, Option.getD_none, imp_iff_right rfl]
      exact and_congr_right fun h => and_iff_right fun _ => h
    | some w =>
      rw [renewed_some_cons, Option.getD_some, Option.getD_some, and_iff_right rfl]
      refine (and_iff_right ?_).symm
      intro hNone
      cases hNone

/-- From its value at the start on, the register shows no value of an earlier element exactly when
it is renewed. -/
theorem latch_eq_each_iff {init : α} {xs : List (Option α)} :
    latch init xs = each init xs ↔ Renewed init xs :=
  (latch_eq_each_from init xs).trans (and_iff_right fun _ => rfl)

/-- If all elements have a value, or none has another one than that at the start, the register is
renewed in every order. -/
theorem renewed_of_uniform {init : α} {xs : List (Option α)}
    (h : none ∉ xs ∨ ∀ v, some v ∈ xs → v = init) : Renewed init xs := by
  rw [← latch_eq_each_iff]
  induction xs with
  | nil => rfl
  | cons x xs ih =>
    have hRest := ih (h.imp (fun hAll hMem => hAll (List.mem_cons_of_mem x hMem))
      fun hInit v hMem => hInit v (List.mem_cons_of_mem x hMem))
    rw [latch_cons, each_cons, List.cons_eq_cons, and_iff_right rfl, latch_eq_each_from]
    refine ⟨fun hHead => ?_, latch_eq_each_iff.mp hRest⟩
    cases x with
    | none => rfl
    | some v =>
      refine h.elim (fun hAll => absurd ?_ hAll) fun hInit => hInit v List.mem_cons_self
      exact List.mem_cons_of_mem _ (List.mem_of_head? hHead)

end Latch
