import Mathlib.Data.List.Basic

/-!
# Runs of a partial, labelled step function

A concurrent program is given by a step function `step : σ → α → Option σ`: the label
says which party moves, and `none` says that this party cannot move here. An
interleaving is a list of labels, and `run` follows it from a state.

* `run_invariant`: what every step keeps, every run keeps.
* `Along`: every step of a run meets a condition on the state before it and its label.
* `run_invariant_along`: the same rule for the runs along which a condition holds.
* `exists_violation_of_not_along`: the first step that breaks the condition.
* `run_measure`, `run_measure_along`: a bounded amount of own steps of one party brings its
  measure to zero, whatever the other parties do in between.
* `run_count_le`: a measure that the steps of one party bring down bounds their number.
* `run_observe`: a step function that looks only at some of the labels.
* `run_alongside`: a step function beside a value that follows all of them.
* `outputs_refine`: steps that answer, and a specification that answers the same.
-/

namespace Transition

variable {σ α : Type*} (step : σ → α → Option σ)

/-- Follow the labels of an interleaving from a state. -/
def run : σ → List α → Option σ
  | s, [] => some s
  | s, a :: as => (step s a).bind fun t => run t as

/-- Every step of the run from `s` meets `C`, read at the state before the step. -/
def Along (C : σ → α → Prop) : σ → List α → Prop
  | _, [] => True
  | s, a :: as => C s a ∧ ∀ t, step s a = some t → Along C t as

variable {step}

@[simp] theorem run_nil (s : σ) : run step s [] = some s := rfl

theorem run_cons {s t : σ} {a : α} {as : List α} :
    run step s (a :: as) = some t ↔ ∃ u, step s a = some u ∧ run step u as = some t := by
  simp only [run, Option.bind_eq_some_iff]

theorem run_append (s : σ) (as bs : List α) :
    run step s (as ++ bs) = (run step s as).bind fun t => run step t bs := by
  induction as generalizing s with
  | nil => rfl
  | cons a as ih =>
    rw [List.cons_append, run, run, Option.bind_assoc]
    congr 1
    funext t
    exact ih t

/-- A step function that looks only at some of the labels. -/
def observe {β : Type*} (view : β → Option α) (step : σ → α → Option σ) (s : σ) (b : β) :
    Option σ :=
  match view b with
  | some a => step s a
  | none => some s

theorem run_observe {β : Type*} (view : β → Option α) (s : σ) (bs : List β) :
    run (observe view step) s bs = run step s (bs.filterMap view) := by
  induction bs generalizing s with
  | nil => rfl
  | cons b bs ih =>
    cases h : view b with
    | none =>
      rw [List.filterMap_cons_none h, run, observe, h, Option.bind_some]
      exact ih s
    | some a =>
      rw [List.filterMap_cons_some h, run, run, observe, h]
      congr 1
      funext t
      exact ih t

/-- A step function beside a value that follows all labels. -/
def alongside {τ : Type*} (f : τ → α → τ) (step : σ → α → Option σ) (s : σ × τ) (a : α) :
    Option (σ × τ) :=
  (step s.1 a).map fun t => (t, f s.2 a)

theorem run_alongside {τ : Type*} (f : τ → α → τ) (s : σ × τ) (as : List α) :
    run (alongside f step) s as = (run step s.1 as).map fun t => (t, as.foldl f s.2) := by
  induction as generalizing s with
  | nil => rfl
  | cons a as ih =>
    rw [run, run, alongside, Option.bind_map, Option.map_bind]
    congr 1
    funext t
    exact ih (t, f s.2 a)

/-- Conditions along a run are decided by following it. -/
instance decidableAlong {C : σ → α → Prop} [∀ s a, Decidable (C s a)] :
    (s : σ) → (as : List α) → Decidable (Along step C s as)
  | _, [] => isTrue trivial
  | s, a :: as =>
    match h : step s a with
    | none => decidable_of_iff (C s a) (by simp [Along, h])
    | some t =>
      have := decidableAlong (C := C) t as
      decidable_of_iff (C s a ∧ Along step C t as) (by simp [Along, h])

/-- What holds along a run holds along its later part. -/
theorem Along.append {C : σ → α → Prop} {s u : σ} {as bs : List α}
    (hC : Along step C s (as ++ bs)) (hRun : run step s as = some u) :
    Along step C u bs := by
  induction as generalizing s with
  | nil =>
    cases hRun
    exact hC
  | cons a as ih =>
    obtain ⟨v, hv, hRest⟩ := run_cons.mp hRun
    exact ih (hC.2 v hv) hRest

/-- The invariant rule for runs along which a condition holds. -/
theorem run_invariant_along {I : σ → Prop} {C : σ → α → Prop}
    (hStep : ∀ s a t, I s → C s a → step s a = some t → I t) {s t : σ} {as : List α}
    (hI : I s) (hC : Along step C s as) (hRun : run step s as = some t) : I t := by
  induction as generalizing s with
  | nil =>
    cases hRun
    exact hI
  | cons a as ih =>
    obtain ⟨u, hu, hRest⟩ := run_cons.mp hRun
    exact ih (hStep s a u hI hC.1 hu) (hC.2 u hu) hRest

/-- The invariant rule: what every step keeps, every run keeps. -/
theorem run_invariant {I : σ → Prop} (hStep : ∀ s a t, I s → step s a = some t → I t)
    {s t : σ} {as : List α} (hI : I s) (hRun : run step s as = some t) : I t := by
  induction as generalizing s with
  | nil =>
    cases hRun
    exact hI
  | cons a as ih =>
    obtain ⟨u, hu, hRest⟩ := run_cons.mp hRun
    exact ih (hStep s a u hI hu) hRest

/-- A condition that the invariant gives at every state holds along every run. -/
theorem along_of_invariant {I : σ → Prop} {C D : σ → α → Prop}
    (hStep : ∀ s a t, I s → C s a → step s a = some t → I t)
    (hD : ∀ s a, I s → C s a → D s a) {s : σ} {as : List α} (hI : I s)
    (hC : Along step C s as) : Along step D s as := by
  induction as generalizing s with
  | nil => trivial
  | cons a as ih =>
    exact ⟨hD s a hI hC.1, fun t ht => ih (hStep s a t hI hC.1 ht) (hC.2 t ht)⟩

/-- A condition that the labels alone meet. -/
theorem along_of_forall {C : σ → α → Prop} {s : σ} {as : List α}
    (hC : ∀ a ∈ as, ∀ t, C t a) : Along step C s as := by
  induction as generalizing s with
  | nil => trivial
  | cons a as ih =>
    exact ⟨hC a List.mem_cons_self s,
      fun _ _ => ih fun b hb => hC b (List.mem_cons_of_mem a hb)⟩

/-- A run that breaks a condition has a step that breaks it. -/
theorem exists_violation_of_not_along {C : σ → α → Prop} {s t : σ} {as : List α}
    (hRun : run step s as = some t) (hC : ¬ Along step C s as) :
    ∃ before a after u v, as = before ++ a :: after ∧ run step s before = some u ∧
      ¬ C u a ∧ step u a = some v ∧ run step v after = some t := by
  induction as generalizing s with
  | nil => exact absurd trivial hC
  | cons a as ih =>
    obtain ⟨v, hv, hRest⟩ := run_cons.mp hRun
    by_cases hHere : C s a
    · have hLater : ¬ Along step C v as := fun h =>
        hC ⟨hHere, fun t ht => by rw [hv] at ht; cases ht; exact h⟩
      obtain ⟨before, b, after, u, w, rfl, hu, hb, hw, ht⟩ := ih hRest hLater
      exact ⟨a :: before, b, after, u, w, rfl, run_cons.mpr ⟨v, hv, hu⟩, hb, hw, ht⟩
    · exact ⟨[], a, as, s, v, rfl, rfl, hHere, hv, hRest⟩

/-- Along the runs that meet `C`, the labels in `own` bring the measure down and the other
labels do not bring it up: as many own steps as the measure says bring it to zero. -/
theorem run_measure_along {I : σ → Prop} {C : σ → α → Prop} (measure : σ → Nat) (own : α → Bool)
    (hStep : ∀ s a t, I s → C s a → step s a = some t → I t)
    (hOwn : ∀ s a t, I s → step s a = some t → own a = true → measure t ≤ measure s - 1)
    (hOther : ∀ s a t, I s → step s a = some t → measure t ≤ measure s)
    {s t : σ} {as : List α} (hI : I s) (hC : Along step C s as) (hRun : run step s as = some t)
    (hCount : measure s ≤ as.countP own) : measure t = 0 := by
  induction as generalizing s with
  | nil =>
    cases hRun
    simpa using hCount
  | cons a as ih =>
    obtain ⟨u, hu, hRest⟩ := run_cons.mp hRun
    have hNext : measure u ≤ as.countP own := by
      rw [List.countP_cons] at hCount
      by_cases ha : own a = true
      · have := hOwn s a u hI hu ha
        simp only [ha, if_true] at hCount
        omega
      · have := hOther s a u hI hu
        simp only [ha] at hCount
        simp at hCount
        omega
    exact ih (hStep s a u hI hC.1 hu) (hC.2 u hu) hRest hNext

/-- The same for all runs, whatever the other parties do in between. -/
theorem run_measure {I : σ → Prop} (measure : σ → Nat) (own : α → Bool)
    (hStep : ∀ s a t, I s → step s a = some t → I t)
    (hOwn : ∀ s a t, I s → step s a = some t → own a = true → measure t ≤ measure s - 1)
    (hOther : ∀ s a t, I s → step s a = some t → measure t ≤ measure s)
    {s t : σ} {as : List α} (hI : I s) (hRun : run step s as = some t)
    (hCount : measure s ≤ as.countP own) : measure t = 0 :=
  run_measure_along (C := fun _ _ => True) measure own (fun s a t h _ => hStep s a t h) hOwn
    hOther hI (along_of_forall fun _ _ _ => trivial) hRun hCount

/-- When the steps of one party bring a measure down and no step brings it up, the party makes at
most as many steps as the measure falls. -/
theorem run_count_le {I : σ → Prop} (measure : σ → Nat) (own : α → Bool)
    (hStep : ∀ s a t, I s → step s a = some t → I t)
    (hOwn : ∀ s a t, I s → step s a = some t → own a = true → measure t < measure s)
    (hOther : ∀ s a t, I s → step s a = some t → measure t ≤ measure s)
    {s t : σ} {as : List α} (hI : I s) (hRun : run step s as = some t) :
    as.countP own + measure t ≤ measure s := by
  induction as generalizing s with
  | nil =>
    cases hRun
    simp
  | cons a as ih =>
    obtain ⟨u, hu, hRest⟩ := run_cons.mp hRun
    have hLater := ih (hStep s a u hI hu) hRest
    rw [List.countP_cons]
    split
    · rename_i ha
      have hLess := hOwn s a u hI hu ha
      omega
    · have hLe := hOther s a u hI hu
      omega

/-! ## Steps that answer -/

section Outputs

variable {τ β : Type*}

/-- Follow the labels of steps that answer each label, and collect the answers. -/
def outputs (answer : σ → α → Option (β × σ)) : σ → List α → Option (List β × σ)
  | s, [] => some ([], s)
  | s, a :: as =>
    (answer s a).bind fun r => (outputs answer r.2 as).map fun rest => (r.1 :: rest.1, rest.2)

/-- The same for a specification, whose steps are always defined. -/
def specOutputs (answer : τ → α → β × τ) : τ → List α → List β × τ
  | s, [] => ([], s)
  | s, a :: as =>
    ((answer s a).1 :: (specOutputs answer (answer s a).2 as).1,
      (specOutputs answer (answer s a).2 as).2)

/-- When every step answers as the specification does and reaches a state that stands for the
specification's, every run does. -/
theorem outputs_refine {answer : σ → α → Option (β × σ)} {spec : τ → α → β × τ} (view : σ → τ)
    (hStep : ∀ s a, ∃ t, answer s a = some ((spec (view s) a).1, t) ∧
      view t = (spec (view s) a).2) (s : σ) (as : List α) :
    ∃ t, outputs answer s as = some ((specOutputs spec (view s) as).1, t) ∧
      view t = (specOutputs spec (view s) as).2 := by
  induction as generalizing s with
  | nil => exact ⟨s, rfl, rfl⟩
  | cons a as ih =>
    obtain ⟨u, hu, hView⟩ := hStep s a
    obtain ⟨t, ht, hEnd⟩ := ih u
    rw [hView] at ht hEnd
    refine ⟨t, ?_, hEnd⟩
    rw [outputs, hu, Option.bind_some, ht]
    rfl

end Outputs

end Transition
