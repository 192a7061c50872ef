import Mathlib.Algebra.GroupWithZero.Nat
import Mathlib.Data.List.Basic
import Mathlib.Data.Set.Basic

/-!
# Runs that are traced

A program on states of a type `σ` that keeps a trace of what it does. The trace is only added to,
so that the run goes on as without it.

* `run_foldl`: a loop that is traced, and the same loop without the trace.
* `Adds`: what a stretch of the program has added to the trace.
* `Adds.foldl`: what a loop adds, when its body may look at an invariant of the states.
* `visits_flatMap`: the outputs of a loop whose states are numbered by what it has put out.
-/

/-- A state, and the trace of the events so far. -/
structure Traced (σ ε : Type*) where
  run : σ
  trace : List ε

namespace Traced

variable {σ ε α : Type*}

/-- The start of a trace. -/
def start (run : σ) : Traced σ ε := ⟨run, []⟩

/-- A step of the program, and the events of it. -/
def step (t : Traced σ ε) (f : σ → σ) (events : List ε) : Traced σ ε :=
  ⟨f t.run, t.trace ++ events⟩

@[simp] theorem run_start (run : σ) : (start run : Traced σ ε).run = run := rfl

@[simp] theorem trace_start (run : σ) : (start run : Traced σ ε).trace = [] := rfl

@[simp] theorem run_step (t : Traced σ ε) (f : σ → σ) (events : List ε) :
    (t.step f events).run = f t.run := rfl

@[simp] theorem trace_step (t : Traced σ ε) (f : σ → σ) (events : List ε) :
    (t.step f events).trace = t.trace ++ events := rfl

/-- The run of a loop. -/
theorem run_foldl {f : Traced σ ε → α → Traced σ ε} {g : σ → α → σ}
    (h : ∀ t a, (f t a).run = g t.run a) (l : List α) (t : Traced σ ε) :
    (l.foldl f t).run = l.foldl g t.run := by
  induction l generalizing t with
  | nil => rfl
  | cons a l ih => rw [List.foldl_cons, List.foldl_cons, ih, h]

/-- From `t` to `t'` events were added that look like those in `A`, and no others. -/
def Adds {κ : Type*} (view : ε → κ) (A : Set κ) (t t' : Traced σ ε) : Prop :=
  ∀ k, k ∈ t'.trace.map view ↔ k ∈ t.trace.map view ∨ k ∈ A

namespace Adds

variable {κ : Type*} {view : ε → κ} {A B : Set κ} {t t' t'' : Traced σ ε}

theorem refl (t : Traced σ ε) : Adds view ∅ t t :=
  fun k => (or_iff_left (Set.notMem_empty k)).symm

theorem trans (h : Adds view A t t') (h' : Adds view B t' t'') : Adds view (A ∪ B) t t'' := by
  intro k
  rw [h' k, h k, or_assoc, Set.mem_union]

theorem of_step (t : Traced σ ε) (f : σ → σ) {events : List ε}
    (h : ∀ k, k ∈ events.map view ↔ k ∈ A) : Adds view A t (t.step f events) := by
  intro k
  rw [trace_step, List.map_append, List.mem_append, h]

/-- A step without events. -/
theorem of_silent (t : Traced σ ε) (f : σ → σ) : Adds view ∅ t (t.step f []) := by
  intro k
  rw [trace_step, List.append_nil, or_iff_left (Set.notMem_empty k)]

/-- Silent steps do not count. -/
theorem trans_silent (h : Adds view A t t') (h' : Adds view ∅ t' t'') : Adds view A t t'' := by
  have hBoth := h.trans h'
  rwa [Set.union_empty] at hBoth

theorem silent_trans (h : Adds view ∅ t t') (h' : Adds view A t' t'') : Adds view A t t'' := by
  have hBoth := h.trans h'
  rwa [Set.empty_union] at hBoth

/-- Nor do events like those before. -/
theorem trans_step (h : Adds view A t t') (f : σ → σ) {events : List ε}
    (hOld : ∀ e ∈ events, view e ∈ A) : Adds view A t (t'.step f events) := by
  intro k
  rw [trace_step, List.map_append, List.mem_append, h k, or_assoc]
  apply or_congr_right
  refine or_iff_left_of_imp fun hNew => ?_
  obtain ⟨e, hMem, rfl⟩ := List.mem_map.mp hNew
  exact hOld e hMem

/-- A loop between two silent steps, and a last step with events like those of the loop. -/
theorem enclose {before : σ → σ} (h : Adds view A (t.step before []) t') (after last : σ → σ)
    {events : List ε} (hOld : ∀ e ∈ events, view e ∈ A) :
    Adds view A t ((t'.step after []).step last events) := by
  have hLoop := (of_silent t before).silent_trans h
  exact (hLoop.trans_silent (of_silent t' after)).trans_step last hOld

/-- What holds of all events, when the trace was empty and the view is enough to tell. -/
theorem forall_iff (h : Adds view A t t') (hStart : t.trace = []) {P : ε → Prop} {Q : κ → Prop}
    (hView : ∀ e, P e ↔ Q (view e)) : (∀ e ∈ t'.trace, P e) ↔ ∀ k ∈ A, Q k := by
  have hMem : ∀ k, k ∈ t'.trace.map view ↔ k ∈ A := by
    intro k
    rw [h k, hStart, List.map_nil, or_iff_right List.not_mem_nil]
  apply Iff.intro
  · intro hAll k hk
    obtain ⟨e, he, rfl⟩ := List.mem_map.mp ((hMem k).mpr hk)
    exact (hView e).mp (hAll e he)
  · intro hAll e he
    exact (hView e).mpr (hAll (view e) ((hMem _).mp (List.mem_map_of_mem he)))

/-- What the loop adds its bodies add, as long as they keep the invariant that they may rely on. -/
theorem foldl {I : σ → Prop} {f : Traced σ ε → α → Traced σ ε} (T : α → Set κ) {l : List α}
    (hStep : ∀ a ∈ l, ∀ t, I t.run → I (f t a).run ∧ Adds view (T a) t (f t a)) (hI : I t.run) :
    I (l.foldl f t).run ∧ Adds view {k | ∃ a ∈ l, k ∈ T a} t (l.foldl f t) := by
  induction l generalizing t with
  | nil =>
    refine ⟨hI, fun k => ?_⟩
    rw [List.foldl_nil, or_iff_left]
    exact fun hNone => List.not_mem_nil hNone.choose_spec.1
  | cons a l ih =>
    obtain ⟨hHead, hAdds⟩ := hStep a List.mem_cons_self t hI
    obtain ⟨hTail, hRest⟩ := ih (fun a' hMem => hStep a' (List.mem_cons_of_mem a hMem)) hHead
    refine ⟨hTail, fun k => ?_⟩
    have hEvents : k ∈ {k | ∃ a' ∈ a :: l, k ∈ T a'} ↔
        k ∈ T a ∨ k ∈ {k | ∃ a' ∈ l, k ∈ T a'} :=
      List.exists_mem_cons_iff (fun a' => k ∈ T a') a l
    rw [List.foldl_cons, (hAdds.trans hRest) k, hEvents, Set.mem_union]

end Adds

/-! ## Visits -/

/-- The states in which a loop comes to its elements. -/
def visits (f : σ → α → σ) : List α → σ → List (σ × α)
  | [], _ => []
  | a :: l, s => (s, a) :: visits f l (f s a)

section Visits

variable {γ : Type*} {f : σ → α → σ} {I : Nat → σ → Prop} (weight : α → Nat) (out : σ → α → List γ)

theorem map_snd_visits (l : List α) (s : σ) : (visits f l s).map Prod.snd = l := by
  induction l generalizing s with
  | nil => rfl
  | cons a l ih => rw [visits, List.map_cons, ih]

/-- Each element counts with its weight. -/
theorem foldl_numbered (hStep : ∀ v s a, I v s → I (v + weight a) (f s a)) (l : List α) {v : Nat}
    {s : σ} (h : I v s) : I (v + (l.map weight).sum) (l.foldl f s) := by
  induction l generalizing v s with
  | nil => exact h
  | cons a l ih =>
    rw [List.map_cons, List.sum_cons, ← Nat.add_assoc, List.foldl_cons]
    exact ih (hStep v s a h)

/-- The outputs of the visits are those of the numbers, one after the other. -/
theorem visits_flatMap (hStep : ∀ v s a, I v s → I (v + weight a) (f s a)) {numbered : Nat → γ}
    (hOut : ∀ v s a, I v s → out s a = (List.range' v (weight a)).map numbered) (l : List α)
    {v : Nat} {s : σ} (h : I v s) :
    (visits f l s).flatMap (fun x => out x.1 x.2) =
      (List.range' v (l.map weight).sum).map numbered := by
  induction l generalizing v s with
  | nil => rfl
  | cons a l ih =>
    rw [visits, List.flatMap_cons, ih (hStep v s a h), hOut v s a h, ← List.map_append,
      List.range'_append_1, List.map_cons, List.sum_cons]

/-- Outputs that do not depend on the state. -/
theorem visits_flatMap_const (hStep : ∀ v s a, I v s → I (v + weight a) (f s a))
    {fixed : α → List γ} (hOut : ∀ v s a, I v s → out s a = fixed a)
    (l : List α) {v : Nat} {s : σ} (h : I v s) :
    (visits f l s).flatMap (fun x => out x.1 x.2) = l.flatMap fixed := by
  induction l generalizing v s with
  | nil => rfl
  | cons a l ih =>
    rw [visits, List.flatMap_cons, ih (hStep v s a h), hOut v s a h, List.flatMap_cons]

/-- A loop with one output for each element. -/
theorem visits_map (hStep : ∀ v s a, I v s → I (v + 1) (f s a)) {out : σ → α → γ}
    {numbered : Nat → γ} (hOut : ∀ v s a, I v s → out s a = numbered v) (l : List α)
    {v : Nat} {s : σ} (h : I v s) :
    (visits f l s).map (fun x => out x.1 x.2) = (List.range' v l.length).map numbered := by
  induction l generalizing v s with
  | nil => rfl
  | cons a l ih =>
    rw [visits, List.map_cons, ih (hStep v s a h), hOut v s a h, List.length_cons,
      List.range'_succ, List.map_cons]

end Visits

end Traced
