import EnterpriseAcs.Library.Transition

/-!
# Runs in which no party is left out

In each state one label is the one that helps: its step brings a measure down, and until then the
other steps keep the measure and the label. A round is a part of a run in which each party moves
that may have to help.

* `round_measure`: a round brings the measure down.
* `rounds_le`: a run has no more rounds than the measure says.
-/

namespace Transition

variable {σ α : Type*} {step : σ → α → Option σ} {I : σ → Prop} {measure : σ → Nat}
  {help : σ → α}

/-- The step brings the measure down, or another party has to do so still. -/
def Helps (measure : σ → Nat) (help : σ → α) (s : σ) (a : α) (t : σ) : Prop :=
  measure t < measure s ∨ (measure t = measure s ∧ help t = help s ∧ a ≠ help s)

theorem Helps.le {s t : σ} {a : α} (h : Helps measure help s a t) : measure t ≤ measure s := by
  rcases h with hLess | ⟨hSame, -, -⟩
  · exact Nat.le_of_lt hLess
  · exact Nat.le_of_eq hSame

variable (hStep : ∀ s a t, I s → step s a = some t → I t)
  (hHelps : ∀ s a t, I s → step s a = some t → Helps measure help s a t)

include hStep hHelps

theorem run_measure_le {s t : σ} {as : List α} (hI : I s) (hRun : run step s as = some t) :
    measure t ≤ measure s := by
  induction as generalizing s with
  | nil =>
    cases hRun
    exact Nat.le_refl _
  | cons a as ih =>
    obtain ⟨u, hu, hRest⟩ := run_cons.mp hRun
    exact Nat.le_trans (ih (hStep s a u hI hu) hRest) (hHelps s a u hI hu).le

/-- A run in which the label that helps is taken. -/
theorem round_measure {s t : σ} {as : List α} (hI : I s) (hRun : run step s as = some t)
    (hHelp : help s ∈ as) : measure t < measure s := by
  induction as generalizing s with
  | nil => exact absurd hHelp List.not_mem_nil
  | cons a as ih =>
    obtain ⟨u, hu, hRest⟩ := run_cons.mp hRun
    have hNext := hStep s a u hI hu
    rcases hHelps s a u hI hu with hLess | ⟨hSame, hLabel, hOther⟩
    · exact Nat.lt_of_le_of_lt (run_measure_le hStep hHelps hNext hRest) hLess
    · rcases List.mem_cons.mp hHelp with hFirst | hLater
      · exact absurd hFirst.symm hOther
      · rw [← hSame]
        exact ih hNext hRest (hLabel ▸ hLater)

/-- The rounds of a run. -/
theorem rounds_le {s t : σ} {rounds : List (List α)} (hI : I s)
    (hRun : run step s rounds.flatten = some t)
    (hRounds : ∀ as ∈ rounds, ∀ u, I u → help u ∈ as) :
    rounds.length + measure t ≤ measure s := by
  induction rounds generalizing s with
  | nil =>
    cases hRun
    simp
  | cons as rounds ih =>
    rw [List.flatten_cons, run_append, Option.bind_eq_some_iff] at hRun
    obtain ⟨u, hFirst, hRest⟩ := hRun
    have hLess := round_measure hStep hHelps hI hFirst
      (hRounds as List.mem_cons_self s hI)
    have hLater := ih (run_invariant hStep hI hFirst) hRest
      (fun bs hbs => hRounds bs (List.mem_cons_of_mem _ hbs))
    rw [List.length_cons]
    omega

end Transition
