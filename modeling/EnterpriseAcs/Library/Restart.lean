import Mathlib.Tactic.TypeStar

/-!
# Programs that are interrupted and started again

A program runs from a persistent state. It returns, or it is interrupted and starts again from
the state that it left.

* `restart_returns`: when each interruption brings the program nearer to its end, it returns, and
  what holds of every return holds of that one.
* `restart_chain`, `restart_never`: a run after some interruptions, and runs that are all
  interrupted.
-/

namespace Restart

/-- How one run of a program ends. -/
inductive Outcome (σ ρ : Type*) where
  | interrupted (state : σ)
  | returned (result : ρ) (state : σ)

variable {σ ρ : Type*}

/-- The successive runs, at most `fuel` of them. -/
def restart (run : σ → Outcome σ ρ) : Nat → σ → Option (ρ × σ)
  | 0, _ => none
  | fuel + 1, s =>
    match run s with
    | .interrupted s => restart run fuel s
    | .returned r s => some (r, s)

/-- What a run from a state that meets `P` with measure `m` leads to. -/
def Progress (P : σ → Prop) (measure : σ → Nat) (Q : ρ → σ → Prop) (m : Nat) :
    Outcome σ ρ → Prop
  | .interrupted s => P s ∧ measure s < m
  | .returned r s => Q r s

theorem restart_returns {run : σ → Outcome σ ρ} {P : σ → Prop} {measure : σ → Nat}
    {Q : ρ → σ → Prop} (hRun : ∀ s, P s → Progress P measure Q (measure s) (run s)) {fuel : Nat}
    {s : σ} (hStart : P s) (hFuel : measure s < fuel) :
    ∃ r s', restart run fuel s = some (r, s') ∧ Q r s' := by
  induction fuel generalizing s with
  | zero => exact absurd hFuel (Nat.not_lt_zero _)
  | succ fuel ih =>
    have hOnce := hRun s hStart
    rw [restart]
    generalize run s = out at hOnce ⊢
    cases out with
    | interrupted s' =>
      obtain ⟨hNext, hLess⟩ := hOnce
      exact ih hNext (Nat.lt_of_lt_of_le hLess (Nat.le_of_lt_succ hFuel))
    | returned r s' => exact ⟨r, s', rfl, hOnce⟩

/-- After some interruptions. -/
theorem restart_chain {run : σ → Outcome σ ρ} (states : Nat → σ) {n : Nat}
    (hRuns : ∀ k < n, run (states k) = .interrupted (states (k + 1))) (fuel : Nat) :
    restart run (fuel + n) (states 0) = restart run fuel (states n) := by
  induction n generalizing fuel with
  | zero => rfl
  | succ n ih =>
    have hBefore := ih (fun k hk => hRuns k (Nat.lt_succ_of_lt hk)) (fuel + 1)
    rw [Nat.add_assoc, Nat.add_comm 1 n] at hBefore
    rw [hBefore, restart, hRuns n (Nat.lt_succ_self n)]

/-- Runs that are all interrupted. -/
theorem restart_never {run : σ → Outcome σ ρ} (states : Nat → σ)
    (hRuns : ∀ k, run (states k) = .interrupted (states (k + 1))) (fuel : Nat) :
    restart run fuel (states 0) = none := by
  have hChain := restart_chain states (n := fuel) (fun k _ => hRuns k) 0
  rw [Nat.zero_add] at hChain
  exact hChain

end Restart
