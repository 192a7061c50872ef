import EnterpriseAcs.Library.Transition

/-!
# Programs that make calls

A program returns, or makes a call and goes on with the reply. Nothing is said about who answers:
a run is a log of calls with their replies, and every reply is possible.

* `runs_bind_iff`: the log of one program after another.
* `Triple`: a monitor follows the calls of a program from a state; it never refuses one, and at
  the end its state and the result are as the triple says. `Triple.bind` and `Triple.perform`
  take a program apart.
* `exec_runs`: the run with given answers.
* `eval_bind`: the result when each call has one answer.
-/

namespace Interaction

open Transition

/-- A program with calls of the type `ι` and replies of the types `ρ`. -/
inductive Prog (ι : Type) (ρ : ι → Type) (α : Type) where
  | ret (a : α)
  | call (c : ι) (next : ρ c → Prog ι ρ α)

variable {ι : Type} {ρ : ι → Type} {α β : Type}

namespace Prog

def bind : Prog ι ρ α → (α → Prog ι ρ β) → Prog ι ρ β
  | .ret a, f => f a
  | .call c next, f => .call c fun reply => (next reply).bind f

instance : Monad (Prog ι ρ) where
  pure := .ret
  bind := .bind

end Prog

/-- A call, and its reply as the result. -/
def perform (c : ι) : Prog ι ρ (ρ c) := .call c .ret

/-- A call with its reply. -/
abbrev Entry (ι : Type) (ρ : ι → Type) := (c : ι) × ρ c

/-! ## Runs -/

/-- The program makes the calls of the log, is given the replies and returns `b`. -/
def Runs : Prog ι ρ α → List (Entry ι ρ) → α → Prop
  | .ret a, log, b => log = [] ∧ a = b
  | .call c next, log, b => ∃ reply rest, log = ⟨c, reply⟩ :: rest ∧ Runs (next reply) rest b

theorem runs_perform_iff {c : ι} {log : List (Entry ι ρ)} {b : ρ c} :
    Runs (perform c) log b ↔ log = [⟨c, b⟩] := by
  constructor
  · rintro ⟨reply, rest, rfl, rfl, rfl⟩
    rfl
  · rintro rfl
    exact ⟨b, [], rfl, rfl, rfl⟩

theorem runs_bind_iff {p : Prog ι ρ α} {f : α → Prog ι ρ β} {log : List (Entry ι ρ)} {b : β} :
    Runs (p >>= f) log b ↔
      ∃ first a second, log = first ++ second ∧ Runs p first a ∧ Runs (f a) second b := by
  induction p generalizing log with
  | ret a =>
    constructor
    · intro h
      exact ⟨[], a, log, rfl, ⟨rfl, rfl⟩, h⟩
    · rintro ⟨first, a', second, rfl, ⟨rfl, rfl⟩, h⟩
      exact h
  | call c next ih =>
    constructor
    · rintro ⟨reply, rest, rfl, hRest⟩
      obtain ⟨first, a, second, rfl, hFirst, hSecond⟩ := (ih reply).mp hRest
      exact ⟨⟨c, reply⟩ :: first, a, second, rfl, ⟨reply, first, rfl, hFirst⟩, hSecond⟩
    · rintro ⟨first, a, second, rfl, ⟨reply, rest, rfl, hFirst⟩, hSecond⟩
      exact ⟨reply, rest ++ second, rfl, (ih reply).mpr ⟨rest, a, second, rfl, hFirst, hSecond⟩⟩

/-! ## Monitors -/

section Monitors

variable {σ : Type} (step : σ → Entry ι ρ → Option σ)

/-- From the state `s` the monitor follows every run of the program, and ends as `Q` says. -/
def Triple (s : σ) (p : Prog ι ρ α) (Q : α → σ → Prop) : Prop :=
  ∀ log a, Runs p log a → ∃ t, run step s log = some t ∧ Q a t

variable {step} {s : σ} {p : Prog ι ρ α} {Q : α → σ → Prop}

theorem Triple.pure {a : α} (h : Q a s) : Triple step s (pure a) Q := by
  rintro log b ⟨rfl, rfl⟩
  exact ⟨s, rfl, h⟩

theorem Triple.perform {c : ι} {Q : ρ c → σ → Prop}
    (h : ∀ reply, ∃ t, step s ⟨c, reply⟩ = some t ∧ Q reply t) :
    Triple step s (perform c) Q := by
  intro log reply hRuns
  obtain rfl := runs_perform_iff.mp hRuns
  obtain ⟨t, hStep, hQ⟩ := h reply
  exact ⟨t, run_cons.mpr ⟨t, hStep, rfl⟩, hQ⟩

theorem Triple.bind {R : α → σ → Prop} {f : α → Prog ι ρ β} {Q : β → σ → Prop}
    (hp : Triple step s p R) (hf : ∀ a t, R a t → Triple step t (f a) Q) :
    Triple step s (p >>= f) Q := by
  intro log b hRuns
  obtain ⟨first, a, second, rfl, hFirst, hSecond⟩ := runs_bind_iff.mp hRuns
  obtain ⟨t, hRun, hR⟩ := hp first a hFirst
  obtain ⟨u, hRest, hQ⟩ := hf a t hR second b hSecond
  exact ⟨u, by rw [run_append, hRun]; exact hRest, hQ⟩

theorem Triple.mono {Q' : α → σ → Prop} (hp : Triple step s p Q) (h : ∀ a t, Q a t → Q' a t) :
    Triple step s p Q' := by
  intro log a hRuns
  obtain ⟨t, hRun, hQ⟩ := hp log a hRuns
  exact ⟨t, hRun, h a t hQ⟩

end Monitors

/-! ## Given answers -/

/-- The log and the result when call number `n` is answered by `answer n`. -/
def exec (answer : Nat → (c : ι) → ρ c) : Prog ι ρ α → Nat → List (Entry ι ρ) × α
  | .ret a, _ => ([], a)
  | .call c next, n =>
    let rest := exec answer (next (answer n c)) (n + 1)
    (⟨c, answer n c⟩ :: rest.1, rest.2)

theorem exec_runs (answer : Nat → (c : ι) → ρ c) (p : Prog ι ρ α) (n : Nat) :
    Runs p (exec answer p n).1 (exec answer p n).2 := by
  induction p generalizing n with
  | ret a => exact ⟨rfl, rfl⟩
  | call c next ih => exact ⟨_, _, rfl, ih (answer n c) (n + 1)⟩

/-- The result when each call has one answer. -/
def eval (answer : (c : ι) → ρ c) : Prog ι ρ α → α
  | .ret a => a
  | .call c next => eval answer (next (answer c))

section Eval

variable (answer : (c : ι) → ρ c)

@[simp] theorem eval_pure (a : α) : eval answer (pure a : Prog ι ρ α) = a := rfl

@[simp] theorem eval_perform (c : ι) : eval answer (perform c) = answer c := rfl

@[simp] theorem eval_bind (p : Prog ι ρ α) (f : α → Prog ι ρ β) :
    eval answer (p >>= f) = eval answer (f (eval answer p)) := by
  induction p with
  | ret a => rfl
  | call c next ih => exact ih (answer c)

end Eval

end Interaction
