import EnterpriseAcs.Library.Transition
import Mathlib.Algebra.Order.Group.Multiset

/-!
# Logs of what is acquired and released

A program acquires things and releases them; its log is the list of these events. What it holds
is a multiset: the same thing can be acquired again. A release of what is not held has no next
state, so that a log with a run never releases anything twice or what it has not acquired.

* `run_accounting`: what is held and released is what was held and acquired.
* `Clean`: a log that from nothing leads to nothing.
* `Clean.restores`: such a log leads from every state back to it.
* `Clean.released_eq`: it releases what it acquires, each as often.
* `clean_nested`: a clean log between an acquisition and the release of the same things.
* `clean_iff_perm`: the logs that first acquire and then release.
* `Nested`: a log that releases what it has acquired last first. `Nested.clean`: it is clean.
-/

namespace Ledger

open Transition

inductive Event (α : Type*) where
  | acquire (a : α)
  | release (a : α)
  deriving DecidableEq, Repr

variable {α : Type*}

/-! ## The two sides of a log -/

def acquired : List (Event α) → Multiset α
  | [] => 0
  | .acquire a :: log => a ::ₘ acquired log
  | .release _ :: log => acquired log

def released : List (Event α) → Multiset α
  | [] => 0
  | .acquire _ :: log => released log
  | .release a :: log => a ::ₘ released log

@[simp] theorem acquired_append (log log' : List (Event α)) :
    acquired (log ++ log') = acquired log + acquired log' := by
  induction log with
  | nil => exact (zero_add _).symm
  | cons e log ih =>
    cases e with
    | acquire a => rw [List.cons_append, acquired, acquired, ih, Multiset.cons_add]
    | release a => rw [List.cons_append, acquired, acquired, ih]

@[simp] theorem released_append (log log' : List (Event α)) :
    released (log ++ log') = released log + released log' := by
  induction log with
  | nil => exact (zero_add _).symm
  | cons e log ih =>
    cases e with
    | acquire a => rw [List.cons_append, released, released, ih]
    | release a => rw [List.cons_append, released, released, ih, Multiset.cons_add]

@[simp] theorem acquired_acquires (as : List α) : acquired (as.map Event.acquire) = as := by
  induction as with
  | nil => rfl
  | cons a as ih => rw [List.map_cons, acquired, ih, Multiset.cons_coe]

@[simp] theorem acquired_releases (as : List α) : acquired (as.map Event.release) = 0 := by
  induction as with
  | nil => rfl
  | cons a as ih => rw [List.map_cons, acquired, ih]

@[simp] theorem released_acquires (as : List α) : released (as.map Event.acquire) = 0 := by
  induction as with
  | nil => rfl
  | cons a as ih => rw [List.map_cons, released, ih]

@[simp] theorem released_releases (as : List α) : released (as.map Event.release) = as := by
  induction as with
  | nil => rfl
  | cons a as ih => rw [List.map_cons, released, ih, Multiset.cons_coe]

theorem mem_acquired {log : List (Event α)} {a : α} : a ∈ acquired log ↔ Event.acquire a ∈ log := by
  induction log with
  | nil => exact iff_of_false (Multiset.notMem_zero a) List.not_mem_nil
  | cons e log ih =>
    cases e with
    | acquire b => rw [acquired, Multiset.mem_cons, ih, List.mem_cons, Event.acquire.injEq]
    | release b => rw [acquired, ih, List.mem_cons, or_iff_right nofun]

theorem mem_released {log : List (Event α)} {a : α} : a ∈ released log ↔ Event.release a ∈ log := by
  induction log with
  | nil => exact iff_of_false (Multiset.notMem_zero a) List.not_mem_nil
  | cons e log ih =>
    cases e with
    | acquire b => rw [released, ih, List.mem_cons, or_iff_right nofun]
    | release b => rw [released, Multiset.mem_cons, ih, List.mem_cons, Event.release.injEq]

/-! ## Runs -/

variable [DecidableEq α]

/-- What is held after an event. -/
def step (held : Multiset α) : Event α → Option (Multiset α)
  | .acquire a => some (a ::ₘ held)
  | .release a => if a ∈ held then some (held.erase a) else none

theorem step_release_cons (held : Multiset α) (a : α) :
    step (a ::ₘ held) (.release a) = some held := by
  rw [step, if_pos (Multiset.mem_cons_self a held), Multiset.erase_cons_head]

theorem run_accounting {log : List (Event α)} {held held' : Multiset α}
    (h : run step held log = some held') : held' + released log = held + acquired log := by
  induction log generalizing held with
  | nil =>
    cases h
    rfl
  | cons e log ih =>
    obtain ⟨next, hStep, hRest⟩ := run_cons.mp h
    have hNext := ih hRest
    cases e with
    | acquire a =>
      cases hStep
      rw [released, acquired, hNext, Multiset.cons_add, Multiset.add_cons]
    | release a =>
      rw [step] at hStep
      split at hStep
      · rename_i hMem
        cases hStep
        rw [released, acquired, Multiset.add_cons, hNext, ← Multiset.cons_add,
          Multiset.cons_erase hMem]
      · cases hStep

theorem run_acquires (held : Multiset α) (as : List α) :
    run step held (as.map Event.acquire) = some ((as : Multiset α) + held) := by
  induction as generalizing held with
  | nil => exact congrArg some (zero_add held).symm
  | cons a as ih =>
    rw [List.map_cons, run, step, Option.bind_some, ih, Multiset.add_cons, ← Multiset.cons_coe,
      Multiset.cons_add]

theorem run_releases (held : Multiset α) (as : List α) :
    run step ((as : Multiset α) + held) (as.map Event.release) = some held := by
  induction as with
  | nil => exact congrArg some (zero_add held)
  | cons a as ih =>
    rw [List.map_cons, run, ← Multiset.cons_coe, Multiset.cons_add, step_release_cons,
      Option.bind_some, ih]

/-- What else is held stays. -/
theorem run_frame {log : List (Event α)} {held held' : Multiset α} (frame : Multiset α)
    (h : run step held log = some held') : run step (held + frame) log = some (held' + frame) := by
  induction log generalizing held with
  | nil =>
    cases h
    rfl
  | cons e log ih =>
    obtain ⟨next, hStep, hRest⟩ := run_cons.mp h
    refine run_cons.mpr ⟨next + frame, ?_, ih hRest⟩
    cases e with
    | acquire a =>
      cases hStep
      rw [step, Multiset.cons_add]
    | release a =>
      rw [step] at hStep ⊢
      split at hStep
      · rename_i hMem
        cases hStep
        rw [if_pos (Multiset.mem_add.mpr (Or.inl hMem)), Multiset.erase_add_left_pos frame hMem]
      · cases hStep

/-! ## Clean logs -/

/-- The log acquires nothing for good, and releases only what it holds. -/
def Clean (log : List (Event α)) : Prop := run step 0 log = some 0

instance (log : List (Event α)) : Decidable (Clean log) := inferInstanceAs (Decidable (_ = _))

theorem clean_nil : Clean ([] : List (Event α)) := rfl

theorem Clean.restores {log : List (Event α)} (h : Clean log) (held : Multiset α) :
    run step held log = some held := by
  have hFrame := run_frame held h
  rwa [zero_add] at hFrame

theorem Clean.append {log log' : List (Event α)} (h : Clean log) (h' : Clean log') :
    Clean (log ++ log') := by
  rw [Clean, run_append, h, Option.bind_some]
  exact h'

theorem Clean.released_eq {log : List (Event α)} (h : Clean log) :
    released log = acquired log := by
  have hSides := run_accounting h
  rwa [zero_add, zero_add] at hSides

/-- A clean log releases whatever it acquires. -/
theorem Clean.mem_release {log : List (Event α)} (h : Clean log) {a : α}
    (hMem : Event.acquire a ∈ log) : Event.release a ∈ log := by
  rw [← mem_released, h.released_eq, mem_acquired]
  exact hMem

/-- The things may be released in another order. -/
theorem clean_nested {log : List (Event α)} {as bs : List α} (h : Clean log) (hPerm : bs.Perm as) :
    Clean (as.map Event.acquire ++ log ++ bs.map Event.release) := by
  have hEnd := run_releases 0 bs
  rw [Multiset.coe_eq_coe.mpr hPerm] at hEnd
  rw [Clean, run_append, run_append, run_acquires, Option.bind_some, h.restores, Option.bind_some,
    hEnd]

/-- A log that first acquires and then releases. -/
theorem clean_iff_perm (as bs : List α) :
    Clean (as.map Event.acquire ++ bs.map Event.release) ↔ bs.Perm as := by
  apply Iff.intro
  · intro h
    have hSides := h.released_eq
    rw [released_append, acquired_append, released_acquires, acquired_acquires,
      released_releases, acquired_releases, zero_add, add_zero] at hSides
    exact Multiset.coe_eq_coe.mp hSides
  · intro h
    have hNested := clean_nested clean_nil h
    rwa [List.append_nil] at hNested

/-! ## Nested logs -/

/-- What is held after an event, the last acquired first: nothing else can be released. -/
def stackStep (held : List α) : Event α → Option (List α)
  | .acquire a => some (a :: held)
  | .release a => if held.head? = some a then some held.tail else none

theorem stackStep_release_cons (held : List α) (a : α) :
    stackStep (a :: held) (.release a) = some held := if_pos rfl

/-- The log acquires and releases like opening and closing brackets. -/
def Nested (log : List (Event α)) : Prop := run stackStep [] log = some []

instance (log : List (Event α)) : Decidable (Nested log) := inferInstanceAs (Decidable (_ = _))

/-- A log that is followed with a stack is followed with a multiset. -/
theorem run_of_stack {log : List (Event α)} {held held' : List α}
    (h : run stackStep held log = some held') :
    run step (held : Multiset α) log = some (held' : Multiset α) := by
  induction log generalizing held with
  | nil =>
    cases h
    rfl
  | cons e log ih =>
    obtain ⟨next, hStep, hRest⟩ := run_cons.mp h
    refine run_cons.mpr ⟨(next : Multiset α), ?_, ih hRest⟩
    cases e with
    | acquire a =>
      cases hStep
      rw [step, Multiset.cons_coe]
    | release a =>
      rw [stackStep] at hStep
      split at hStep
      · rename_i hTop
        cases hStep
        obtain ⟨rest, rfl⟩ := List.head?_eq_some_iff.mp hTop
        rw [← Multiset.cons_coe, step_release_cons, List.tail_cons]
      · cases hStep

theorem Nested.clean {log : List (Event α)} (h : Nested log) : Clean log := run_of_stack h

end Ledger
