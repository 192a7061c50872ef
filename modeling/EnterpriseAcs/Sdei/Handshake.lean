import EnterpriseAcs.Library.Transition
import EnterpriseAcs.Sdei.Mailbox
import Mathlib.Data.List.Infix

/-!
# The handshake executes every posted call once

`Inv` says what every mailbox looks like at each program point of the primary: the PEs
before the loop index have executed all calls, those after it all calls but the current
one, and the PE the primary waits for is somewhere between the two. Every step keeps it,
as long as the primary posts to no PE that has yet to clear its mailbox (`PostAfterClear`).

* `inv_step`: the step lemma.
* `posted_executed_within`: a posted call is executed after at most five own steps of its
  PE, in every interleaving.
* `handshake_exactly_once`: the run theorem for parked secondaries.
-/

namespace EnterpriseAcs.Sdei

open Transition

variable {P : PeSet}

/-! ## Steps of one PE -/

theorem PeState.Rest.step {p : PeState} {done : List Call} (h : p.Rest done) :
    p.step.Rest done := by
  rcases h with h | h
  · refine Or.inl ?_
    rcases h.pc with hpc | hpc
    · simp only [PeState.step, hpc, h.payload]
      exact ⟨h.payload, Or.inr rfl, h.posted, h.started, h.finished⟩
    · simp only [PeState.step, hpc, if_true]
      exact ⟨h.payload, Or.inl rfl, h.posted, h.started, h.finished⟩
  · refine Or.inl ?_
    simp only [PeState.step, h.pc]
    exact ⟨rfl, Or.inl rfl, h.posted.trans h.done.symm, h.started.trans h.done.symm,
      h.finished.trans h.done.symm⟩

theorem PeState.Busy.step {p : PeState} {c : Call} {done : List Call} (h : p.Busy c done)
    (hc : c.payload ≠ 0) : p.step.Serving c done := by
  obtain ⟨hBox, hPosted, hPhase⟩ := h
  cases hPhase with
  | polling hpc hStarted hFinished =>
    refine Or.inl ?_
    rcases hpc with hpc | hpc
    · simp only [PeState.step, hpc]
      exact ⟨hBox, hPosted, .taken (Or.inl (by rw [hBox])) hStarted hFinished⟩
    · simp only [PeState.step, hpc, if_true]
      exact ⟨hBox, hPosted, .polling (Or.inl rfl) hStarted hFinished⟩
  | taken hpc hStarted hFinished =>
    refine Or.inl ?_
    rcases hpc with hpc | hpc
    · simp only [PeState.step, hpc, if_neg hc, hBox]
      exact ⟨rfl, hPosted, .taken (Or.inr rfl) hStarted hFinished⟩
    · simp only [PeState.step, hpc]
      exact ⟨hBox, hPosted, .running rfl (by rw [hStarted]) hFinished⟩
  | running hpc hStarted hFinished =>
    refine Or.inl ?_
    simp only [PeState.step, hpc]
    exact ⟨hBox, hPosted, .ack rfl hStarted (by rw [hFinished])⟩
  | ack hpc hStarted hFinished =>
    refine Or.inr ?_
    simp only [PeState.step, hpc]
    exact ⟨rfl, Or.inl rfl, hPosted, hStarted, hFinished⟩

theorem PeState.Serving.step {p : PeState} {c : Call} {done : List Call}
    (h : p.Serving c done) (hc : c.payload ≠ 0) : p.step.Serving c done := by
  rcases h with h | h
  · exact h.step hc
  · rcases PeState.Rest.step (Or.inl h) with h' | h'
    · exact Or.inr h'
    · exact absurd h'.done (by simp)

/-- A secondary never writes the argument word. -/
theorem PeState.step_arg (p : PeState) : p.step.mailbox.arg = p.mailbox.arg := by
  unfold PeState.step
  split <;> rfl

/-- Posting the argument leaves a resting PE at rest. -/
theorem PeState.Rest.storeArg {p : PeState} {done : List Call} (h : p.Rest done)
    (a : BitVec 64) : PeState.Rest { p with mailbox := { p.mailbox with arg := a } } done := by
  rcases h with h | h
  · exact Or.inl ⟨h.payload, h.pc, h.posted, h.started, h.finished⟩
  · exact Or.inr ⟨h.pc, h.done, h.posted, h.started, h.finished⟩

/-- Posting the payload hands the call to a PE that has cleared its mailbox. -/
theorem PeState.Rest.storePayload {p : PeState} {done : List Call} {c : Call}
    (h : p.Rest done) (hClear : p.pc ≠ .clear) (hArg : p.mailbox.arg = c.arg) :
    PeState.Busy
      { p with
        mailbox := { p.mailbox with payload := c.payload }
        posted := p.posted ++ [c] } c done := by
  rcases h with h | h
  · exact ⟨by simp only [hArg], by simp only [h.posted], .polling h.pc h.started h.finished⟩
  · exact absurd h.pc hClear

/-! ## The invariant -/

/-- A call is in progress: it is the last one of the history. -/
structure InCall (calls : List Call) (c : Call) (done : List Call) : Prop where
  nonNull : c.payload ≠ 0
  calls : calls = done ++ [c]

/-- PEs below the loop index have executed all calls, those from it on all but the current
one. -/
def Swept (P : PeSet) (pe : Nat → PeState) (j : Nat) (c : Call) (done : List Call) : Prop :=
  ∀ i, P.IsSecondary i → (pe i).Rest (if i < j then done ++ [c] else done)

/-- The same for the PEs other than `j`. -/
def SweptBut (P : PeSet) (pe : Nat → PeState) (j : Nat) (c : Call) (done : List Call) : Prop :=
  ∀ i, P.IsSecondary i → i ≠ j → (pe i).Rest (if i < j then done ++ [c] else done)

def Inv (P : PeSet) (s : MailState) : Prop :=
  match s.primary with
  | .idle => ∀ i, P.IsSecondary i → (s.pe i).Rest s.calls
  | .runOwn c => ∃ done, InCall s.calls c done ∧ Swept P s.pe 0 c done
  | .loop c j => ∃ done, InCall s.calls c done ∧ Swept P s.pe j c done
  | .storeArg c j => ∃ done, InCall s.calls c done ∧ Swept P s.pe j c done ∧ P.IsSecondary j
  | .storePayload c j => ∃ done, InCall s.calls c done ∧ Swept P s.pe j c done ∧
      P.IsSecondary j ∧ (s.pe j).mailbox.arg = c.arg
  | .wait c j => ∃ done, InCall s.calls c done ∧ SweptBut P s.pe j c done ∧
      P.IsSecondary j ∧ (s.pe j).Serving c done

/-- The primary stores a payload only into a mailbox that its PE has cleared. -/
def PostAfterClear (s : MailState) (l : MailLabel) : Prop :=
  l = .primary → ∀ c j, s.primary = .storePayload c j → (s.pe j).pc ≠ .clear

section Sweep

variable {pe : Nat → PeState} {j : Nat} {c : Call} {done : List Call}

theorem SweptBut.next (h : SweptBut P pe j c done)
    (hj : P.IsSecondary j → (pe j).Rest (done ++ [c])) : Swept P pe (j + 1) c done := by
  intro i hi
  by_cases hij : i = j
  · subst i
    rw [if_pos (by omega)]
    exact hj hi
  · have hRest := h i hi hij
    by_cases hlt : i < j
    · rw [if_pos hlt] at hRest
      rwa [if_pos (by omega)]
    · rw [if_neg hlt] at hRest
      rwa [if_neg (by omega)]

theorem Swept.but (h : Swept P pe j c done) : SweptBut P pe j c done := fun i hi _ => h i hi

theorem Swept.at_index (h : Swept P pe j c done) (hj : P.IsSecondary j) : (pe j).Rest done := by
  simpa using h j hj

/-- An update of one PE keeps the others as they were. -/
theorem Swept.update (h : Swept P pe j c done) {k : Nat} {p : PeState}
    (hk : P.IsSecondary k → p.Rest (if k < j then done ++ [c] else done)) :
    Swept P (Function.update pe k p) j c done := by
  intro i hi
  by_cases hik : i = k
  · subst i
    rw [Function.update_self]
    exact hk hi
  · rw [Function.update_of_ne hik]
    exact h i hi

/-- What the primary does to the PE it serves does not matter to the others. -/
theorem SweptBut.update (h : SweptBut P pe j c done) (p : PeState) :
    SweptBut P (Function.update pe j p) j c done := by
  intro i hi hij
  rw [Function.update_of_ne hij]
  exact h i hi hij

theorem Swept.step (h : Swept P pe j c done) (k : Nat) :
    Swept P (Function.update pe k (pe k).step) j c done :=
  h.update fun hk => (h k hk).step

theorem SweptBut.step (h : SweptBut P pe j c done) (k : Nat) :
    SweptBut P (Function.update pe k (pe k).step) j c done := by
  intro i hi hij
  by_cases hik : i = k
  · subst i
    rw [Function.update_self]
    exact (h k hi hij).step
  · rw [Function.update_of_ne hik]
    exact h i hi hij

end Sweep

theorem executeOnAllStep_inv {s t : MailState} (hInv : Inv P s)
    (hPost : PostAfterClear s .primary) (h : mailStep P s .primary = some t) : Inv P t := by
  have hSame := hInv
  unfold Inv at hInv
  cases mailStepped_of_step h with
  | ranOwn hpc =>
    simp only [hpc] at hInv
    exact hInv
  | @passedOwn c j hpc hOwn =>
    simp only [hpc] at hInv
    obtain ⟨done, hCall, hSwept⟩ := hInv
    exact ⟨done, hCall, hSwept.but.next fun hj => absurd hOwn hj.2⟩
  | turned hpc hj =>
    simp only [hpc] at hInv
    obtain ⟨done, hCall, hSwept⟩ := hInv
    exact ⟨done, hCall, hSwept, hj⟩
  | returned hpc hEnd =>
    simp only [hpc] at hInv
    obtain ⟨done, hCall, hSwept⟩ := hInv
    intro i hi
    have hRest := hSwept i hi
    rw [if_pos (by have := hi.1; omega)] at hRest
    rwa [hCall.calls]
  | @storedArg c j hpc =>
    simp only [hpc] at hInv
    obtain ⟨done, hCall, hSwept, hj⟩ := hInv
    refine ⟨done, hCall, hSwept.update fun hj => (hSwept j hj).storeArg c.arg, hj, ?_⟩
    simp only [Function.update_self]
  | @storedPayload c j hpc =>
    simp only [hpc] at hInv
    obtain ⟨done, hCall, hSwept, hj, hArg⟩ := hInv
    refine ⟨done, hCall, hSwept.but.update _, hj, Or.inl ?_⟩
    simp only [Function.update_self]
    exact (hSwept.at_index hj).storePayload (hPost rfl c j hpc) hArg
  | @acknowledged c j hpc hZero =>
    simp only [hpc] at hInv
    obtain ⟨done, hCall, hSwept, hj, hServing⟩ := hInv
    have hQuiet : (s.pe j).Quiet (done ++ [c]) := by
      rcases hServing with hBusy | hQuiet
      · rw [hBusy.mailbox] at hZero
        exact absurd hZero hCall.nonNull
      · exact hQuiet
    exact ⟨done, hCall, hSwept.next fun _ => Or.inl hQuiet⟩
  | spun hpc hBusy => exact hSame

theorem secondaryStep_inv {s : MailState} (hInv : Inv P s) (i : Nat) :
    Inv P { s with pe := Function.update s.pe i (s.pe i).step } := by
  unfold Inv at hInv ⊢
  cases hpc : s.primary with
  | idle =>
    simp only [hpc] at hInv ⊢
    intro k hk
    by_cases hki : k = i
    · subst k
      rw [Function.update_self]
      exact (hInv i hk).step
    · rw [Function.update_of_ne hki]
      exact hInv k hk
  | runOwn c | loop c j =>
    simp only [hpc] at hInv ⊢
    obtain ⟨done, hCall, hSwept⟩ := hInv
    exact ⟨done, hCall, hSwept.step i⟩
  | storeArg c j =>
    simp only [hpc] at hInv ⊢
    obtain ⟨done, hCall, hSwept, hj⟩ := hInv
    exact ⟨done, hCall, hSwept.step i, hj⟩
  | storePayload c j =>
    simp only [hpc] at hInv ⊢
    obtain ⟨done, hCall, hSwept, hj, hArg⟩ := hInv
    refine ⟨done, hCall, hSwept.step i, hj, ?_⟩
    by_cases hji : j = i
    · subst j
      rw [Function.update_self, PeState.step_arg, hArg]
    · rw [Function.update_of_ne hji, hArg]
  | wait c j =>
    simp only [hpc] at hInv ⊢
    obtain ⟨done, hCall, hSwept, hj, hServing⟩ := hInv
    refine ⟨done, hCall, hSwept.step i, hj, ?_⟩
    by_cases hji : j = i
    · subst j
      rw [Function.update_self]
      exact hServing.step hCall.nonNull
    · rw [Function.update_of_ne hji]
      exact hServing

theorem inv_step {s t : MailState} {l : MailLabel} (hInv : Inv P s) (hPost : PostAfterClear s l)
    (h : mailStep P s l = some t) : Inv P t := by
  cases l with
  | invoke c =>
    cases mailStepped_of_step h with
    | invoked hIdle hc =>
      simp only [Inv, hIdle] at hInv ⊢
      exact ⟨s.calls, ⟨hc, rfl⟩, fun i hi => by simpa using hInv i hi⟩
  | primary => exact executeOnAllStep_inv hInv hPost h
  | secondary i =>
    cases mailStepped_of_step h with
    | moved hi => exact secondaryStep_inv hInv i

/-! ## Parked secondaries -/

/-- Every secondary is in the polling loop of `CEntryPoint` with a zero mailbox, and no
call has been made. -/
structure Parked (P : PeSet) (s : MailState) : Prop where
  primary : s.primary = .idle
  calls : s.calls = []
  quiet : ∀ i, P.IsSecondary i → (s.pe i).Quiet []

/-- The invariant of runs from parked secondaries: none of them clears its mailbox again. -/
structure Live (P : PeSet) (s : MailState) : Prop where
  inv : Inv P s
  cleared : ∀ i, P.IsSecondary i → (s.pe i).pc ≠ .clear

theorem Parked.live {s : MailState} (h : Parked P s) : Live P s := by
  constructor
  · simp only [Inv, h.primary, h.calls]
    exact fun i hi => Or.inl (h.quiet i hi)
  · intro i hi hClear
    rcases (h.quiet i hi).pc with hpc | hpc <;> rw [hClear] at hpc <;> cases hpc

theorem PeState.step_pc (p : PeState) : p.step.pc ≠ .clear := by
  unfold PeState.step
  split
  case h_3 => split <;> simp
  all_goals simp

/-- What a step of the primary does to PE `i`: at most a store to its mailbox, and a post. -/
theorem executeOnAllStep_pe {s t : MailState} (h : mailStep P s .primary = some t) (i : Nat) :
    ∃ (b : Mailbox) (ps : List Call),
      t.pe i = { s.pe i with mailbox := b, posted := (s.pe i).posted ++ ps } := by
  have hSame : ∃ (b : Mailbox) (ps : List Call),
      s.pe i = { s.pe i with mailbox := b, posted := (s.pe i).posted ++ ps } :=
    ⟨(s.pe i).mailbox, [], by rw [List.append_nil]⟩
  have hUpdate : ∀ (j : Nat) (b : Mailbox) (ps : List Call), ∃ (b' : Mailbox) (ps' : List Call),
      Function.update s.pe j
          { s.pe j with mailbox := b, posted := (s.pe j).posted ++ ps } i =
        { s.pe i with mailbox := b', posted := (s.pe i).posted ++ ps' } := by
    intro j b ps
    by_cases hij : i = j
    · subst i
      exact ⟨b, ps, Function.update_self _ _ _⟩
    · rw [Function.update_of_ne hij]
      exact hSame
  cases mailStepped_of_step h with
  | ranOwn | passedOwn | turned | returned | acknowledged | spun => exact hSame
  | @storedArg c j hpc =>
    have hArg := hUpdate j { (s.pe j).mailbox with arg := c.arg } []
    rwa [List.append_nil] at hArg
  | @storedPayload c j hpc => exact hUpdate j { (s.pe j).mailbox with payload := c.payload } [c]

theorem executeOnAllStep_finished {s t : MailState} (h : mailStep P s .primary = some t)
    (i : Nat) : (t.pe i).finished = (s.pe i).finished := by
  obtain ⟨_, _, hPe⟩ := executeOnAllStep_pe h i
  rw [hPe]

/-- A PE that does not move keeps its program point and its executions. -/
theorem mailStep_unmoved {s t : MailState} {l : MailLabel} {i : Nat}
    (h : mailStep P s l = some t) (hl : l ≠ .secondary i) :
    (t.pe i).pc = (s.pe i).pc ∧ (t.pe i).started = (s.pe i).started ∧
      (s.pe i).posted <+: (t.pe i).posted := by
  cases l with
  | invoke c =>
    cases mailStepped_of_step h with
    | invoked hIdle hc => exact ⟨rfl, rfl, List.prefix_refl _⟩
  | primary =>
    obtain ⟨_, _, hPe⟩ := executeOnAllStep_pe h i
    rw [hPe]
    exact ⟨rfl, rfl, List.prefix_append _ _⟩
  | secondary k =>
    cases mailStepped_of_step h with
    | moved hk =>
      have hik : i ≠ k := fun hik => hl (by rw [hik])
      have hPe : Function.update s.pe k (s.pe k).step i = s.pe i := Function.update_of_ne hik _ _
      simp only [hPe, List.prefix_refl, and_self]

theorem mailStep_moved {s t : MailState} {i : Nat} (h : mailStep P s (.secondary i) = some t) :
    t.pe i = (s.pe i).step := by
  cases mailStepped_of_step h with
  | moved hi => exact Function.update_self _ _ _

theorem Live.postAfterClear {s : MailState} (h : Live P s) (l : MailLabel) :
    PostAfterClear s l := by
  intro _ c j hpc
  have hInv := h.inv
  simp only [Inv, hpc] at hInv
  obtain ⟨_, _, _, hj, _⟩ := hInv
  exact h.cleared j hj

theorem live_step {s t : MailState} {l : MailLabel} (hLive : Live P s)
    (h : mailStep P s l = some t) : Live P t := by
  refine ⟨inv_step hLive.inv (hLive.postAfterClear l) h, ?_⟩
  intro i hi
  by_cases hl : l = .secondary i
  · subst hl
    rw [mailStep_moved h]
    exact PeState.step_pc _
  · rw [(mailStep_unmoved h hl).1]
    exact hLive.cleared i hi

/-! ## What the invariant gives -/

/-- On one PE: executions happen in the order of the posts, and a finished one was started
before; when the call has returned nothing is missing and nothing is there twice. -/
structure ExactlyOnce (P : PeSet) (s : MailState) : Prop where
  returned : s.primary = .idle → ∀ i, P.IsSecondary i →
    (s.pe i).posted = s.calls ∧ (s.pe i).started = s.calls ∧ (s.pe i).finished = s.calls
  ordered : ∀ i, P.IsSecondary i → (s.pe i).finished <+: (s.pe i).started ∧
    (s.pe i).started <+: (s.pe i).posted ∧ (s.pe i).posted <+: s.calls

theorem PeState.Rest.lists {p : PeState} {done : List Call} (h : p.Rest done) :
    p.posted = done ∧ p.started = done ∧ p.finished = done := by
  rcases h with h | h
  · exact ⟨h.posted, h.started, h.finished⟩
  · exact ⟨h.posted.trans h.done.symm, h.started.trans h.done.symm,
      h.finished.trans h.done.symm⟩

theorem PeState.Rest.ordered {p : PeState} {done calls : List Call} (h : p.Rest done)
    (hCalls : done <+: calls) :
    p.finished <+: p.started ∧ p.started <+: p.posted ∧ p.posted <+: calls := by
  obtain ⟨h1, h2, h3⟩ := h.lists
  rw [h1, h2, h3]
  exact ⟨List.prefix_refl _, List.prefix_refl _, hCalls⟩

theorem PeState.Serving.ordered {p : PeState} {c : Call} {done : List Call}
    (h : p.Serving c done) :
    p.finished <+: p.started ∧ p.started <+: p.posted ∧ p.posted <+: done ++ [c] := by
  rcases h with h | h
  · rw [h.posted]
    cases h.phase with
    | polling _ hStarted hFinished | taken _ hStarted hFinished
      | running _ hStarted hFinished | ack _ hStarted hFinished =>
      rw [hStarted, hFinished]
      simp
  · exact PeState.Rest.ordered (Or.inl h) (List.prefix_refl _)

theorem Swept.ordered {pe : Nat → PeState} {j i : Nat} {c : Call} {done calls : List Call}
    (h : (pe i).Rest (if i < j then done ++ [c] else done)) (hCalls : calls = done ++ [c]) :
    (pe i).finished <+: (pe i).started ∧ (pe i).started <+: (pe i).posted ∧
      (pe i).posted <+: calls := by
  refine h.ordered ?_
  rw [hCalls]
  split
  · exact List.prefix_refl _
  · exact List.prefix_append _ _

theorem Inv.exactlyOnce {s : MailState} (h : Inv P s) : ExactlyOnce P s := by
  constructor
  · intro hIdle i hi
    simp only [Inv, hIdle] at h
    exact (h i hi).lists
  · intro i hi
    unfold Inv at h
    cases hpc : s.primary with
    | idle =>
      simp only [hpc] at h
      exact (h i hi).ordered (List.prefix_refl _)
    | runOwn c | loop c j =>
      simp only [hpc] at h
      obtain ⟨done, hCall, hSwept⟩ := h
      exact Swept.ordered (hSwept i hi) hCall.calls
    | storeArg c j | storePayload c j =>
      simp only [hpc] at h
      obtain ⟨done, hCall, hSwept, _⟩ := h
      exact Swept.ordered (hSwept i hi) hCall.calls
    | wait c j =>
      simp only [hpc] at h
      obtain ⟨done, hCall, hSwept, _, hServing⟩ := h
      by_cases hij : i = j
      · subst i
        rw [hCall.calls]
        exact hServing.ordered
      · exact Swept.ordered (hSwept i hi hij) hCall.calls

/-! ## Every posted call is executed -/

/-- How many own steps the PE may still need to finish the call in its mailbox. -/
def PeState.rank (p : PeState) : Nat :=
  match p.pc with
  | .loadArg r => if r = 0 then 5 else 3
  | .loadPayload => 4
  | .call _ _ => 2
  | .running _ _ => 1
  | .ack | .clear => 0

/-- The same, and nothing once the calls `target` are finished. -/
def PeState.remaining (target : List Call) (p : PeState) : Nat :=
  if target <+: p.finished then 0 else p.rank

theorem PeState.remaining_le (target : List Call) (p : PeState) : p.remaining target ≤ 5 := by
  unfold PeState.remaining PeState.rank
  split
  · omega
  · split
    case h_1 => split <;> omega
    all_goals omega

theorem PeState.remaining_of_finished {target : List Call} {p : PeState}
    (h : target <+: p.finished) : p.remaining target = 0 := if_pos h

theorem PeState.finished_step (p : PeState) : p.finished <+: p.step.finished := by
  unfold PeState.step
  split <;> simp

theorem PeState.Busy.remaining_step {p : PeState} {c : Call} {done : List Call}
    (h : p.Busy c done) (hc : c.payload ≠ 0) :
    p.step.remaining (done ++ [c]) ≤ p.remaining (done ++ [c]) - 1 := by
  obtain ⟨hBox, -, hPhase⟩ := h
  have hWaiting : ∀ {q : PeState}, q.finished = done → q.remaining (done ++ [c]) = q.rank := by
    intro q hq
    refine if_neg fun hPrefix => ?_
    have := hPrefix.length_le
    rw [hq, List.length_append, List.length_singleton] at this
    omega
  cases hPhase with
  | polling hpc _ hFinished =>
    rcases hpc with hpc | hpc
    · have hStep : p.step = { p with pc := .loadArg c.payload } := by
        simp only [PeState.step, hpc, hBox]
      rw [hStep, hWaiting hFinished, hWaiting (q := { p with pc := .loadArg c.payload }) hFinished]
      simp only [PeState.rank, hpc, if_neg hc]
      omega
    · have hStep : p.step = { p with pc := .loadPayload } := by
        simp only [PeState.step, hpc, if_true]
      rw [hStep, hWaiting hFinished, hWaiting (q := { p with pc := .loadPayload }) hFinished]
      simp only [PeState.rank, hpc, if_true]
      omega
  | taken hpc _ hFinished =>
    rcases hpc with hpc | hpc
    · have hStep : p.step = { p with pc := .call c.payload c.arg } := by
        simp only [PeState.step, hpc, if_neg hc, hBox]
      rw [hStep, hWaiting hFinished,
        hWaiting (q := { p with pc := .call c.payload c.arg }) hFinished]
      simp only [PeState.rank, hpc, if_neg hc]
      omega
    · have hStep : p.step =
          { p with pc := .running c.payload c.arg, started := p.started ++ [c] } := by
        simp only [PeState.step, hpc]
      rw [hStep, hWaiting hFinished, hWaiting (q :=
        { p with pc := .running c.payload c.arg, started := p.started ++ [c] }) hFinished]
      simp only [PeState.rank, hpc]
      omega
  | running hpc _ hFinished =>
    rw [PeState.remaining_of_finished (p := p.step)]
    · omega
    · simp [PeState.step, hpc, hFinished]
  | ack _ _ hFinished =>
    rw [PeState.remaining_of_finished (p := p.step)]
    · omega
    · exact hFinished ▸ p.finished_step

/-- A busy PE that needs no more steps has reached its acknowledgement. -/
theorem PeState.Busy.finished_of_remaining {p : PeState} {c : Call} {done : List Call}
    (h : p.Busy c done) (hc : c.payload ≠ 0) (hZero : p.remaining (done ++ [c]) = 0) :
    done ++ [c] <+: p.finished := by
  by_contra hNot
  rw [PeState.remaining, if_neg hNot] at hZero
  cases h.phase with
  | polling hpc _ _ => rcases hpc with hpc | hpc <;> simp [PeState.rank, hpc] at hZero
  | taken hpc _ _ =>
    rcases hpc with hpc | hpc <;> simp only [PeState.rank, hpc, if_neg hc] at hZero <;>
      cases hZero
  | running hpc _ _ => simp [PeState.rank, hpc] at hZero
  | ack _ _ hFinished => exact hNot (hFinished ▸ List.prefix_refl _)

/-- PE `i` has finished the calls `target`, or has the last one of them in its mailbox. -/
structure Pursuing (P : PeSet) (i : Nat) (target : List Call) (s : MailState) : Prop where
  live : Live P s
  stage : target <+: (s.pe i).finished ∨
    ∃ c done, s.primary = .wait c i ∧ c.payload ≠ 0 ∧ (s.pe i).Busy c done ∧
      target = done ++ [c]

theorem Live.pursuing {s : MailState} (h : Live P s) {i : Nat} (hi : P.IsSecondary i) :
    Pursuing P i (s.pe i).posted s := by
  refine ⟨h, ?_⟩
  have hRest : ∀ {done}, (s.pe i).Rest done → (s.pe i).posted <+: (s.pe i).finished := by
    intro done hr
    obtain ⟨h1, -, h3⟩ := hr.lists
    rw [h1, h3]
  have hInv := h.inv
  unfold Inv at hInv
  cases hpc : s.primary with
  | idle =>
    simp only [hpc] at hInv
    exact Or.inl (hRest (hInv i hi))
  | runOwn c | loop c j =>
    simp only [hpc] at hInv
    obtain ⟨done, _, hSwept⟩ := hInv
    exact Or.inl (hRest (hSwept i hi))
  | storeArg c j | storePayload c j =>
    simp only [hpc] at hInv
    obtain ⟨done, _, hSwept, _⟩ := hInv
    exact Or.inl (hRest (hSwept i hi))
  | wait c j =>
    simp only [hpc] at hInv
    obtain ⟨done, hCall, hSwept, _, hServing⟩ := hInv
    by_cases hij : i = j
    · subst i
      rcases hServing with hBusy | hQuiet
      · exact Or.inr ⟨c, done, rfl, hCall.nonNull, hBusy, hBusy.posted⟩
      · exact Or.inl (hRest (Or.inl hQuiet))
    · exact Or.inl (hRest (hSwept i hi hij))

/-- No step takes a finished call back. -/
theorem mailStep_finished {s t : MailState} {l : MailLabel} (h : mailStep P s l = some t)
    (i : Nat) : (s.pe i).finished <+: (t.pe i).finished := by
  cases l with
  | invoke c =>
    cases mailStepped_of_step h with
    | invoked hIdle hc => exact List.prefix_refl _
  | primary =>
    rw [executeOnAllStep_finished h]
  | secondary k =>
    cases mailStepped_of_step h with
    | moved hk =>
      by_cases hik : i = k
      · subst k
        simp only [Function.update_self]
        exact (s.pe i).finished_step
      · simp only [Function.update_of_ne hik, List.prefix_refl]

/-- A step either has the target finished after it, or is a step of PE `i` while it is busy
with the target, or leaves PE `i` and the waiting primary alone. -/
theorem pursuing_cases {s t : MailState} {l : MailLabel} {i : Nat} {target : List Call}
    (hPursuing : Pursuing P i target s) (h : mailStep P s l = some t) :
    target <+: (t.pe i).finished ∨
      ∃ c done, s.primary = .wait c i ∧ t.primary = .wait c i ∧ c.payload ≠ 0 ∧
        (s.pe i).Busy c done ∧ target = done ++ [c] ∧
        t.pe i = if l = .secondary i then (s.pe i).step else s.pe i := by
  rcases hPursuing.stage with hDone | ⟨c, done, hpc, hc, hBusy, hTarget⟩
  · exact Or.inl (hDone.trans (mailStep_finished h i))
  · refine Or.inr ⟨c, done, hpc, ?_⟩
    cases l with
    | invoke c' => simp [mailStep, hpc] at h
    | primary =>
      -- the primary spins: the mailbox of the PE is not zero
      simp only [mailStep, executeOnAllStep, hpc, hBusy.mailbox, if_neg hc] at h
      cases h
      exact ⟨hpc, hc, hBusy, hTarget, by simp⟩
    | secondary k =>
      cases mailStepped_of_step h with
      | moved hk =>
        refine ⟨hpc, hc, hBusy, hTarget, ?_⟩
        by_cases hik : i = k
        · subst k
          simp
        · have hki : k ≠ i := fun h => hik h.symm
          simp [Function.update_of_ne hik, hki]

theorem pursuing_step {s t : MailState} {l : MailLabel} {i : Nat} {target : List Call}
    (hPursuing : Pursuing P i target s) (h : mailStep P s l = some t) :
    Pursuing P i target t := by
  refine ⟨live_step hPursuing.live h, ?_⟩
  rcases pursuing_cases hPursuing h with hDone | ⟨c, done, _, hpc, hc, hBusy, hTarget, hPe⟩
  · exact Or.inl hDone
  · rw [hPe]
    split
    · rcases hBusy.step hc with hNext | hQuiet
      · exact Or.inr ⟨c, done, hpc, hc, hNext, hTarget⟩
      · refine Or.inl ?_
        rw [hTarget, hQuiet.finished]
    · exact Or.inr ⟨c, done, hpc, hc, hBusy, hTarget⟩

/-- In every interleaving, what was posted to a PE is executed after five own steps of
this PE. -/
theorem posted_executed_within {s t : MailState} {ls : List MailLabel} {i : Nat}
    (hLive : Live P s) (hi : P.IsSecondary i) (hRun : run (mailStep P) s ls = some t)
    (hCount : 5 ≤ ls.countP (fun l => l = .secondary i)) :
    (s.pe i).posted <+: (t.pe i).finished := by
  have hStart := hLive.pursuing hi
  generalize (s.pe i).posted = target at hStart
  have hEnd : Pursuing P i target t :=
    run_invariant (I := Pursuing P i target) (fun _ _ _ hu h => pursuing_step hu h) hStart hRun
  have hZero : (t.pe i).remaining target = 0 := by
    refine run_measure (I := Pursuing P i target)
      (fun u => (u.pe i).remaining target) (fun l => l = .secondary i)
      (fun _ _ _ hu h => pursuing_step hu h) ?_ ?_ hStart hRun
      ((PeState.remaining_le _ _).trans hCount)
    · intro u l v hu h hl
      have hOwn : l = .secondary i := by simpa using hl
      rcases pursuing_cases hu h with hDone | ⟨c, done, _, _, hc, hBusy, rfl, hPe⟩
      · rw [PeState.remaining_of_finished hDone]
        omega
      · rw [hPe, if_pos hOwn]
        exact hBusy.remaining_step hc
    · intro u l v hu h
      rcases pursuing_cases hu h with hDone | ⟨c, done, _, _, hc, hBusy, rfl, hPe⟩
      · rw [PeState.remaining_of_finished hDone]
        omega
      · rw [hPe]
        split
        · have := hBusy.remaining_step hc
          omega
        · exact Nat.le_refl _
  rcases hEnd.stage with hDone | ⟨c, done, _, hc, hBusy, rfl⟩
  · exact hDone
  · exact hBusy.finished_of_remaining hc hZero

/-- **The handshake.** From parked secondaries, in every interleaving of any sequence of
calls: executions follow the posts in order, at every return each other PE has executed
exactly the calls made so far, each once and with its own argument, and what is posted to a
PE is executed after at most five more steps of that PE. -/
theorem handshake_exactly_once (P : PeSet) (s t : MailState) (ls : List MailLabel)
    (hParked : Parked P s) (hRun : run (mailStep P) s ls = some t) :
    ExactlyOnce P t ∧
      ∀ i, P.IsSecondary i → ∀ ms u, run (mailStep P) t ms = some u →
        5 ≤ ms.countP (fun l => l = .secondary i) → (t.pe i).posted <+: (u.pe i).finished := by
  have hLive : Live P t :=
    run_invariant (I := Live P) (fun _ _ _ h hStep => live_step h hStep) hParked.live hRun
  exact ⟨hLive.inv.exactlyOnce, fun i hi ms u hNext hCount =>
    posted_executed_within hLive hi hNext hCount⟩

/-- A PE in the polling loop whose mailbox is zero. -/
def parkedPe : PeState where
  pc := .loadPayload
  mailbox := ⟨0, 0⟩
  posted := []
  started := []
  finished := []

def parkedState : MailState := ⟨.idle, [], fun _ => parkedPe⟩

/-- One call of payload `0x1000` with argument 7, from PE 0 to the parked PE 1. -/
def twoPeRun : List MailLabel :=
  [.invoke ⟨0x1000, 7⟩] ++ List.replicate 5 .primary ++ List.replicate 5 (.secondary 1) ++
    List.replicate 2 .primary

/-- The call comes back after PE 1 has executed it. -/
theorem handshake_two_pes :
    ∃ t, run (mailStep ⟨[0, 1], 0⟩) parkedState twoPeRun = some t ∧
      t.primary = .idle ∧ (t.pe 1).finished = [⟨0x1000, 7⟩] ∧ ExactlyOnce ⟨[0, 1], 0⟩ t := by
  have hParked : Parked ⟨[0, 1], 0⟩ parkedState :=
    ⟨rfl, rfl, fun _ _ => ⟨rfl, Or.inl rfl, rfl, rfl, rfl⟩⟩
  have hEnd : (run (mailStep ⟨[0, 1], 0⟩) parkedState twoPeRun).map
      (fun t => (t.primary, (t.pe 1).finished)) = some (.idle, [⟨0x1000, 7⟩]) := by decide
  obtain ⟨t, ht, hObs⟩ := Option.map_eq_some_iff.mp hEnd
  obtain ⟨hIdle, hFinished⟩ := Prod.mk.inj hObs
  exact ⟨t, ht, hIdle, hFinished, (handshake_exactly_once _ _ _ _ hParked ht).1⟩

end EnterpriseAcs.Sdei
