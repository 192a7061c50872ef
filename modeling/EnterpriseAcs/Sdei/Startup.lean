import EnterpriseAcs.Sdei.Handshake

/-!
# The first call and the boot of the secondaries

`pal_pe_create_info_table` powers the secondaries on and does not wait for them. A
secondary clears its mailbox on the way to `CEntryPoint`, and the first
`pal_pe_execute_on_all` may already have posted to it by then.

* `startup_exactly_once`: the first call executes its payload once on every other PE, and
  no clear erases a post, exactly in the runs in which every payload is stored after the
  clear of its mailbox.
* `startup_lost`: a run in which the clear comes second. The primary reads the cleared word
  as an acknowledgement and returns, and the payload was never executed.
-/

namespace EnterpriseAcs.Sdei

open Transition

variable {P : PeSet}

/-- Every secondary has just been powered on, and no call has been made. The mailboxes may
hold anything. -/
structure AllBooting (P : PeSet) (s : MailState) : Prop where
  primary : s.primary = .idle
  calls : s.calls = []
  booting : ∀ i, P.IsSecondary i → (s.pe i).Booting []

/-- The clearing store of a secondary finds nothing posted. -/
def ClearErasesNothing (P : PeSet) (s : MailState) (l : MailLabel) : Prop :=
  ∀ i, l = .secondary i → P.IsSecondary i → (s.pe i).pc = .clear → (s.pe i).posted = []

theorem AllBooting.inv {s : MailState} (h : AllBooting P s) : Inv P s := by
  simp only [Inv, h.primary, h.calls]
  exact fun i hi => Or.inr (h.booting i hi)

theorem PeState.Rest.posted_of_clear {p : PeState} {done : List Call} (h : p.Rest done)
    (hClear : p.pc = .clear) : p.posted = [] := by
  rcases h with h | h
  · rcases h.pc with hpc | hpc <;> rw [hClear] at hpc <;> cases hpc
  · exact h.posted

theorem PeState.Serving.pc_ne_clear {p : PeState} {c : Call} {done : List Call}
    (h : p.Serving c done) : p.pc ≠ .clear := by
  intro hClear
  rcases h with h | h
  · cases h.phase with
    | polling hpc _ _ | taken hpc _ _ =>
      rcases hpc with hpc | hpc <;> rw [hClear] at hpc <;> cases hpc
    | running hpc _ _ | ack hpc _ _ =>
      rw [hClear] at hpc
      cases hpc
  · rcases h.pc with hpc | hpc <;> rw [hClear] at hpc <;> cases hpc

theorem Inv.clearErasesNothing {s : MailState} (h : Inv P s) (l : MailLabel) :
    ClearErasesNothing P s l := by
  intro i _ hi hClear
  unfold Inv at h
  cases hpc : s.primary with
  | idle =>
    simp only [hpc] at h
    exact (h i hi).posted_of_clear hClear
  | runOwn c | loop c j =>
    simp only [hpc] at h
    obtain ⟨done, _, hSwept⟩ := h
    exact (hSwept i hi).posted_of_clear hClear
  | storeArg c j | storePayload c j =>
    simp only [hpc] at h
    obtain ⟨done, _, hSwept, _⟩ := h
    exact (hSwept i hi).posted_of_clear hClear
  | wait c j =>
    simp only [hpc] at h
    obtain ⟨done, _, hSwept, _, hServing⟩ := h
    by_cases hij : i = j
    · subst i
      exact absurd hClear hServing.pc_ne_clear
    · exact (hSwept i hi hij).posted_of_clear hClear

/-! ## A payload stored too early -/

/-- A PE that has not cleared its mailbox has executed nothing. -/
def Fresh (P : PeSet) (s : MailState) : Prop :=
  ∀ i, P.IsSecondary i → (s.pe i).pc = .clear → (s.pe i).started = []

/-- The primary stores only to secondaries. -/
def StoresToSecondary (P : PeSet) (s : MailState) : Prop :=
  ∀ c j, s.primary = .storeArg c j ∨ s.primary = .storePayload c j → P.IsSecondary j

/-- A payload sits in a mailbox whose PE has yet to clear it. -/
structure PostedEarly (s : MailState) (i : Nat) : Prop where
  pc : (s.pe i).pc = .clear
  posted : (s.pe i).posted ≠ []
  started : (s.pe i).started = []

theorem mailStep_storesToSecondary {s t : MailState} {l : MailLabel}
    (hStores : StoresToSecondary P s) (h : mailStep P s l = some t) :
    StoresToSecondary P t := by
  cases mailStepped_of_step h with
  | invoked | ranOwn | passedOwn | returned | storedPayload | acknowledged =>
    rintro c j (hpc | hpc) <;> cases hpc
  | turned _ hi =>
    rintro c j (hNext | hNext) <;> cases hNext
    exact hi
  | @storedArg c i hpc =>
    rintro c' j (hNext | hNext) <;> cases hNext
    exact hStores c i (Or.inl hpc)
  | spun | moved => exact hStores

theorem mailStep_fresh {s t : MailState} {l : MailLabel} (hFresh : Fresh P s)
    (h : mailStep P s l = some t) : Fresh P t := by
  intro i hi hClear
  by_cases hl : l = .secondary i
  · subst hl
    rw [mailStep_moved h] at hClear
    exact absurd hClear (PeState.step_pc _)
  · obtain ⟨hpc, hStarted, _⟩ := mailStep_unmoved h hl
    rw [hStarted]
    exact hFresh i hi (hpc ▸ hClear)

/-- While no clear erases a post, an early post stays where it is, not executed. -/
theorem postedEarly_step {s t : MailState} {l : MailLabel} {i : Nat} (hi : P.IsSecondary i)
    (hEarly : PostedEarly s i) (hClear : ClearErasesNothing P s l)
    (h : mailStep P s l = some t) : PostedEarly t i := by
  by_cases hl : l = .secondary i
  · exact absurd (hClear i hl hi hEarly.pc) hEarly.posted
  · obtain ⟨hpc, hStarted, hPosted⟩ := mailStep_unmoved h hl
    refine ⟨hpc.trans hEarly.pc, ?_, hStarted.trans hEarly.started⟩
    intro hNil
    rw [hNil] at hPosted
    exact hEarly.posted (List.prefix_nil.mp hPosted)

/-- The step that breaks `PostAfterClear` posts early. -/
theorem postedEarly_of_violation {s t : MailState} {l : MailLabel} (hFresh : Fresh P s)
    (hStores : StoresToSecondary P s) (hPost : ¬ PostAfterClear s l)
    (h : mailStep P s l = some t) : ∃ i, P.IsSecondary i ∧ PostedEarly t i := by
  unfold PostAfterClear at hPost
  push Not at hPost
  obtain ⟨rfl, c, j, hpc, hClear⟩ := hPost
  have hj : P.IsSecondary j := hStores c j (Or.inr hpc)
  simp only [mailStep, executeOnAllStep, hpc] at h
  cases h
  refine ⟨j, hj, ?_, ?_, ?_⟩
  · simp only [Function.update_self]
    exact hClear
  · simp only [Function.update_self]
    exact List.append_ne_nil_of_right_ne_nil _ (List.cons_ne_nil _ _)
  · simp only [Function.update_self]
    exact hFresh j hj hClear

/-- Each secondary has executed the call `c` once, and nothing else. -/
def ExecutedOnce (P : PeSet) (s : MailState) (c : Call) : Prop :=
  ∀ i, P.IsSecondary i → (s.pe i).started = [c] ∧ (s.pe i).finished = [c]

/-- **The first call.** When it has returned, every other PE has executed it exactly once
and no clear has erased a post, if and only if each payload was stored after the clear of
its mailbox. -/
theorem startup_exactly_once (P : PeSet) (s t : MailState) (ls : List MailLabel) (c : Call)
    (hBoot : AllBooting P s) (hRun : run (mailStep P) s ls = some t)
    (hReturned : t.primary = .idle) (hFirst : t.calls = [c]) :
    (ExecutedOnce P t c ∧ Along (mailStep P) (ClearErasesNothing P) s ls) ↔
      Along (mailStep P) PostAfterClear s ls := by
  constructor
  · rintro ⟨hExecuted, hClear⟩
    by_contra hPost
    obtain ⟨before, l, after, u, v, rfl, hu, hViolation, hv, ht⟩ :=
      exists_violation_of_not_along hRun hPost
    have hFresh : Fresh P u :=
      run_invariant (I := Fresh P) (fun _ _ _ hI h => mailStep_fresh hI h)
        (fun i hi _ => (hBoot.booting i hi).started) hu
    have hStores : StoresToSecondary P u :=
      run_invariant (I := StoresToSecondary P)
        (fun _ _ _ hI h => mailStep_storesToSecondary hI h)
        (by rintro c j (hpc | hpc) <;> rw [hBoot.primary] at hpc <;> cases hpc) hu
    obtain ⟨i, hi, hEarly⟩ := postedEarly_of_violation hFresh hStores hViolation hv
    have hLater : Along (mailStep P) (ClearErasesNothing P) v after :=
      (hClear.append hu).2 v hv
    have hEnd : PostedEarly t i :=
      run_invariant_along (I := fun s => PostedEarly s i)
        (fun _ _ _ hI hC h => postedEarly_step hi hI hC h) hEarly hLater ht
    have hStarted := (hExecuted i hi).1
    rw [hEnd.started] at hStarted
    cases hStarted
  · intro hPost
    refine ⟨?_, along_of_invariant (I := Inv P) (fun _ _ _ hI hC h => inv_step hI hC h)
      (fun _ l hI _ => hI.clearErasesNothing l) hBoot.inv hPost⟩
    have hInv : Inv P t :=
      run_invariant_along (I := Inv P) (fun _ _ _ hI hC h => inv_step hI hC h) hBoot.inv
        hPost hRun
    intro i hi
    obtain ⟨_, hStarted, hFinished⟩ := hInv.exactlyOnce.returned hReturned i hi
    rw [hStarted, hFinished, hFirst]
    exact ⟨rfl, rfl⟩

/-- A PE on its way to `CEntryPoint`. -/
def bootingPe : PeState where
  pc := .clear
  mailbox := ⟨0, 0⟩
  posted := []
  started := []
  finished := []

def bootingState : MailState := ⟨.idle, [], fun _ => bootingPe⟩

theorem bootingState_allBooting (P : PeSet) : AllBooting P bootingState :=
  ⟨rfl, rfl, fun _ _ => ⟨rfl, rfl, rfl, rfl, rfl⟩⟩

/-- PE 1 clears its mailbox before the first call is posted. -/
theorem startup_clear_first :
    ∃ t, run (mailStep ⟨[0, 1], 0⟩) bootingState (.secondary 1 :: twoPeRun) = some t ∧
      ((ExecutedOnce ⟨[0, 1], 0⟩ t ⟨0x1000, 7⟩ ∧
          Along (mailStep ⟨[0, 1], 0⟩) (ClearErasesNothing ⟨[0, 1], 0⟩) bootingState
            (.secondary 1 :: twoPeRun)) ↔
        Along (mailStep ⟨[0, 1], 0⟩) PostAfterClear bootingState
          (.secondary 1 :: twoPeRun)) := by
  have hEnd : (run (mailStep ⟨[0, 1], 0⟩) bootingState (.secondary 1 :: twoPeRun)).map
      (fun t => (t.primary, t.calls)) = some (.idle, [⟨0x1000, 7⟩]) := by decide
  obtain ⟨t, ht, hObs⟩ := Option.map_eq_some_iff.mp hEnd
  obtain ⟨hIdle, hCalls⟩ := Prod.mk.inj hObs
  exact ⟨t, ht, startup_exactly_once _ _ _ _ _ (bootingState_allBooting _) ht hIdle hCalls⟩

/-- The same call, with the clear of PE 1 between the post and the wait of the primary. -/
def lostRun : List MailLabel :=
  [.invoke ⟨0x1000, 7⟩] ++ List.replicate 5 .primary ++ [.secondary 1] ++
    List.replicate 2 .primary

/-- The call returns, and PE 1 has executed nothing. -/
theorem startup_lost :
    ¬ ∀ (P : PeSet) (s t : MailState) (ls : List MailLabel) (c : Call), AllBooting P s →
      run (mailStep P) s ls = some t → t.primary = .idle → t.calls = [c] →
      ExecutedOnce P t c ∧ Along (mailStep P) (ClearErasesNothing P) s ls := by
  intro hAll
  have hEnd : (run (mailStep ⟨[0, 1], 0⟩) bootingState lostRun).map
      (fun t => (t.primary, t.calls, (t.pe 1).started)) =
        some (.idle, [⟨0x1000, 7⟩], []) := by decide
  obtain ⟨t, ht, hObs⟩ := Option.map_eq_some_iff.mp hEnd
  obtain ⟨hIdle, hRest⟩ := Prod.mk.inj hObs
  obtain ⟨hCalls, hStarted⟩ := Prod.mk.inj hRest
  have hExecuted := (hAll _ _ t _ _ (bootingState_allBooting _) ht hIdle hCalls).1 1 (by decide)
  rw [hStarted] at hExecuted
  cases hExecuted.1

end EnterpriseAcs.Sdei
