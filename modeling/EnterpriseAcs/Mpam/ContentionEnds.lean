import EnterpriseAcs.Mpam.ContentionSafe

/-!
# The contention comes to an end

Every loop of the primary is bounded by a time-out, so that it ends whatever the other PEs do. The
time-out of the wait is a product in 32 bits; for 256 PEs it is zero, and the wait makes `2 ^ 64`
sweeps. In the wait the flag is down, and a PE reports after a few more of its own steps.

* `primary_ends`: the primary makes a bounded number of steps, and is never stuck.
* `reports_within`: the own steps that a PE has left bring it through in the wait, at most nine.
-/

namespace EnterpriseAcs.Mpam

open Transition

variable {c : Contention}

/-! ## The primary -/

/-- The own steps of `val_execute_on_pe` that are left. -/
def DispatchPc.rank : DispatchPc → Nat
  | .idle => 0
  | .setData0 _ timeout => 3 * timeout + 4
  | .setData1 _ timeout => 3 * timeout + 3
  | .cpuOn _ timeout => 3 * timeout + 2
  | .fail _ _ => 1

/-- A bound on the steps that start one PE. -/
def startSteps : Nat := 3 * timeoutLarge + 8

/-- The sweeps that a time-out allows; the first decrement of zero wraps around. -/
def sweepsLeft (timeout : BitVec 64) : Nat := if timeout = 0 then 2 ^ 64 else timeout.toNat

section Rank

variable (numPe sweeps nodes : Nat)

/-- The steps of a wait with this number of sweeps. -/
def waitSteps : Nat := sweeps * (numPe + 1)

/-- A bound on the steps from the start of a scenario to the end of its wait. -/
def scenarioSteps : Nat := numPe * startSteps + 4 + waitSteps numPe sweeps

/-- A bound on the steps from the head of the loop over the nodes on. -/
def nodeSteps : Nat := nodes * (2 * scenarioSteps numPe sweeps + 3) + 1

/-- A bound on the steps that follow a scenario; `nodes` are the nodes after this one. -/
def afterSteps (scenario : Nat) : Nat :=
  if scenario = 0 then scenarioSteps numPe sweeps + (nodeSteps numPe sweeps nodes + 1)
  else nodeSteps numPe sweeps nodes + 1

end Rank

/-- The sweeps of a wait. -/
abbrev Contention.sweeps (c : Contention) : Nat := sweepsLeft c.timeout

/-- A bound on the steps that the primary has left. -/
def primaryRank (c : Contention) (s : ContendState) : Nat :=
  let after := afterSteps c.numPe c.sweeps (s.todo.length - 1)
  let wait := waitSteps c.numPe c.sweeps
  match s.pc with
  | .node => nodeSteps c.numPe c.sweeps s.todo.length
  | .raise scenario => after scenario + scenarioSteps c.numPe c.sweeps
  | .next scenario pe => after scenario + wait + 3 + (c.numPe - pe) * startSteps
  | .start scenario pe => after scenario + wait + 2 + (c.numPe - pe) * startSteps
  | .starting scenario pe =>
    after scenario + wait + 4 + (c.numPe - (pe + 1)) * startSteps + s.dispatch.primary.rank
  | .measure scenario => after scenario + wait + 2
  | .lower scenario => after scenario + wait + 1
  | .sweep scenario timeout pe _ =>
    after scenario + (sweepsLeft timeout - 1) * (c.numPe + 1) + (c.numPe - pe) + 1
  | .free => nodeSteps c.numPe c.sweeps (s.todo.length - 1) + 1
  | .timedOut => 1
  | .ended _ => 0

theorem sweepsLeft_pos (timeout : BitVec 64) : 0 < sweepsLeft timeout := by
  unfold sweepsLeft
  split
  · exact Nat.two_pow_pos 64
  · rename_i hne
    exact Nat.pos_of_ne_zero fun h => hne (BitVec.eq_of_toNat_eq h)

/-- The deadline of a wait, when the product does not wrap around. -/
theorem Contention.sweeps_eq (c : Contention) (hFits : c.numPe * timeoutLarge < 2 ^ 32) :
    c.sweeps = c.numPe * timeoutLarge := by
  have hLarge : (BitVec.ofNat 32 timeoutLarge).toNat = timeoutLarge := rfl
  have hNat : c.timeout.toNat = c.numPe * timeoutLarge := by
    rw [timeout, BitVec.toNat_setWidth_of_le (by decide), BitVec.toNat_mul, c.platform.count,
      hLarge]
    exact Nat.mod_eq_of_lt hFits
  have hPos : 0 < c.numPe * timeoutLarge :=
    Nat.mul_pos (Nat.zero_lt_of_lt c.primary_lt) (by decide)
  rw [sweeps, sweepsLeft, if_neg fun hZero => ?_, hNat]
  rw [hZero, BitVec.ofNat_eq_ofNat, BitVec.toNat_zero] at hNat
  exact Nat.ne_of_lt hPos hNat

theorem sweepsLeft_pred {timeout : BitVec 64} (h : timeout - 1 ≠ 0) :
    sweepsLeft timeout = sweepsLeft (timeout - 1) + 1 := by
  have hNat : (timeout - 1).toNat ≠ 0 := fun hZero => h (BitVec.eq_of_toNat_eq hZero)
  rw [BitVec.toNat_sub] at hNat
  rw [sweepsLeft, sweepsLeft, if_neg h, BitVec.toNat_sub]
  have hlt := timeout.isLt
  split
  · rename_i hZero
    rw [hZero]
    rfl
  · rename_i hne
    have hPos : timeout.toNat ≠ 0 := fun hZero => hne (BitVec.eq_of_toNat_eq hZero)
    simp at hNat ⊢
    omega

/-- One PE less is to be started. -/
theorem startSteps_succ {numPe pe : Nat} (h : pe < numPe) :
    (numPe - pe) * startSteps = (numPe - (pe + 1)) * startSteps + startSteps := by
  rw [← Nat.succ_mul]
  congr 1
  omega

theorem dispatchRank_step {p : Platform} {d e : DispatchState}
    (h : dispatchStep p d .primary = some e) : e.primary.rank < d.primary.rank := by
  cases dispatched_of_step h with
  | payload hpc | arg hpc | started hpc _ _ _ | refused hpc _ | failed hpc =>
    simp only [hpc, DispatchPc.rank]
    omega
  | again hpc hTimeout =>
    simp only [hpc, DispatchPc.rank]
    omega

theorem nodeSteps_succ (numPe sweeps nodes : Nat) :
    nodeSteps numPe sweeps (nodes + 1) =
      nodeSteps numPe sweeps nodes + (2 * scenarioSteps numPe sweeps + 3) := by
  rw [nodeSteps, nodeSteps, Nat.succ_mul]
  omega

theorem afterSweep_rank {s t : ContendState} {scenario pe : Nat} {timeout : BitVec 64}
    {pending : Bool} (hpc : s.pc = .sweep scenario timeout pe pending) (hPe : c.numPe ≤ pe)
    (ht : t.pc = afterSweep scenario timeout pending) (hTodo : t.todo = s.todo) :
    primaryRank c t < primaryRank c s := by
  have hDone : c.numPe - pe = 0 := Nat.sub_eq_zero_of_le hPe
  have hRank : primaryRank c s = afterSteps c.numPe c.sweeps (s.todo.length - 1) scenario +
      (sweepsLeft timeout - 1) * (c.numPe + 1) + 1 := by
    simp only [primaryRank, hpc, hDone, Nat.add_zero]
  have hAfter : nodeSteps c.numPe c.sweeps (s.todo.length - 1) + 1 ≤
      afterSteps c.numPe c.sweeps (s.todo.length - 1) scenario := by
    unfold afterSteps
    split
    · exact Nat.le_add_left _ _
    · exact Nat.le_refl _
  rw [hRank]
  unfold afterSweep at ht
  split at ht
  · rename_i hAgain
    have hNext : timeout - 1 ≠ 0 := by simpa using (Bool.and_eq_true_iff.mp hAgain).2
    have hLeft := sweepsLeft_pred hNext
    have hPos := sweepsLeft_pos (timeout - 1)
    have hSplit : sweepsLeft timeout - 1 = sweepsLeft (timeout - 1) - 1 + 1 := by omega
    simp only [primaryRank, ht, hTodo]
    rw [hSplit, Nat.succ_mul]
    omega
  · split at ht
    · simp only [primaryRank, ht]
      omega
    · split at ht
      · rename_i hFirst
        subst hFirst
        have hFirst : afterSteps c.numPe c.sweeps (s.todo.length - 1) 0 =
            scenarioSteps c.numPe c.sweeps +
              afterSteps c.numPe c.sweeps (s.todo.length - 1) 1 := rfl
        simp only [primaryRank, ht, hTodo, hFirst]
        omega
      · simp only [primaryRank, ht, hTodo]
        omega

/-- Every step of the primary brings the bound down. -/
theorem primaryRank_step {before : Nat → BitVec 64} {s t : ContendState}
    (hInv : ContendInv c before s) (h : PrimaryMoves c s t) :
    primaryRank c t < primaryRank c s := by
  cases h with
  | measured hpc hTodo =>
    simp only [primaryRank, hpc, nodeSteps]
    omega
  | @allocated n rest hpc hTodo hStatus =>
    simp only [primaryRank, hpc, hTodo, List.length_cons, Nat.add_sub_cancel, nodeSteps_succ,
      afterSteps, if_true]
    omega
  | copyFails hpc hTodo hStatus =>
    simp only [primaryRank, hpc, nodeSteps]
    omega
  | raise hpc =>
    simp only [primaryRank, hpc, scenarioSteps, Nat.sub_zero]
    omega
  | itself hpc hPe =>
    have hPos : 0 < startSteps := by unfold startSteps; omega
    simp only [primaryRank, hpc, startSteps_succ hPe]
    omega
  | pend hpc hPe =>
    simp only [primaryRank, hpc]
    omega
  | allStarted hpc hPe =>
    simp only [primaryRank, hpc]
    omega
  | @invoke scenario pe d hpc hd =>
    have hAwaited := hInv.awaited
    rw [hpc] at hAwaited
    have hPe := hAwaited.1.1
    cases dispatched_of_step hd with
    | tooLarge hIdle hPast => exact absurd hPe (Nat.lt_asymm hPast)
    | called hIdle hIndex =>
      have hSteps : startSteps = 3 * timeoutLarge + 8 := rfl
      simp only [primaryRank, hpc, startSteps_succ hPe, DispatchPc.rank]
      omega
  | started hpc hIdle =>
    simp only [primaryRank, hpc]
    omega
  | starting hpc hBusy hd =>
    have hLess := dispatchRank_step hd
    simp only [primaryRank, hpc]
    omega
  | measure hpc =>
    simp only [primaryRank, hpc]
    omega
  | @lower scenario hpc =>
    have hSweeps : (sweepsLeft c.timeout - 1) * (c.numPe + 1) + (c.numPe + 1) =
        waitSteps c.numPe c.sweeps := by
      rw [← Nat.succ_mul, waitSteps, Nat.succ_eq_add_one,
        Nat.sub_add_cancel (sweepsLeft_pos c.timeout)]
    simp only [primaryRank, hpc, Nat.sub_zero]
    omega
  | poll hpc hPe =>
    simp only [primaryRank, hpc]
    omega
  | swept hpc hPe => exact afterSweep_rank hpc hPe rfl rfl
  | free hpc =>
    simp only [primaryRank, hpc, List.length_tail]
    omega
  | timedOut hpc =>
    simp only [primaryRank, hpc]
    omega

/-- A step of another PE leaves the bound as it is. -/
theorem primaryRank_pe {s t : ContendState} {i : Nat} (h : PeMoves c s i t) :
    primaryRank c t = primaryRank c s := by
  have hApart := h.apart
  simp only [primaryRank, hApart.pc, hApart.todo, hApart.primary]

/-- The primary is not stuck before its end. -/
theorem primary_enabled {before : Nat → BitVec 64} {s : ContendState} (hInv : ContendInv c before s)
    (hOpen : ∀ e, s.pc ≠ .ended e) : ∃ t, contendStep c s .primary = some t := by
  have hAwaited := hInv.awaited
  have hReturned := hInv.returned
  show ∃ t, payloadPrimaryStep c s = some t
  unfold payloadPrimaryStep
  cases hpc : s.pc with
  | ended e => exact absurd hpc (hOpen e)
  | node =>
    cases s.todo with
    | nil => exact ⟨_, rfl⟩
    | cons n rest => exact ⟨_, rfl⟩
  | next scenario pe =>
    dsimp only
    split
    · split
      · exact ⟨_, rfl⟩
      · exact ⟨_, rfl⟩
    · exact ⟨_, rfl⟩
  | start scenario pe =>
    rw [hpc] at hReturned hAwaited
    have hNot : ¬ c.platform.table.numOfPe.toNat < (c.call pe).index := by
      rw [c.platform.count]
      exact Nat.not_lt.mpr (Nat.le_of_lt hAwaited.1.1)
    have hIdle : s.dispatch.primary = .idle := hReturned
    simp only [dispatchStep, if_pos hIdle, if_neg hNot, Option.map_some]
    exact ⟨_, rfl⟩
  | starting scenario pe =>
    rw [hpc] at hAwaited
    dsimp only
    split
    · exact ⟨_, rfl⟩
    · rename_i hBusy
      obtain ⟨hPe, hServing, -⟩ := hAwaited
      have hCurrent := (hServing hBusy).1
      simp only [dispatchStep, valExecuteOnPeStep]
      cases hPoint : s.dispatch.primary with
      | idle => exact absurd hPoint hBusy
      | setData0 call timeout => exact ⟨_, rfl⟩
      | setData1 call timeout => exact ⟨_, rfl⟩
      | fail call arg0 => exact ⟨_, rfl⟩
      | cpuOn call timeout =>
        rw [hPoint, DispatchPc.current, List.singleton_inj] at hCurrent
        subst hCurrent
        obtain ⟨mpid, hMpid, -⟩ := Option.map_eq_some_iff.mp (Platform.peWith_eq hPe.1)
        have hEntry : valPeGetMpidIndex c.platform.table (c.call pe).index = some mpid := hMpid
        simp only [hEntry, Option.map_some]
        exact ⟨_, rfl⟩
  | sweep scenario timeout pe pending =>
    dsimp only
    split
    · exact ⟨_, rfl⟩
    · exact ⟨_, rfl⟩
  | raise _ | measure _ | lower _ | free | timedOut => exact ⟨_, rfl⟩

/-- The steps that `payload_primary` makes at most, with `num_pe * TIMEOUT_LARGE` sweeps in each
of its waits. -/
def Contention.steps (c : Contention) : Nat :=
  nodeSteps c.numPe (c.numPe * timeoutLarge) c.nodes.length

/-- **The primary ends.** In every interleaving, and whatever the other PEs do or do not do, the
primary makes at most `c.steps` steps, and as long as it has not ended it has a next one. The
deadline of a wait is to fit into the 32 bits that it is computed with. -/
theorem primary_ends (c : Contention) (s t : ContendState) (ls : List ContendLabel)
    (hFits : c.numPe * timeoutLarge < 2 ^ 32) (hBegins : c.Begins s)
    (hUsable : ∀ n ∈ c.nodes, c.Usable n) (hRun : run (contendStep c) s ls = some t) :
    ls.countP (fun l => l = .primary) ≤ c.steps ∧
      ((∀ e, t.pc ≠ .ended e) → ∃ u, contendStep c t .primary = some u) := by
  have hStart := hBegins.inv hUsable
  have hInv : ContendInv c s.mpam2 t :=
    run_invariant (I := ContendInv c s.mpam2) (fun _ _ _ hI hStep => contendInv_step hI hStep)
      hStart hRun
  refine ⟨?_, primary_enabled hInv⟩
  have hCount := run_count_le (I := ContendInv c s.mpam2) (primaryRank c) (fun l => l = .primary)
    (fun _ _ _ hI hStep => contendInv_step hI hStep) ?_ ?_ hStart hRun
  · have hRank : primaryRank c s = c.steps := by
      simp only [primaryRank, hBegins.pc, hBegins.todo, Contention.steps, c.sweeps_eq hFits]
    omega
  · intro u l v hI hStep hOwn
    obtain rfl : l = .primary := by simpa using hOwn
    exact primaryRank_step hI (primaryMoves_of_step hStep)
  · intro u l v hI hStep
    cases l with
    | primary => exact Nat.le_of_lt (primaryRank_step hI (primaryMoves_of_step hStep))
    | pe i => exact Nat.le_of_eq (primaryRank_pe (peMoves_of_step hStep))

/-- The primary of `contention_two` has measured, and can go on. -/
theorem primary_ends_two : ∃ t, run (contendStep twoContend) contendStart
    (.primary :: contendCopying) = some t ∧ 10 ≤ twoContend.steps ∧
      ∃ u, contendStep twoContend t .primary = some u := by
  have hEnd : (run (contendStep twoContend) contendTaken contendCopying).map
      ContendState.pc = some (.measure 0) := by decide
  obtain ⟨t, ht, hPoint⟩ := Option.map_eq_some_iff.mp hEnd
  have hRun : run (contendStep twoContend) contendStart (.primary :: contendCopying) = some t :=
    run_cons.mpr ⟨contendTaken, contend_first, ht⟩
  obtain ⟨hCount, hNext⟩ := primary_ends twoContend contendStart t _ (by decide)
    contendStart_begins twoContend_usable hRun
  refine ⟨t, hRun, hCount, hNext fun e he => ?_⟩
  rw [hPoint] at he
  cases he

/-! ## The wait -/

/-- The primary is about to start PE `i`, or in `val_execute_on_pe` for it. -/
def Starting (d : DispatchState) (pc : ContendPc) (i : Nat) : Prop :=
  match pc with
  | .start _ pe => pe = i
  | .starting _ pe => pe = i ∧ d.primary ≠ .idle
  | _ => False

/-- A settled PE has reported, the firmware refuses with one of two codes, and the flag is down in
the wait. -/
structure SpokenInv (c : Contention) (s : ContendState) : Prop where
  settled : ∀ i, c.Secondary i → Settled s.dispatch i →
    isResultPending (s.status i) = false ∨ Starting s.dispatch s.pc i
  refusal : ∀ call arg0, s.dispatch.primary = .fail call arg0 →
    arg0 = psciAlreadyOn ∨ arg0 = psciInvalidParams
  flag : ∀ scenario timeout pe pending, s.pc = .sweep scenario timeout pe pending →
    s.contendFlag = 0

theorem cpuOnFailure_not_pending {arg0 : BitVec 64}
    (h : arg0 = psciAlreadyOn ∨ arg0 = psciInvalidParams) :
    isResultPending (cpuOnFailure arg0) = false := by
  rcases h with rfl | rfl
  · decide
  · decide

section Spoken

variable {before : Nat → BitVec 64} {s t : ContendState}

theorem spokenInv_pe {i : Nat} (hInv : ContendInv c before s) (h : SpokenInv c s)
    (hMoves : PeMoves c s i t) : SpokenInv c t := by
  have hApart := hMoves.apart
  refine ⟨fun k hk hNew => ?_, ?_, ?_⟩
  · obtain ⟨hOld, hOpen⟩ := hInv.pe_settled hMoves hk
    by_cases hSettled : Settled s.dispatch k
    · rw [(hOld hSettled).2, hApart.pc]
      have hWord := h.settled k hk hSettled
      unfold Starting at hWord ⊢
      rwa [hApart.primary]
    · rcases hOpen hSettled with ⟨hNot, -⟩ | ⟨-, hWord⟩
      · exact absurd hNew hNot
      · exact Or.inl hWord
  · rw [hApart.primary]
    exact h.refusal
  · rw [hApart.pc, hApart.flag]
    exact h.flag

/-- A step of the primary that leaves the dispatch alone. -/
theorem SpokenInv.move (h : SpokenInv c s) (hDispatch : t.dispatch = s.dispatch)
    (hNone : ∀ i, ¬ Starting s.dispatch s.pc i)
    (hFlag : ∀ scenario timeout pe pending, t.pc = .sweep scenario timeout pe pending →
      t.contendFlag = 0) : SpokenInv c t := by
  refine ⟨fun i hi hSettled => ?_, hDispatch ▸ h.refusal, hFlag⟩
  rw [ContendState.status, hDispatch]
  rw [hDispatch] at hSettled
  exact Or.inl ((h.settled i hi hSettled).resolve_right (hNone i))

/-- A PE that has just been started is not settled. -/
theorem not_settled_of_starts {d e : DispatchState} (call : DispatchCall)
    (hSettled : Settled d call.index) (hGrown : e.returned = d.returned ++ [(call, none)])
    (hPe : (e.pe call.index).executed = (d.pe call.index).executed) :
    ¬ Settled e call.index := by
  intro hNew
  have hLength := hNew.1
  rw [succeeded, hGrown, successes_of_success, List.length_append, List.length_singleton, hPe,
    hSettled.1, succeeded] at hLength
  omega

theorem spokenInv_starting (hInv : ContendInv c before s) (h : SpokenInv c s) {scenario pe : Nat}
    {d : DispatchState} (hpc : s.pc = .starting scenario pe) (hBusy : s.dispatch.primary ≠ .idle)
    (hd : dispatchStep c.platform s.dispatch .primary = some d) :
    SpokenInv c { s with dispatch := d } := by
  have hAwaited := hInv.awaited
  rw [hpc] at hAwaited
  obtain ⟨hPe, hServing, hRest⟩ := hAwaited
  obtain ⟨hCurrent, hSettled, hWord⟩ := hServing hBusy
  have hOther : ∀ i, i ≠ pe → ¬ Starting s.dispatch s.pc i := by
    intro i hi hStarting
    rw [hpc] at hStarting
    exact hi hStarting.1.symm
  refine ⟨fun i hi hNew => ?_, ?_, fun _ _ _ _ hSweep => ?_⟩
  · dsimp only [ContendState.status] at hNew ⊢
    rw [hpc]
    cases serves_of_step hInv.dispatch hCurrent hd with
    | goesOn hStill hSame hKept hStatus =>
      by_cases hip : i = pe
      · refine Or.inr ⟨hip.symm, fun hIdle => ?_⟩
        rw [hIdle] at hStill
        cases hStill
      · rw [hStatus]
        have hOld := (settled_congr hKept (congrFun hSame i)).mp hNew
        exact Or.inl ((h.settled i hi hOld).resolve_right (hOther i hip))
    | starts hIdle hOff hStarted hGrown hMem =>
      by_cases hip : i = pe
      · subst hip
        refine absurd hNew (not_settled_of_starts (c.call i) hSettled hGrown ?_)
        rw [hStarted, Function.update_self]
      · rw [hMem]
        have hOld := (settled_append_of_ne hGrown (Ne.symm hip) (by
          rw [hStarted]
          exact Function.update_of_ne hip _ _)).mp hNew
        exact Or.inl ((h.settled i hi hOld).resolve_right (hOther i hip))
    | givesUp hFail hIdle hSame hGrown hOwn hStatus =>
      by_cases hip : i = pe
      · subst hip
        rw [show (d.mem i).status = cpuOnFailure _ from hOwn]
        exact Or.inl (cpuOnFailure_not_pending (h.refusal _ _ hFail))
      · rw [hStatus i hip]
        have hOld := (settled_append_of_failure hGrown (congrFun hSame i)).mp hNew
        exact Or.inl ((h.settled i hi hOld).resolve_right (hOther i hip))
  · intro call arg0 hFail
    cases dispatched_of_step hd with
    | payload _ | arg _ | started _ _ _ _ | again _ _ | failed _ => cases hFail
    | refused hCpuOn hArg =>
      cases hFail
      rcases hArg with ⟨hArg, -⟩ | hArg
      · exact Or.inl hArg
      · exact Or.inr hArg
  · rw [hpc] at hSweep
    cases hSweep

theorem spokenInv_primary (hInv : ContendInv c before s) (h : SpokenInv c s)
    (hMoves : PrimaryMoves c s t) : SpokenInv c t := by
  -- only the sweep says something about the flag
  have hNoSweep : ∀ {pc : ContendPc}, (∀ scenario timeout pe pending,
      pc ≠ .sweep scenario timeout pe pending) → ∀ scenario timeout pe pending,
        pc = .sweep scenario timeout pe pending → t.contendFlag = 0 :=
    fun hNe scenario timeout pe pending hEq => absurd hEq (hNe scenario timeout pe pending)
  cases hMoves with
  | measured hpc _ | allocated hpc _ _ | copyFails hpc _ _ | raise hpc | itself hpc _
  | allStarted hpc _ | measure hpc | free hpc | timedOut hpc =>
    exact h.move rfl (fun i hi => by rw [hpc] at hi; exact hi)
      (hNoSweep fun _ _ _ _ hEq => ContendPc.noConfusion hEq)
  | lower hpc =>
    exact h.move rfl (fun i hi => by rw [hpc] at hi; exact hi) fun _ _ _ _ _ => rfl
  | poll hpc _ | swept hpc _ =>
    exact h.move rfl (fun i hi => by rw [hpc] at hi; exact hi) fun _ _ _ _ _ => h.flag _ _ _ _ hpc
  | started hpc hIdle =>
    exact h.move rfl (fun i hi => by rw [hpc] at hi; exact hi.2 hIdle)
      (hNoSweep fun _ _ _ _ hEq => ContendPc.noConfusion hEq)
  | starting hpc hBusy hd => exact spokenInv_starting hInv h hpc hBusy hd
  | @pend scenario pe hpc hPe =>
    refine ⟨fun i hi hSettled => ?_, h.refusal,
      hNoSweep fun _ _ _ _ hEq => ContendPc.noConfusion hEq⟩
    by_cases hip : i = pe
    · exact Or.inr hip.symm
    · have hWord := (h.settled i hi hSettled).resolve_right (by rw [hpc]; exact id)
      refine Or.inl ?_
      simpa only [ContendState.status, DispatchState.setStatus,
        Function.update_of_ne hip] using hWord
  | @invoke scenario pe d hpc hd =>
    have hAwaited := hInv.awaited
    rw [hpc] at hAwaited
    cases dispatched_of_step hd with
    | tooLarge hIdle hPast => exact absurd hAwaited.1.1 (Nat.lt_asymm hPast)
    | called hIdle hIndex =>
      refine ⟨fun i hi hSettled => ?_, fun _ _ hFail => DispatchPc.noConfusion hFail,
        hNoSweep fun _ _ _ _ hEq => ContendPc.noConfusion hEq⟩
      rcases h.settled i hi hSettled with hWord | hStarting
      · exact Or.inl hWord
      · rw [hpc] at hStarting
        exact Or.inr ⟨hStarting, fun hIdle => DispatchPc.noConfusion hIdle⟩

theorem spokenInv_step {l : ContendLabel} (hInv : ContendInv c before s) (h : SpokenInv c s)
    (hStep : contendStep c s l = some t) : SpokenInv c t := by
  cases l with
  | primary => exact spokenInv_primary hInv h (primaryMoves_of_step hStep)
  | pe i => exact spokenInv_pe hInv h (peMoves_of_step hStep)

theorem Contention.Begins.spoken (h : c.Begins s) : SpokenInv c s := by
  refine ⟨fun i hi _ => Or.inl (h.secondary i hi).2.2, fun call arg0 hFail => ?_,
    fun _ _ _ _ hSweep => ?_⟩
  · rw [h.off.primary] at hFail
    cases hFail
  · rw [h.pc] at hSweep
    cases hSweep

end Spoken

/-! ## The other PEs in the wait -/

/-- The own steps of the payload that are left when the flag is down. -/
def PayloadPc.rank : PayloadPc → Nat
  | .enter => 6
  | .configure _ => 5
  | .getBuf _ | .copy _ _ => 4
  | .test _ _ => 3
  | .restore _ => 2
  | .pass | .fail _ => 1
  | .failed _ | .finished => 0

/-- The own steps that a PE needs to report. -/
def reportRank (s : ContendState) (i : Nat) : Nat :=
  match (s.dispatch.pe i).pc with
  | .entry => 9
  | .gotData0 _ => 8
  | .gotData1 _ => 7
  | .running _ => (s.payload i).rank
  | .off | .primary | .cpuOff => 0

theorem reportRank_le (s : ContendState) (i : Nat) : reportRank s i ≤ 9 := by
  unfold reportRank
  split
  case h_4 =>
    unfold PayloadPc.rank
    split <;> omega
  all_goals omega

/-- The primary is in `wait_for_secondary_off`. -/
def ContendPc.waiting : ContendPc → Bool
  | .sweep _ _ _ _ => true
  | .node | .raise _ | .next _ _ | .start _ _ | .starting _ _ | .measure _ | .lower _ | .free
  | .timedOut | .ended _ => false

section Wait

variable {before : Nat → BitVec 64} {s t : ContendState}

theorem reportRank_settled (hInv : ContendInv c before s) {i : Nat} (hi : c.Secondary i)
    (hZero : reportRank s i = 0) : Settled s.dispatch i := by
  have hReports := (hInv.pe i hi).reports
  rw [hInv.settled_iff hi]
  unfold reportRank at hZero
  unfold Pe.Reports at hReports
  unfold Pe.Done
  cases hpc : (s.dispatch.pe i).pc with
  | primary =>
    rw [hpc] at hReports
    exact hReports.elim
  | off | cpuOff => trivial
  | entry | gotData0 payload | gotData1 data =>
    rw [hpc] at hZero
    cases hZero
  | running data =>
    simp only [hpc] at hZero ⊢
    cases hPay : s.payload i with
    | finished | failed saved => rfl
    | _ =>
      rw [hPay] at hZero
      cases hZero

theorem works_rank {i : Nat} {old pc : PayloadPc} {mpam2 : BitVec 64} (hFlag : s.contendFlag = 0)
    (h : Works c s i old pc mpam2) : pc.rank ≤ old.rank - 1 := by
  cases h with
  | copies saved src hSet => exact absurd hFlag hSet
  | enter | configure | noBuf | getBuf | failed | stops | again | restore =>
    simp only [PayloadPc.rank]
    omega

theorem reporting_rank {old pc : PayloadPc} {status : BitVec 32} (h : Reporting c old pc status) :
    pc.rank = 0 := by
  cases h with
  | fail | pass => rfl

/-- With the flag down an own step brings a PE nearer to its report. -/
theorem reportRank_own {i : Nat} (hFlag : s.contendFlag = 0)
    (hReports : (s.dispatch.pe i).Reports (s.payload i)) (hMoves : PeMoves c s i t) :
    reportRank t i ≤ reportRank s i - 1 := by
  cases hMoves with
  | enters hAway hd =>
    cases dispatched_of_step hd with
    | advanced hi hq =>
      unfold valTestEntryStep at hq
      simp only [reportRank, Function.update_self]
      unfold Pe.Reports at hReports
      split at hq
      · cases hq
      · cases hq
      · rename_i hpc
        cases hq
        simp only [hpc]
        omega
      · rename_i payload hpc
        cases hq
        simp only [hpc]
        omega
      · rename_i data hpc
        simp only [hpc] at hReports
        cases hq
        simp only [hpc, hReports.1, PayloadPc.rank]
        omega
      · rename_i data hpc
        exact absurd hpc (hAway data)
      · rename_i hpc
        cases hq
        exact Nat.zero_le _
  | works hpc hWorks =>
    simp only [reportRank, hpc, Function.update_self]
    exact works_rank hFlag hWorks
  | reports hpc hReporting hd =>
    cases dispatched_of_step hd with
    | reported hi hRunning =>
      simp only [reportRank, hpc, Function.update_self, reporting_rank hReporting]
      exact Nat.zero_le _
  | leaves hpc hFinished hd =>
    cases dispatched_of_step hd with
    | advanced hi hq =>
      simp only [valTestEntryStep, hpc, Option.some_inj] at hq
      subst hq
      simp only [reportRank, Function.update_self]
      exact Nat.zero_le _

/-- The steps of the primary in the wait do not touch the PEs. -/
theorem primary_wait (hWait : s.pc.waiting = true) (hMoves : PrimaryMoves c s t) :
    t.dispatch = s.dispatch ∧ t.payload = s.payload := by
  cases hMoves with
  | poll _ _ | swept _ _ => exact ⟨rfl, rfl⟩
  | measured hpc _ | allocated hpc _ _ | copyFails hpc _ _ | raise hpc | itself hpc _
  | allStarted hpc _ | measure hpc | free hpc | timedOut hpc | lower hpc | started hpc _
  | starting hpc _ _ | pend hpc _ | invoke hpc _ =>
    rw [hpc] at hWait
    cases hWait

/-- What holds in the wait. -/
structure WaitInv (c : Contention) (before : Nat → BitVec 64) (s : ContendState) : Prop where
  inv : ContendInv c before s
  spoken : SpokenInv c s
  waits : s.pc.waiting = true

theorem WaitInv.flag (h : WaitInv c before s) : s.contendFlag = 0 := by
  have hWaits := h.waits
  cases hpc : s.pc with
  | sweep scenario timeout pe pending => exact h.spoken.flag _ _ _ _ hpc
  | _ =>
    rw [hpc] at hWaits
    cases hWaits

theorem reportRank_step {l : ContendLabel} {i : Nat} (hi : c.Secondary i) (h : WaitInv c before s)
    (hStep : contendStep c s l = some t) :
    reportRank t i ≤ reportRank s i ∧ (l = .pe i → reportRank t i ≤ reportRank s i - 1) := by
  cases l with
  | primary =>
    obtain ⟨hDispatch, hPayload⟩ := primary_wait h.waits (primaryMoves_of_step hStep)
    refine ⟨Nat.le_of_eq ?_, nofun⟩
    simp only [reportRank, hDispatch, hPayload]
  | pe k =>
    have hMoves := peMoves_of_step hStep
    by_cases hik : i = k
    · subst hik
      have hOwn := reportRank_own h.flag (h.inv.pe i hi).reports hMoves
      exact ⟨by omega, fun _ => hOwn⟩
    · obtain ⟨hPe, hPay, -, -⟩ := hMoves.apart.pe i hik
      refine ⟨Nat.le_of_eq ?_, fun hl => ?_⟩
      · simp only [reportRank, hPe, hPay]
      · cases hl
        exact absurd rfl hik

end Wait

/-- The step leaves the primary in the wait. -/
def StaysWaiting (c : Contention) (s : ContendState) (l : ContendLabel) : Prop :=
  ∀ t, contendStep c s l = some t → t.pc.waiting = true

instance (c : Contention) (s : ContendState) (l : ContendLabel) : Decidable (StaysWaiting c s l) :=
  match h : contendStep c s l with
  | none => isTrue fun t ht => by rw [h] at ht; cases ht
  | some t => decidable_of_iff (t.pc.waiting = true) (by simp [StaysWaiting, h])

/-- **The PEs report.** While the primary waits, the own steps that a PE has left bring it through
with its payload, in every interleaving and however far it was; they are at most nine. So a sweep
over PEs that have had their steps finds none PENDING. -/
theorem reports_within (c : Contention) (s t u : ContendState) (ls ms : List ContendLabel)
    (hBegins : c.Begins s) (hUsable : ∀ n ∈ c.nodes, c.Usable n)
    (hRun : run (contendStep c) s ls = some t) (hWait : t.pc.waiting = true)
    (hNext : run (contendStep c) t ms = some u)
    (hStays : Along (contendStep c) (StaysWaiting c) t ms) (i : Nat) (hi : c.Secondary i)
    (hCount : reportRank t i ≤ ms.countP (fun l => l = .pe i)) :
    Through s.mpam2 u i ∧ reportRank t i ≤ 9 := by
  have hStart : ContendInv c s.mpam2 t ∧ SpokenInv c t :=
    run_invariant (I := fun v => ContendInv c s.mpam2 v ∧ SpokenInv c v)
      (fun _ _ _ hI hStep => ⟨contendInv_step hI.1 hStep, spokenInv_step hI.1 hI.2 hStep⟩)
      ⟨hBegins.inv hUsable, hBegins.spoken⟩ hRun
  have hKeep : ∀ v l w, WaitInv c s.mpam2 v → StaysWaiting c v l → contendStep c v l = some w →
      WaitInv c s.mpam2 w := fun v l w hI hC hStep =>
    ⟨contendInv_step hI.inv hStep, spokenInv_step hI.inv hI.spoken hStep, hC w hStep⟩
  have hFirst : WaitInv c s.mpam2 t := ⟨hStart.1, hStart.2, hWait⟩
  have hEnd : WaitInv c s.mpam2 u := run_invariant_along hKeep hFirst hStays hNext
  have hZero : reportRank u i = 0 :=
    run_measure_along (fun v => reportRank v i) (fun l => l = .pe i) hKeep
      (fun v l w hI hStep hOwn => (reportRank_step hi hI hStep).2 (by simpa using hOwn))
      (fun v l w hI hStep => (reportRank_step hi hI hStep).1) hFirst hStays hNext hCount
  have hSettled := reportRank_settled hEnd.inv hi hZero
  have hWord := (hEnd.spoken.settled i hi hSettled).resolve_right fun hStarting => by
    have hWaits := hEnd.waits
    unfold Starting at hStarting
    cases hpc : u.pc with
    | start _ _ | starting _ _ =>
      rw [hpc] at hWaits
      cases hWaits
    | _ =>
      rw [hpc] at hStarting
      exact hStarting
  exact ⟨hEnd.inv.through hi ⟨hSettled, hWord⟩, reportRank_le t i⟩

/-- When the primary comes to its wait PE 1 copies, and has four steps left. -/
theorem reports_two : ∃ t u, run (contendStep twoContend) contendStart
      (.primary :: (contendCopying ++ [.primary, .primary])) = some t ∧
    t.running 1 = some (.copy 0x8000000000000000 0x90000000) ∧
    run (contendStep twoContend) t (List.replicate 4 (.pe 1)) = some u ∧
      Through contendStart.mpam2 u 1 := by
  have hFirst : (run (contendStep twoContend) contendTaken
      (contendCopying ++ [.primary, .primary])).map (fun t => (t.pc.waiting,
        decide (Along (contendStep twoContend) (StaysWaiting twoContend) t
          (List.replicate 4 (.pe 1))),
        (run (contendStep twoContend) t (List.replicate 4 (.pe 1))).isSome, reportRank t 1,
        t.running 1)) =
          some (true, true, true, 4, some (.copy 0x8000000000000000 0x90000000)) := by decide
  obtain ⟨t, ht, hAll⟩ := Option.map_eq_some_iff.mp hFirst
  simp only [Prod.mk.injEq, decide_eq_true_eq] at hAll
  obtain ⟨hWait, hStays, hSome, hRank, hCopies⟩ := hAll
  obtain ⟨u, hu⟩ := Option.isSome_iff_exists.mp hSome
  have hRun : run (contendStep twoContend) contendStart
      (.primary :: (contendCopying ++ [.primary, .primary])) = some t :=
    run_cons.mpr ⟨contendTaken, contend_first, ht⟩
  have hCount : reportRank t 1 ≤
      (List.replicate 4 (ContendLabel.pe 1)).countP fun l => l = .pe 1 := by
    rw [hRank]
    decide
  obtain ⟨hThrough, -⟩ := reports_within twoContend contendStart t u _ _ contendStart_begins
    twoContend_usable hRun hWait hu hStays 1 ⟨by decide, by decide⟩ hCount
  exact ⟨t, u, hRun, hCopies, hu, hThrough⟩

end EnterpriseAcs.Mpam
