import EnterpriseAcs.Mpam.ContentionMoves

/-!
# The copy buffers are used in their time

A PE that has not reported is PENDING, so that a sweep of `wait_for_secondary_off` that finds no
PENDING PE has found every PE through with its payload; and until the next PE is started it stays
so.

* `contendInv_step`: the step lemma.
* `contention_safe`: the run theorem.
-/

namespace EnterpriseAcs.Mpam

open Transition Ledger

variable {c : Contention}

/-! ## The invariant -/

/-- A PE is through with its payloads, and its status says so. -/
def Joined (d : DispatchState) (i : Nat) : Prop :=
  Settled d i ∧ isResultPending (d.mem i).status = false

/-- The PEs that the primary can rely on at a program point. -/
def Awaited (c : Contention) (d : DispatchState) : ContendPc → Prop
  | .node | .raise _ | .free | .ended .measured | .ended .copyFails =>
    ∀ i, c.Secondary i → Joined d i
  | .next _ pe => ∀ i, c.Secondary i → pe ≤ i → Joined d i
  | .start _ pe => c.Secondary pe ∧ Settled d pe ∧
      isResultPending (d.mem pe).status = true ∧ ∀ i, c.Secondary i → pe < i → Joined d i
  | .starting _ pe => c.Secondary pe ∧
      (d.primary ≠ .idle → d.primary.current = [c.call pe] ∧ Settled d pe ∧
        isResultPending (d.mem pe).status = true) ∧
      ∀ i, c.Secondary i → pe < i → Joined d i
  | .sweep _ _ pe pending => pending = false → ∀ i, c.Secondary i → i < pe → Joined d i
  | .measure _ | .lower _ | .timedOut | .ended .timedOut => True

/-- The copy buffers of the current node are taken, and what was taken before is given back. -/
structure TakenFor (c : Contention) (todo : List CopyNode) (slots : Nat → Slot)
    (log : List (Event Block)) (n : CopyNode) : Prop where
  todo : todo.head? = some n
  log : ∃ done, Clean done ∧ log = done ++ takenBefore n.firmware n.request c.numPe
  slots : ∀ i < c.numPe, slots i = slotOf n.firmware n.request i ∧
    (slotOf n.firmware n.request i).address ≠ 0

def Buffers (c : Contention) (todo : List CopyNode) (slots : Nat → Slot)
    (log : List (Event Block)) : ContendPc → Prop
  | .node | .ended .measured => Clean log
  | .ended .copyFails => True
  | .ended .timedOut => ∀ i < c.numPe, (slots i).address ≠ 0 ∧
      (slots i).address + copyBufSize ≠ 0
  | .raise _ | .next _ _ | .start _ _ | .starting _ _ | .measure _ | .lower _ | .sweep _ _ _ _
  | .free | .timedOut => ∃ n, TakenFor c todo slots log n

/-- `val_execute_on_pe` has returned, except where it is called. -/
def Returned (d : DispatchState) : ContendPc → Prop
  | .starting _ _ => True
  | .node | .raise _ | .next _ _ | .start _ _ | .measure _ | .lower _ | .sweep _ _ _ _ | .free
  | .timedOut | .ended _ => d.primary = .idle

structure ContendInv (c : Contention) (before : Nat → BitVec 64) (s : ContendState) : Prop where
  dispatch : DispatchInv c.platform s.dispatch
  primary : (s.dispatch.pe c.primaryPe).pc = .primary
  pe : ∀ i, c.Secondary i → PeOk c (before i) s i
  pending : ∀ i, c.Secondary i → Settled s.dispatch i ∨ isResultPending (s.status i) = true
  returned : Returned s.dispatch s.pc
  awaited : Awaited c s.dispatch s.pc
  buffers : Buffers c s.todo s.slots s.log s.pc
  usable : ∀ n ∈ s.todo, c.Usable n

section Invariant

variable {before : Nat → BitVec 64} {s t : ContendState}

theorem ContendInv.settled_iff (h : ContendInv c before s) {i : Nat} (hi : c.Secondary i) :
    Settled s.dispatch i ↔ (s.dispatch.pe i).Done (s.payload i) :=
  settled_iff_done h.dispatch hi.1 (h.pe i hi).reports

theorem TakenFor.slot {todo : List CopyNode} {slots : Nat → Slot} {log : List (Event Block)}
    {n : CopyNode} (h : TakenFor c todo slots log n) (hUsable : ∀ n ∈ todo, c.Usable n) {i : Nat}
    (hi : i < c.numPe) : (slots i).address ≠ 0 ∧ (slots i).address + copyBufSize ≠ 0 := by
  obtain ⟨hSlot, hSet⟩ := h.slots i hi
  rw [hSlot]
  exact ⟨hSet, (hUsable n (List.mem_of_head? h.todo)).half i hi⟩

/-- While a PE is not settled, the slots hold buffers. -/
theorem ContendInv.slot (h : ContendInv c before s) {i : Nat} (hi : c.Secondary i)
    (hOpen : ¬ Settled s.dispatch i) :
    (s.slots i).address ≠ 0 ∧ (s.slots i).address + copyBufSize ≠ 0 := by
  have hAwaited := h.awaited
  have hBuffers := h.buffers
  cases hpc : s.pc with
  | node | raise _ | free =>
    rw [hpc] at hAwaited
    exact absurd (hAwaited i hi).1 hOpen
  | ended e =>
    rw [hpc] at hAwaited hBuffers
    cases e with
    | measured | copyFails => exact absurd (hAwaited i hi).1 hOpen
    | timedOut => exact hBuffers i hi.1
  | next _ _ | start _ _ | starting _ _ | measure _ | lower _ | sweep _ _ _ _ | timedOut =>
    rw [hpc] at hBuffers
    obtain ⟨n, hTaken⟩ := hBuffers
    exact hTaken.slot h.usable hi.1

/-- The primary does not lose what it relies on when the settled PEs stay as they are. -/
theorem Awaited.keep {d e : DispatchState} {pc : ContendPc} (h : Awaited c d pc)
    (hPrimary : e.primary = d.primary)
    (hKeeps : ∀ i, c.Secondary i → Settled d i →
      Settled e i ∧ (e.mem i).status = (d.mem i).status) : Awaited c e pc := by
  have hJoined : ∀ i, c.Secondary i → Joined d i → Joined e i := by
    intro i hi hOld
    obtain ⟨hSettled, hStatus⟩ := hKeeps i hi hOld.1
    exact ⟨hSettled, hStatus ▸ hOld.2⟩
  cases pc with
  | node | raise _ | free => exact fun i hi => hJoined i hi (h i hi)
  | ended e =>
    cases e with
    | measured | copyFails => exact fun i hi => hJoined i hi (h i hi)
    | timedOut => trivial
  | next scenario pe => exact fun i hi hLe => hJoined i hi (h i hi hLe)
  | start scenario pe =>
    obtain ⟨hPe, hSettled, hPending, hRest⟩ := h
    obtain ⟨hSettled', hStatus⟩ := hKeeps pe hPe hSettled
    exact ⟨hPe, hSettled', hStatus ▸ hPending, fun i hi hLt => hJoined i hi (hRest i hi hLt)⟩
  | starting scenario pe =>
    obtain ⟨hPe, hBusy, hRest⟩ := h
    refine ⟨hPe, fun hNot => ?_, fun i hi hLt => hJoined i hi (hRest i hi hLt)⟩
    rw [hPrimary] at hNot ⊢
    obtain ⟨hCurrent, hSettled, hPending⟩ := hBusy hNot
    obtain ⟨hSettled', hStatus⟩ := hKeeps pe hPe hSettled
    exact ⟨hCurrent, hSettled', hStatus ▸ hPending⟩
  | sweep scenario timeout pe pending => exact fun hNone i hi hLt => hJoined i hi (h hNone i hi hLt)
  | measure _ | lower _ | timedOut => trivial

theorem ContendInv.own (h : ContendInv c before s) {i : Nat} (hMoves : PeMoves c s i t)
    (hi : c.Secondary i) : OwnStep c (before i) i s t :=
  hMoves.own hi.1 (h.pe i hi) fun hOpen => h.slot hi fun hSettled =>
    hOpen ((h.settled_iff hi).mp hSettled)

theorem ContendInv.pe_ok (h : ContendInv c before s) {i : Nat} (hMoves : PeMoves c s i t) {k : Nat}
    (hk : c.Secondary k) : PeOk c (before k) t k := by
  by_cases hki : k = i
  · subst hki
    exact (h.own hMoves hk).ok
  · obtain ⟨hSame, hPay, hReg, -⟩ := hMoves.apart.pe k hki
    have hOld := h.pe k hk
    unfold PeOk at hOld ⊢
    rwa [hMoves.apart.slots, hSame, hPay, hReg]

/-- What a step of a PE does to a PE that is settled, and to one that is not. -/
theorem ContendInv.pe_settled (h : ContendInv c before s) {i : Nat} (hMoves : PeMoves c s i t)
    {k : Nat} (hk : c.Secondary k) :
    (Settled s.dispatch k → Settled t.dispatch k ∧ t.status k = s.status k) ∧
      (¬ Settled s.dispatch k → (¬ Settled t.dispatch k ∧ t.status k = s.status k) ∨
        (Settled t.dispatch k ∧ isResultPending (t.status k) = false)) := by
  by_cases hki : k = i
  · subst hki
    have hOwn := h.own hMoves hk
    rw [h.settled_iff hk,
      settled_iff_done (hMoves.dispatchInv h.dispatch) hk.1 (h.pe_ok hMoves hk).reports]
    exact ⟨hOwn.done, hOwn.notYet⟩
  · obtain ⟨hSame, -, -, hStatus⟩ := hMoves.apart.pe k hki
    have hIff := settled_congr hMoves.apart.returned hSame
    exact ⟨fun hOld => ⟨hIff.mpr hOld, hStatus⟩,
      fun hOld => Or.inl ⟨fun hNew => hOld (hIff.mp hNew), hStatus⟩⟩

/-- A step of another PE keeps the invariant. -/
theorem contendInv_pe {i : Nat} (h : ContendInv c before s) (hMoves : PeMoves c s i t) :
    ContendInv c before t := by
  have hApart := hMoves.apart
  have hKeeps : ∀ k, c.Secondary k → Settled s.dispatch k →
      Settled t.dispatch k ∧ t.status k = s.status k := fun _ hk => (h.pe_settled hMoves hk).1
  have hAwaited : Awaited c t.dispatch t.pc := by
    rw [hApart.pc]
    exact h.awaited.keep hApart.primary hKeeps
  refine ⟨hMoves.dispatchInv h.dispatch, ?_, fun _ => h.pe_ok hMoves, ?_, ?_, hAwaited, ?_, ?_⟩
  · by_cases hOther : c.primaryPe = i
    · subst hOther
      cases hMoves with
      | enters hAway hd =>
        cases dispatched_of_step hd with
        | advanced hi hq =>
          simp only [valTestEntryStep, h.primary] at hq
          cases hq
      | works hpc _ | reports hpc _ _ | leaves hpc _ _ => cases h.primary.symm.trans hpc
    · rw [(hApart.pe _ hOther).1]
      exact h.primary
  · intro k hk
    obtain ⟨hOld, hNew⟩ := h.pe_settled hMoves hk
    by_cases hSettled : Settled s.dispatch k
    · exact Or.inl (hOld hSettled).1
    · rcases hNew hSettled with ⟨-, hStatus⟩ | ⟨hSettled', -⟩
      · exact Or.inr (hStatus ▸ (h.pending k hk).resolve_left hSettled)
      · exact Or.inl hSettled'
  · have hOld := h.returned
    rw [hApart.pc]
    unfold Returned at hOld ⊢
    rwa [hApart.primary]
  · rw [hApart.pc, hApart.todo, hApart.slots, hApart.log]
    exact h.buffers
  · rw [hApart.todo]
    exact h.usable

/-! ## A step of the primary -/

/-- A PE that is settled does not have the buffer. -/
theorem ContendInv.bufferless (h : ContendInv c before s) {i : Nat} (hi : c.Secondary i)
    (hSettled : Settled s.dispatch i) : s.payload i = .enter ∨ (s.payload i).reported = true := by
  have hDone := (h.settled_iff hi).mp hSettled
  have hReports := (h.pe i hi).reports
  unfold Pe.Done at hDone
  unfold Pe.Reports at hReports
  cases hpc : (s.dispatch.pe i).pc with
  | primary | entry | gotData0 payload | gotData1 data =>
    rw [hpc] at hDone
    exact hDone.elim
  | off | cpuOff =>
    rw [hpc] at hReports
    exact Or.inl hReports.1
  | running data =>
    rw [hpc] at hDone
    exact Or.inr hDone

/-- A step of the primary that leaves the PEs and the dispatch alone; the slots are set anew only
while every PE is settled. -/
theorem ContendInv.move (h : ContendInv c before s) (hDispatch : t.dispatch = s.dispatch)
    (hPayload : t.payload = s.payload) (hMpam2 : t.mpam2 = s.mpam2)
    (hSlots : t.slots = s.slots ∨ ∀ i, c.Secondary i → Joined s.dispatch i)
    (hReturned : Returned t.dispatch t.pc) (hAwaited : Awaited c t.dispatch t.pc)
    (hBuffers : Buffers c t.todo t.slots t.log t.pc) (hUsable : ∀ n ∈ t.todo, c.Usable n) :
    ContendInv c before t := by
  have hStatus : ∀ i, t.status i = s.status i := fun i => by
    rw [ContendState.status, ContendState.status, hDispatch]
  refine ⟨hDispatch ▸ h.dispatch, hDispatch ▸ h.primary, fun i hi => ?_, fun i hi => ?_, hReturned,
    hAwaited, hBuffers, hUsable⟩
  · obtain ⟨hHas, hReports, hUnfailing⟩ := h.pe i hi
    unfold PeOk
    rw [hDispatch, hPayload, hMpam2]
    refine ⟨?_, hReports, hUnfailing⟩
    rcases hSlots with hSlots | hAll
    · rw [hSlots]
      exact hHas
    · exact hHas.congr (h.bufferless hi (hAll i hi).1)
  · rw [hDispatch, hStatus]
    exact h.pending i hi

/-- `pal_mem_allocate_shared_memcpybuf` has succeeded. -/
theorem takenFor_of_status {n : CopyNode} {rest : List CopyNode} {log : List (Event Block)}
    (hClean : Clean log)
    (hStatus : (sharedMemcpybuf n.firmware n.request c.platform.table.numOfPe).status = true) :
    TakenFor c (n :: rest)
      (sharedMemcpybuf n.firmware n.request c.platform.table.numOfPe).slots
      (log ++ (sharedMemcpybuf n.firmware n.request c.platform.table.numOfPe).log) n := by
  have hPool : n.firmware.poolFails = false := by
    cases hPool : n.firmware.poolFails with
    | false => rfl
    | true =>
      rw [sharedMemcpybuf, if_pos hPool] at hStatus
      cases hStatus
  rcases sharedMemcpybuf_spec (q := n.request) c.platform.table.numOfPe hPool with
    ⟨-, hFilled, hSet⟩ | ⟨hFails, -⟩
  · rw [c.platform.count] at hFilled hSet
    refine ⟨rfl, ⟨log, hClean, ?_⟩, fun i hi => ⟨hFilled.slots i hi, hSet i hi⟩⟩
    rw [hFilled.log]
    rfl
  · rw [hStatus] at hFails
    cases hFails

theorem TakenFor.granted {todo : List CopyNode} {slots : Nat → Slot} {log : List (Event Block)}
    {n : CopyNode} (h : TakenFor c todo slots log n) (hUsable : ∀ n ∈ todo, c.Usable n) {i : Nat}
    (hi : i < c.numPe) : (slotOf n.firmware n.request i).granted = true :=
  granted_of_ne (hUsable n (List.mem_of_head? h.todo)).size (h.slots i hi).2

/-- `pal_mem_free_shared_memcpybuf` gives back what was taken. -/
theorem TakenFor.freed {todo : List CopyNode} {slots : Nat → Slot} {log : List (Event Block)}
    {n : CopyNode} (h : TakenFor c todo slots log n) (hUsable : ∀ n ∈ todo, c.Usable n) :
    Clean (log ++ palMemFreeSharedMemcpybuf slots c.numPe memcpyBufSize) := by
  obtain ⟨done, hClean, hLog⟩ := h.log
  have hBalance : Clean (takenBefore n.firmware n.request c.numPe ++
      palMemFreeSharedMemcpybuf (slotOf n.firmware n.request) c.numPe n.request.bufSize) := by
    rw [takenBefore_eq, grantedBelow_of_granted fun i hi => h.granted hUsable hi, free_eq,
      clean_iff_perm]
    exact List.perm_append_singleton _ _
  rw [free_congr memcpyBufSize fun i hi => (h.slots i hi).1, hLog, List.append_assoc]
  exact hClean.append hBalance

/-- The status of a PE is set to PENDING before it is started. -/
theorem contendInv_pend (h : ContendInv c before s) {scenario pe : Nat}
    (hpc : s.pc = .next scenario pe) (hPe : c.Secondary pe) :
    ContendInv c before { s with
      pc := .start scenario pe
      dispatch := s.dispatch.setStatus pe (resultPending c.test.num) } := by
  obtain ⟨hInv, hPrimary, hPes, hPending, hReturned, hAwaited, hBuffers, hUsable⟩ := h
  rw [hpc] at hReturned hAwaited hBuffers
  have hWord : isResultPending (resultPending c.test.num) = true := by
    cases c.test <;> decide
  have hOther : ∀ i, i ≠ pe →
      ((s.dispatch.setStatus pe (resultPending c.test.num)).mem i).status =
        (s.dispatch.mem i).status := by
    intro i hi
    simp only [DispatchState.setStatus, Function.update_of_ne hi]
  have hOwn : isResultPending
      ((s.dispatch.setStatus pe (resultPending c.test.num)).mem pe).status = true := by
    simp only [DispatchState.setStatus, Function.update_self, hWord]
  refine ⟨dispatchInv_setStatus hInv, hPrimary, hPes, fun i hi => ?_, hReturned,
    ⟨hPe, (hAwaited pe hPe (Nat.le_refl _)).1, hOwn, fun i hi hLt => ?_⟩, hBuffers, hUsable⟩
  · by_cases hip : i = pe
    · subst hip
      exact Or.inr hOwn
    · rw [ContendState.status, hOther i hip]
      exact hPending i hi
  · obtain ⟨hSettled, hNone⟩ := hAwaited i hi (Nat.le_of_lt hLt)
    refine ⟨hSettled, ?_⟩
    rw [hOther i (Nat.ne_of_gt hLt)]
    exact hNone

/-- `val_execute_on_pe` is called for a PE that is settled. -/
theorem contendInv_invoke (h : ContendInv c before s) {scenario pe : Nat} {d : DispatchState}
    (hpc : s.pc = .start scenario pe)
    (hd : dispatchStep c.platform s.dispatch (.invoke (c.call pe)) = some d) :
    ContendInv c before { s with pc := .starting scenario pe, dispatch := d } := by
  obtain ⟨hInv, hPrimary, hPes, hPending, -, hAwaited, hBuffers, hUsable⟩ := h
  rw [hpc] at hAwaited hBuffers
  obtain ⟨hPe, hSettled, hWord, hRest⟩ := hAwaited
  have hNext : DispatchInv c.platform d := dispatchInv_invoke hInv (fun _ => hSettled) hd
  cases dispatched_of_step hd with
  | tooLarge hIdle hPast => exact absurd hPe.1 (Nat.lt_asymm hPast)
  | called hIdle hIndex =>
    exact ⟨hNext, hPrimary, hPes, hPending, trivial,
      ⟨hPe, fun _ => ⟨rfl, hSettled, hWord⟩, hRest⟩, hBuffers, hUsable⟩

theorem settled_append_of_ne {d e : DispatchState} {call : DispatchCall}
    {failure : Option (BitVec 32)} {i : Nat}
    (hReturned : e.returned = d.returned ++ [(call, failure)]) (hi : call.index ≠ i)
    (hPe : e.pe i = d.pe i) : Settled e i ↔ Settled d i := by
  rw [Settled, Settled, succeeded, succeeded, hReturned, successes_of_ne _ _ hi, hPe]

theorem settled_append_of_failure {d e : DispatchState} {call : DispatchCall}
    {failure : BitVec 32} {i : Nat}
    (hReturned : e.returned = d.returned ++ [(call, some failure)]) (hPe : e.pe i = d.pe i) :
    Settled e i ↔ Settled d i := by
  rw [Settled, Settled, succeeded, succeeded, hReturned, successes_of_failure, hPe]

/-- `CPU_ON` takes a PE that is off to the entry. -/
theorem PeFits.starts {before src mpam2 : BitVec 64} {q : Pe} {pc : PayloadPc}
    (h : PeFits c before src q pc mpam2) (hOff : q.pc = .off) :
    PeFits c before src { q with pc := .entry } pc mpam2 := by
  obtain ⟨hHas, hReports, hUnfailing⟩ := h
  simp only [Pe.Reports, hOff] at hReports
  exact ⟨hHas, ⟨hReports.1, Nat.le_of_eq hReports.2⟩, hUnfailing⟩

/-- A step of `val_execute_on_pe`. -/
theorem contendInv_starting (h : ContendInv c before s) {scenario pe : Nat} {d : DispatchState}
    (hpc : s.pc = .starting scenario pe) (hBusy : s.dispatch.primary ≠ .idle)
    (hd : dispatchStep c.platform s.dispatch .primary = some d) :
    ContendInv c before { s with dispatch := d } := by
  obtain ⟨hInv, hPrimary, hPes, hPending, -, hAwaited, hBuffers, hUsable⟩ := h
  rw [hpc] at hAwaited
  obtain ⟨hPe, hServing, hRest⟩ := hAwaited
  obtain ⟨hCurrent, hSettled, hWord⟩ := hServing hBusy
  have hNext : DispatchInv c.platform d := dispatchInv_primary hInv hd
  have hReturned : Returned d s.pc := by
    rw [hpc]
    trivial
  cases serves_of_step hInv hCurrent hd with
  | goesOn hStill hSame hKept hStatus =>
    have hSettled' : ∀ i, Settled d i ↔ Settled s.dispatch i := fun i =>
      settled_congr hKept (congrFun hSame i)
    refine ⟨hNext, hSame ▸ hPrimary, fun i hi => ?_, fun i hi => ?_, hReturned, ?_, hBuffers,
      hUsable⟩
    · have hOld := hPes i hi
      unfold PeOk at hOld ⊢
      dsimp only
      rwa [hSame]
    · dsimp only [ContendState.status]
      rw [hStatus, hSettled']
      exact hPending i hi
    · dsimp only
      rw [hpc]
      refine ⟨hPe, fun _ => ⟨hStill, (hSettled' pe).mpr hSettled, ?_⟩, fun i hi hLt => ?_⟩
      · rw [hStatus]
        exact hWord
      · rw [Joined, hSettled', hStatus]
        exact hRest i hi hLt
  | starts hIdle hOff hStarted hGrown hMem =>
    have hOther : ∀ i, i ≠ pe → (Settled d i ↔ Settled s.dispatch i) := by
      intro i hi
      refine settled_append_of_ne hGrown (Ne.symm hi) ?_
      rw [hStarted]
      exact Function.update_of_ne hi _ _
    refine ⟨hNext, ?_, fun i hi => ?_, fun i hi => ?_, hReturned, ?_, hBuffers, hUsable⟩
    · rw [show d.pe c.primaryPe = s.dispatch.pe c.primaryPe by
        rw [hStarted]
        exact Function.update_of_ne (Ne.symm hPe.2) _ _]
      exact hPrimary
    · have hOld := hPes i hi
      unfold PeOk at hOld ⊢
      dsimp only
      rw [hStarted]
      by_cases hip : i = pe
      · subst hip
        rw [show (c.call i).index = i from rfl, Function.update_self]
        exact hOld.starts hOff
      · rw [show (c.call pe).index = pe from rfl, Function.update_of_ne hip]
        exact hOld
    · dsimp only [ContendState.status]
      rw [hMem]
      by_cases hip : i = pe
      · subst hip
        exact Or.inr hWord
      · rw [hOther i hip]
        exact hPending i hi
    · dsimp only
      rw [hpc]
      refine ⟨hPe, fun hNot => absurd hIdle hNot, fun i hi hLt => ?_⟩
      rw [Joined, hOther i (Nat.ne_of_gt hLt), hMem]
      exact hRest i hi hLt
  | givesUp hFail hIdle hSame hGrown hOwn hStatus =>
    have hSettled' : ∀ i, Settled d i ↔ Settled s.dispatch i := fun i =>
      settled_append_of_failure hGrown (congrFun hSame i)
    refine ⟨hNext, hSame ▸ hPrimary, fun i hi => ?_, fun i hi => ?_, hReturned, ?_, hBuffers,
      hUsable⟩
    · have hOld := hPes i hi
      unfold PeOk at hOld ⊢
      dsimp only
      rwa [hSame]
    · dsimp only [ContendState.status]
      rw [hSettled']
      by_cases hip : i = pe
      · subst hip
        exact Or.inl hSettled
      · rw [hStatus i hip]
        exact hPending i hi
    · dsimp only
      rw [hpc]
      refine ⟨hPe, fun hNot => absurd hIdle hNot, fun i hi hLt => ?_⟩
      rw [Joined, hSettled', hStatus i (Nat.ne_of_gt hLt)]
      exact hRest i hi hLt

/-- A poll of `wait_for_secondary_off`. -/
theorem joined_of_poll (h : ContendInv c before s) {scenario pe : Nat} {timeout : BitVec 64}
    {pending : Bool} (hpc : s.pc = .sweep scenario timeout pe pending)
    (hNone : (pending || (pe ≠ c.primaryPe && isResultPending (s.status pe))) = false) {i : Nat}
    (hi : c.Secondary i) (hLt : i < pe + 1) : Joined s.dispatch i := by
  have hAwaited := h.awaited
  rw [hpc] at hAwaited
  rw [Bool.or_eq_false_iff] at hNone
  rcases Nat.lt_succ_iff_lt_or_eq.mp hLt with hLess | rfl
  · exact hAwaited hNone.1 i hi hLess
  · have hStatus : isResultPending (s.status i) = false := by
      simpa [hi.2] using hNone.2
    refine ⟨(h.pending i hi).resolve_right ?_, hStatus⟩
    rw [hStatus]
    exact Bool.false_ne_true

/-- Where the wait goes on after a sweep. -/
theorem contendInv_swept (h : ContendInv c before s) {scenario pe : Nat} {timeout : BitVec 64}
    {pending : Bool} (hpc : s.pc = .sweep scenario timeout pe pending) (hPe : c.numPe ≤ pe) :
    ContendInv c before { s with pc := afterSweep scenario timeout pending } := by
  have hReturned := h.returned
  have hAwaited := h.awaited
  have hBuffers := h.buffers
  rw [hpc] at hReturned hAwaited hBuffers
  cases pending with
  | true =>
    rw [afterSweep]
    split
    · exact h.move rfl rfl rfl (Or.inl rfl) hReturned
        (fun _ _ _ hLt => absurd hLt (Nat.not_lt_zero _)) hBuffers h.usable
    · exact h.move rfl rfl rfl (Or.inl rfl) hReturned trivial hBuffers h.usable
  | false =>
    have hAll : ∀ i, c.Secondary i → Joined s.dispatch i := fun i hi =>
      hAwaited rfl i hi (Nat.lt_of_lt_of_le hi.1 hPe)
    rw [afterSweep, Bool.false_and, if_neg Bool.false_ne_true]
    split
    · exact h.move rfl rfl rfl (Or.inl rfl) hReturned trivial hBuffers h.usable
    · split
      · exact h.move rfl rfl rfl (Or.inl rfl) hReturned hAll hBuffers h.usable
      · exact h.move rfl rfl rfl (Or.inl rfl) hReturned hAll hBuffers h.usable

/-- A step of the primary keeps the invariant. -/
theorem contendInv_primary (h : ContendInv c before s) (hMoves : PrimaryMoves c s t) :
    ContendInv c before t := by
  have hReturned := h.returned
  have hAwaited := h.awaited
  have hBuffers := h.buffers
  cases hMoves with
  | measured hpc hTodo =>
    rw [hpc] at hReturned hAwaited hBuffers
    exact h.move rfl rfl rfl (Or.inl rfl) hReturned hAwaited hBuffers h.usable
  | allocated hpc hTodo hStatus =>
    rw [hpc] at hReturned hAwaited hBuffers
    refine h.move rfl rfl rfl (Or.inr hAwaited) hReturned hAwaited ?_ h.usable
    dsimp only
    rw [hTodo]
    exact ⟨_, takenFor_of_status hBuffers hStatus⟩
  | copyFails hpc hTodo hStatus =>
    rw [hpc] at hReturned hAwaited
    exact h.move rfl rfl rfl (Or.inr hAwaited) hReturned hAwaited trivial h.usable
  | raise hpc =>
    rw [hpc] at hReturned hAwaited hBuffers
    exact h.move rfl rfl rfl (Or.inl rfl) hReturned (fun i hi _ => hAwaited i hi) hBuffers h.usable
  | itself hpc hPe =>
    rw [hpc] at hReturned hAwaited hBuffers
    exact h.move rfl rfl rfl (Or.inl rfl) hReturned
      (fun i hi hLe => hAwaited i hi (Nat.le_of_succ_le hLe)) hBuffers h.usable
  | pend hpc hPe => exact contendInv_pend h hpc hPe
  | allStarted hpc hPe =>
    rw [hpc] at hReturned hBuffers
    exact h.move rfl rfl rfl (Or.inl rfl) hReturned trivial hBuffers h.usable
  | invoke hpc hd => exact contendInv_invoke h hpc hd
  | started hpc hIdle =>
    rw [hpc] at hAwaited hBuffers
    exact h.move rfl rfl rfl (Or.inl rfl) hIdle
      (fun i hi hLe => hAwaited.2.2 i hi (Nat.lt_of_succ_le hLe)) hBuffers h.usable
  | starting hpc hBusy hd => exact contendInv_starting h hpc hBusy hd
  | measure hpc =>
    rw [hpc] at hReturned hBuffers
    exact h.move rfl rfl rfl (Or.inl rfl) hReturned trivial hBuffers h.usable
  | lower hpc =>
    rw [hpc] at hReturned hBuffers
    exact h.move rfl rfl rfl (Or.inl rfl) hReturned
      (fun _ _ _ hLt => absurd hLt (Nat.not_lt_zero _)) hBuffers h.usable
  | poll hpc hPe =>
    rw [hpc] at hReturned hBuffers
    exact h.move rfl rfl rfl (Or.inl rfl) hReturned
      (fun hNone _ hi hLt => joined_of_poll h hpc hNone hi hLt) hBuffers h.usable
  | swept hpc hPe => exact contendInv_swept h hpc hPe
  | free hpc =>
    rw [hpc] at hReturned hAwaited hBuffers
    obtain ⟨n, hTaken⟩ := hBuffers
    exact h.move rfl rfl rfl (Or.inl rfl) hReturned hAwaited (hTaken.freed h.usable)
      fun n hn => h.usable n (List.mem_of_mem_tail hn)
  | timedOut hpc =>
    rw [hpc] at hReturned hBuffers
    obtain ⟨n, hTaken⟩ := hBuffers
    exact h.move rfl rfl rfl (Or.inl rfl) hReturned trivial
      (fun i hi => hTaken.slot h.usable hi) h.usable

theorem contendInv_step {l : ContendLabel} (h : ContendInv c before s)
    (hStep : contendStep c s l = some t) : ContendInv c before t := by
  cases l with
  | primary => exact contendInv_primary h (primaryMoves_of_step hStep)
  | pe i => exact contendInv_pe h (peMoves_of_step hStep)

/-! ## Whole runs -/

theorem Contention.Begins.inv (h : c.Begins s) (hUsable : ∀ n ∈ c.nodes, c.Usable n) :
    ContendInv c s.mpam2 s := by
  have hSettled : ∀ i, c.Secondary i → Settled s.dispatch i := by
    intro i hi
    have hExecuted := (h.off.pe i hi.1).2
    have hDone : succeeded s.dispatch i = [] := by
      rw [succeeded, h.off.returned]
      rfl
    exact ⟨by rw [hExecuted, hDone], by rw [hExecuted, (h.secondary i hi).2.1]; rfl⟩
  refine ⟨h.off.inv, h.primary, fun i hi => ⟨?_, ?_, ?_⟩, fun i hi => Or.inl (hSettled i hi), ?_,
    ?_, ?_, ?_⟩
  · rw [h.payload]
    rfl
  · obtain ⟨hOff, hNone, -⟩ := h.secondary i hi
    simp only [Pe.Reports, hOff]
    exact ⟨h.payload i, by rw [hNone, (h.off.pe i hi.1).2]; rfl⟩
  · rw [h.payload]
    rfl
  · rw [h.pc]
    exact h.off.primary
  · rw [h.pc]
    exact fun i hi => ⟨hSettled i hi, (h.secondary i hi).2.2⟩
  · rw [h.pc, h.log]
    exact clean_nil
  · rw [h.todo]
    exact hUsable

/-- The payload that runs on a PE, and the PE it runs on. -/
theorem running_eq_some {i : Nat} {pc : PayloadPc} (h : s.running i = some pc) :
    s.payload i = pc ∧ ∃ data, (s.dispatch.pe i).pc = .running data := by
  unfold ContendState.running at h
  split at h
  · rename_i data hpc
    exact ⟨Option.some_inj.mp h, data, hpc⟩
  · cases h

/-- Between the scenarios, and while no wait has timed out, the primary has heard of every PE. -/
theorem ContendInv.joined (h : ContendInv c before s) (hLate : ¬ s.pc.late)
    (hQuiet : s.pc.contending = false) {i : Nat} (hi : c.Secondary i) : Joined s.dispatch i := by
  have hAwaited := h.awaited
  cases hpc : s.pc with
  | node | raise _ | free =>
    rw [hpc] at hAwaited
    exact hAwaited i hi
  | ended e =>
    rw [hpc] at hAwaited
    cases e with
    | measured | copyFails => exact hAwaited i hi
    | timedOut => exact absurd (Or.inr hpc) hLate
  | timedOut => exact absurd (Or.inl hpc) hLate
  | next _ _ | start _ _ | starting _ _ | measure _ | lower _ | sweep _ _ _ _ =>
    rw [hpc] at hQuiet
    cases hQuiet

theorem ContendInv.through (h : ContendInv c before s) {i : Nat} (hi : c.Secondary i)
    (hJoined : Joined s.dispatch i) : Through before s i := by
  obtain ⟨hHas, hReports, hUnfailing⟩ := h.pe i hi
  refine ⟨hJoined.1, hJoined.2, ?_, ?_⟩
  · rcases h.bufferless hi hJoined.1 with hPay | hPay
    · rw [hPay] at hHas
      exact hHas
    · cases hPoint : s.payload i with
      | finished =>
        rw [hPoint] at hHas
        exact hHas
      | failed saved =>
        rw [hPoint] at hUnfailing
        cases hUnfailing
      | _ =>
        rw [hPoint] at hPay
        cases hPay
  · have hDone := (h.settled_iff hi).mp hJoined.1
    unfold Pe.Done at hDone
    unfold ContendState.running
    split
    · rename_i data hpc
      simp only [hpc] at hDone
      cases hPoint : s.payload i with
      | finished => exact Or.inr rfl
      | failed saved =>
        rw [hPoint] at hUnfailing
        cases hUnfailing
      | _ =>
        rw [hPoint] at hDone
        cases hDone
    · exact Or.inl rfl

/-- A block of a buffer that is taken. -/
theorem TakenFor.held {todo : List CopyNode} {slots : Nat → Slot} {log : List (Event Block)}
    {n : CopyNode} (h : TakenFor c todo slots log n) (hUsable : ∀ n ∈ todo, c.Usable n) {i : Nat}
    (hi : i < c.numPe) :
    Held log (.pages (slots i).address (efiSizeToPages memcpyBufSize)) := by
  obtain ⟨done, hClean, hLog⟩ := h.log
  have hBlocks : grantedBelow n.firmware n.request c.numPe =
      blocksBelow n.firmware n.request c.numPe :=
    grantedBelow_of_granted fun k hk => h.granted hUsable hk
  have hBlock : blockOf n.request.bufSize (slotOf n.firmware n.request i) =
      .pages (slots i).address (efiSizeToPages memcpyBufSize) := by
    rw [blockOf, if_pos (h.granted hUsable hi), (h.slots i hi).1]
    rfl
  refine ⟨_, by rw [hLog, run_append, hClean, Option.bind_some, takenBefore_eq, run_acquires], ?_⟩
  rw [hBlocks, add_zero, Multiset.mem_coe, ← hBlock]
  exact List.mem_cons_of_mem _ (List.mem_map_of_mem (List.mem_range.mpr hi))

theorem ContendInv.copies (h : ContendInv c before s) (hLate : ¬ s.pc.late) {i : Nat}
    (hi : c.Secondary i) {saved src : BitVec 64} (hCopy : s.running i = some (.copy saved src)) :
    Held s.log (.pages src (efiSizeToPages memcpyBufSize)) := by
  obtain ⟨hPay, data, hpc⟩ := running_eq_some hCopy
  have hHas := (h.pe i hi).has
  rw [hPay] at hHas
  have hOpen : ¬ Settled s.dispatch i := by
    rw [h.settled_iff hi, hPay]
    simp only [Pe.Done, hpc, PayloadPc.reported, Bool.false_eq_true, not_false_iff]
  have hBusy : s.pc.contending = true := by
    rw [← Bool.not_eq_false]
    exact fun hQuiet => hOpen (h.joined hLate hQuiet hi).1
  have hBuffers := h.buffers
  rw [hHas.2.2]
  cases hPoint : s.pc with
  | node | raise _ | free | timedOut | ended _ =>
    rw [hPoint] at hBusy
    cases hBusy
  | next _ _ | start _ _ | starting _ _ | measure _ | lower _ | sweep _ _ _ _ =>
    rw [hPoint] at hBuffers
    obtain ⟨n, hTaken⟩ := hBuffers
    exact hTaken.held h.usable hi.1

/-- The primary has its own buffer when it copies. -/
theorem ContendInv.primaryCopies (h : ContendInv c before s) (hCopy : s.pc.copying = true) :
    Held s.log (.pages (s.slots c.primaryPe).address (efiSizeToPages memcpyBufSize)) := by
  have hBuffers := h.buffers
  cases hPoint : s.pc with
  | raise _ | measure _ =>
    rw [hPoint] at hBuffers
    obtain ⟨n, hTaken⟩ := hBuffers
    exact hTaken.held h.usable c.primary_lt
  | node | next _ _ | start _ _ | starting _ _ | lower _ | sweep _ _ _ _ | free | timedOut
  | ended _ =>
    rw [hPoint] at hCopy
    cases hCopy

theorem ContendInv.safe (h : ContendInv c before s) (hLate : ¬ s.pc.late) :
    ContentionSafe c before s where
  primaryCopies := h.primaryCopies
  copies _ hi _ _ hCopy := h.copies hLate hi hCopy
  through hQuiet i hi := h.through hi (h.joined hLate hQuiet hi)
  balanced hpc := by
    have hBuffers := h.buffers
    rw [hpc] at hBuffers
    exact hBuffers

end Invariant

/-- **Contention.** In every interleaving of the primary and the other PEs, every PE executes what
it was started for, once each; and as long as no wait has timed out, the primary and the other PEs
copy only from buffers that are taken, whenever the primary allocates, frees, sets a limit anew or
has ended, every other PE has reported, has its `MPAM2_EL2` back and does not copy, and when all
nodes have been measured the copy buffers are given back. -/
theorem contention_safe (c : Contention) (s t : ContendState) (ls : List ContendLabel)
    (hBegins : c.Begins s) (hUsable : ∀ n ∈ c.nodes, c.Usable n)
    (hRun : run (contendStep c) s ls = some t) :
    DispatchedOnce c.platform t.dispatch ∧ (¬ t.pc.late → ContentionSafe c s.mpam2 t) := by
  have hInv : ContendInv c s.mpam2 t :=
    run_invariant (I := ContendInv c s.mpam2) (fun _ _ _ hI hStep => contendInv_step hI hStep)
      (hBegins.inv hUsable) hRun
  exact ⟨hInv.dispatch.dispatchedOnce, hInv.safe⟩

/-- Two PEs, and a memory node that grants every buffer. -/
def contendedNode : CopyNode :=
  ⟨refusing 0, ⟨0, 0x80000000, 0x40000000, 0, 0x10000, 0, {}⟩⟩

def twoContend : Contention := ⟨twoPes, .d003, 0, Nat.zero_lt_two, 0x1000, 3, [contendedNode]⟩

def contendStart : ContendState where
  dispatch := dispatchStart
  pc := .node
  todo := [contendedNode]
  contendFlag := 0
  payload _ := .enter
  mpam2 _ := 0x8000000000000000
  slots := unsetSlots
  log := []

theorem contendStart_status (i : Nat) : isResultPending (contendStart.status i) = false := by
  have hZero : contendStart.status i = 0 := rfl
  rw [hZero]
  decide

theorem contendStart_begins : twoContend.Begins contendStart where
  off := ⟨rfl, rfl, rfl,
    fun i _ => ⟨by by_cases hi : i = 0 <;> simp [contendStart, dispatchStart, hi], rfl⟩⟩
  primary := rfl
  secondary i hi := ⟨if_neg hi.2, rfl, contendStart_status i⟩
  payload _ := rfl
  pc := rfl
  todo := rfl
  log := rfl

theorem contendedNode_slot (pe : Nat) :
    slotOf contendedNode.firmware contendedNode.request pe =
      ⟨0x80000000 + BitVec.ofNat 64 pe * 0x10000000, true⟩ := by
  simp [slotOf, palMemAllocateAddress, search, refusing, contendedNode, CopyNode.request,
    copyRequest, CopyRequest.start, memcpyBufSize]

theorem twoContend_usable : ∀ n ∈ twoContend.nodes, twoContend.Usable n := by
  intro n hn
  obtain rfl := List.mem_singleton.mp hn
  refine ⟨by decide, fun pe hPe => ?_⟩
  have hTwo : pe < 2 := hPe
  have hCases : pe = 0 ∨ pe = 1 := by omega
  rw [contendedNode_slot]
  rcases hCases with rfl | rfl
  · decide
  · decide

/-- The state after the buffers are allocated. -/
def contendTaken : ContendState := { contendStart with
  pc := .raise 0
  slots := Function.update (Function.update unsetSlots 0 ⟨0x80000000, true⟩) 1 ⟨0x90000000, true⟩
  log := [.acquire (.pool .copyTable), .acquire (.pages 0x80000000 0x10000),
    .acquire (.pages 0x90000000 0x10000)] }

theorem contend_first : contendStep twoContend contendStart .primary = some contendTaken := by
  have hBufs : sharedMemcpybuf contendedNode.firmware contendedNode.request 2 =
      ⟨true, contendTaken.slots, contendTaken.log⟩ := by
    have hPool : contendedNode.firmware.poolFails = false := rfl
    have hPages : efiSizeToPages contendedNode.request.bufSize = 0x10000 := by decide
    rw [sharedMemcpybuf, hPool, if_neg Bool.false_ne_true]
    simp [allocateSlots, contendedNode_slot, takenFor, contendTaken, blockOf, hPages]
  have hCount : twoContend.platform.table.numOfPe = 2 := rfl
  simp only [contendStep, payloadPrimaryStep, contendStart, hCount, hBufs]
  rfl

/-- PE 1 is started and copies. -/
def contendCopying : List ContendLabel :=
  List.replicate 9 .primary ++ List.replicate 7 (.pe 1)

/-- PE 1 copies from its buffer, and the primary from its own; both are taken. -/
theorem contention_two : ∃ t,
    run (contendStep twoContend) contendStart (.primary :: contendCopying) = some t ∧
      t.running 1 = some (.copy 0x8000000000000000 0x90000000) ∧
        ContentionSafe twoContend contendStart.mpam2 t := by
  have hEnd : (run (contendStep twoContend) contendTaken contendCopying).map
      (fun t => (t.pc, t.running 1)) =
        some (.measure 0, some (.copy 0x8000000000000000 0x90000000)) := by decide
  obtain ⟨t, ht, hPoint⟩ := Option.map_eq_some_iff.mp hEnd
  rw [Prod.mk.injEq] at hPoint
  have hRun : run (contendStep twoContend) contendStart (.primary :: contendCopying) = some t :=
    run_cons.mpr ⟨contendTaken, contend_first, ht⟩
  refine ⟨t, hRun, hPoint.2, (contention_safe twoContend contendStart t _ contendStart_begins
    twoContend_usable hRun).2 ?_⟩
  rw [ContendPc.late, hPoint.1]
  exact fun h => h.elim nofun nofun

end EnterpriseAcs.Mpam
