import EnterpriseAcs.Library.Transition
import EnterpriseAcs.Mpam.Dispatch
import Mathlib.Data.List.Infix

/-!
# A payload is executed once

`DispatchInv` ties the slot of a PE, its program point and the primary's: a PE that is on
its way to its payload has the last call that was accepted for it in its slot or already
read from it, and the primary never writes the slot of such a PE.

* `dispatchInv_step`: the step lemma.
* `started_within`: an accepted payload is started by at most three own steps of its PE.
* `dispatched_exactly_once`: the run theorem.
-/

namespace EnterpriseAcs.Mpam

open Transition Machine

variable {p : Platform}

/-! ## What a step does -/

/-- The steps of the four parties, one constructor for each way a step goes on. -/
inductive Dispatched (p : Platform) (s : DispatchState) : DispatchLabel → DispatchState → Prop where
  | tooLarge {c : DispatchCall} (hIdle : s.primary = .idle) (hPast : p.numPe < c.index) :
      Dispatched p s (.invoke c)
        { s with calls := s.calls ++ [c], returned := s.returned ++ [(c, none)] }
  | called {c : DispatchCall} (hIdle : s.primary = .idle) (hIndex : c.index ≤ p.numPe) :
      Dispatched p s (.invoke c)
        { s with primary := .setData0 c timeoutLarge, calls := s.calls ++ [c] }
  | payload {c : DispatchCall} {timeout : Nat} (hpc : s.primary = .setData0 c timeout) :
      Dispatched p s .primary { s with
        primary := .setData1 c timeout
        mem := Function.update s.mem c.index { s.mem c.index with data0 := c.data.payload } }
  | arg {c : DispatchCall} {timeout : Nat} (hpc : s.primary = .setData1 c timeout) :
      Dispatched p s .primary { s with
        primary := .cpuOn c timeout
        mem := Function.update s.mem c.index { s.mem c.index with data1 := c.data.arg } }
  | started {c : DispatchCall} {timeout k : Nat} {mpid : BitVec 64}
      (hpc : s.primary = .cpuOn c timeout) (hMpid : valPeGetMpidIndex p.table c.index = some mpid)
      (hTarget : p.peWith mpid = some k) (hOff : (s.pe k).pc = .off) :
      Dispatched p s .primary { s with
        primary := .idle
        pe := Function.update s.pe k { s.pe k with pc := .entry }
        returned := s.returned ++ [(c, none)] }
  | again {c : DispatchCall} {timeout : Nat} (hpc : s.primary = .cpuOn c timeout)
      (hTimeout : timeout ≠ 0) :
      Dispatched p s .primary { s with primary := .setData0 c (timeout - 1) }
  | refused {c : DispatchCall} {timeout : Nat} {arg0 : BitVec 64}
      (hpc : s.primary = .cpuOn c timeout)
      (hArg : arg0 = psciAlreadyOn ∧ timeout = 0 ∨ arg0 = psciInvalidParams) :
      Dispatched p s .primary { s with primary := .fail c arg0 }
  | failed {c : DispatchCall} {arg0 : BitVec 64} (hpc : s.primary = .fail c arg0) :
      Dispatched p s .primary { s with
        primary := .idle
        mem := Function.update s.mem c.index { s.mem c.index with status := cpuOnFailure arg0 }
        returned := s.returned ++ [(c, some (cpuOnFailure arg0))] }
  | advanced {i : Nat} {q : Pe} (hi : i < p.numPe) (hq : valTestEntryStep p s i = some q) :
      Dispatched p s (.advance i) { s with pe := Function.update s.pe i q }
  | reported {i : Nat} {status : BitVec 32} {data : TestData} (hi : i < p.numPe)
      (hpc : (s.pe i).pc = .running data) :
      Dispatched p s (.report i status) { s with
        mem := Function.update s.mem (p.ownIndex i)
          { s.mem (p.ownIndex i) with status := status }
        pe := Function.update s.pe i
          { s.pe i with
            reported :=
              if isResultPending status then (s.pe i).reported
              else (s.pe i).executed.length } }

theorem dispatched_cpuOn {s : DispatchState} {c : DispatchCall} {timeout : Nat}
    {mpid : BitVec 64} (hpc : s.primary = .cpuOn c timeout)
    (hMpid : valPeGetMpidIndex p.table c.index = some mpid) :
    Dispatched p s .primary (psciCpuOn s c timeout (p.peWith mpid)) := by
  unfold psciCpuOn
  split
  · rename_i k hTarget
    split
    · rename_i hOff
      exact .started hpc hMpid hTarget hOff
    · split
      · rename_i hZero
        exact .refused hpc (Or.inl ⟨rfl, hZero⟩)
      · rename_i hTimeout
        exact .again hpc hTimeout
  · exact .refused hpc (Or.inr rfl)

theorem dispatched_of_step {s t : DispatchState} {l : DispatchLabel}
    (h : dispatchStep p s l = some t) : Dispatched p s l t := by
  cases l with
  | invoke c =>
    simp only [dispatchStep] at h
    split at h
    · rename_i hIdle
      split at h
      · rename_i hPast
        cases h
        rw [p.count] at hPast
        exact .tooLarge hIdle hPast
      · rename_i hNotPast
        cases h
        rw [p.count] at hNotPast
        exact .called hIdle (Nat.le_of_not_lt hNotPast)
    · cases h
  | primary =>
    simp only [dispatchStep, valExecuteOnPeStep] at h
    split at h
    · cases h
    · rename_i hpc
      cases h
      exact .payload hpc
    · rename_i hpc
      cases h
      exact .arg hpc
    · rename_i hpc
      obtain ⟨mpid, hMpid, rfl⟩ := Option.map_eq_some_iff.mp h
      exact dispatched_cpuOn hpc hMpid
    · rename_i hpc
      cases h
      exact .failed hpc
  | advance k =>
    simp only [dispatchStep] at h
    split at h
    · rename_i hk
      obtain ⟨q, hq, rfl⟩ := Option.map_eq_some_iff.mp h
      exact .advanced hk hq
    · cases h
  | report k status =>
    simp only [dispatchStep] at h
    split at h
    · rename_i data hpc
      split at h <;> cases h
      rename_i hk
      exact .reported hk hpc
    · cases h

/-- A PE is started by `CPU_ON`, stores a status, or takes its own step; otherwise it stays
as it is. -/
theorem dispatchStep_pe {s t : DispatchState} {l : DispatchLabel}
    (h : dispatchStep p s l = some t) (i : Nat) :
    t.pe i = s.pe i ∨
      ((s.pe i).pc = .off ∧ t.pe i = { s.pe i with pc := .entry }) ∨
      (∃ data n, (s.pe i).pc = .running data ∧ t.pe i = { s.pe i with reported := n }) ∨
      (l = .advance i ∧ valTestEntryStep p s i = some (t.pe i)) := by
  cases dispatched_of_step h with
  | tooLarge | called | payload | arg | again | refused | failed => exact Or.inl rfl
  | @started c timeout k mpid hpc hMpid hTarget hOff =>
    by_cases hik : i = k
    · subst i
      exact Or.inr (Or.inl ⟨hOff, Function.update_self _ _ _⟩)
    · exact Or.inl (Function.update_of_ne hik _ _)
  | @advanced k q hk hq =>
    by_cases hik : i = k
    · subst i
      refine Or.inr (Or.inr (Or.inr ⟨rfl, ?_⟩))
      simpa only [Function.update_self] using hq
    · exact Or.inl (Function.update_of_ne hik _ _)
  | @reported k status data hk hpc =>
    by_cases hik : i = k
    · subst i
      exact Or.inr (Or.inr (Or.inl ⟨data, _, hpc, Function.update_self _ _ _⟩))
    · exact Or.inl (Function.update_of_ne hik _ _)

theorem dispatchStep_returned {s t : DispatchState} {l : DispatchLabel}
    (h : dispatchStep p s l = some t) : s.returned <+: t.returned := by
  cases dispatched_of_step h with
  | tooLarge | started | failed => exact List.prefix_append _ _
  | called | payload | arg | again | refused | advanced | reported => exact List.prefix_refl _

theorem succeeded_mono {s t : DispatchState} (h : s.returned <+: t.returned) (i : Nat) :
    succeeded s i <+: succeeded t i := by
  obtain ⟨rs, hrs⟩ := h
  rw [succeeded, succeeded, ← hrs, successes, successes, List.filterMap_append]
  exact List.prefix_append _ _

/-! ## The invariant -/

/-- A PE that is not between its start and its payload. -/
def Pe.Started (q : Pe) : Prop :=
  match q.pc with
  | .entry | .gotData0 _ | .gotData1 _ => False
  | _ => True

/-- The PE has executed the calls `done`, but for the last one if it has yet to start it;
then the last one is in its slot or already read from it. -/
def Pe.Follows (q : Pe) (mem : SharedMem) (done : List TestData) : Prop :=
  match q.pc with
  | .entry => done = q.executed ++ [⟨mem.data0, mem.data1⟩]
  | .gotData0 payload => done = q.executed ++ [⟨payload, mem.data1⟩]
  | .gotData1 data => done = q.executed ++ [data]
  | _ => done = q.executed

/-- How much of the call the primary has put into the slot, of a PE that does not read it. -/
def Serving (p : Platform) (s : DispatchState) : Prop :=
  match s.primary with
  | .idle | .fail _ _ => True
  | .setData0 c _ => c.index < p.numPe → (s.pe c.index).Started
  | .setData1 c _ => c.index < p.numPe →
      (s.pe c.index).Started ∧ (s.mem c.index).data0 = c.data.payload
  | .cpuOn c _ => c.index < p.numPe →
      (s.pe c.index).Started ∧ (s.mem c.index).data0 = c.data.payload ∧
        (s.mem c.index).data1 = c.data.arg

structure DispatchInv (p : Platform) (s : DispatchState) : Prop where
  calls : s.calls = s.returned.map Prod.fst ++ s.primary.current
  follows : ∀ i < p.numPe, (s.pe i).Follows (s.mem i) (succeeded s i)
  serving : Serving p s
  index_le : ∀ c ∈ s.primary.current, c.index ≤ p.numPe

theorem AllOff.inv {s : DispatchState} (h : AllOff p s) : DispatchInv p s := by
  refine ⟨?_, fun i hi => ?_, ?_, ?_⟩
  · rw [h.calls, h.returned, h.primary]
    rfl
  · obtain ⟨hpc, hExecuted⟩ := h.pe i hi
    have hDone : succeeded s i = [] := by rw [succeeded, h.returned]; rfl
    rcases hpc with hpc | hpc <;> simp only [Pe.Follows, hpc, hDone, hExecuted]
  · simp only [Serving, h.primary]
  · simp [h.primary, DispatchPc.current]

/-- A started PE does not look at its slot. -/
theorem Pe.Started.follows_iff {q : Pe} (h : q.Started) (mem : SharedMem)
    (done : List TestData) : q.Follows mem done ↔ done = q.executed := by
  unfold Pe.Started at h
  unfold Pe.Follows
  split at h
  · exact h.elim
  · exact h.elim
  · exact h.elim
  · exact Iff.rfl

/-- The status word does not matter. -/
theorem Pe.Follows.congr {q : Pe} {mem mem' : SharedMem} {done : List TestData}
    (h : q.Follows mem done) (h0 : mem'.data0 = mem.data0) (h1 : mem'.data1 = mem.data1) :
    q.Follows mem' done := by
  unfold Pe.Follows at h ⊢
  rwa [h0, h1]

theorem Pe.Follows.ordered {q : Pe} {mem : SharedMem} {done : List TestData}
    (h : q.Follows mem done) :
    q.executed <+: done ∧ done.length ≤ q.executed.length + 1 := by
  unfold Pe.Follows at h
  split at h <;> rw [h]
  case h_4 => exact ⟨List.prefix_refl _, Nat.le_succ _⟩
  all_goals exact ⟨List.prefix_append _ _, by simp⟩

/-- A PE that has executed as much as was asked of it is started. -/
theorem Pe.Follows.started {q : Pe} {mem : SharedMem} {done : List TestData}
    (h : q.Follows mem done) (hLength : q.executed.length = done.length) : q.Started := by
  unfold Pe.Follows at h
  unfold Pe.Started
  split at h
  case h_4 => trivial
  all_goals
    rw [h, List.length_append, List.length_singleton] at hLength
    omega

/-! ## The step lemma -/

/-- The slot of a PE that is not its own does not matter to it, nor does any slot matter to
a started PE. -/
theorem Pe.Follows.store {s : DispatchState} {i k : Nat} {mem : SharedMem}
    {done : List TestData} (h : (s.pe i).Follows (s.mem i) done)
    (hStarted : i = k → (s.pe i).Started) :
    (s.pe i).Follows (Function.update s.mem k mem i) done := by
  by_cases hik : i = k
  · rw [(hStarted hik).follows_iff] at h ⊢
    exact h
  · rwa [Function.update_of_ne hik]

/-- A call that returns counts for the PE it names, if it stored no failure status. -/
theorem successes_append (returned : List (DispatchCall × Option (BitVec 32)))
    (c : DispatchCall) (failure : Option (BitVec 32)) (i : Nat) :
    successes (returned ++ [(c, failure)]) i =
      successes returned i ++ if failure = none ∧ c.index = i then [c.data] else [] := by
  rw [successes, List.filterMap_append]
  congr 1
  split
  · rename_i hCounts
    simp [hCounts]
  · rename_i hNot
    simp [hNot]

theorem successes_of_ne (returned : List (DispatchCall × Option (BitVec 32)))
    {c : DispatchCall} (failure : Option (BitVec 32)) {i : Nat} (hne : c.index ≠ i) :
    successes (returned ++ [(c, failure)]) i = successes returned i := by
  rw [successes_append, if_neg fun hBoth => hne hBoth.2, List.append_nil]

theorem successes_of_failure (returned : List (DispatchCall × Option (BitVec 32)))
    (c : DispatchCall) (failure : BitVec 32) (i : Nat) :
    successes (returned ++ [(c, some failure)]) i = successes returned i := by
  rw [successes_append, if_neg fun hBoth => Option.some_ne_none failure hBoth.1, List.append_nil]

theorem successes_of_success (returned : List (DispatchCall × Option (BitVec 32)))
    (c : DispatchCall) :
    successes (returned ++ [(c, none)]) c.index = successes returned c.index ++ [c.data] := by
  rw [successes_append, if_pos ⟨rfl, rfl⟩]

theorem dispatchInv_invoke {s t : DispatchState} {c : DispatchCall} (hInv : DispatchInv p s)
    (hDisciplined : Disciplined p s (.invoke c)) (h : dispatchStep p s (.invoke c) = some t) :
    DispatchInv p t := by
  have hCalls := hInv.calls
  cases dispatched_of_step h with
  | tooLarge hIdle hPast =>
    rw [hIdle, DispatchPc.current, List.append_nil] at hCalls
    refine ⟨?_, fun i hi => ?_, ?_, by simp [hIdle, DispatchPc.current]⟩
    · simp [hCalls, hIdle, DispatchPc.current]
    · have hne : c.index ≠ i := Nat.ne_of_gt (Nat.lt_trans hi hPast)
      simp only [succeeded, successes_of_ne _ _ hne]
      exact hInv.follows i hi
    · simp only [Serving, hIdle]
  | called hIdle hIndex =>
    rw [hIdle, DispatchPc.current, List.append_nil] at hCalls
    refine ⟨?_, hInv.follows, fun hi => ?_, ?_⟩
    · simp only [hCalls, DispatchPc.current]
    · exact (hInv.follows _ hi).started (hDisciplined hi).1
    · simpa only [DispatchPc.current, List.mem_singleton, forall_eq] using hIndex

/-- `CPU_ON` on the PE of the call that is being served. -/
theorem dispatchInv_cpuOn {s : DispatchState} {c : DispatchCall} {timeout : Nat}
    (hInv : DispatchInv p s) (hpc : s.primary = .cpuOn c timeout) (hc : c.index < p.numPe)
    (hOff : (s.pe c.index).pc = .off) :
    DispatchInv p
      { s with
        primary := .idle
        pe := Function.update s.pe c.index { s.pe c.index with pc := .entry }
        returned := s.returned ++ [(c, none)] } := by
  obtain ⟨hCalls, hFollows, hServing, -⟩ := hInv
  simp only [Serving, hpc] at hServing
  refine ⟨by simp [hCalls, hpc, DispatchPc.current], fun i hi => ?_, trivial,
    by simp [DispatchPc.current]⟩
  by_cases hic : i = c.index
  · subst i
    obtain ⟨-, h0, h1⟩ := hServing hc
    have hDone := hFollows c.index hc
    simp only [Pe.Follows, hOff, succeeded] at hDone
    simp only [Function.update_self, Pe.Follows, succeeded, successes_of_success, hDone, h0, h1]
  · have hne : c.index ≠ i := fun hEq => hic hEq.symm
    simp only [Function.update_of_ne hic, succeeded, successes_of_ne _ _ hne]
    exact hFollows i hi

/-- Whoever `CPU_ON` finds is the PE that the call names. -/
theorem target_eq {c : DispatchCall} {mpid : BitVec 64} (hIndex : c.index ≤ p.numPe)
    (hMpid : valPeGetMpidIndex p.table c.index = some mpid) :
    c.index < p.numPe ∧ p.peWith mpid = some c.index := by
  have hlt : c.index < p.numPe := by
    refine Nat.lt_of_le_of_ne hIndex fun hEq => ?_
    rw [valPeGetMpidIndex, if_neg (by rw [p.count]; exact Nat.not_lt.mpr hIndex), hEq,
      Platform.numPe, List.getElem?_eq_none (Nat.le_refl _)] at hMpid
    cases hMpid
  have hTarget := Platform.peWith_eq hlt
  rw [hMpid, Option.map_some, Option.some_inj] at hTarget
  exact ⟨hlt, hTarget⟩

theorem dispatchInv_primary {s t : DispatchState} (hInv : DispatchInv p s)
    (h : dispatchStep p s .primary = some t) : DispatchInv p t := by
  have hSame := hInv
  obtain ⟨hCalls, hFollows, hServing, hIndex⟩ := hInv
  unfold Serving at hServing
  cases dispatched_of_step h with
  | payload hpc =>
    simp only [hpc, DispatchPc.current] at hServing hIndex
    refine ⟨by rw [hCalls, hpc]; rfl, fun i hi => ?_, fun hi => ⟨hServing hi, ?_⟩, hIndex⟩
    · exact (hFollows i hi).store fun hEq => hEq ▸ hServing (hEq ▸ hi)
    · simp only [Function.update_self]
  | arg hpc =>
    simp only [hpc, DispatchPc.current] at hServing hIndex
    refine ⟨by rw [hCalls, hpc]; rfl, fun i hi => ?_, fun hi => ⟨(hServing hi).1, ?_⟩, hIndex⟩
    · exact (hFollows i hi).store fun hEq => hEq ▸ (hServing (hEq ▸ hi)).1
    · simp only [Function.update_self, and_true]
      exact (hServing hi).2
  | started hpc hMpid hTarget hOff =>
    simp only [hpc, DispatchPc.current, List.mem_singleton, forall_eq] at hIndex
    obtain ⟨hlt, hOwn⟩ := target_eq hIndex hMpid
    obtain rfl := Option.some_inj.mp (hTarget.symm.trans hOwn)
    exact dispatchInv_cpuOn hSame hpc hlt hOff
  | again hpc hTimeout =>
    simp only [hpc, DispatchPc.current] at hServing hIndex
    exact ⟨by rw [hCalls, hpc]; rfl, hFollows, fun hi => (hServing hi).1, hIndex⟩
  | refused hpc hArg =>
    simp only [hpc, DispatchPc.current] at hIndex
    exact ⟨by rw [hCalls, hpc]; rfl, hFollows, trivial, hIndex⟩
  | @failed c arg0 hpc =>
    refine ⟨by simp [hCalls, hpc, DispatchPc.current], fun i hi => ?_, trivial,
      by simp [DispatchPc.current]⟩
    simp only [succeeded, successes_of_failure]
    by_cases hic : i = c.index
    · subst i
      simp only [Function.update_self]
      exact (hFollows _ hi).congr rfl rfl
    · simp only [Function.update_of_ne hic]
      exact hFollows i hi

/-- A started PE stays started by its own steps. -/
theorem valTestEntryStep_started {s : DispatchState} {i : Nat} {q : Pe}
    (hStarted : (s.pe i).Started) (h : valTestEntryStep p s i = some q) : q.Started := by
  unfold Pe.Started at hStarted
  unfold valTestEntryStep at h
  split at h
  · cases h
  · cases h
  · simp_all
  · simp_all
  · simp_all
  · cases h
    trivial
  · cases h
    trivial

theorem valTestEntryStep_follows {s : DispatchState} {i : Nat} {q : Pe} (hi : i < p.numPe)
    (hFollows : (s.pe i).Follows (s.mem i) (succeeded s i)) (h : valTestEntryStep p s i = some q) :
    q.Follows (s.mem i) (succeeded s i) := by
  unfold valTestEntryStep at h
  unfold Pe.Follows at hFollows
  rw [Platform.ownIndex_eq hi] at h
  split at h
  · cases h
  · cases h
  · rename_i hpc
    simp only [hpc] at hFollows
    cases h
    exact hFollows
  · rename_i payload hpc
    simp only [hpc] at hFollows
    cases h
    exact hFollows
  · rename_i data hpc
    simp only [hpc] at hFollows
    cases h
    exact hFollows
  · rename_i data hpc
    simp only [hpc] at hFollows
    cases h
    exact hFollows
  · rename_i hpc
    simp only [hpc] at hFollows
    cases h
    exact hFollows

/-- A step of a PE that leaves it started, with its slot as it was, does not disturb the
primary. -/
theorem Serving.update {s : DispatchState} {i : Nat} {q : Pe} {mem : Nat → SharedMem}
    (h : Serving p s) (hStarted : i < p.numPe → (s.pe i).Started → q.Started)
    (hMem : ∀ k, (mem k).data0 = (s.mem k).data0 ∧ (mem k).data1 = (s.mem k).data1) :
    Serving p { s with mem := mem, pe := Function.update s.pe i q } := by
  have hPe : ∀ k, k < p.numPe → (s.pe k).Started → (Function.update s.pe i q k).Started := by
    intro k hk hk'
    by_cases hki : k = i
    · subst k
      rw [Function.update_self]
      exact hStarted hk hk'
    · rwa [Function.update_of_ne hki]
  unfold Serving at h ⊢
  cases hpc : s.primary with
  | idle | fail c arg0 => trivial
  | setData0 c timeout =>
    simp only [hpc] at h ⊢
    exact fun hc => hPe _ hc (h hc)
  | setData1 c timeout =>
    simp only [hpc] at h ⊢
    exact fun hc => ⟨hPe _ hc (h hc).1, (hMem _).1.trans (h hc).2⟩
  | cpuOn c timeout =>
    simp only [hpc] at h ⊢
    exact fun hc => ⟨hPe _ hc (h hc).1, (hMem _).1.trans (h hc).2.1, (hMem _).2.trans (h hc).2.2⟩

theorem dispatchInv_advance {s t : DispatchState} {i : Nat} (hInv : DispatchInv p s)
    (h : dispatchStep p s (.advance i) = some t) : DispatchInv p t := by
  cases dispatched_of_step h with
  | advanced hi hq =>
    refine ⟨hInv.calls, fun k hk => ?_, ?_, hInv.index_le⟩
    · by_cases hki : k = i
      · subst k
        simp only [Function.update_self]
        exact valTestEntryStep_follows hi (hInv.follows i hi) hq
      · simp only [Function.update_of_ne hki]
        exact hInv.follows k hk
    · exact hInv.serving.update (fun _ hStarted => valTestEntryStep_started hStarted hq)
        fun _ => ⟨rfl, rfl⟩

theorem dispatchInv_report {s t : DispatchState} {i : Nat} {status : BitVec 32}
    (hInv : DispatchInv p s) (h : dispatchStep p s (.report i status) = some t) :
    DispatchInv p t := by
  cases dispatched_of_step h with
  | reported hi hpc =>
    have hMem : ∀ k, (Function.update s.mem (p.ownIndex i)
          { s.mem (p.ownIndex i) with status := status } k).data0 = (s.mem k).data0 ∧
        (Function.update s.mem (p.ownIndex i)
          { s.mem (p.ownIndex i) with status := status } k).data1 = (s.mem k).data1 := by
      intro k
      by_cases hk : k = p.ownIndex i
      · rw [hk, Function.update_self]
        exact ⟨rfl, rfl⟩
      · rw [Function.update_of_ne hk]
        exact ⟨rfl, rfl⟩
    refine ⟨hInv.calls, fun k hk => ?_, hInv.serving.update (fun _ => id) hMem, hInv.index_le⟩
    by_cases hki : k = i
    · subst k
      simp only [Function.update_self]
      exact (hInv.follows i hi).congr (hMem i).1 (hMem i).2
    · simp only [Function.update_of_ne hki]
      exact (hInv.follows k hk).congr (hMem k).1 (hMem k).2

theorem dispatchInv_step {s t : DispatchState} {l : DispatchLabel} (hInv : DispatchInv p s)
    (hDisciplined : Disciplined p s l) (h : dispatchStep p s l = some t) : DispatchInv p t := by
  cases l with
  | invoke c => exact dispatchInv_invoke hInv hDisciplined h
  | primary => exact dispatchInv_primary hInv h
  | advance i => exact dispatchInv_advance hInv h
  | report i status => exact dispatchInv_report hInv h

/-! ## Every accepted payload is started -/

/-- How many own steps the PE needs to start its payload. -/
def Pe.rank (q : Pe) : Nat :=
  match q.pc with
  | .entry => 3
  | .gotData0 _ => 2
  | .gotData1 _ => 1
  | _ => 0

/-- The same, and nothing once the calls `target` are executed. -/
def Pe.remaining (target : List TestData) (q : Pe) : Nat :=
  if target <+: q.executed then 0 else q.rank

theorem Pe.remaining_le (target : List TestData) (q : Pe) : q.remaining target ≤ q.rank := by
  unfold Pe.remaining
  split
  · exact Nat.zero_le _
  · exact Nat.le_refl _

theorem Pe.rank_le (q : Pe) : q.rank ≤ 3 := by
  unfold Pe.rank
  split <;> omega

theorem Pe.started_of_rank {q : Pe} (h : q.rank = 0) : q.Started := by
  unfold Pe.rank at h
  unfold Pe.Started
  split at h
  · cases h
  · cases h
  · cases h
  · trivial

theorem valTestEntryStep_executed {s : DispatchState} {i : Nat} {q : Pe}
    (h : valTestEntryStep p s i = some q) : (s.pe i).executed <+: q.executed := by
  unfold valTestEntryStep at h
  split at h <;> cases h
  case h_5 => exact List.prefix_append _ _
  all_goals exact List.prefix_refl _

theorem valTestEntryStep_rank {s : DispatchState} {i : Nat} {q : Pe}
    (h : valTestEntryStep p s i = some q) : q.rank = (s.pe i).rank - 1 := by
  unfold valTestEntryStep at h
  split at h <;> cases h <;> simp_all [Pe.rank]

theorem Pe.remaining_of_executed {target : List TestData} {q : Pe} (h : target <+: q.executed) :
    q.remaining target = 0 := if_pos h

/-- PE `i` has executed the calls `target`, or owes the last of them. -/
structure Pursued (p : Platform) (i : Nat) (target : List TestData) (s : DispatchState) :
    Prop where
  inv : DispatchInv p s
  target : target <+: succeeded s i

theorem pursued_step {s t : DispatchState} {l : DispatchLabel} {i : Nat}
    {target : List TestData} (h : Pursued p i target s) (hDisciplined : Disciplined p s l)
    (hStep : dispatchStep p s l = some t) : Pursued p i target t :=
  ⟨dispatchInv_step h.inv hDisciplined hStep,
    h.target.trans (succeeded_mono (dispatchStep_returned hStep) i)⟩

/-- A started PE has executed everything. -/
theorem Pursued.executed {s : DispatchState} {i : Nat} {target : List TestData}
    (h : Pursued p i target s) (hi : i < p.numPe) (hStarted : (s.pe i).Started) :
    target <+: (s.pe i).executed := by
  rw [← (hStarted.follows_iff _ _).mp (h.inv.follows i hi)]
  exact h.target

theorem Pursued.remaining_step {s t : DispatchState} {l : DispatchLabel} {i : Nat}
    {target : List TestData} (h : Pursued p i target s) (hi : i < p.numPe)
    (hStep : dispatchStep p s l = some t) :
    (t.pe i).remaining target ≤ (s.pe i).remaining target ∧
      (l = .advance i → (t.pe i).remaining target ≤ (s.pe i).remaining target - 1) := by
  by_cases hOwn : l = .advance i
  · subst hOwn
    cases dispatched_of_step hStep with
    | @advanced _ q _ hq =>
      simp only [Function.update_self]
      have hLess : q.remaining target ≤ (s.pe i).remaining target - 1 := by
        by_cases hDone : target <+: (s.pe i).executed
        · rw [Pe.remaining_of_executed (hDone.trans (valTestEntryStep_executed hq))]
          exact Nat.zero_le _
        · have := q.remaining_le target
          have := valTestEntryStep_rank hq
          have : (s.pe i).remaining target = (s.pe i).rank := if_neg hDone
          omega
      exact ⟨by omega, fun _ => hLess⟩
  · refine ⟨?_, fun hl => absurd hl hOwn⟩
    rcases dispatchStep_pe hStep i with hSame | ⟨hOff, hPe⟩ | ⟨data, n, hpc, hPe⟩ | ⟨hl, -⟩
    · rw [hSame]
    · have hStarted : (s.pe i).Started := by simp only [Pe.Started, hOff]
      have hDone : target <+: (t.pe i).executed := by
        rw [hPe]
        exact h.executed hi hStarted
      rw [Pe.remaining_of_executed hDone]
      exact Nat.zero_le _
    · rw [hPe]
      exact Nat.le_refl _
    · exact absurd hl hOwn

/-- In every interleaving, what was accepted for a PE is started after three own steps of
this PE. -/
theorem started_within {s t : DispatchState} {ls : List DispatchLabel} {i : Nat}
    (hInv : DispatchInv p s) (hi : i < p.numPe) (hRun : run (dispatchStep p) s ls = some t)
    (hDisciplined : Along (dispatchStep p) (Disciplined p) s ls)
    (hCount : 3 ≤ ls.countP (fun l => l = .advance i)) :
    succeeded s i <+: (t.pe i).executed := by
  have hStart : Pursued p i (succeeded s i) s := ⟨hInv, List.prefix_refl _⟩
  generalize succeeded s i = target at hStart
  have hEnd : Pursued p i target t :=
    run_invariant_along (I := Pursued p i target) (fun _ _ _ hu hC h => pursued_step hu hC h)
      hStart hDisciplined hRun
  have hZero : (t.pe i).remaining target = 0 := by
    refine run_measure_along (I := Pursued p i target)
      (fun u => (u.pe i).remaining target) (fun l => l = .advance i)
      (fun _ _ _ hu hC h => pursued_step hu hC h) ?_ ?_ hStart hDisciplined hRun
      (((s.pe i).remaining_le target).trans ((s.pe i).rank_le.trans hCount))
    · exact fun u l v hu h hl => (hu.remaining_step hi h).2 (by simpa using hl)
    · exact fun u l v hu h => (hu.remaining_step hi h).1
  by_cases hDone : target <+: (t.pe i).executed
  · exact hDone
  · rw [Pe.remaining, if_neg hDone] at hZero
    exact hEnd.executed hi (Pe.started_of_rank hZero)

theorem DispatchInv.dispatchedOnce {s : DispatchState} (h : DispatchInv p s) :
    DispatchedOnce p s := ⟨h.calls, fun i hi => (h.follows i hi).ordered⟩

/-- **Dispatch.** When a PE gets a new payload only after the last one has reported, in
every interleaving: each PE executes exactly what its successful calls asked for, in their
order, a call that stored a failure status leads to nothing, and what a successful call
asked for starts after at most three more steps of its PE. -/
theorem dispatched_exactly_once (p : Platform) (s t : DispatchState) (ls : List DispatchLabel)
    (hOff : AllOff p s) (hRun : run (dispatchStep p) s ls = some t)
    (hDisciplined : Along (dispatchStep p) (Disciplined p) s ls) :
    DispatchedOnce p t ∧
      ∀ i < p.numPe, ∀ ms u, run (dispatchStep p) t ms = some u →
        Along (dispatchStep p) (Disciplined p) t ms →
        3 ≤ ms.countP (fun l => l = .advance i) → succeeded t i <+: (u.pe i).executed := by
  have hInv : DispatchInv p t :=
    run_invariant_along (I := DispatchInv p) (fun _ _ _ hI hC h => dispatchInv_step hI hC h)
      hOff.inv hDisciplined hRun
  exact ⟨hInv.dispatchedOnce, fun i hi ms u hNext hLater hCount =>
    started_within hInv hi hNext hLater hCount⟩

theorem twoGiccMadt_mpidrs : (Acpi.twoGiccMadt 0 1).mpidrs = [0, 1] := by decide

/-- PE 0 runs the suite, PE 1 is off. -/
def twoPes : Platform :=
  platformOfMadt (Acpi.twoGiccMadt 0 1) (fun i => if i = 0 then 0x80000000 else 0x80000001)
    (by
      rw [twoGiccMadt_mpidrs]
      intro i m hm
      match i with
      | 0 => exact (Option.some_inj.mp hm).symm.trans (by decide)
      | 1 => exact (Option.some_inj.mp hm).symm.trans (by decide))
    (by
      rw [twoGiccMadt_mpidrs]
      intro m hm
      rcases List.mem_cons.mp hm with rfl | hm
      · decide
      · rw [List.mem_singleton.mp hm]
        decide)
    (by
      rw [twoGiccMadt_mpidrs]
      decide)

def dispatchStart : DispatchState where
  primary := .idle
  mem := fun _ => ⟨0, 0, 0⟩
  pe := fun i => ⟨if i = 0 then .primary else .off, [], 0⟩
  calls := []
  returned := []

/-- The second payload is posted while PE 1 is still on its way to `CPU_OFF`. -/
def twoPayloads : List DispatchLabel :=
  [.invoke ⟨1, 0x1000, 7⟩, .primary, .primary, .primary, .advance 1, .advance 1, .advance 1,
    .report 1 (resultPass 1 0), .invoke ⟨1, 0x2000, 8⟩, .primary, .primary, .primary,
    .advance 1, .advance 1, .primary, .primary, .primary, .advance 1, .advance 1, .advance 1]

/-- Both payloads are executed, once each. -/
theorem dispatched_two_payloads :
    ∃ t, run (dispatchStep twoPes) dispatchStart twoPayloads = some t ∧
      (t.pe 1).executed = [⟨0x1000, 7⟩, ⟨0x2000, 8⟩] ∧ DispatchedOnce twoPes t := by
  have hOff : AllOff twoPes dispatchStart :=
    ⟨rfl, rfl, rfl, fun i _ => ⟨by by_cases hi : i = 0 <;> simp [dispatchStart, hi], rfl⟩⟩
  have hEnd : (run (dispatchStep twoPes) dispatchStart twoPayloads).map
      (fun t => (t.pe 1).executed) = some [⟨0x1000, 7⟩, ⟨0x2000, 8⟩] := by decide
  obtain ⟨t, ht, hExecuted⟩ := Option.map_eq_some_iff.mp hEnd
  exact ⟨t, ht, hExecuted, (dispatched_exactly_once twoPes _ _ _ hOff ht (by decide)).1⟩

end EnterpriseAcs.Mpam
