import Mathlib.Data.List.Sigma
import EnterpriseAcs.Library.Traced
import EnterpriseAcs.Mpam.InterruptRestore

/-!
# Which nodes the overflow test exercises

The test i008 goes over the memory nodes with one index and reads `node_index` in the body, which
nothing assigns. Its payload is traced here: each overflow that is injected, with the node, its
interrupt number and its count of monitors, and what was left of the timeout.

* `tracedPayloadI008_run`: without its trace it is the payload.
* `visitAllI008_uses`: what the loop injects, when the interrupts arrive.
* `overflow_covered_iff`: when these are the nodes that have monitors and an overflow interrupt.
-/

namespace EnterpriseAcs.Mpam

/-! ## The traced payload -/

/-- An injected overflow. The node is given by its index among the memory nodes. -/
structure Overflow where
  node : Nat
  intrNum : BitVec 32
  monCount : BitVec 16
  left : Nat
  deriving DecidableEq, Repr

/-- The node, its interrupt number and its count of monitors. -/
def Overflow.use (e : Overflow) : Nat × BitVec 32 × BitVec 16 := (e.node, e.intrNum, e.monCount)

abbrev OverflowTrace := Traced Cpu Overflow

/-- The static variable `node_index`, which is never assigned. -/
def nodeIndex : Nat := 0

def memoryNodes (nodes : List IntrNode) : List IntrNode := nodes.filter fun n => n.type = .memory

section Program

variable (env : IntrEnv)

/-- Inject the overflow and wait for its interrupt. -/
def tracedRaise (n : IntrNode) (monCount : BitVec 16) (t : OverflowTrace) : Nat × OverflowTrace :=
  let raise := fun c => raiseIntr testi008 env n.base
    (valNodeGenerateMsmonOflowError n.base monCount) (saved testi008 env n.base c)
  let timeout := (raise t.run).1
  (timeout, t.step (fun c => (raise c).2) [⟨nodeIndex, n.overflowIntrNum, monCount, timeout⟩])

def tracedVisitI008 (n : IntrNode) (monCount : BitVec 16) (t : OverflowTrace) :
    Visit × OverflowTrace :=
  if n.overflowIntrNum = 0 ∨ monCount = 0 then (.passedOver, t)
  else if installFails env n.overflowIntrNum then
    (.stopped, t.step (fun c =>
      restoreMpam2 testi008 env { c with status := resultFail testi008.num 2 }) [])
  else
    let (timeout, t) := tracedRaise env n monCount t
    if timeout = 0 then
      (.stopped, t.step (fun c =>
        restoreMpam2 testi008 env { c with status := resultFail testi008.num 2 }) [])
    else (.visited, t)

def tracedVisitAllI008 (n : IntrNode) : Nat → BitVec 16 → Bool → OverflowTrace → OverflowTrace
  | 0, _, intrCount, t =>
    t.step (fun c => finish testi008 intrCount (restoreMpam2 testi008 env c)) []
  | count + 1, monCount, intrCount, t =>
    let t := t.step (enter testi008 env n) []
    let monCount := assignMonCount (t.run.pe.mmio n.base) monCount
    match tracedVisitI008 env n monCount t with
    | (.passedOver, t) => tracedVisitAllI008 n count monCount intrCount t
    | (.visited, t) => tracedVisitAllI008 n count monCount true t
    | (.stopped, t) => t

/-- The machine at the start of the loop. -/
def startI008 (pe : PeState) : Cpu :=
  Cpu.access testi008 env { Cpu.start pe with mpam2El2Temp := pe.mpam2El2 }
    fun pe => pe.writeMpam2 (defaultMpam2 pe.mpam2El2)

def tracedPayloadI008 (nodes : List IntrNode) (monCount : BitVec 16) (pe : PeState) :
    OverflowTrace :=
  let t : OverflowTrace := Traced.start (startI008 env pe)
  match memoryNodes nodes with
  | [] => t.step (fun c => finish testi008 false (restoreMpam2 testi008 env c)) []
  | n :: rest => tracedVisitAllI008 env n (rest.length + 1) monCount false t

/-! ## The payload without its trace -/

theorem tracedVisitI008_run (n : IntrNode) (monCount : BitVec 16) (t : OverflowTrace) :
    (tracedVisitI008 env n monCount t).1 = (visitI008 env n monCount t.run).1 ∧
      (tracedVisitI008 env n monCount t).2.run = (visitI008 env n monCount t.run).2 := by
  rw [tracedVisitI008, visitI008]
  dsimp only
  split
  · exact ⟨rfl, rfl⟩
  · split
    · exact ⟨rfl, rfl⟩
    · rw [tracedRaise]
      dsimp only
      split
      · exact ⟨rfl, rfl⟩
      · exact ⟨rfl, rfl⟩

theorem tracedVisitAllI008_run (n : IntrNode) (count : Nat) (monCount : BitVec 16)
    (intrCount : Bool) (t : OverflowTrace) :
    (tracedVisitAllI008 env n count monCount intrCount t).run =
      visitAllI008 env n count monCount intrCount t.run := by
  induction count generalizing monCount intrCount t with
  | zero => rfl
  | succ count ih =>
    rw [tracedVisitAllI008, visitAllI008, Traced.run_step]
    generalize assignMonCount ((enter testi008 env n t.run).pe.mmio n.base) monCount = monCount'
    obtain ⟨hHow, hRun⟩ :=
      tracedVisitI008_run env n monCount' (t.step (enter testi008 env n) [])
    rw [Traced.run_step] at hHow hRun
    generalize visitI008 env n monCount' (enter testi008 env n t.run) = out at hHow hRun ⊢
    generalize tracedVisitI008 env n monCount' (t.step (enter testi008 env n) []) = traced
      at hHow hRun ⊢
    obtain ⟨how, t'⟩ := traced
    obtain ⟨how', c⟩ := out
    obtain rfl : how = how' := hHow
    obtain rfl : t'.run = c := hRun
    cases how with
    | passedOver => exact ih monCount' intrCount t'
    | visited => exact ih monCount' true t'
    | stopped => rfl

theorem tracedPayloadI008_run (nodes : List IntrNode) (monCount : BitVec 16) (pe : PeState) :
    (tracedPayloadI008 env nodes monCount pe).run = payloadI008 env nodes monCount pe := by
  rw [tracedPayloadI008, payloadI008, memoryNodes]
  dsimp only
  generalize nodes.filter (fun n => n.type = .memory) = memories
  cases memories with
  | nil => rfl
  | cons n rest => exact tracedVisitAllI008_run env n _ monCount false _

end Program

/-! ## ID registers -/

/-- The registers below the error registers are as before; nothing writes them. -/
def SameIds (pe pe' : PeState) : Prop :=
  ∀ base, ∀ o < regMpamfEcr, (pe'.mmio base).plain o = (pe.mmio base).plain o

section Ids

variable {pe pe' : PeState}

theorem SameIds.refl (pe : PeState) : SameIds pe pe := fun _ _ _ => rfl

theorem SameIds.trans {a b c : PeState} (h : SameIds a b) (h' : SameIds b c) : SameIds a c :=
  fun base o ho => (h' base o ho).trans (h base o ho)

theorem write_sameIds (pe : PeState) (base : BitVec 64) {offset : Nat} (value : BitVec 32)
    (hOffset : regMpamfEcr ≤ offset) : SameIds pe (pe.write base offset value) := by
  intro base' o ho
  rw [plain_write_at, if_neg]
  rintro ⟨-, rfl, -⟩
  exact Nat.not_lt.mpr hOffset ho

theorem sameIds_stable (test : IntrTest) : Stable test fun c c' => SameIds c.pe c'.pe where
  trans _ _ _ h h' := h.trans h'
  handler c := by
    have hClear : SameIds c.pe (valNodeClearIntr c.nodeBase c.pe) :=
      write_sameIds c.pe c.nodeBase 0 (by decide)
    rw [intrHandler]
    dsimp only
    split
    · exact hClear
    · exact hClear
  bookkeeping c c' hPe _ := by
    rw [hPe]
    exact SameIds.refl _

/-- The accesses that inject an overflow. -/
theorem oflow_sameIds (base : BitVec 64) (monCount : BitVec 16) :
    ∀ access ∈ (valNodeGenerateMsmonOflowError base monCount).accesses,
      ∀ pe, SameIds pe (access pe) := by
  simp only [valNodeGenerateMsmonOflowError, List.forall_mem_cons]
  exact ⟨fun pe => write_sameIds pe base _ (by decide),
    fun pe => write_sameIds pe base _ (by decide), fun pe => write_sameIds pe base _ (by decide),
    fun pe => write_sameIds pe base _ (by decide), fun pe => write_sameIds pe base _ (by decide),
    List.forall_mem_nil _⟩

theorem SameIds.read (h : SameIds pe pe') (base : BitVec 64) {o : Nat} (ho : o < regMpamfEcr)
    (hSelector : selector o = .none) : (pe'.mmio base).read o = (pe.mmio base).read o := by
  simp only [NodeRegs.read, hSelector]
  exact h base o ho

/-- So the count of monitors stays the same. -/
theorem SameIds.assignMonCount (h : SameIds pe pe') (base : BitVec 64) (monCount : BitVec 16) :
    assignMonCount (pe'.mmio base) monCount = assignMonCount (pe.mmio base) monCount := by
  have hMon : valNodeSupportsMon (pe'.mmio base) = valNodeSupportsMon (pe.mmio base) := by
    rw [valNodeSupportsMon, valNodeSupportsMon, h.read base (by decide) (by decide)]
  have hMbwumon : valMemorySupportsMbwumon (pe'.mmio base) =
      valMemorySupportsMbwumon (pe.mmio base) := by
    rw [valMemorySupportsMbwumon, valMemorySupportsMbwumon, hMon,
      h.read base (o := regMpamfMsmonIdr) (by decide) (by decide)]
  have hCount : valMemoryMonCount (pe'.mmio base) = valMemoryMonCount (pe.mmio base) := by
    rw [valMemoryMonCount, valMemoryMonCount, hMbwumon, h.read base (by decide) (by decide)]
  rw [Mpam.assignMonCount, Mpam.assignMonCount, hMon, hMbwumon, hCount]

theorem assignMonCount_idem (r : NodeRegs) (monCount : BitVec 16) :
    assignMonCount r (assignMonCount r monCount) = assignMonCount r monCount := by
  rw [assignMonCount]
  split
  · rename_i hMon
    rw [assignMonCount, if_pos hMon]
  · rfl

/-- Where a node has monitors, they are counted. -/
theorem assignMonCount_of_memory {r : NodeRegs} (h : valMemoryMonCount r ≠ 0)
    (monCount : BitVec 16) : assignMonCount r monCount = valMemoryMonCount r := by
  have hMbwumon : valMemorySupportsMbwumon r = true := by
    by_contra hNone
    rw [valMemoryMonCount, if_neg hNone] at h
    exact h rfl
  have hMon : valNodeSupportsMon r = true := (Bool.and_eq_true_iff.mp hMbwumon).1
  rw [assignMonCount, if_pos hMon, if_pos hMbwumon]

end Ids

/-! ## What the loop injects -/

/-- The body injects an overflow: it has an interrupt that can be installed, and monitors. -/
def Overflows (env : IntrEnv) (n : IntrNode) (monCount : BitVec 16) : Prop :=
  n.overflowIntrNum ≠ 0 ∧ monCount ≠ 0 ∧ installFails env n.overflowIntrNum = false

instance (env : IntrEnv) (n : IntrNode) (monCount : BitVec 16) :
    Decidable (Overflows env n monCount) :=
  inferInstanceAs (Decidable (_ ∧ _ ∧ _))

/-- The uses of a loop that injects the same overflow each time, if any. -/
def loopUses (env : IntrEnv) (n : IntrNode) (monCount : BitVec 16) (count : Nat) :
    List (Nat × BitVec 32 × BitVec 16) :=
  if Overflows env n monCount then
    List.replicate count (nodeIndex, n.overflowIntrNum, monCount)
  else []

section Loop

variable (env : IntrEnv) {pe : PeState}

theorem tracedRaise_spec (n : IntrNode) (monCount : BitVec 16) (t : OverflowTrace)
    (hIds : SameIds pe t.run.pe) :
    SameIds pe (tracedRaise env n monCount t).2.run.pe ∧
      (tracedRaise env n monCount t).2.trace = t.trace ++
        [⟨nodeIndex, n.overflowIntrNum, monCount, (tracedRaise env n monCount t).1⟩] := by
  have hStable := sameIds_stable testi008
  have hSaved := hStable.saved env n.base (fun _ => SameIds.refl _) t.run
  have hRaised := hStable.raiseIntr env n.base (valNodeGenerateMsmonOflowError n.base monCount)
    (fun access hMem c => oflow_sameIds n.base monCount access hMem c.pe)
    (fun c => write_sameIds c.pe n.base _ (by decide)) (saved testi008 env n.base t.run)
  exact ⟨(hIds.trans hSaved).trans hRaised, rfl⟩

/-- How the visit goes on: what it adds, unless the interrupt is late. -/
theorem tracedVisitI008_spec (n : IntrNode) (monCount : BitVec 16) (t : OverflowTrace)
    (hIds : SameIds pe t.run.pe) :
    SameIds pe (tracedVisitI008 env n monCount t).2.run.pe ∧
      ∃ more, (tracedVisitI008 env n monCount t).2.trace = t.trace ++ more ∧
        ((∀ e ∈ more, e.left ≠ 0) →
          more.map Overflow.use = loopUses env n monCount 1 ∧
          ((tracedVisitI008 env n monCount t).1 = .stopped → ¬ Overflows env n monCount)) := by
  have hStable := sameIds_stable testi008
  rw [tracedVisitI008]
  dsimp only
  split
  · rename_i hNone
    have hNot : ¬ Overflows env n monCount := fun h => hNone.elim h.1 h.2.1
    refine ⟨hIds, [], (List.append_nil _).symm, fun _ => ⟨?_, fun _ => hNot⟩⟩
    rw [loopUses, if_neg hNot]
    rfl
  · rename_i hSome
    split
    · rename_i hFails
      have hNot : ¬ Overflows env n monCount := fun h =>
        Bool.false_ne_true (h.2.2.symm.trans hFails)
      refine ⟨hIds.trans (hStable.access env _ (fun _ => SameIds.refl _) _), [], rfl,
        fun _ => ⟨?_, fun _ => hNot⟩⟩
      rw [loopUses, if_neg hNot]
      rfl
    · rename_i hInstalled
      have hOverflows : Overflows env n monCount :=
        ⟨fun h => hSome (Or.inl h), fun h => hSome (Or.inr h),
          Bool.eq_false_of_not_eq_true hInstalled⟩
      obtain ⟨hRaised, hTrace⟩ := tracedRaise_spec env n monCount t hIds
      split
      · rename_i hLate
        refine ⟨hRaised.trans (hStable.access env _ (fun _ => SameIds.refl _) _), _, ?_,
          fun hArrives => absurd hLate (hArrives ⟨nodeIndex, n.overflowIntrNum, monCount,
            (tracedRaise env n monCount t).1⟩ (List.mem_singleton_self _))⟩
        rw [Traced.trace_step, List.append_nil]
        exact hTrace
      · refine ⟨hRaised, _, hTrace, fun _ => ⟨?_, nofun⟩⟩
        rw [loopUses, if_pos hOverflows]
        rfl

theorem loopUses_zero (n : IntrNode) (monCount : BitVec 16) : loopUses env n monCount 0 = [] := by
  rw [loopUses]
  split
  · rfl
  · rfl

theorem loopUses_succ (n : IntrNode) (monCount : BitVec 16) (count : Nat) :
    loopUses env n monCount (count + 1) =
      loopUses env n monCount 1 ++ loopUses env n monCount count := by
  rw [loopUses, loopUses, loopUses]
  split
  · exact List.replicate_succ
  · rfl

/-- What the loop injects, when the interrupts arrive; `monCount` is what the body sees. -/
theorem visitAllI008_uses {n : IntrNode} {monCount monCount' : BitVec 16}
    (hCount : assignMonCount (pe.mmio n.base) monCount' = monCount) (count : Nat)
    (intrCount : Bool) (t : OverflowTrace) (hIds : SameIds pe t.run.pe) :
    ∃ more, (tracedVisitAllI008 env n count monCount' intrCount t).trace = t.trace ++ more ∧
      ((∀ e ∈ more, e.left ≠ 0) → more.map Overflow.use = loopUses env n monCount count) := by
  induction count generalizing monCount' intrCount t with
  | zero =>
    refine ⟨[], rfl, fun _ => ?_⟩
    rw [loopUses_zero]
    rfl
  | succ count ih =>
    have hEnter : SameIds pe (t.step (enter testi008 env n) []).run.pe :=
      hIds.trans ((sameIds_stable testi008).enter env n t.run)
    have hTrace : (t.step (enter testi008 env n) []).trace = t.trace := List.append_nil _
    rw [tracedVisitAllI008, hEnter.assignMonCount, hCount]
    obtain ⟨hVisit, more, hMore, hUses⟩ :=
      tracedVisitI008_spec env n monCount (t.step (enter testi008 env n) []) hEnter
    rw [hTrace] at hMore
    generalize tracedVisitI008 env n monCount (t.step (enter testi008 env n) []) = out
      at hVisit hMore hUses ⊢
    obtain ⟨how, t'⟩ := out
    have hAgain : assignMonCount (pe.mmio n.base) monCount = monCount := by
      rw [← hCount, assignMonCount_idem]
    -- A visit that does not end the test is followed by the rest of the loop.
    have hRest : ∀ counted, ∃ more,
        (tracedVisitAllI008 env n count monCount counted t').trace = t.trace ++ more ∧
        ((∀ e ∈ more, e.left ≠ 0) →
          more.map Overflow.use = loopUses env n monCount (count + 1)) := by
      intro counted
      obtain ⟨more', hMore', hUses'⟩ := ih hAgain counted t' hVisit
      refine ⟨more ++ more', ?_, fun hArrives => ?_⟩
      · rw [hMore', hMore, List.append_assoc]
      · obtain ⟨hHead, hTail⟩ := List.forall_mem_append.mp hArrives
        rw [List.map_append, (hUses hHead).1, hUses' hTail, ← loopUses_succ]
    cases how with
    | passedOver => exact hRest intrCount
    | visited => exact hRest true
    | stopped =>
      refine ⟨more, hMore, fun hArrives => ?_⟩
      obtain ⟨hHead, hStopped⟩ := hUses hArrives
      rw [hHead, loopUses, loopUses, if_neg (hStopped rfl), if_neg (hStopped rfl)]

end Loop

/-! ## Coverage -/

/-- The node has an overflow interrupt and a monitor of bandwidth usage. -/
def HasOverflow (pe : PeState) (n : IntrNode) : Prop :=
  n.overflowIntrNum ≠ 0 ∧ valMemoryMonCount (pe.mmio n.base) ≠ 0

instance (pe : PeState) (n : IntrNode) : Decidable (HasOverflow pe n) :=
  inferInstanceAs (Decidable (_ ∧ _))

/-- Each memory node that has both, with its own interrupt number and count of monitors. -/
def ownUses (nodes : List IntrNode) (pe : PeState) : List (Nat × BitVec 32 × BitVec 16) :=
  ((memoryNodes nodes).zipIdx.filter fun n => HasOverflow pe n.1).map fun n =>
    (n.2, n.1.overflowIntrNum, valMemoryMonCount (pe.mmio n.1.base))

section Coverage

variable (env : IntrEnv) (nodes : List IntrNode) (monCount : BitVec 16) (pe : PeState)

/-- The test exercises each of these nodes exactly once, and no other. -/
def OverflowCovered : Prop :=
  ((tracedPayloadI008 env nodes monCount pe).trace.map Overflow.use).Perm (ownUses nodes pe)

/-- Every interrupt that the test waits for arrives. -/
def OverflowsArrive : Prop :=
  ∀ e ∈ (tracedPayloadI008 env nodes monCount pe).trace, e.left ≠ 0

theorem startI008_sameIds : SameIds pe (startI008 env pe).pe :=
  (sameIds_stable testi008).access env _ (fun _ => SameIds.refl _)
    { Cpu.start pe with mpam2El2Temp := pe.mpam2El2 }

variable {env nodes monCount pe} in
/-- The loop is about the first memory node, once for each of them. -/
theorem payloadI008_uses (hArrive : OverflowsArrive env nodes monCount pe) {n : IntrNode}
    {rest : List IntrNode} (hNodes : memoryNodes nodes = n :: rest) :
    (tracedPayloadI008 env nodes monCount pe).trace.map Overflow.use =
      loopUses env n (assignMonCount (pe.mmio n.base) monCount) (rest.length + 1) := by
  rw [OverflowsArrive, tracedPayloadI008, hNodes] at hArrive
  rw [tracedPayloadI008, hNodes]
  obtain ⟨more, hMore, hUses⟩ := visitAllI008_uses env (n := n) rfl (rest.length + 1) false
    (Traced.start (startI008 env pe)) (startI008_sameIds env pe)
  dsimp only at hArrive ⊢
  rw [hMore] at hArrive ⊢
  exact hUses hArrive

theorem ownUses_nodup : (ownUses nodes pe).Nodup := by
  have hIndices : ((memoryNodes nodes).zipIdx.map Prod.snd).Nodup := List.nodup_zipIdx_map_snd _
  apply List.Nodup.of_map Prod.fst
  rw [ownUses, List.map_map]
  exact (List.filter_sublist.map Prod.snd).nodup hIndices

theorem ownUses_eq_nil_iff :
    ownUses nodes pe = [] ↔ ∀ n ∈ memoryNodes nodes, ¬ HasOverflow pe n := by
  rw [ownUses, List.map_eq_nil_iff, List.filter_eq_nil_iff]
  apply Iff.intro
  · intro hNone n hMem
    obtain ⟨i, hNode⟩ := List.mem_iff_getElem?.mp hMem
    simpa using hNone (n, i) (List.mk_mem_zipIdx_iff_getElem?.mpr hNode)
  · intro hNone n hMem
    simpa using hNone n.1 (List.fst_mem_of_mem_zipIdx hMem)

/-- The only memory node has both, and an interrupt number that can be installed. -/
def OnlyNodeOverflows : Prop :=
  ∃ n, memoryNodes nodes = [n] ∧ HasOverflow pe n ∧ installFails env n.overflowIntrNum = false

/-- No memory node has both, and the body finds none of it on the first one. -/
def NoNodeOverflows : Prop :=
  (∀ n ∈ memoryNodes nodes, ¬ HasOverflow pe n) ∧
    ∀ n ∈ (memoryNodes nodes).head?, ¬ Overflows env n (assignMonCount (pe.mmio n.base) monCount)

variable {env nodes monCount pe}

/-- A node that is exercised each time is exercised once only when there is no other. -/
theorem covered_of_overflows (hArrive : OverflowsArrive env nodes monCount pe) {n : IntrNode}
    {rest : List IntrNode} (hNodes : memoryNodes nodes = n :: rest)
    (hOverflows : Overflows env n (assignMonCount (pe.mmio n.base) monCount)) :
    OverflowCovered env nodes monCount pe ↔ rest = [] ∧ HasOverflow pe n := by
  rw [OverflowCovered, payloadI008_uses hArrive hNodes, loopUses, if_pos hOverflows]
  apply Iff.intro
  · intro hPerm
    have hOnce := List.nodup_replicate.mp (hPerm.nodup_iff.mpr (ownUses_nodup nodes pe))
    obtain rfl : rest = [] := List.length_eq_zero_iff.mp (by omega)
    refine ⟨rfl, ?_⟩
    by_contra hNone
    have hNil : ownUses nodes pe = [] := by
      rw [ownUses_eq_nil_iff, hNodes]
      exact List.forall_mem_singleton.mpr hNone
    rw [hNil] at hPerm
    exact List.cons_ne_nil _ _ hPerm.eq_nil
  · rintro ⟨rfl, hHas⟩
    have hOwn : ownUses nodes pe =
        [(nodeIndex, n.overflowIntrNum, assignMonCount (pe.mmio n.base) monCount)] := by
      rw [ownUses, hNodes, assignMonCount_of_memory hHas.2]
      simp [hHas, nodeIndex]
    rw [hOwn]
    exact List.Perm.refl _

theorem covered_of_not_overflows (hArrive : OverflowsArrive env nodes monCount pe) {n : IntrNode}
    {rest : List IntrNode} (hNodes : memoryNodes nodes = n :: rest)
    (hNot : ¬ Overflows env n (assignMonCount (pe.mmio n.base) monCount)) :
    OverflowCovered env nodes monCount pe ↔ ∀ n ∈ memoryNodes nodes, ¬ HasOverflow pe n := by
  rw [OverflowCovered, payloadI008_uses hArrive hNodes, loopUses, if_neg hNot,
    ← ownUses_eq_nil_iff]
  exact ⟨fun hPerm => hPerm.symm.eq_nil, fun hNil => hNil ▸ List.Perm.refl _⟩

end Coverage

/-- The test covers the nodes exactly when there is nothing to cover, as the body finds on the first
memory node, or when the first memory node is the only one. -/
theorem overflow_covered_iff (env : IntrEnv) (nodes : List IntrNode) (monCount : BitVec 16)
    (pe : PeState) (hArrive : OverflowsArrive env nodes monCount pe) :
    OverflowCovered env nodes monCount pe ↔
      OnlyNodeOverflows env nodes pe ∨ NoNodeOverflows env nodes monCount pe := by
  cases hNodes : memoryNodes nodes with
  | nil =>
    have hNone : ∀ n ∈ memoryNodes nodes, ¬ HasOverflow pe n := by
      rw [hNodes]
      exact List.forall_mem_nil _
    refine iff_of_true ?_ (Or.inr ⟨hNone, ?_⟩)
    · rw [OverflowCovered, (ownUses_eq_nil_iff nodes pe).mpr hNone, tracedPayloadI008, hNodes]
      exact List.Perm.refl _
    · rw [hNodes]
      exact nofun
  | cons n rest =>
    by_cases hOverflows : Overflows env n (assignMonCount (pe.mmio n.base) monCount)
    · rw [covered_of_overflows hArrive hNodes hOverflows]
      apply Iff.intro
      · rintro ⟨rfl, hHas⟩
        exact Or.inl ⟨n, hNodes, hHas, hOverflows.2.2⟩
      · rintro (⟨n', hOnly, hHas, -⟩ | ⟨-, hFirst⟩)
        · obtain ⟨rfl, rfl⟩ := List.cons.inj (hNodes.symm.trans hOnly)
          exact ⟨rfl, hHas⟩
        · rw [hNodes] at hFirst
          exact absurd hOverflows (hFirst n rfl)
    · rw [covered_of_not_overflows hArrive hNodes hOverflows]
      apply Iff.intro
      · intro hNone
        refine Or.inr ⟨hNone, ?_⟩
        rw [hNodes]
        rintro _ ⟨rfl⟩
        exact hOverflows
      · rintro (⟨n', hOnly, hHas, hInstalled⟩ | ⟨hNone, -⟩)
        · obtain ⟨rfl, -⟩ := List.cons.inj (hNodes.symm.trans hOnly)
          rw [assignMonCount_of_memory hHas.2] at hOverflows
          exact absurd ⟨hHas.1, hHas.2, hInstalled⟩ hOverflows
        · exact hNone

/-- A memory node with an overflow interrupt. -/
def memoryNode (base : BitVec 64) (intrNum : BitVec 32) : IntrNode := ⟨.memory, base, 0, intrNum⟩

/-- A PE whose memory nodes have four monitors. -/
def fourMonitorsPe : PeState :=
  { quietPe with
    mmio := fun _ =>
      { plain := fun offset =>
          if offset = regMpamfIdr then 0x40000000
          else if offset = regMpamfMsmonIdr then 0x20000
          else if offset = regMpamfMbwumonIdr then 4
          else 0
        byPartid := fun _ _ => 0
        byMonitor := fun _ _ => 0 } }

/-- Interrupts are taken at once. -/
def promptEnv : IntrEnv := ⟨fun _ => true, 1020⟩

theorem overflowsArrive_of_all {env : IntrEnv} {nodes : List IntrNode} {monCount : BitVec 16}
    {pe : PeState}
    (h : ((tracedPayloadI008 env nodes monCount pe).trace.all fun e => e.left ≠ 0) = true) :
    OverflowsArrive env nodes monCount pe := by
  intro e hMem
  exact of_decide_eq_true (List.all_eq_true.mp h e hMem)

theorem overflow_covered_single :
    OverflowCovered promptEnv [memoryNode 0x10000 40] 0 fourMonitorsPe := by
  have hArrive : OverflowsArrive promptEnv [memoryNode 0x10000 40] 0 fourMonitorsPe :=
    overflowsArrive_of_all (by decide)
  rw [overflow_covered_iff promptEnv [memoryNode 0x10000 40] 0 fourMonitorsPe hArrive]
  exact Or.inl ⟨memoryNode 0x10000 40, rfl, by decide, by decide⟩

/-- The first node is exercised twice, with the interrupt 40, and the second one never. -/
theorem second_node_missed :
    let nodes := [memoryNode 0x10000 40, memoryNode 0x20000 41]
    OverflowsArrive promptEnv nodes 0 fourMonitorsPe ∧
      ¬ OverflowCovered promptEnv nodes 0 fourMonitorsPe := by
  have hArrive : OverflowsArrive promptEnv [memoryNode 0x10000 40, memoryNode 0x20000 41] 0
      fourMonitorsPe := overflowsArrive_of_all (by decide)
  refine ⟨hArrive, fun hCovered => ?_⟩
  have hOnly := (covered_of_overflows hArrive rfl (by decide)).mp hCovered
  exact List.cons_ne_nil _ _ hOnly.1

end EnterpriseAcs.Mpam
