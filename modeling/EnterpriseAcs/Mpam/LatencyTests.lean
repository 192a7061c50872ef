import EnterpriseAcs.Mpam.BufferRollback
import EnterpriseAcs.Mpam.CacheNodes
import EnterpriseAcs.Mpam.CsuRestore

/-!
# The latency tests of the memory nodes

The tests d002 and d003 measure the latency of a copy on each node that has a minimum or maximum
bandwidth, once with 25% and once with 75%, while the other PEs copy as well. The latencies go to
rows of a shared table, one for each node; the copy buffers are allocated for each node anew. What
the firmware answers, the latencies and the time-outs are parameters.

* `measureNode_spec`: what the measurement of one node leaves.
* `measureNodes_spec`: how the loop over the nodes ends.
-/

namespace EnterpriseAcs.Mpam

open Ledger (Event acquired released Clean)

/-! ## The tests -/

inductive LatencyTest
  | d002
  | d003
  deriving DecidableEq, Repr

def NodeRegs.configureMbwmin (r : NodeRegs) (partid : BitVec 16) (percentage : BitVec 32) :
    NodeRegs :=
  (r.write regMpamcfgPartSel (partid.setWidth 32)).write regMpamcfgMbwMin
    (fractionWord (valMemoryMbwminWidth r.msc) percentage)

def NodeRegs.configureMbwmax (r : NodeRegs) (partid : BitVec 16) (hardlim : BitVec 8)
    (percentage : BitVec 32) : NodeRegs :=
  (r.write regMpamcfgPartSel (partid.setWidth 32)).write regMpamcfgMbwMax
    (hardlim.setWidth 32 <<< 31 ||| fractionWord (valMemoryMbwmaxWidth r.msc) percentage)

namespace LatencyTest

def num : LatencyTest → BitVec 32
  | .d002 => acsMemoryTestNumBase + 2
  | .d003 => acsMemoryTestNumBase + 3

/-- The control under test. -/
def supports : LatencyTest → NodeRegs → Bool
  | .d002 => fun r => valMemorySupportsMbwmin r.msc
  | .d003 => fun r => valMemorySupportsMbwmax r.msc

/-- Disable the portions, and the other one of the two limits. -/
def disableOthers (partid : BitVec 16) : LatencyTest → NodeRegs → NodeRegs
  | .d002 => fun r =>
    let r := valMemoryConfigureMbwpbm partid 100 r
    if valMemorySupportsMbwmax r.msc then r.configureMbwmax partid 0 100 else r
  | .d003 => fun r =>
    let r := valMemoryConfigureMbwpbm partid 100 r
    if valMemorySupportsMbwmin r.msc then r.configureMbwmin partid 0 else r

/-- Configure the control under test. -/
def limit (partid : BitVec 16) (percentage : BitVec 32) : LatencyTest → NodeRegs → NodeRegs
  | .d002 => fun r => r.configureMbwmin partid percentage
  | .d003 => fun r => r.configureMbwmax partid 1 percentage

end LatencyTest

/-- The answers of the firmware for the copy buffers of each node and for the latency buffers, the
latency of each scenario on each node, whether `wait_for_secondary_off` reports a time-out, and
what memory holds from the start of a row on. -/
structure LatencyEnv where
  firmware : Nat → Firmware
  tableFails : Bool
  rowFails : Nat → Bool
  latency : Nat → BitVec 32 → BitVec 64
  timesOut : Nat → BitVec 32 → Bool
  memory : Nat → BitVec 32 → BitVec 64

/-- The registers, the status of the primary, `scenario_cnt`, the slots of `gSharedMemCpyBuf`, the
latency cells that are written, those that the comparison has read, by node and index, and what
was taken and given back. -/
structure LatencyRun where
  pe : PeState
  status : BitVec 32
  scenarioCnt : BitVec 32
  slots : Nat → Slot
  cell : Nat → BitVec 32 → Option (BitVec 64)
  reads : List (Nat × BitVec 32)
  log : List (Event Block)

def LatencyRun.start (pe : PeState) : LatencyRun where
  pe := pe
  status := 0
  scenarioCnt := 0
  slots := unsetSlots
  cell _ _ := none
  reads := []
  log := []

def LatencyRun.onNode (c : LatencyRun) (base : BitVec 64) (f : NodeRegs → NodeRegs) :
    LatencyRun :=
  { c with pe := c.pe.onNode base f }

/-- How the measurement of a node ends. It is stuck when it writes through a null pointer. -/
inductive NodeEnd
  | goesOn
  | copyFails
  | stuck
  | timedOut
  deriving DecidableEq, Repr

/-- `MEMCPY_BUF_SIZE`. -/
def memcpyBufSize : BitVec 64 := 256 * 1024 * 1024

/-- `MBWMIN_SCENARIO_MAX` and `MBWMAX_SCENARIO_MAX`, the cells of a row. -/
def latencyScenarioMax : BitVec 32 := 2

/-- The request for the copy buffers of a node. -/
def copyRequest (n : MemoryNodeEntry) : CopyRequest :=
  ⟨n.baseAddress, n.length, memcpyBufSize, by decide⟩

/-! ## The latency buffers -/

section Program

variable (test : LatencyTest) (env : LatencyEnv)

/-- The rows that are not null. -/
def latencyRows (nodeCnt : Nat) : List Block :=
  ((List.range nodeCnt).filter fun node => !env.rowFails node).map fun node =>
    .pool (.latencyRow node)

/-- `pal_mem_allocate_shared_latencybuf`, when the table can be allocated. -/
def palMemAllocateSharedLatencybuf (nodeCnt : Nat) : List (Event Block) :=
  (.pool .latencyTable :: latencyRows env nodeCnt).map Event.acquire

/-- `pal_mem_free_shared_latencybuf`: to free null frees nothing. -/
def palMemFreeSharedLatencybuf (nodeCnt : Nat) : List (Event Block) :=
  (latencyRows env nodeCnt ++ [Block.pool .latencyTable]).map Event.release

/-- The value at an index of the row of a node. -/
def LatencyRun.readCell (c : LatencyRun) (node : Nat) (index : BitVec 32) : BitVec 64 :=
  (c.cell node index).getD (env.memory node index)

/-! ## The payload of the primary -/

/-- A scenario: limit the bandwidth, start the other PEs, copy, and wait for them. -/
def runScenario (partid : BitVec 16) (percentage : BitVec 32) (n : MemoryNodeEntry) (node : Nat)
    (c : LatencyRun) : NodeEnd × LatencyRun :=
  let c := c.onNode n.hwregBaseAddr (test.limit partid percentage)
  if env.rowFails node then (.stuck, c)
  else
    let c := { c with
      cell := Function.update c.cell node
        (Function.update (c.cell node) c.scenarioCnt (some (env.latency node c.scenarioCnt))) }
    if env.timesOut node c.scenarioCnt then (.timedOut, c) else (.goesOn, c)

/-- The two scenarios, and the copy buffers given back after them. -/
def runScenarios (numPe : BitVec 32) (partid : BitVec 16) (n : MemoryNodeEntry) (node : Nat)
    (c : LatencyRun) : NodeEnd × LatencyRun :=
  match runScenario test env partid 25 n node { c with scenarioCnt := 0 } with
  | (.goesOn, c) =>
    match runScenario test env partid 75 n node { c with scenarioCnt := c.scenarioCnt + 1 } with
    | (.goesOn, c) =>
      (.goesOn, { c with
        scenarioCnt := c.scenarioCnt + 1
        log := c.log ++ palMemFreeSharedMemcpybuf c.slots numPe.toNat memcpyBufSize })
    | out => out
  | out => out

/-- The node before the scenarios: the other controls are disabled, and the copy buffers
allocated. -/
def enterNode (numPe : BitVec 32) (partid : BitVec 16) (n : MemoryNodeEntry) (node : Nat)
    (c : LatencyRun) : LatencyRun :=
  let c := c.onNode n.hwregBaseAddr (test.disableOthers partid)
  let bufs := sharedMemcpybuf (env.firmware node) (copyRequest n) numPe
  { c with slots := bufs.slots, log := c.log ++ bufs.log }

/-- The body of the loop over the nodes. -/
def measureNode (numPe : BitVec 32) (partid : BitVec 16) (indexed : MemoryNodeEntry × Nat)
    (c : LatencyRun) : NodeEnd × LatencyRun :=
  let (n, node) := indexed
  if test.supports (c.pe.mmio n.hwregBaseAddr) then
    let c := enterNode test env numPe partid n node c
    if (sharedMemcpybuf (env.firmware node) (copyRequest n) numPe).status then
      runScenarios test env numPe partid n node c
    else (.copyFails, c)
  else (.goesOn, c)

/-- The loop over the nodes. -/
def measureNodes (numPe : BitVec 32) (partid : BitVec 16) :
    List (MemoryNodeEntry × Nat) → LatencyRun → NodeEnd × LatencyRun
  | [], c => (.goesOn, c)
  | indexed :: nodes, c =>
    match measureNode test env numPe partid indexed c with
    | (.goesOn, c) => measureNodes numPe partid nodes c
    | out => out

/-- The comparison of the latencies, one visit of the inner body after the other; it ends with
whether the test fails. It reads the cells at `scenario_cnt`, not at `scenario_index`. -/
def compareLatencies : List (MemoryNodeEntry × Nat) → LatencyRun → Bool × LatencyRun
  | [], c => (false, c)
  | (n, node) :: visits, c =>
    if test.supports (c.pe.mmio n.hwregBaseAddr) then
      let first := c.readCell env node c.scenarioCnt
      let second := c.readCell env node (c.scenarioCnt + 1)
      let c := { c with
        reads := c.reads ++ [(node, c.scenarioCnt), (node, c.scenarioCnt + 1)] }
      if first < second then (true, c) else compareLatencies visits c
    else compareLatencies visits c

/-- The visits of the two nested loops. -/
def comparisons (memories : List MemoryNodeEntry) (scenarioCnt : BitVec 32) :
    List (MemoryNodeEntry × Nat) :=
  memories.zipIdx.flatMap fun indexed => List.replicate (scenarioCnt - 1).toNat indexed

variable (caches : List (BitVec 64)) (memories : List MemoryNodeEntry) (numPe : BitVec 32)

/-- What follows the loop over the nodes; `mpam2El2` is the value that was saved. -/
def finishLatency (mpam2El2 : BitVec 64) : NodeEnd × LatencyRun → Option LatencyRun
  | (.stuck, _) => none
  | (.copyFails, c) =>
    some { c with status := resultFail test.num 1, pe := c.pe.writeMpam2 mpam2El2 }
  | (.timedOut, c) =>
    some { c with
      status := resultFail test.num 1
      pe := c.pe.writeMpam2 mpam2El2
      log := c.log ++ palMemFreeSharedMemcpybuf c.slots numPe.toNat memcpyBufSize ++
        palMemFreeSharedLatencybuf env memories.length }
  | (.goesOn, c) =>
    let c := { c with pe := c.pe.writeMpam2 mpam2El2 }
    match compareLatencies test env (comparisons memories c.scenarioCnt) c with
    | (true, c) => some { c with status := resultFail test.num 1 }
    | (false, c) =>
      some { c with
        status := resultPass test.num 1
        log := c.log ++ palMemFreeSharedLatencybuf env memories.length }

/-- `payload_primary`, none if it never returns: it writes through the null pointer when the table
of the latency buffers, or the row of a node that it measures, cannot be allocated. -/
def payloadPrimary (pe : PeState) : Option LatencyRun :=
  let bases := memories.map MemoryNodeEntry.hwregBaseAddr
  let partid := minmaxPartid caches bases pe
  let c := LatencyRun.start pe
  if bases.all fun base => !test.supports (pe.mmio base) then
    some { c with status := resultSkip test.num 0 }
  else if env.tableFails then none
  else
    let c := { c with log := palMemAllocateSharedLatencybuf env memories.length }
    let c := { c with pe := configThisPe caches bases c.pe }
    finishLatency test env memories numPe pe.mpam2El2
      (measureNodes test env numPe partid memories.zipIdx c)

end Program

/-! ## The buffers of the payload -/

/-- The events about blocks that were granted. -/
def ownEvents (log : List (Event Block)) : List (Event Block) :=
  log.filter fun
    | .acquire (.stray _ _) => false
    | .release (.stray _ _) => false
    | _ => true

/-- A stretch of the log that gives back what it takes, and does not touch the latency table. -/
structure FreesOwn (log : List (Event Block)) : Prop where
  clean : Clean (ownEvents log)
  keepsTable : Event.release (Block.pool .latencyTable) ∉ log

section Buffers

variable {fw : Firmware} {q : CopyRequest}

theorem ownEvents_append (log log' : List (Event Block)) :
    ownEvents (log ++ log') = ownEvents log ++ ownEvents log' :=
  List.filter_append ..

theorem freesOwn_nil : FreesOwn [] := ⟨Ledger.clean_nil, List.not_mem_nil⟩

theorem FreesOwn.append {log log' : List (Event Block)} (h : FreesOwn log) (h' : FreesOwn log') :
    FreesOwn (log ++ log') := by
  refine ⟨?_, fun hMem => ?_⟩
  · rw [ownEvents_append]
    exact h.clean.append h'.clean
  · rcases List.mem_append.mp hMem with hMem | hMem
    · exact h.keepsTable hMem
    · exact h'.keepsTable hMem

theorem ownEvents_takenBefore (peCnt : Nat) :
    ownEvents (takenBefore fw q peCnt) =
      (Block.pool .copyTable :: grantedBelow fw q peCnt).map Event.acquire := by
  rw [takenBefore_eq, ownEvents, List.filter_eq_self]
  intro e hMem
  obtain ⟨block, hBlock, rfl⟩ := List.mem_map.mp hMem
  rcases List.mem_cons.mp hBlock with rfl | hBlock
  · rfl
  · obtain ⟨pe, hPe, rfl⟩ := List.mem_map.mp hBlock
    rw [blockOf, if_pos (List.mem_filter.mp hPe).2]

/-- Of the slots that are given back, those that were granted count. -/
theorem ownEvents_free (peCnt : Nat) :
    ownEvents (palMemFreeSharedMemcpybuf (slotOf fw q) peCnt q.bufSize) =
      (grantedBelow fw q peCnt ++ [Block.pool .copyTable]).map Event.release := by
  rw [palMemFreeSharedMemcpybuf, ownEvents_append, List.map_append, grantedBelow]
  congr 1
  induction List.range peCnt with
  | nil => rfl
  | cons pe pes ih =>
    rw [List.map_cons, List.filter_cons]
    cases hGranted : (slotOf fw q pe).granted with
    | true =>
      rw [if_pos rfl, List.map_cons, List.map_cons, ← ih]
      simp [ownEvents, blockOf, hGranted]
    | false =>
      rw [if_neg Bool.false_ne_true, ← ih]
      simp [ownEvents, blockOf, hGranted]

theorem table_notMem_takenBefore (peCnt : Nat) :
    Event.release (Block.pool .latencyTable) ∉ takenBefore fw q peCnt := by
  rw [takenBefore_eq]
  intro hMem
  obtain ⟨block, -, hEq⟩ := List.mem_map.mp hMem
  cases hEq

theorem table_notMem_free (slots : Nat → Slot) (peCnt : Nat) (bufSize : BitVec 64) :
    Event.release (Block.pool .latencyTable) ∉ palMemFreeSharedMemcpybuf slots peCnt bufSize := by
  intro hMem
  rcases List.mem_append.mp hMem with hMem | hMem
  · obtain ⟨pe, -, hEq⟩ := List.mem_map.mp hMem
    rw [blockOf] at hEq
    split at hEq
    · cases hEq
    · cases hEq
  · cases List.mem_singleton.mp hMem

/-- The copy buffers of a node, given back. -/
theorem freesOwn_copy (peCnt : Nat) :
    FreesOwn (takenBefore fw q peCnt ++
      palMemFreeSharedMemcpybuf (slotOf fw q) peCnt q.bufSize) := by
  refine ⟨?_, fun hMem => ?_⟩
  · rw [ownEvents_append, ownEvents_takenBefore, ownEvents_free, Ledger.clean_iff_perm]
    exact List.perm_append_singleton _ _
  · rcases List.mem_append.mp hMem with hMem | hMem
    · exact table_notMem_takenBefore peCnt hMem
    · exact table_notMem_free _ _ _ hMem

theorem table_notMem_copy (peCnt : BitVec 32) :
    Event.release (Block.pool .latencyTable) ∉ (sharedMemcpybuf fw q peCnt).log := by
  cases hPool : fw.poolFails with
  | true =>
    rw [sharedMemcpybuf, if_pos hPool]
    exact List.not_mem_nil
  | false =>
    rcases sharedMemcpybuf_spec (q := q) peCnt hPool with ⟨-, hFilled, -⟩ | ⟨-, k, -, hLog⟩
    · rw [hFilled.log]
      exact table_notMem_takenBefore _
    · rw [hLog]
      intro hMem
      rcases List.mem_append.mp hMem with hMem | hMem
      · exact table_notMem_takenBefore _ hMem
      · exact table_notMem_free _ _ _ hMem

end Buffers

/-! ## The registers -/

section Registers

theorem mbwpbm_keepsMonitors (partid : BitVec 16) (percentage : BitVec 32) :
    KeepsMonitors (valMemoryConfigureMbwpbm partid percentage) := by
  have hReg : regMpamcfgCpbm ≤ regMpamcfgMbwPbm := by decide
  have hPlain : ∀ r, (valMemoryConfigureMbwpbm partid percentage r).plain =
      Function.update r.plain regMpamcfgPartSel (partid.setWidth 32) := fun r =>
    (configurePortions_spec _ partid r hReg rfl).1
  refine ⟨fun r => (configurePortions_spec _ partid r hReg rfl).2.1, fun r o hPart => ?_⟩
  rw [hPlain, Function.update_of_ne hPart]

/-- Select a partid and write one of its registers. -/
theorem select_keepsMonitors (partid : BitVec 16) {offset : Nat}
    (hOffset : selector offset = .partid) (value : NodeRegs → BitVec 32) :
    KeepsMonitors fun r =>
      (r.write regMpamcfgPartSel (partid.setWidth 32)).write offset (value r) := by
  refine ⟨fun r => ?_, fun r o hPart => ?_⟩
  · rw [write_byPartid _ _ hOffset, write_plain _ _ (by decide)]
  · rw [write_byPartid _ _ hOffset, write_plain _ _ (by decide)]
    exact Function.update_of_ne hPart _ _

theorem mbwmin_keepsMonitors (partid : BitVec 16) (percentage : BitVec 32) :
    KeepsMonitors fun r => r.configureMbwmin partid percentage :=
  select_keepsMonitors partid (by decide) _

theorem mbwmax_keepsMonitors (partid : BitVec 16) (hardlim : BitVec 8) (percentage : BitVec 32) :
    KeepsMonitors fun r => r.configureMbwmax partid hardlim percentage :=
  select_keepsMonitors partid (by decide) _

theorem disableOthers_keepsMonitors (test : LatencyTest) (partid : BitVec 16) :
    KeepsMonitors (test.disableOthers partid) := by
  cases test with
  | d002 =>
    exact ((mbwmax_keepsMonitors partid 0 100).ite fun r => valMemorySupportsMbwmax r.msc).comp
      (mbwpbm_keepsMonitors partid 100)
  | d003 =>
    exact ((mbwmin_keepsMonitors partid 0).ite fun r => valMemorySupportsMbwmin r.msc).comp
      (mbwpbm_keepsMonitors partid 100)

theorem limit_keepsMonitors (test : LatencyTest) (partid : BitVec 16) (percentage : BitVec 32) :
    KeepsMonitors (test.limit partid percentage) := by
  cases test with
  | d002 => exact mbwmin_keepsMonitors partid percentage
  | d003 => exact mbwmax_keepsMonitors partid 1 percentage

theorem KeepsMonitors.samePlain {f : NodeRegs → NodeRegs} (h : KeepsMonitors f) (pe : PeState)
    (base : BitVec 64) : SamePlain pe (pe.onNode base f) :=
  (onNode_quiet pe base h.monitors h.plain).same.plain

/-- The loop that disables the partitioning of the caches. -/
theorem disableCaches_quiet (partid : BitVec 16) (caches : List (BitVec 64)) (pe : PeState) :
    Quiet pe (caches.foldl (fun s base => s.onNode base (disableCache partid)) pe) := by
  apply foldl_quiet id
  intro s base
  have hDisable := disableCache_keepsMonitors partid
  exact onNode_quiet s base hDisable.monitors hDisable.plain

theorem SamePlain.supports {s s' : PeState} (h : SamePlain s s') (test : LatencyTest)
    (base : BitVec 64) : test.supports (s'.mmio base) = test.supports (s.mmio base) := by
  have hIdr := h base regMpamfIdr (by decide) (by decide)
  have hMbwIdr := h base regMpamfMbwIdr (by decide) (by decide)
  cases test with
  | d002 =>
    simp only [LatencyTest.supports, valMemorySupportsMbwmin, valMemorySupportsPart,
      NodeRegs.msc, hIdr, hMbwIdr]
  | d003 =>
    simp only [LatencyTest.supports, valMemorySupportsMbwmax, valMemorySupportsPart,
      NodeRegs.msc, hIdr, hMbwIdr]

end Registers

/-! ## One node -/

/-- The copies so far have left no block behind, and no cell is written past a row of two. -/
structure MeasuredTo (s : PeState) (taken : List (Event Block)) (c : LatencyRun) : Prop where
  plain : SamePlain s c.pe
  beyond : ∀ node index, latencyScenarioMax ≤ index → c.cell node index = none
  log : ∃ done, FreesOwn done ∧ c.log = taken ++ done

/-- What the loop leaves, by how it ends: when a PE has timed out, the copy buffers are still
to be given back. -/
def LeftBy (numPe : BitVec 32) (s : PeState) (taken : List (Event Block)) :
    NodeEnd → LatencyRun → Prop
  | .goesOn, c => MeasuredTo s taken c
  | .timedOut, c => ∃ done, FreesOwn done ∧
      c.log ++ palMemFreeSharedMemcpybuf c.slots numPe.toNat memcpyBufSize = taken ++ done
  | .copyFails, c => ∃ done, Event.release (Block.pool .latencyTable) ∉ done ∧
      c.log = taken ++ done
  | .stuck, _ => True

section Ends

variable (test : LatencyTest) (env : LatencyEnv) (numPe : BitVec 32)

def scenarioEnd (node : Nat) (scenario : BitVec 32) : NodeEnd :=
  if env.rowFails node then .stuck
  else if env.timesOut node scenario then .timedOut else .goesOn

def scenariosEnd (node : Nat) : NodeEnd :=
  match scenarioEnd env node 0 with
  | .goesOn => scenarioEnd env node 1
  | ends => ends

/-- How the measurement of a node that has the control ends. -/
def nodeEnd (indexed : MemoryNodeEntry × Nat) : NodeEnd :=
  if (sharedMemcpybuf (env.firmware indexed.2) (copyRequest indexed.1) numPe).status then
    scenariosEnd env indexed.2
  else .copyFails

def visitEnd (s : PeState) (indexed : MemoryNodeEntry × Nat) : NodeEnd :=
  if test.supports (s.mmio indexed.1.hwregBaseAddr) then nodeEnd env numPe indexed else .goesOn

/-- How the loop ends: as the first node does at which it does not go on. -/
def loopEnd (s : PeState) : List (MemoryNodeEntry × Nat) → NodeEnd
  | [] => .goesOn
  | indexed :: nodes =>
    match visitEnd test env numPe s indexed with
    | .goesOn => loopEnd s nodes
    | ends => ends

end Ends

/-- A scenario changes the registers and one cell of the row. -/
structure ScenarioStep (s : PeState) (c c' : LatencyRun) : Prop where
  plain : SamePlain s c'.pe
  beyond : ∀ node index, latencyScenarioMax ≤ index → c'.cell node index = none
  scenarioCnt : c'.scenarioCnt = c.scenarioCnt
  slots : c'.slots = c.slots
  log : c'.log = c.log

/-- The log with what is freed at the end. -/
theorem ScenarioStep.log_freed {s : PeState} {c c' : LatencyRun} (h : ScenarioStep s c c')
    (peCnt : Nat) (bufSize : BitVec 64) :
    c'.log ++ palMemFreeSharedMemcpybuf c'.slots peCnt bufSize =
      c.log ++ palMemFreeSharedMemcpybuf c.slots peCnt bufSize := by
  rw [h.log, h.slots]

section Nodes

variable (test : LatencyTest) (env : LatencyEnv) (partid : BitVec 16) {numPe : BitVec 32}
  {s : PeState} {taken : List (Event Block)} {c : LatencyRun}

theorem runScenario_end (percentage : BitVec 32) (n : MemoryNodeEntry) (node : Nat) :
    (runScenario test env partid percentage n node c).1 = scenarioEnd env node c.scenarioCnt := by
  rw [runScenario, scenarioEnd]
  dsimp only [LatencyRun.onNode]
  split
  · rfl
  · split
    · rfl
    · rfl

theorem runScenario_step (percentage : BitVec 32) (n : MemoryNodeEntry) (node : Nat)
    (hPlain : SamePlain s c.pe)
    (hBeyond : ∀ node index, latencyScenarioMax ≤ index → c.cell node index = none)
    (hCnt : c.scenarioCnt < latencyScenarioMax) :
    ScenarioStep s c (runScenario test env partid percentage n node c).2 := by
  have hPlain' := hPlain.trans ((limit_keepsMonitors test partid percentage).samePlain c.pe
    n.hwregBaseAddr)
  have hCell : ∀ node' index, latencyScenarioMax ≤ index → Function.update c.cell node
      (Function.update (c.cell node) c.scenarioCnt (some (env.latency node c.scenarioCnt)))
      node' index = none := by
    intro node' index hIndex
    by_cases hNode : node' = node
    · have hNe : index ≠ c.scenarioCnt := by
        rintro rfl
        exact absurd hCnt (BitVec.not_lt.mpr hIndex)
      rw [hNode, Function.update_self, Function.update_of_ne hNe]
      exact hBeyond node index hIndex
    · rw [Function.update_of_ne hNode]
      exact hBeyond node' index hIndex
  rw [runScenario]
  dsimp only [LatencyRun.onNode]
  split
  · exact ⟨hPlain', hBeyond, rfl, rfl, rfl⟩
  · split
    · exact ⟨hPlain', hCell, rfl, rfl, rfl⟩
    · exact ⟨hPlain', hCell, rfl, rfl, rfl⟩

theorem scenarioEnd_ne_copyFails (node : Nat) (scenario : BitVec 32) :
    scenarioEnd env node scenario ≠ .copyFails := by
  rw [scenarioEnd]
  split
  · exact NodeEnd.noConfusion
  · split
    · exact NodeEnd.noConfusion
    · exact NodeEnd.noConfusion

/-- A successful allocation, and the copy buffers given back after it. -/
theorem copy_freed {n : MemoryNodeEntry} {node : Nat} {done : List (Event Block)}
    (hDone : FreesOwn done)
    (hStatus : (sharedMemcpybuf (env.firmware node) (copyRequest n) numPe).status = true) :
    FreesOwn (done ++ (sharedMemcpybuf (env.firmware node) (copyRequest n) numPe).log ++
      palMemFreeSharedMemcpybuf (sharedMemcpybuf (env.firmware node) (copyRequest n) numPe).slots
        numPe.toNat memcpyBufSize) := by
  have hPool : (env.firmware node).poolFails = false := by
    rw [← Bool.not_eq_true]
    intro hPool
    rw [sharedMemcpybuf, if_pos hPool] at hStatus
    exact Bool.false_ne_true hStatus
  rcases sharedMemcpybuf_spec (q := copyRequest n) numPe hPool with ⟨-, hFilled, -⟩ | ⟨hFailed, -⟩
  · have hFree := free_congr memcpyBufSize hFilled.slots
    rw [hFilled.log, hFree, List.append_assoc]
    exact hDone.append (freesOwn_copy numPe.toNat)
  · rw [hStatus] at hFailed
    exact absurd hFailed.symm Bool.false_ne_true

theorem scenariosEnd_of_stop {node : Nat} (h : scenarioEnd env node 0 ≠ .goesOn) :
    scenariosEnd env node = scenarioEnd env node 0 := by
  rw [scenariosEnd]
  split
  · rename_i hGoes
    exact absurd hGoes h
  · rfl

theorem scenariosEnd_of_goesOn {node : Nat} (h : scenarioEnd env node 0 = .goesOn) :
    scenariosEnd env node = scenarioEnd env node 1 := by
  rw [scenariosEnd, h]

variable (numPe) in
/-- The first scenario ends the two, or the second one does, or they both go on. -/
theorem runScenarios_cases (n : MemoryNodeEntry) (node : Nat) :
    let first := runScenario test env partid 25 n node { c with scenarioCnt := 0 }
    let second := runScenario test env partid 75 n node
      { first.2 with scenarioCnt := first.2.scenarioCnt + 1 }
    let out := runScenarios test env numPe partid n node c
    (first.1 ≠ .goesOn ∧ out = first) ∨ (first.1 = .goesOn ∧ second.1 ≠ .goesOn ∧ out = second) ∨
      (first.1 = .goesOn ∧ second.1 = .goesOn ∧ out = (.goesOn, { second.2 with
        scenarioCnt := second.2.scenarioCnt + 1
        log := second.2.log ++
          palMemFreeSharedMemcpybuf second.2.slots numPe.toNat memcpyBufSize })) := by
  rw [runScenarios]
  generalize runScenario test env partid 25 n node { c with scenarioCnt := 0 } = first
  obtain ⟨ends, c₁⟩ := first
  dsimp only
  cases ends with
  | copyFails | stuck | timedOut => exact Or.inl ⟨NodeEnd.noConfusion, rfl⟩
  | goesOn =>
    dsimp only
    generalize runScenario test env partid 75 n node
      { c₁ with scenarioCnt := c₁.scenarioCnt + 1 } = second
    obtain ⟨ends₂, c₂⟩ := second
    dsimp only
    cases ends₂ with
    | copyFails | stuck | timedOut => exact Or.inr (Or.inl ⟨rfl, NodeEnd.noConfusion, rfl⟩)
    | goesOn => exact Or.inr (Or.inr ⟨rfl, rfl, rfl⟩)

/-- An early end of the scenarios leaves the copy buffers allocated. -/
theorem leftBy_early {node : Nat} {scenario : BitVec 32} {done : List (Event Block)}
    (hGoes : scenarioEnd env node scenario ≠ .goesOn) (hFreed : FreesOwn done)
    (hLog : c.log ++ palMemFreeSharedMemcpybuf c.slots numPe.toNat memcpyBufSize = taken ++ done) :
    LeftBy numPe s taken (scenarioEnd env node scenario) c := by
  cases hEnd : scenarioEnd env node scenario with
  | goesOn => exact absurd hEnd hGoes
  | copyFails => exact absurd hEnd (scenarioEnd_ne_copyFails env node scenario)
  | stuck => trivial
  | timedOut => exact ⟨done, hFreed, hLog⟩

/-- The two scenarios: when they end early and the primary does not get stuck, a PE has timed
out. -/
theorem runScenarios_spec (n : MemoryNodeEntry) (node : Nat) {done : List (Event Block)}
    (hPlain : SamePlain s c.pe)
    (hBeyond : ∀ node index, latencyScenarioMax ≤ index → c.cell node index = none)
    (hFreed : FreesOwn done)
    (hLog : c.log ++ palMemFreeSharedMemcpybuf c.slots numPe.toNat memcpyBufSize = taken ++ done) :
    let out := runScenarios test env numPe partid n node c
    out.1 = scenariosEnd env node ∧ LeftBy numPe s taken out.1 out.2 ∧
      (out.1 = .goesOn → out.2.scenarioCnt = latencyScenarioMax) := by
  have hCnt : (0 : BitVec 32) < latencyScenarioMax := by decide
  have hEnd := runScenario_end test env partid (c := { c with scenarioCnt := 0 }) 25 n node
  have hStep := runScenario_step test env partid (c := { c with scenarioCnt := 0 }) 25 n node
    hPlain hBeyond hCnt
  have hRun := runScenarios_cases test env partid numPe (c := c) n node
  generalize runScenario test env partid 25 n node { c with scenarioCnt := 0 } = first
    at hEnd hStep hRun
  dsimp only at hEnd hRun ⊢
  have hCnt₁ : first.2.scenarioCnt + 1 = 1 := by
    rw [hStep.scenarioCnt]
    rfl
  have hLog₁ := (hStep.log_freed numPe.toNat memcpyBufSize).trans hLog
  rw [hCnt₁] at hRun
  have hEnd₂ := runScenario_end test env partid
    (c := { first.2 with scenarioCnt := 1 }) 75 n node
  have hStep₂ := runScenario_step test env partid
    (c := { first.2 with scenarioCnt := 1 }) 75 n node hStep.plain hStep.beyond
      (show (1 : BitVec 32) < latencyScenarioMax by decide)
  generalize runScenario test env partid 75 n node { first.2 with scenarioCnt := 1 } = second
    at hEnd₂ hStep₂ hRun
  dsimp only at hEnd₂
  have hLog₂ := (hStep₂.log_freed numPe.toNat memcpyBufSize).trans hLog₁
  rcases hRun with ⟨hStop, hOut⟩ | ⟨hGoes, hStop, hOut⟩ | ⟨hGoes, hGoes₂, hOut⟩
  · rw [hOut]
    rw [hEnd] at hStop ⊢
    rw [scenariosEnd_of_stop env hStop]
    exact ⟨rfl, leftBy_early env hStop hFreed hLog₁, fun h => absurd h hStop⟩
  · rw [hOut, scenariosEnd_of_goesOn env (hEnd.symm.trans hGoes)]
    rw [hEnd₂] at hStop ⊢
    exact ⟨rfl, leftBy_early env hStop hFreed hLog₂, fun h => absurd h hStop⟩
  · rw [hOut, scenariosEnd_of_goesOn env (hEnd.symm.trans hGoes), ← hEnd₂, hGoes₂]
    refine ⟨rfl, ⟨hStep₂.plain, hStep₂.beyond, done, hFreed, hLog₂⟩, fun _ => ?_⟩
    dsimp only
    rw [hStep₂.scenarioCnt]
    rfl

variable (numPe) in
/-- The measurement of one node. -/
theorem measureNode_spec (indexed : MemoryNodeEntry × Nat) (h : MeasuredTo s taken c) :
    let out := measureNode test env numPe partid indexed c
    out.1 = visitEnd test env numPe s indexed ∧ LeftBy numPe s taken out.1 out.2 ∧
      (out.1 = .goesOn → out.2.scenarioCnt =
        if test.supports (s.mmio indexed.1.hwregBaseAddr) then latencyScenarioMax
        else c.scenarioCnt) := by
  obtain ⟨n, node⟩ := indexed
  obtain ⟨done, hDone, hLog⟩ := h.log
  rw [measureNode, visitEnd, h.plain.supports test n.hwregBaseAddr]
  dsimp only
  split
  · rw [nodeEnd]
    dsimp only
    cases hStatus : (sharedMemcpybuf (env.firmware node) (copyRequest n) numPe).status with
    | false =>
      rw [if_neg Bool.false_ne_true, if_neg Bool.false_ne_true]
      refine ⟨rfl, ⟨done ++ (sharedMemcpybuf (env.firmware node) (copyRequest n) numPe).log,
        fun hMem => ?_, ?_⟩, NodeEnd.noConfusion⟩
      · rcases List.mem_append.mp hMem with hMem | hMem
        · exact hDone.keepsTable hMem
        · exact table_notMem_copy numPe hMem
      · dsimp only [enterNode, LatencyRun.onNode]
        rw [hLog, List.append_assoc]
    | true =>
      rw [if_pos rfl, if_pos rfl]
      refine runScenarios_spec test env partid n node ?_ h.beyond (copy_freed env hDone hStatus) ?_
      · exact h.plain.trans ((disableOthers_keepsMonitors test partid).samePlain c.pe _)
      · dsimp only [enterNode, LatencyRun.onNode]
        rw [hLog, List.append_assoc, List.append_assoc, List.append_assoc]
  · exact ⟨rfl, h, fun _ => rfl⟩

end Nodes

end EnterpriseAcs.Mpam
