import EnterpriseAcs.Mpam.LatencyTests

/-!
# The end of a latency test

The payload of d002 and d003 gives the latency buffers back when a PE times out and when the test
passes. It does not when the copy buffers of a node cannot be allocated, nor when the comparison
fails; and the comparison reads past the end of the rows.

* `measureNodes_spec`: how the loop over the nodes ends.
* `compareLatencies_spec`: what the comparison reads, and what it decides by.
* `latency_buffers_iff`: when every buffer is given back.
* `latency_verdict_wrong`: the verdict never is about the latencies.
-/

namespace EnterpriseAcs.Mpam

open Ledger (Event acquired released Clean)

/-! ## The loop over the nodes -/

/-- A node with the control under test. -/
def HasControl (test : LatencyTest) (s : PeState) (indexed : MemoryNodeEntry × Nat) : Prop :=
  test.supports (s.mmio indexed.1.hwregBaseAddr) = true

section Loop

variable (test : LatencyTest) (env : LatencyEnv) (numPe : BitVec 32) (partid : BitVec 16)
  {s : PeState} {taken : List (Event Block)}

theorem measureNodes_spec (nodes : List (MemoryNodeEntry × Nat)) {c : LatencyRun}
    (h : MeasuredTo s taken c) :
    let out := measureNodes test env numPe partid nodes c
    out.1 = loopEnd test env numPe s nodes ∧ LeftBy numPe s taken out.1 out.2 ∧
      (out.1 = .goesOn → (∃ indexed ∈ nodes, HasControl test s indexed) ∨
        c.scenarioCnt = latencyScenarioMax → out.2.scenarioCnt = latencyScenarioMax) := by
  induction nodes generalizing c with
  | nil =>
    refine ⟨rfl, h, fun _ hCnt => ?_⟩
    exact hCnt.resolve_left fun hNode => List.not_mem_nil hNode.choose_spec.1
  | cons indexed nodes ih =>
    have hNode := measureNode_spec test env partid numPe indexed h
    rw [measureNodes, loopEnd]
    generalize measureNode test env numPe partid indexed c = out at hNode ⊢
    obtain ⟨ends, c'⟩ := out
    obtain ⟨hEnd, hLeft, hCnt⟩ := hNode
    dsimp only at hEnd hLeft hCnt ⊢
    rw [← hEnd]
    cases ends with
    | copyFails => exact ⟨rfl, hLeft, NodeEnd.noConfusion⟩
    | stuck => exact ⟨rfl, hLeft, NodeEnd.noConfusion⟩
    | timedOut => exact ⟨rfl, hLeft, NodeEnd.noConfusion⟩
    | goesOn =>
      obtain ⟨hLoop, hRest, hRestCnt⟩ := ih hLeft
      refine ⟨hLoop, hRest, fun hGoes hOr => hRestCnt hGoes ?_⟩
      have hHere := hCnt rfl
      split at hHere
      · exact Or.inr hHere
      · rename_i hNone
        rcases hOr with ⟨indexed', hMem, hControl⟩ | hOld
        · rcases List.mem_cons.mp hMem with rfl | hMem
          · exact absurd hControl hNone
          · exact Or.inl ⟨indexed', hMem, hControl⟩
        · exact Or.inr (hHere.trans hOld)

end Loop

/-! ## The comparison -/

/-- The words behind the row of a node that the comparison takes for the two latencies. -/
def BehindGrows (env : LatencyEnv) (indexed : MemoryNodeEntry × Nat) : Prop :=
  env.memory indexed.2 2 < env.memory indexed.2 3

instance (env : LatencyEnv) (indexed : MemoryNodeEntry × Nat) :
    Decidable (BehindGrows env indexed) :=
  inferInstanceAs (Decidable (_ < _))

section Comparison

variable (test : LatencyTest) (env : LatencyEnv) {s : PeState} {c : LatencyRun}

theorem comparisons_two (memories : List MemoryNodeEntry) :
    comparisons memories latencyScenarioMax = memories.zipIdx := by
  have hOnce : (latencyScenarioMax - 1).toNat = 1 := by decide
  rw [comparisons, hOnce]
  exact List.flatMap_singleton' _

theorem compareLatencies_log (visits : List (MemoryNodeEntry × Nat)) :
    (compareLatencies test env visits c).2.log = c.log := by
  induction visits generalizing c with
  | nil => rfl
  | cons indexed visits ih =>
    rw [compareLatencies]
    dsimp only
    split
    · split
      · rfl
      · exact ih
    · exact ih

/-- What has been read stays so. -/
theorem compareLatencies_reads (visits : List (MemoryNodeEntry × Nat))
    {r : Nat × BitVec 32} (hMem : r ∈ c.reads) :
    r ∈ (compareLatencies test env visits c).2.reads := by
  induction visits generalizing c with
  | nil => exact hMem
  | cons indexed visits ih =>
    rw [compareLatencies]
    dsimp only
    split
    · split
      · exact List.mem_append_left _ hMem
      · exact ih (List.mem_append_left _ hMem)
    · exact ih hMem

theorem compareLatencies_spec (visits : List (MemoryNodeEntry × Nat)) (hPlain : SamePlain s c.pe)
    (hBeyond : ∀ node index, latencyScenarioMax ≤ index → c.cell node index = none)
    (hCnt : c.scenarioCnt = latencyScenarioMax) :
    ((compareLatencies test env visits c).1 = true ↔
        ∃ indexed ∈ visits, HasControl test s indexed ∧ BehindGrows env indexed) ∧
      ((∃ indexed ∈ visits, HasControl test s indexed) →
        ∃ node, (node, latencyScenarioMax) ∈ (compareLatencies test env visits c).2.reads) := by
  induction visits generalizing c with
  | nil =>
    exact ⟨iff_of_false Bool.false_ne_true fun h => List.not_mem_nil h.choose_spec.1,
      fun h => absurd h.choose_spec.1 List.not_mem_nil⟩
  | cons indexed visits ih =>
    obtain ⟨n, node⟩ := indexed
    have hSupports := hPlain.supports test n.hwregBaseAddr
    have hFirst : c.readCell env node c.scenarioCnt = env.memory node 2 := by
      rw [LatencyRun.readCell, hCnt, hBeyond node _ (BitVec.le_refl _)]
      rfl
    have hSecond : c.readCell env node (c.scenarioCnt + 1) = env.memory node 3 := by
      rw [LatencyRun.readCell, hCnt, hBeyond node _ (by decide)]
      rfl
    rw [compareLatencies, hSupports, hFirst, hSecond]
    dsimp only
    split
    · rename_i hControl
      have hRead : (node, latencyScenarioMax) ∈
          c.reads ++ [(node, c.scenarioCnt), (node, c.scenarioCnt + 1)] := by
        rw [hCnt]
        exact List.mem_append_right _ List.mem_cons_self
      split
      · rename_i hGrows
        exact ⟨iff_of_true rfl ⟨(n, node), List.mem_cons_self, hControl, hGrows⟩,
          fun _ => ⟨node, hRead⟩⟩
      · rename_i hNot
        have hRest := ih (c := { c with
          reads := c.reads ++ [(node, c.scenarioCnt), (node, c.scenarioCnt + 1)] })
          hPlain hBeyond hCnt
        refine ⟨?_, fun _ => ⟨node, compareLatencies_reads test env visits hRead⟩⟩
        rw [hRest.1, List.exists_mem_cons_iff, or_iff_right fun h => hNot h.2]
    · rename_i hOther
      have hNone : ¬ HasControl test s (n, node) := hOther
      obtain ⟨hFails, hReads⟩ := ih hPlain hBeyond hCnt
      rw [hFails, List.exists_mem_cons_iff, List.exists_mem_cons_iff,
        or_iff_right fun h => hNone h.1, or_iff_right hNone]
      exact ⟨Iff.rfl, hReads⟩

end Comparison

/-! ## The payload -/

section Payload

variable (test : LatencyTest) (env : LatencyEnv) (caches : List (BitVec 64))
  (memories : List MemoryNodeEntry) (numPe : BitVec 32) (pe : PeState)

/-- Every block that the payload was granted it has given back once. -/
def BuffersFreed (log : List (Event Block)) : Prop := Clean (ownEvents log)

theorem configThisPe_samePlain (memoryBases : List (BitVec 64)) :
    SamePlain pe (configThisPe caches memoryBases pe) := by
  have hCaches := disableCaches_quiet (minmaxPartid caches memoryBases pe) caches pe
  exact (hCaches.trans (writeMpam2_quiet _ _)).same.plain

/-- The state before the loop over the nodes. -/
def beforeNodes : LatencyRun :=
  { LatencyRun.start pe with
    pe := configThisPe caches (memories.map MemoryNodeEntry.hwregBaseAddr) pe
    log := palMemAllocateSharedLatencybuf env memories.length }

theorem beforeNodes_measured :
    MeasuredTo pe (palMemAllocateSharedLatencybuf env memories.length)
      (beforeNodes env caches memories pe) :=
  ⟨configThisPe_samePlain caches pe _, fun _ _ _ => rfl, [], freesOwn_nil,
    (List.append_nil _).symm⟩

/-- How the loop over all nodes ends. -/
def allNodesEnd : NodeEnd := loopEnd test env numPe pe memories.zipIdx

/-- A node that has the control is one of the indexed ones. -/
theorem exists_control_iff :
    (∃ indexed ∈ memories.zipIdx, HasControl test pe indexed) ↔
      ∃ n ∈ memories, test.supports (pe.mmio n.hwregBaseAddr) = true := by
  apply Iff.intro
  · rintro ⟨⟨n, node⟩, hMem, hControl⟩
    exact ⟨n, List.fst_mem_of_mem_zipIdx hMem, hControl⟩
  · rintro ⟨n, hMem, hControl⟩
    obtain ⟨node, hNode, rfl⟩ := List.getElem_of_mem hMem
    exact ⟨(memories[node], node), List.mk_mem_zipIdx_iff_getElem?.mpr
      (List.getElem?_eq_getElem hNode), hControl⟩

/-- The ends of the loop after which all buffers are given back. -/
def FreesLatency : NodeEnd → Prop
  | .goesOn => ∀ indexed ∈ memories.zipIdx, HasControl test pe indexed → ¬ BehindGrows env indexed
  | .copyFails => False
  | .stuck => True
  | .timedOut => True

theorem ownEvents_latency (blocks : List Block) (nodeCnt : Nat)
    (h : ∀ block ∈ blocks, block = .pool .latencyTable ∨ block ∈ latencyRows env nodeCnt)
    (event : Block → Event Block) (hEvent : event = .acquire ∨ event = .release) :
    ownEvents (blocks.map event) = blocks.map event := by
  rw [ownEvents, List.filter_eq_self]
  intro e hMem
  obtain ⟨block, hBlock, rfl⟩ := List.mem_map.mp hMem
  have hPool : ∃ use, block = .pool use := by
    rcases h block hBlock with rfl | hRow
    · exact ⟨_, rfl⟩
    · obtain ⟨node, -, rfl⟩ := List.mem_map.mp hRow
      exact ⟨_, rfl⟩
  obtain ⟨use, rfl⟩ := hPool
  rcases hEvent with rfl | rfl
  · rfl
  · rfl

/-- The latency buffers given back after a stretch that gives back what it takes. -/
theorem latency_freed {done : List (Event Block)} (hDone : FreesOwn done) (nodeCnt : Nat) :
    BuffersFreed (palMemAllocateSharedLatencybuf env nodeCnt ++ done ++
      palMemFreeSharedLatencybuf env nodeCnt) := by
  rw [BuffersFreed, ownEvents_append, ownEvents_append, palMemAllocateSharedLatencybuf,
    palMemFreeSharedLatencybuf,
    ownEvents_latency env _ nodeCnt (by simp) _ (Or.inl rfl),
    ownEvents_latency env _ nodeCnt (by simp [or_comm]) _ (Or.inr rfl)]
  exact Ledger.clean_nested hDone.clean (List.perm_append_singleton _ _)

/-- Without a release of the table, it is not given back. -/
theorem latency_kept {done : List (Event Block)} (nodeCnt : Nat)
    (hTable : Event.release (Block.pool .latencyTable) ∉ done) :
    ¬ BuffersFreed (palMemAllocateSharedLatencybuf env nodeCnt ++ done) := by
  intro h
  have hTaken : Event.acquire (Block.pool .latencyTable) ∈
      ownEvents (palMemAllocateSharedLatencybuf env nodeCnt ++ done) := by
    rw [ownEvents, List.mem_filter]
    exact ⟨List.mem_append_left _ List.mem_cons_self, rfl⟩
  rcases List.mem_append.mp (List.mem_filter.mp (h.mem_release hTaken)).1 with hMem | hMem
  · obtain ⟨block, -, hEq⟩ := List.mem_map.mp hMem
    cases hEq
  · exact hTable hMem

variable {test env memories numPe pe} in
/-- When every measurement has completed, the comparison decides. -/
theorem finish_compared_iff {c : LatencyRun} (mpam2El2 : BitVec 64)
    (hMeasured : MeasuredTo pe (palMemAllocateSharedLatencybuf env memories.length) c)
    (hCnt : c.scenarioCnt = latencyScenarioMax) :
    (∀ c', finishLatency test env memories numPe mpam2El2 (.goesOn, c) = some c' →
      BuffersFreed c'.log) ↔ FreesLatency test env memories pe .goesOn := by
  obtain ⟨done, hDone, hLog⟩ := hMeasured.log
  have hPlain := hMeasured.plain.trans (writeMpam2_quiet c.pe mpam2El2).same.plain
  have hCompare := compareLatencies_spec test env (c := { c with pe := c.pe.writeMpam2 mpam2El2 })
    memories.zipIdx hPlain hMeasured.beyond hCnt
  have hSame := compareLatencies_log test env (c := { c with pe := c.pe.writeMpam2 mpam2El2 })
    memories.zipIdx
  have hVisits : comparisons memories c.scenarioCnt = memories.zipIdx := by
    rw [hCnt, comparisons_two]
  rw [finishLatency, FreesLatency]
  dsimp only at hSame ⊢
  rw [hVisits]
  generalize compareLatencies test env memories.zipIdx { c with pe := c.pe.writeMpam2 mpam2El2 }
    = out at hCompare hSame ⊢
  obtain ⟨fails, c'⟩ := out
  dsimp only at hCompare hSame ⊢
  cases fails with
  | true =>
    obtain ⟨indexed, hMem, hControl, hGrows⟩ := hCompare.1.mp rfl
    refine iff_of_false (fun h => ?_) fun h => h indexed hMem hControl hGrows
    have hFreed := h _ rfl
    dsimp only at hFreed
    rw [hSame, hLog] at hFreed
    exact latency_kept env memories.length hDone.keepsTable hFreed
  | false =>
    refine iff_of_true (fun c'' h => ?_) fun indexed hMem hControl hGrows =>
      Bool.false_ne_true (hCompare.1.mpr ⟨indexed, hMem, hControl, hGrows⟩)
    cases h
    dsimp only
    rw [hSame, hLog]
    exact latency_freed env hDone memories.length

variable {test env memories numPe pe} in
theorem finish_freed_iff {ends : NodeEnd} {c : LatencyRun} (mpam2El2 : BitVec 64)
    (hLeft : LeftBy numPe pe (palMemAllocateSharedLatencybuf env memories.length) ends c)
    (hCnt : ends = .goesOn → c.scenarioCnt = latencyScenarioMax) :
    (∀ c', finishLatency test env memories numPe mpam2El2 (ends, c) = some c' →
      BuffersFreed c'.log) ↔ FreesLatency test env memories pe ends := by
  cases ends with
  | stuck => exact iff_of_true nofun trivial
  | copyFails =>
    obtain ⟨done, hTable, hLog⟩ := hLeft
    refine iff_of_false (fun h => ?_) id
    have hFreed := h _ rfl
    dsimp only at hFreed
    rw [hLog] at hFreed
    exact latency_kept env memories.length hTable hFreed
  | timedOut =>
    obtain ⟨done, hDone, hLog⟩ := hLeft
    refine iff_of_true (fun c' h => ?_) trivial
    cases h
    dsimp only
    rw [hLog]
    exact latency_freed env hDone memories.length
  | goesOn => exact finish_compared_iff mpam2El2 hLeft (hCnt rfl)

/-- The test is skipped without a node that has the control. -/
theorem skips_iff :
    ((memories.map MemoryNodeEntry.hwregBaseAddr).all fun base =>
        !test.supports (pe.mmio base)) = true ↔
      ∀ n ∈ memories, test.supports (pe.mmio n.hwregBaseAddr) = false := by
  simp only [List.all_map, List.all_eq_true, Function.comp_apply, Bool.not_eq_true']

theorem payloadPrimary_eq (hControl : ¬ ∀ n ∈ memories,
      test.supports (pe.mmio n.hwregBaseAddr) = false) :
    payloadPrimary test env caches memories numPe pe =
      if env.tableFails then none
      else finishLatency test env memories numPe pe.mpam2El2
        (measureNodes test env numPe
          (minmaxPartid caches (memories.map MemoryNodeEntry.hwregBaseAddr) pe) memories.zipIdx
          (beforeNodes env caches memories pe)) := by
  rw [← skips_iff] at hControl
  rw [payloadPrimary]
  dsimp only
  rw [if_neg hControl]
  rfl

theorem control_of_not_skipped (hControl : ¬ ∀ n ∈ memories,
      test.supports (pe.mmio n.hwregBaseAddr) = false) :
    ∃ indexed ∈ memories.zipIdx, HasControl test pe indexed := by
  rw [exists_control_iff]
  by_contra hNone
  refine hControl fun n hMem => ?_
  rw [← Bool.not_eq_true]
  exact fun hSupports => hNone ⟨n, hMem, hSupports⟩

/-- The payload gives every buffer back exactly when no node has the control, the pool refuses the
table of the latency buffers, or the loop over the nodes ends as `FreesLatency` says. -/
theorem latency_buffers_iff :
    (∀ c, payloadPrimary test env caches memories numPe pe = some c → BuffersFreed c.log) ↔
      (∀ n ∈ memories, test.supports (pe.mmio n.hwregBaseAddr) = false) ∨ env.tableFails = true ∨
        FreesLatency test env memories pe (allNodesEnd test env memories numPe pe) := by
  by_cases hControl : ∀ n ∈ memories, test.supports (pe.mmio n.hwregBaseAddr) = false
  · refine iff_of_true (fun c h => ?_) (Or.inl hControl)
    rw [payloadPrimary] at h
    dsimp only at h
    rw [if_pos ((skips_iff test memories pe).mpr hControl)] at h
    cases h
    exact Ledger.clean_nil
  · rw [or_iff_right hControl, payloadPrimary_eq test env caches memories numPe pe hControl]
    cases hTable : env.tableFails with
    | true => exact iff_of_true nofun (Or.inl rfl)
    | false =>
      obtain ⟨hEnd, hLeft, hCnt⟩ := measureNodes_spec test env numPe
        (minmaxPartid caches (memories.map MemoryNodeEntry.hwregBaseAddr) pe) memories.zipIdx
        (beforeNodes_measured env caches memories pe)
      rw [or_iff_right Bool.false_ne_true, if_neg Bool.false_ne_true, allNodesEnd, ← hEnd]
      exact finish_freed_iff pe.mpam2El2 hLeft fun hGoes =>
        hCnt hGoes (Or.inl (control_of_not_skipped test memories pe hControl))

end Payload

/-! ## Buffers that are kept -/

/-- A memory node with a minimum bandwidth, and the PE that tests it. -/
def mbwminNode : MemoryNodeEntry := ⟨0, 0x80000000, 0x40000000, 0, 0x10000, 0, {}⟩

def mbwminPe : PeState where
  mpam2El2 := 0
  mpamidrEl1 := 0
  mmio _ := idPage 0x04000000 0 0x400
  errCtrlReg := 0
  csuCtlTemp := 0

/-- A machine on which the firmware answers for the copy buffers as `fw` does, and nothing else
fails; the words behind the rows are 0 and 1. -/
def latencyEnv (fw : Firmware) (latency : BitVec 32 → BitVec 64) : LatencyEnv where
  firmware _ := fw
  tableFails := false
  rowFails _ := false
  latency _ := latency
  timesOut _ _ := false
  memory _ index := if index = 3 then 1 else 0

/-- The pool refuses the table of the copy buffers; the latency buffers are kept. -/
theorem copy_failure_leaks :
    ∃ c, payloadPrimary .d002 (latencyEnv { refusing 0 with poolFails := true } fun _ => 0) []
      [mbwminNode] 1 mbwminPe = some c ∧ ¬ BuffersFreed c.log := by
  refine ⟨_, rfl, ?_⟩
  have hNone : Event.release (Block.pool .latencyTable) ∉ ([] : List (Event Block)) :=
    List.not_mem_nil
  exact latency_kept (latencyEnv { refusing 0 with poolFails := true } fun _ => 0) 1 hNone

/-! ## The verdict -/

section Verdict

variable (test : LatencyTest) (env : LatencyEnv) (caches : List (BitVec 64))
  (memories : List MemoryNodeEntry) (numPe : BitVec 32) (pe : PeState)

/-- A node has the control, no allocation for such a node fails, and no PE times out. -/
structure NothingFails : Prop where
  control : ∃ n ∈ memories, test.supports (pe.mmio n.hwregBaseAddr) = true
  table : env.tableFails = false
  rows : ∀ node < memories.length, env.rowFails node = false
  copies : ∀ indexed ∈ memories.zipIdx, HasControl test pe indexed →
    (sharedMemcpybuf (env.firmware indexed.2) (copyRequest indexed.1) numPe).status = true
  times : ∀ node < memories.length, ∀ scenario, env.timesOut node scenario = false

/-- The test passes exactly when no latency of the second scenario is the larger one, and it
compares cells that are written, and inside the rows. -/
structure VerdictRight (c : LatencyRun) : Prop where
  verdict : c.status = resultPass test.num 1 ↔ ∀ indexed ∈ memories.zipIdx,
    HasControl test pe indexed → env.latency indexed.2 1 ≤ env.latency indexed.2 0
  reads : ∀ r ∈ c.reads, r.2 < latencyScenarioMax ∧ (c.cell r.1 r.2).isSome

variable {test env memories numPe pe}

theorem NothingFails.goesOn (h : NothingFails test env memories numPe pe) :
    allNodesEnd test env memories numPe pe = .goesOn := by
  have hVisit : ∀ indexed ∈ memories.zipIdx, visitEnd test env numPe pe indexed = .goesOn := by
    intro indexed hMem
    have hNode := List.snd_lt_of_mem_zipIdx hMem
    have hScenario : ∀ scenario, scenarioEnd env indexed.2 scenario = .goesOn := by
      intro scenario
      rw [scenarioEnd, h.rows _ hNode, if_neg Bool.false_ne_true, h.times _ hNode,
        if_neg Bool.false_ne_true]
    rw [visitEnd]
    split
    · rename_i hControl
      rw [nodeEnd, h.copies indexed hMem hControl, if_pos rfl, scenariosEnd, hScenario 0]
      exact hScenario 1
    · rfl
  rw [allNodesEnd]
  clear h
  generalize memories.zipIdx = nodes at hVisit ⊢
  induction nodes with
  | nil => rfl
  | cons indexed nodes ih =>
    rw [loopEnd, hVisit indexed List.mem_cons_self]
    exact ih fun indexed' hMem => hVisit indexed' (List.mem_cons_of_mem _ hMem)

theorem resultFail_ne_resultPass (test : LatencyTest) :
    resultFail test.num 1 ≠ resultPass test.num 1 := by
  cases test with
  | d002 => decide
  | d003 => decide

/-- What the verdict is about: the words behind the rows, which the comparison reads. -/
theorem NothingFails.verdict (h : NothingFails test env memories numPe pe) :
    ∃ c, payloadPrimary test env caches memories numPe pe = some c ∧
      (c.status = resultPass test.num 1 ↔
        ∀ indexed ∈ memories.zipIdx, HasControl test pe indexed → ¬ BehindGrows env indexed) ∧
      ∃ node, (node, latencyScenarioMax) ∈ c.reads := by
  have hSome : ¬ ∀ n ∈ memories, test.supports (pe.mmio n.hwregBaseAddr) = false := by
    intro hNone
    obtain ⟨n, hMem, hSupports⟩ := h.control
    rw [hNone n hMem] at hSupports
    exact Bool.false_ne_true hSupports
  have hControl := control_of_not_skipped test memories pe hSome
  obtain ⟨hEnd, hLeft, hCnt⟩ := measureNodes_spec test env numPe
    (minmaxPartid caches (memories.map MemoryNodeEntry.hwregBaseAddr) pe) memories.zipIdx
    (beforeNodes_measured env caches memories pe)
  rw [payloadPrimary_eq test env caches memories numPe pe hSome, h.table,
    if_neg Bool.false_ne_true]
  have hGoes := h.goesOn
  rw [allNodesEnd, ← hEnd] at hGoes
  generalize measureNodes test env numPe
    (minmaxPartid caches (memories.map MemoryNodeEntry.hwregBaseAddr) pe) memories.zipIdx
    (beforeNodes env caches memories pe) = out at hLeft hCnt hGoes ⊢
  obtain ⟨ends, c⟩ := out
  dsimp only at hGoes hLeft hCnt
  subst hGoes
  have hTwo := hCnt rfl (Or.inl hControl)
  have hVisits : comparisons memories c.scenarioCnt = memories.zipIdx := by
    rw [hTwo, comparisons_two]
  have hPlain := hLeft.plain.trans (writeMpam2_quiet c.pe pe.mpam2El2).same.plain
  obtain ⟨hFails, hReads⟩ := compareLatencies_spec test env
    (c := { c with pe := c.pe.writeMpam2 pe.mpam2El2 }) memories.zipIdx hPlain hLeft.beyond hTwo
  obtain ⟨node, hRead⟩ := hReads hControl
  rw [finishLatency]
  dsimp only
  rw [hVisits]
  generalize compareLatencies test env memories.zipIdx
    { c with pe := c.pe.writeMpam2 pe.mpam2El2 } = out at hFails hRead ⊢
  obtain ⟨fails, c'⟩ := out
  dsimp only at hFails hRead ⊢
  cases fails with
  | true =>
    obtain ⟨indexed, hMem, hHas, hGrows⟩ := hFails.mp rfl
    refine ⟨_, rfl, iff_of_false (resultFail_ne_resultPass test) ?_, node, hRead⟩
    exact fun hAll => hAll indexed hMem hHas hGrows
  | false =>
    refine ⟨_, rfl, iff_of_true rfl ?_, node, hRead⟩
    intro indexed hMem hHas hGrows
    exact Bool.false_ne_true (hFails.mpr ⟨indexed, hMem, hHas, hGrows⟩)

end Verdict

/-- Whatever the nodes and the latencies are: the comparison reads behind a row. -/
theorem latency_verdict_wrong (test : LatencyTest) (env : LatencyEnv) (caches : List (BitVec 64))
    (memories : List MemoryNodeEntry) (numPe : BitVec 32) (pe : PeState)
    (h : NothingFails test env memories numPe pe) :
    ∃ c, payloadPrimary test env caches memories numPe pe = some c ∧
      ¬ VerdictRight test env memories pe c := by
  obtain ⟨c, hRun, -, node, hRead⟩ := h.verdict caches
  exact ⟨c, hRun, fun hRight => absurd (hRight.reads _ hRead).1 (BitVec.lt_irrefl _)⟩

/-- On one node, with pages for every copy buffer, nothing fails. -/
theorem nothingFails_one :
    NothingFails .d002 (latencyEnv (refusing 0) fun _ => 0) [mbwminNode] 1 mbwminPe where
  control := ⟨mbwminNode, List.mem_singleton_self _, rfl⟩
  table := rfl
  rows _ _ := rfl
  copies indexed hMem _ := by
    obtain rfl := List.mem_singleton.mp hMem
    simp [sharedMemcpybuf, allocateSlots, slotOf, palMemAllocateAddress, search, latencyEnv,
      refusing, copyRequest, mbwminNode, CopyRequest.start]
  times _ _ _ := rfl

theorem latency_verdict_wrong_one :
    ∃ c, payloadPrimary .d002 (latencyEnv (refusing 0) fun _ => 0) [] [mbwminNode] 1 mbwminPe =
        some c ∧
      ¬ VerdictRight .d002 (latencyEnv (refusing 0) fun _ => 0) [mbwminNode] mbwminPe c :=
  latency_verdict_wrong _ _ _ _ _ _ nothingFails_one

/-- Both latencies are 0, and the test fails. -/
theorem equal_latencies_fail :
    NothingFails .d002 (latencyEnv (refusing 0) fun _ => 0) [mbwminNode] 1 mbwminPe ∧
      ∃ c, payloadPrimary .d002 (latencyEnv (refusing 0) fun _ => 0) [] [mbwminNode] 1 mbwminPe =
          some c ∧
        c.status ≠ resultPass LatencyTest.d002.num 1 ∧
        ¬ VerdictRight .d002 (latencyEnv (refusing 0) fun _ => 0) [mbwminNode] mbwminPe c := by
  obtain ⟨c, hRun, hVerdict, -⟩ := nothingFails_one.verdict []
  have hFails : c.status ≠ resultPass LatencyTest.d002.num 1 := by
    rw [Ne, hVerdict]
    intro hAll
    exact hAll (mbwminNode, 0) (List.mem_singleton_self _) rfl (by decide)
  refine ⟨nothingFails_one, c, hRun, hFails, fun hRight => hFails (hRight.verdict.mpr ?_)⟩
  intro _ _ _
  exact BitVec.le_refl _

end EnterpriseAcs.Mpam
