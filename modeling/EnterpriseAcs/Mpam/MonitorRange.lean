import EnterpriseAcs.Mpam.MonitorTrace

/-!
# The monitors and cells that the tests use

The arrays of the monitor tests have 256 rows and 1024 columns. The tests m001 and m002 go through
the monitors up to the largest count of any node, on every node; m003 goes up to the count of the
node itself. None of them looks at the size of the arrays.

* `pmgPayload_adds`, `m003_adds`: which monitors and cells the tests use.
* `monitors_in_range_iff`: when they all exist.
-/

namespace EnterpriseAcs.Mpam

/-- `MON_CNT_MAX` and `NODE_CNT_MAX`. -/
def monCntMax : Nat := 256

def nodeCntMax : Nat := 1024

/-- A use without the value that was read. -/
def MonitorUse.forget : MonitorUse → MonitorUse
  | .read node mon _ => .read node mon 0
  | use => use

/-! ## One monitor of one node -/

/-- A reading that goes to one of the arrays. -/
def readingUses (which node : Nat) (mon : BitVec 16) : Set MonitorUse :=
  {.read node mon 0, .cell which mon node}

/-- What m001 and m002 do with it, and what m003 does. -/
def pmgUses (partid : BitVec 16) (pmg : BitVec 8) (node : Nat) (mon : BitVec 16) :
    Set MonitorUse :=
  {.configure node mon partid pmg, .read node mon 0, .cell 1 mon node, .cell 2 mon node}

def m003Uses (pmg1 pmg2 : BitVec 8) (node : Nat) (mon : BitVec 16) : Set MonitorUse :=
  {.configure node mon defaultPartid pmg1, .configure node mon defaultPartid pmg2,
    .read node mon 0, .cell 1 mon node, .cell 2 mon node}

/-- The configuration, and the two readings. -/
theorem pmgUses_eq (partid : BitVec 16) (pmg : BitVec 8) (node : Nat) (mon : BitVec 16) :
    pmgUses partid pmg node mon =
      {.configure node mon partid pmg} ∪ readingUses 2 node mon ∪ readingUses 1 node mon := by
  ext u
  simp only [pmgUses, readingUses, Set.mem_union, Set.mem_insert_iff, Set.mem_singleton_iff]
  grind

/-- The two configurations, and the readings of the copies and of the comparison. -/
theorem m003Uses_eq (pmg1 pmg2 : BitVec 8) (node : Nat) (mon : BitVec 16) (copies : Nat) :
    m003Uses pmg1 pmg2 node mon =
      {.configure node mon defaultPartid pmg1, .cell 1 mon node} ∪
        {u | ∃ k ∈ List.range copies, u ∈ readingUses 1 node mon} ∪
        {.cell 2 mon node, .configure node mon defaultPartid pmg2} ∪ readingUses 2 node mon := by
  ext u
  have hCopies : (∃ k ∈ List.range copies, u ∈ readingUses 1 node mon) →
      u ∈ readingUses 1 node mon := fun h => h.choose_spec.2
  simp only [m003Uses, readingUses, Set.mem_union, Set.mem_ofPred_eq, Set.mem_insert_iff,
    Set.mem_singleton_iff] at hCopies ⊢
  grind

section Steps

variable (env : CsuEnv) (p : Partitioning) (nodes : List (BitVec 64)) {s : PeState}

/-- The uses of a loop over the measured nodes. -/
def onMeasured (s : PeState) (use : Nat → Set MonitorUse) : Set MonitorUse :=
  {u | ∃ n ∈ nodes.zipIdx, u ∈ {u | p.measured (s.mmio n.1) = true ∧ u ∈ use n.2}}

theorem mem_onMeasured {use : Nat → Set MonitorUse} {u : MonitorUse} :
    u ∈ onMeasured p nodes s use ↔
      ∃ n ∈ nodes.zipIdx, p.measured (s.mmio n.1) = true ∧ u ∈ use n.2 := Iff.rfl

theorem onMeasured_union (use use' : Nat → Set MonitorUse) :
    onMeasured p nodes s use ∪ onMeasured p nodes s use' =
      onMeasured p nodes s fun node => use node ∪ use' node := by
  ext u
  rw [Set.mem_union, mem_onMeasured, mem_onMeasured, mem_onMeasured]
  apply Iff.intro
  · rintro (⟨n, hMem, hMeasured, hUse⟩ | ⟨n, hMem, hMeasured, hUse⟩)
    · exact ⟨n, hMem, hMeasured, Or.inl hUse⟩
    · exact ⟨n, hMem, hMeasured, Or.inr hUse⟩
  · rintro ⟨n, hMem, hMeasured, hUse | hUse⟩
    · exact Or.inl ⟨n, hMem, hMeasured, hUse⟩
    · exact Or.inr ⟨n, hMem, hMeasured, hUse⟩

/-- A loop over the nodes whose body does something on the measured ones. -/
theorem foldl_measured_adds {f : BitVec 64 × Nat → CsuTrace → CsuTrace}
    (use : Nat → Set MonitorUse)
    (hStep : ∀ n t, SamePlain s t.run.pe → SamePlain s (f n t).run.pe ∧
      Traced.Adds MonitorUse.forget (use n.2) t (f n t))
    (t : CsuTrace) (hStart : SamePlain s t.run.pe) :
    let t' := nodes.zipIdx.foldl
      (fun t n => if p.measured (t.run.pe.mmio n.1) then f n t else t) t
    SamePlain s t'.run.pe ∧
      Traced.Adds MonitorUse.forget (onMeasured p nodes s use) t t' := by
  refine Traced.Adds.foldl (I := fun c : CsuRun => SamePlain s c.pe) _ ?_ hStart
  intro n _ t' hSame
  rw [hSame.measured n.1 p]
  by_cases h : p.measured (s.mmio n.1) = true
  · have hUse : {u | p.measured (s.mmio n.1) = true ∧ u ∈ use n.2} = use n.2 := by
      ext u
      exact and_iff_right h
    rw [if_pos h, hUse]
    exact hStep n t' hSame
  · have hUse : {u | p.measured (s.mmio n.1) = true ∧ u ∈ use n.2} = ∅ := by
      ext u
      exact iff_of_false (fun hu => h hu.1) (Set.notMem_empty u)
    rw [if_neg h, hUse]
    exact ⟨hSame, Traced.Adds.refl t'⟩

theorem configMonitors_adds (partid : BitVec 16) (pmg : BitVec 8) (mon : BitVec 16) (t : CsuTrace)
    (hStart : SamePlain s t.run.pe) :
    SamePlain s (tracedConfigMonitors p nodes partid pmg mon t).run.pe ∧
      Traced.Adds MonitorUse.forget
        (onMeasured p nodes s fun node => {.configure node mon partid pmg}) t
        (tracedConfigMonitors p nodes partid pmg mon t) := by
  refine foldl_measured_adds p nodes _ ?_ t hStart
  intro n t' hSame
  refine ⟨hSame.trans (configMonitor_spec t'.run.pe n.1 partid pmg mon).1.plain, ?_⟩
  exact Traced.Adds.of_step t' _ fun u => List.mem_singleton

theorem readMonitors_adds (which : Nat) (mon : BitVec 16) (t : CsuTrace)
    (hStart : SamePlain s t.run.pe) :
    SamePlain s (tracedReadMonitors env p nodes which mon t).run.pe ∧
      Traced.Adds MonitorUse.forget
        (onMeasured p nodes s fun node => readingUses which node mon) t
        (tracedReadMonitors env p nodes which mon t) := by
  refine foldl_measured_adds p nodes _ ?_ t hStart
  intro n t' hSame
  refine ⟨hSame.trans (storageValue_quiet env n.1 mon t'.run).same.plain, ?_⟩
  apply Traced.Adds.of_step
  intro u
  simp [MonitorUse.forget, readingUses]

/-- The buffers that a measurement asks for leave the registers as they are. -/
theorem measureMonitor_spec (test : BitVec 32) (partid : BitVec 16) (pmg1 pmg2 : BitVec 8)
    (temp : BitVec 64) (mon : BitVec 16) (t : CsuTrace) :
    ∃ buffers : CsuRun → CsuRun, (∀ c, (buffers c).pe = c.pe) ∧
      tracedMeasureMonitor env p nodes test partid pmg1 pmg2 temp t mon =
        tracedReadMonitors env p nodes 1 mon
          ((tracedReadMonitors env p nodes 2 mon
            (((tracedConfigMonitors p nodes partid pmg1 mon t).step buffers []).step
              (fun c => c.traffic c.mpam2El2 partid pmg2) [])).step
            (fun c => c.traffic temp partid pmg1) []) := by
  refine ⟨_, ?_, rfl⟩
  intro c
  dsimp only
  split
  · rfl
  · rfl

theorem measureMonitor_adds (test : BitVec 32) (partid : BitVec 16) (pmg1 pmg2 : BitVec 8)
    (temp : BitVec 64) (mon : BitVec 16) (t : CsuTrace) (hStart : SamePlain s t.run.pe) :
    SamePlain s (tracedMeasureMonitor env p nodes test partid pmg1 pmg2 temp t mon).run.pe ∧
      Traced.Adds MonitorUse.forget
        (onMeasured p nodes s fun node => pmgUses partid pmg1 node mon) t
        (tracedMeasureMonitor env p nodes test partid pmg1 pmg2 temp t mon) := by
  obtain ⟨buffers, hPe, hRun⟩ := measureMonitor_spec env p nodes test partid pmg1 pmg2 temp mon t
  let asked := (tracedConfigMonitors p nodes partid pmg1 mon t).step buffers []
  let second := asked.step (fun c => c.traffic c.mpam2El2 partid pmg2) []
  let first := (tracedReadMonitors env p nodes 2 mon second).step
    (fun c => c.traffic temp partid pmg1) []
  obtain ⟨hConfig, hConfigAdds⟩ := configMonitors_adds p nodes partid pmg1 mon t hStart
  have hAsked : SamePlain s asked.run.pe := by
    rw [Traced.run_step, hPe]
    exact hConfig
  have hSecond : SamePlain s second.run.pe :=
    hAsked.trans (writeMpam2_quiet asked.run.pe _).same.plain
  obtain ⟨hRead, hReadAdds⟩ := readMonitors_adds env p nodes 2 mon second hSecond
  have hFirst : SamePlain s first.run.pe := hRead.trans (writeMpam2_quiet _ _).same.plain
  obtain ⟨hDone, hDoneAdds⟩ := readMonitors_adds env p nodes 1 mon first hFirst
  rw [hRun]
  refine ⟨hDone, ?_⟩
  have hAsks := ((hConfigAdds.trans_silent (.of_silent _ _)).trans_silent (.of_silent _ _) :
    Traced.Adds MonitorUse.forget _ t second)
  have hAll := ((hAsks.trans hReadAdds).trans_silent (.of_silent _ _) :
    Traced.Adds MonitorUse.forget _ t first).trans hDoneAdds
  have hUses : onMeasured p nodes s (fun node => pmgUses partid pmg1 node mon) =
      onMeasured p nodes s (fun node => {.configure node mon partid pmg1}) ∪
        onMeasured p nodes s (fun node => readingUses 2 node mon) ∪
        onMeasured p nodes s (fun node => readingUses 1 node mon) := by
    rw [onMeasured_union, onMeasured_union]
    congr 1
    funext node
    exact pmgUses_eq partid pmg1 node mon
  rw [hUses]
  exact hAll

/-- The cells that a comparison looks at are those of its visits. -/
theorem mem_compareCells {α : Type} {visit : α → Bool × List MonitorUse} {l : List α}
    {u : MonitorUse} (h : u ∈ compareCells visit l) : ∃ a ∈ l, u ∈ (visit a).2 := by
  induction l with
  | nil => exact absurd h List.not_mem_nil
  | cons a l ih =>
    rw [compareCells] at h
    rcases List.mem_append.mp h with hHere | hRest
    · exact ⟨a, List.mem_cons_self, hHere⟩
    · split at hRest
      · exact absurd hRest List.not_mem_nil
      · obtain ⟨a', hMem, hUse⟩ := ih hRest
        exact ⟨a', List.mem_cons_of_mem a hMem, hUse⟩

/-- A visit of the comparison looks at the cells of its monitor. -/
theorem comparePmg_cells {c : CsuRun} {mon : BitVec 16} {base : BitVec 64} {node : Nat}
    {u : MonitorUse} (h : u ∈ (comparePmg p c (mon, base, node)).2) :
    p.measured (c.pe.mmio base) = true ∧ (u = .cell 1 mon node ∨ u = .cell 2 mon node) := by
  rw [comparePmg] at h
  split at h
  · rename_i hMeasured
    refine ⟨hMeasured, ?_⟩
    split at h
    · exact Or.inl (List.mem_singleton.mp h)
    · rcases List.mem_cons.mp h with rfl | hSecond
      · exact Or.inl rfl
      · exact Or.inr (List.mem_singleton.mp hSecond)
  · exact absurd h List.not_mem_nil

/-- The uses of all monitors up to the largest count. -/
def allPmgUses (pe : PeState) : Set MonitorUse :=
  {u | ∃ mon ∈ monitors (maxMoncnt p.supports nodes pe), u ∈ onMeasured p nodes pe fun node =>
    pmgUses (minmaxPartid nodes [] pe) (minmaxPmg p.supports nodes pe) node mon}

theorem pmgPayload_adds (test : BitVec 32) (pe : PeState)
    (hCount : maxMoncnt p.supports nodes pe ≠ 0) :
    Traced.Adds MonitorUse.forget (allPmgUses p nodes pe) (Traced.start (CsuRun.start pe))
      (tracedPmgPayload env p nodes test pe) := by
  have hKeeps := configure_keepsMonitors (minmaxPartid nodes [] pe) p
  have hPartition : Quiet pe (nodes.foldl (fun pe' base =>
      pe'.onNode base (p.configure (minmaxPartid nodes [] pe))) pe) :=
    foldl_quiet id (fun s base => onNode_quiet s base hKeeps.monitors hKeeps.plain) nodes pe
  let start : CsuTrace := (Traced.start (CsuRun.start pe)).step (fun c =>
    let c := c.onPe (nodes.foldl fun pe' base =>
      pe'.onNode base (p.configure (minmaxPartid nodes [] pe)))
    { c with mpam2El2 := c.pe.mpam2El2 }) []
  have hStart : SamePlain pe start.run.pe := hPartition.same.plain
  obtain ⟨hDone, hAdds⟩ := Traced.Adds.foldl (I := fun c : CsuRun => SamePlain pe c.pe)
    (l := monitors (maxMoncnt p.supports nodes pe)) (fun mon => onMeasured p nodes pe fun node =>
      pmgUses (minmaxPartid nodes [] pe) (minmaxPmg p.supports nodes pe) node mon)
    (fun mon _ t hSame => measureMonitor_adds env p nodes test (minmaxPartid nodes [] pe)
      (minmaxPmg p.supports nodes pe) (minmaxPmg p.supports nodes pe - 1)
      start.run.pe.mpam2El2 mon t hSame) hStart
  rw [tracedPmgPayload]
  dsimp only
  rw [if_neg hCount]
  refine hAdds.enclose _ _ ?_
  intro u hUse
  obtain ⟨⟨mon, base, node⟩, hVisit, hCell⟩ := mem_compareCells hUse
  obtain ⟨mon', hMon, hNode⟩ := List.mem_flatMap.mp hVisit
  obtain ⟨n, hMem, hEq⟩ := List.mem_map.mp hNode
  cases hEq
  obtain ⟨hMeasured, hCells⟩ := comparePmg_cells p hCell
  have hSame : p.measured (pe.mmio base) = true := by
    rw [← hMeasured]
    exact ((hDone.trans (writeMpam2_quiet _ _).same.plain).measured base p).symm
  refine ⟨mon, hMon, (base, node), hMem, hSame, ?_⟩
  rcases hCells with rfl | rfl
  · simp [MonitorUse.forget, pmgUses]
  · simp [MonitorUse.forget, pmgUses]

end Steps

/-! ## The test m003 -/

section Sampling

variable (env : CsuEnv) (nodes : List (BitVec 64)) (base : BitVec 64) (mon : BitVec 16)

theorem restoreCtlreg_samePlain (s : PeState) :
    SamePlain s (valCsumonRestoreCtlreg base mon s) := by
  have hSelect : SamePlain s (s.write base regMsmonCfgMonSel (mon.setWidth 32)) :=
    (write_quiet s base _ (by decide) (Or.inl rfl)).same.plain
  refine hSelect.trans fun base' o _ _ => ?_
  rw [valCsumonRestoreCtlreg, plain_write_at, if_neg]
  rintro ⟨-, -, hSelector⟩
  exact Selector.noConfusion hSelector

theorem recordMin_adds (which node : Nat) (t : CsuTrace) :
    SamePlain t.run.pe (tracedRecordMin env which base mon node t).run.pe ∧
      Traced.Adds MonitorUse.forget (readingUses which node mon) t
        (tracedRecordMin env which base mon node t) := by
  refine ⟨(recordMin_quiet base mon env which node t.run).same.plain, ?_⟩
  apply Traced.Adds.of_step
  intro u
  split
  · simp [MonitorUse.forget, readingUses, or_comm]
  · simp [MonitorUse.forget, readingUses, or_comm]

/-- Before the reading of a copy, the buffers are allocated and the monitor is reset. -/
theorem sampleOnce_spec (node : Nat) (t : CsuTrace) :
    ∃ reset : CsuRun → CsuRun,
      tracedSampleOnce env base mon node t = tracedRecordMin env 1 base mon node (t.step reset []) ∧
      SamePlain t.run.pe (reset t.run).pe ∧ (reset t.run).storageValue = t.run.storageValue ∧
      (reset t.run).time = t.run.time + 1 := by
  refine ⟨_, rfl, ?_, ?_, ?_⟩
  · dsimp only [CsuRun.onPe]
    split
    · exact (restoreCtlreg_samePlain base mon t.run.pe).trans
        (resetMonitor_quiet _ base mon).same.plain
    · exact (resetMonitor_quiet t.run.pe base mon).same.plain
  · dsimp only [CsuRun.onPe]
    split
    · rfl
    · rfl
  · dsimp only [CsuRun.onPe]
    split
    · rfl
    · rfl

theorem sampleOnce_adds (node : Nat) (t : CsuTrace) :
    SamePlain t.run.pe (tracedSampleOnce env base mon node t).run.pe ∧
      Traced.Adds MonitorUse.forget (readingUses 1 node mon) t
        (tracedSampleOnce env base mon node t) := by
  obtain ⟨reset, hRun, hReset, -, -⟩ := sampleOnce_spec env base mon node t
  obtain ⟨hRecord, hAdds⟩ := recordMin_adds env base mon 1 node (t.step reset [])
  rw [hRun]
  exact ⟨hReset.trans hRecord, (Traced.Adds.of_silent t _).silent_trans hAdds⟩

theorem deviation_adds (copies : Nat) (pmg1 : BitVec 8) (node : Nat) (t : CsuTrace) :
    SamePlain t.run.pe (tracedDeviation env copies pmg1 base node mon t).run.pe ∧
      Traced.Adds MonitorUse.forget ({.configure node mon defaultPartid pmg1, .cell 1 mon node} ∪
        {u | ∃ k ∈ List.range copies, u ∈ readingUses 1 node mon}) t
        (tracedDeviation env copies pmg1 base node mon t) := by
  let configured := t.step (fun c => c.onPe (valCsumonConfigMonitor base defaultPartid pmg1 mon))
    [.configure node mon defaultPartid pmg1]
  let started := configured.step
    (fun c => (c.traffic c.mpam2El2 defaultPartid pmg1).record 1 mon node 0) [.cell 1 mon node]
  have hStarted : SamePlain t.run.pe started.run.pe :=
    (configMonitor_spec t.run.pe base defaultPartid pmg1 mon).1.plain.trans
      (writeMpam2_quiet _ _).same.plain
  obtain ⟨hLoop, hAdds⟩ := Traced.Adds.foldl (I := fun c : CsuRun => SamePlain t.run.pe c.pe)
    (f := fun t' (_ : Nat) => tracedSampleOnce env base mon node t') (l := List.range copies)
    (fun _ => readingUses 1 node mon) (fun _ _ t' hSame =>
      ⟨hSame.trans (sampleOnce_adds env base mon node t').1,
        (sampleOnce_adds env base mon node t').2⟩) hStarted
  refine ⟨hLoop, Traced.Adds.trans ?_ hAdds⟩
  have hConfigure : Traced.Adds MonitorUse.forget {.configure node mon defaultPartid pmg1} t
      configured := Traced.Adds.of_step t _ fun u => List.mem_singleton
  have hCell : Traced.Adds MonitorUse.forget {.cell 1 mon node} configured started :=
    Traced.Adds.of_step configured _ fun u => List.mem_singleton
  exact hConfigure.trans hCell

theorem second_adds (pmg2 : BitVec 8) (node : Nat) (t : CsuTrace) :
    SamePlain t.run.pe (tracedSecond env pmg2 base node mon t).run.pe ∧
      Traced.Adds MonitorUse.forget {.cell 2 mon node, .configure node mon defaultPartid pmg2} t
        (tracedSecond env pmg2 base node mon t) := by
  let other := t.step (fun c => (c.traffic c.mpam2El2 defaultPartid pmg2).record 2 mon node 0)
    [.cell 2 mon node]
  let reset := other.step (fun c => (allocBuffers env c).2.onPe (valCsumonResetMonitor base mon)) []
  let restored := reset.step (fun c => c.onPe (valCsumonRestoreCtlreg base mon)) []
  have hReset : SamePlain t.run.pe reset.run.pe :=
    (writeMpam2_quiet t.run.pe _).same.plain.trans (resetMonitor_quiet _ base mon).same.plain
  have hRestored : SamePlain t.run.pe restored.run.pe :=
    hReset.trans (restoreCtlreg_samePlain base mon reset.run.pe)
  refine ⟨hRestored.trans
    (configMonitor_spec restored.run.pe base defaultPartid pmg2 mon).1.plain, ?_⟩
  have hCell : Traced.Adds MonitorUse.forget {.cell 2 mon node} t other :=
    Traced.Adds.of_step t _ fun u => List.mem_singleton
  have hSilent : Traced.Adds MonitorUse.forget {.cell 2 mon node} t restored :=
    (hCell.trans_silent (.of_silent other _)).trans_silent (.of_silent reset _)
  have hConfigure : Traced.Adds MonitorUse.forget {.configure node mon defaultPartid pmg2} restored
      (tracedSecond env pmg2 base node mon t) :=
    Traced.Adds.of_step restored _ fun u => List.mem_singleton
  exact hSilent.trans hConfigure

theorem sampleMonitor_adds (copies : Nat) (pmg1 pmg2 : BitVec 8) (node : Nat) (t : CsuTrace) :
    SamePlain t.run.pe (tracedSampleMonitor env copies pmg1 pmg2 base node t mon).run.pe ∧
      Traced.Adds MonitorUse.forget (m003Uses pmg1 pmg2 node mon) t
        (tracedSampleMonitor env copies pmg1 pmg2 base node t mon) := by
  obtain ⟨hLooped, hLoopAdds⟩ := deviation_adds env base mon copies pmg1 node t
  obtain ⟨hSecond, hSecondAdds⟩ := second_adds env base mon pmg2 node
    (tracedDeviation env copies pmg1 base node mon t)
  obtain ⟨hRecord, hRecordAdds⟩ := recordMin_adds env base mon 2 node
    (tracedSecond env pmg2 base node mon (tracedDeviation env copies pmg1 base node mon t))
  refine ⟨((hLooped.trans hSecond).trans hRecord).trans (restoreCtlreg_samePlain base mon _), ?_⟩
  have hAll := ((hLoopAdds.trans hSecondAdds).trans hRecordAdds).trans_silent
    (Traced.Adds.of_silent _ fun c => c.onPe (valCsumonRestoreCtlreg base mon))
  rw [m003Uses_eq pmg1 pmg2 node mon copies]
  exact hAll

/-- The uses of the monitors of a node. -/
def nodeUses (s : PeState) (pmg1 pmg2 : BitVec 8) (n : BitVec 64 × Nat) : Set MonitorUse :=
  {u | ∃ mon ∈ monitors (valCsumonMonitorCount (s.mmio n.1)), u ∈ m003Uses pmg1 pmg2 n.2 mon}

theorem SamePlain.csumonCount {s s' : PeState} (h : SamePlain s s') (base : BitVec 64) :
    valCsumonMonitorCount (s'.mmio base) = valCsumonMonitorCount (s.mmio base) := by
  have hIdr := h.read base (o := regMpamfCsumonIdr) (by decide) (by decide) (by decide)
  rw [valCsumonMonitorCount, valCsumonMonitorCount, h.supportsCsumon base, hIdr]

theorem sampleNode_adds (copies : Nat) (pmg1 pmg2 : BitVec 8) (n : BitVec 64 × Nat)
    {s : PeState} (t : CsuTrace) (hStart : SamePlain s t.run.pe) :
    SamePlain s (tracedSampleNode env nodes copies pmg1 pmg2 t n).run.pe ∧
      Traced.Adds MonitorUse.forget (nodeUses s pmg1 pmg2 n) t
        (tracedSampleNode env nodes copies pmg1 pmg2 t n) := by
  let partitioned := t.step (fun c => c.onPe (partitionNodes nodes n.2)) []
  have hPartitioned : SamePlain s partitioned.run.pe :=
    hStart.trans (partitionNodes_quiet nodes n.2 t.run.pe).same.plain
  obtain ⟨hLoop, hAdds⟩ := Traced.Adds.foldl (I := fun c : CsuRun => SamePlain s c.pe)
    (f := tracedSampleMonitor env copies pmg1 pmg2 n.1 n.2)
    (l := monitors (valCsumonMonitorCount (partitioned.run.pe.mmio n.1)))
    (fun mon => m003Uses pmg1 pmg2 n.2 mon) (fun mon _ t' hSame =>
      ⟨hSame.trans (sampleMonitor_adds env n.1 mon copies pmg1 pmg2 n.2 t').1,
        (sampleMonitor_adds env n.1 mon copies pmg1 pmg2 n.2 t').2⟩) hPartitioned
  refine ⟨hLoop, ?_⟩
  rw [nodeUses, ← hPartitioned.csumonCount]
  exact (Traced.Adds.of_silent t _).silent_trans hAdds

/-- The uses of all nodes. -/
def allM003Uses (pe : PeState) : Set MonitorUse :=
  {u | ∃ n ∈ nodes.zipIdx, u ∈ nodeUses pe (minmaxPmg (fun _ => true) nodes pe)
    (minmaxPmg (fun _ => true) nodes pe - 1) n}

theorem m003_adds (copies : Nat) (pe : PeState) (hCount : maxMoncnt (fun _ => true) nodes pe ≠ 0) :
    Traced.Adds MonitorUse.forget (allM003Uses nodes pe) (Traced.start (CsuRun.start pe))
      (tracedM003 env nodes copies pe) := by
  let start : CsuTrace := (Traced.start (CsuRun.start pe)).step
    (fun c => { c with mpam2El2 := pe.mpam2El2 }) []
  have hStart : SamePlain pe start.run.pe := fun _ _ _ _ => rfl
  obtain ⟨hDone, hAdds⟩ := Traced.Adds.foldl (I := fun c : CsuRun => SamePlain pe c.pe)
    (l := nodes.zipIdx) (nodeUses pe (minmaxPmg (fun _ => true) nodes pe)
      (minmaxPmg (fun _ => true) nodes pe - 1))
    (fun n _ t hSame => sampleNode_adds env nodes copies (minmaxPmg (fun _ => true) nodes pe)
      (minmaxPmg (fun _ => true) nodes pe - 1) n t hSame) hStart
  rw [tracedM003]
  dsimp only
  rw [if_neg hCount]
  refine hAdds.enclose _ _ ?_
  intro u hUse
  obtain ⟨⟨node, mon⟩, hVisit, hCell⟩ := mem_compareCells hUse
  obtain ⟨⟨base, node'⟩, hMem, hMon⟩ := List.mem_flatMap.mp hVisit
  obtain ⟨mon', hMon, hEq⟩ := List.mem_map.mp hMon
  cases hEq
  have hExists : mon ∈ monitors (valCsumonMonitorCount (pe.mmio base)) := by
    rw [← (hDone.trans (writeMpam2_quiet _ pe.mpam2El2).same.plain).csumonCount base]
    exact hMon
  refine ⟨(base, node'), hMem, mon, hExists, ?_⟩
  rcases List.mem_cons.mp hCell with rfl | hSecond
  · simp [MonitorUse.forget, m003Uses]
  · rw [List.mem_singleton.mp hSecond]
    simp [MonitorUse.forget, m003Uses]

end Sampling

/-! ## Uses in range -/

/-- The node has the monitor. -/
def MonitorExists (nodes : List (BitVec 64)) (pe : PeState) (node : Nat) (mon : BitVec 16) : Prop :=
  ∃ base, nodes[node]? = some base ∧ mon < valCsumonMonitorCount (pe.mmio base)

/-- The node has the monitor that is configured or read, and the arrays have the cell. -/
def UseInRange (nodes : List (BitVec 64)) (pe : PeState) : MonitorUse → Prop
  | .configure node mon _ _ => MonitorExists nodes pe node mon
  | .read node mon _ => MonitorExists nodes pe node mon
  | .cell _ mon node => mon.toNat < monCntMax ∧ node < nodeCntMax

/-- Every use of a test is in range. -/
def UsesInRange (nodes : List (BitVec 64)) (pe : PeState) (t : CsuTrace) : Prop :=
  ∀ use ∈ t.trace, UseInRange nodes pe use

/-- Every monitor below the largest count exists on every measured node, and the arrays are large
enough for the monitors and for the measured nodes. -/
def PmgFits (p : Partitioning) (nodes : List (BitVec 64)) (pe : PeState) : Prop :=
  maxMoncnt p.supports nodes pe = 0 ∨
    ∀ n ∈ nodes.zipIdx, p.measured (pe.mmio n.1) = true →
      maxMoncnt p.supports nodes pe ≤ valCsumonMonitorCount (pe.mmio n.1) ∧
        (maxMoncnt p.supports nodes pe).toNat ≤ monCntMax ∧ n.2 < nodeCntMax

/-- The arrays are large enough for every node that has monitors. -/
def M003Fits (nodes : List (BitVec 64)) (pe : PeState) : Prop :=
  ∀ n ∈ nodes.zipIdx, valCsumonMonitorCount (pe.mmio n.1) ≠ 0 →
    (valCsumonMonitorCount (pe.mmio n.1)).toNat ≤ monCntMax ∧ n.2 < nodeCntMax

def TestFits (nodes : List (BitVec 64)) (pe : PeState) : CsuTest → Prop
  | .m001 => PmgFits .cpor nodes pe
  | .m002 => PmgFits .ccap nodes pe
  | .m003 => M003Fits nodes pe

section Ranges

variable (env : CsuEnv) (nodes : List (BitVec 64)) (pe : PeState)

theorem useInRange_forget (use : MonitorUse) :
    UseInRange nodes pe use ↔ UseInRange nodes pe use.forget := by
  cases use with
  | configure node mon partid pmg => exact Iff.rfl
  | read node mon value => exact Iff.rfl
  | cell which mon node => exact Iff.rfl

/-- The monitor of a node is in range, and so are its cells. -/
def MonitorInRange (n : BitVec 64 × Nat) (mon : BitVec 16) : Prop :=
  mon < valCsumonMonitorCount (pe.mmio n.1) ∧ mon.toNat < monCntMax ∧ n.2 < nodeCntMax

variable {nodes} in
theorem monitorExists_iff {n : BitVec 64 × Nat} (hMem : n ∈ nodes.zipIdx) (mon : BitVec 16) :
    MonitorExists nodes pe n.2 mon ↔ mon < valCsumonMonitorCount (pe.mmio n.1) := by
  have hNode := List.mk_mem_zipIdx_iff_getElem?.mp hMem
  rw [MonitorExists, hNode]
  simp only [Option.some.injEq, exists_eq_left']

variable {nodes} in
theorem pmgUses_inRange_iff {n : BitVec 64 × Nat} (hMem : n ∈ nodes.zipIdx) (partid : BitVec 16)
    (pmg : BitVec 8) (mon : BitVec 16) :
    (∀ u ∈ pmgUses partid pmg n.2 mon, UseInRange nodes pe u) ↔ MonitorInRange pe n mon := by
  simp only [pmgUses, Set.mem_insert_iff, Set.mem_singleton_iff, forall_eq_or_imp, forall_eq,
    UseInRange, monitorExists_iff pe hMem, MonitorInRange]
  tauto

variable {nodes} in
theorem m003Uses_inRange_iff {n : BitVec 64 × Nat} (hMem : n ∈ nodes.zipIdx) (pmg1 pmg2 : BitVec 8)
    (mon : BitVec 16) :
    (∀ u ∈ m003Uses pmg1 pmg2 n.2 mon, UseInRange nodes pe u) ↔ MonitorInRange pe n mon := by
  simp only [m003Uses, Set.mem_insert_iff, Set.mem_singleton_iff, forall_eq_or_imp, forall_eq,
    UseInRange, monitorExists_iff pe hMem, MonitorInRange]
  tauto

/-- All monitors below a count are in range. -/
theorem monitors_inRange_iff {count : BitVec 16} (hCount : count ≠ 0) (n : BitVec 64 × Nat) :
    (∀ mon ∈ monitors count, MonitorInRange pe n mon) ↔
      count ≤ valCsumonMonitorCount (pe.mmio n.1) ∧ count.toNat ≤ monCntMax ∧ n.2 < nodeCntMax := by
  have hPos : 0 < count.toNat := Nat.pos_of_ne_zero fun h => hCount (BitVec.eq_of_toNat_eq h)
  have hLt := count.isLt
  apply Iff.intro
  · intro h
    have hLast : (count - 1).toNat = count.toNat - 1 := by
      rw [BitVec.toNat_sub, show (1 : BitVec 16).toNat = 1 from rfl]
      omega
    obtain ⟨hExists, hRow, hColumn⟩ := h (count - 1) (mem_monitors.mpr (by
      rw [BitVec.lt_def, hLast]
      omega))
    rw [BitVec.lt_def, hLast] at hExists
    rw [hLast] at hRow
    exact ⟨by rw [BitVec.le_def]; omega, by omega, hColumn⟩
  · rintro ⟨hExists, hRow, hColumn⟩ mon hMon
    have hMonLt : mon.toNat < count.toNat := mem_monitors.mp hMon
    exact ⟨Nat.lt_of_lt_of_le hMonLt hExists, by omega, hColumn⟩

theorem pmg_inRange_iff (p : Partitioning) (test : BitVec 32) :
    UsesInRange nodes pe (tracedPmgPayload env p nodes test pe) ↔ PmgFits p nodes pe := by
  rw [PmgFits]
  by_cases hCount : maxMoncnt p.supports nodes pe = 0
  · refine iff_of_true ?_ (Or.inl hCount)
    rw [tracedPmgPayload]
    dsimp only
    rw [if_pos hCount]
    exact fun u hu => absurd hu List.not_mem_nil
  · have hUses := (pmgPayload_adds env p nodes test pe hCount).forall_iff rfl
      (useInRange_forget nodes pe)
    rw [UsesInRange, hUses, or_iff_right hCount]
    have hNode : ∀ n ∈ nodes.zipIdx,
        ((∀ mon ∈ monitors (maxMoncnt p.supports nodes pe), MonitorInRange pe n mon) ↔ _) :=
      fun n _ => monitors_inRange_iff pe hCount n
    apply Iff.intro
    · intro h n hMem hMeasured
      refine (hNode n hMem).mp fun mon hMon => ?_
      exact (pmgUses_inRange_iff pe hMem _ _ mon).mp fun u hu =>
        h u ⟨mon, hMon, n, hMem, hMeasured, hu⟩
    · rintro h u ⟨mon, hMon, n, hMem, hMeasured, hu⟩
      exact (pmgUses_inRange_iff pe hMem _ _ mon).mpr
        ((hNode n hMem).mpr (h n hMem hMeasured) mon hMon) u hu

/-- Without a monitor on any node every count is zero. -/
theorem count_eq_zero_of_skip (hCount : maxMoncnt (fun _ => true) nodes pe = 0)
    {base : BitVec 64} (hMem : base ∈ nodes) : valCsumonMonitorCount (pe.mmio base) = 0 := by
  by_cases hCsumon : valCacheSupportsCsumon (pe.mmio base) = true
  · have hLe : valCsumonMonitorCount (pe.mmio base) ≤ maxMoncnt (fun _ => true) nodes pe :=
      count_le_maxMoncnt nodes pe hMem hCsumon
    rw [hCount] at hLe
    exact BitVec.eq_of_toNat_eq (Nat.le_zero.mp hLe)
  · rw [valCsumonMonitorCount, if_neg hCsumon]

theorem m003_inRange_iff (copies : Nat) :
    UsesInRange nodes pe (tracedM003 env nodes copies pe) ↔ M003Fits nodes pe := by
  by_cases hCount : maxMoncnt (fun _ => true) nodes pe = 0
  · refine iff_of_true ?_ fun n hMem hSome => ?_
    · rw [tracedM003]
      dsimp only
      rw [if_pos hCount]
      exact fun u hu => absurd hu List.not_mem_nil
    · exact absurd (count_eq_zero_of_skip nodes pe hCount (List.fst_mem_of_mem_zipIdx hMem)) hSome
  · have hUses := (m003_adds env nodes copies pe hCount).forall_iff rfl (useInRange_forget nodes pe)
    rw [UsesInRange, hUses]
    apply Iff.intro
    · intro h n hMem hSome
      refine ((monitors_inRange_iff pe hSome n).mp fun mon hMon => ?_).2
      exact (m003Uses_inRange_iff pe hMem _ _ mon).mp fun u hu => h u ⟨n, hMem, mon, hMon, hu⟩
    · rintro h u ⟨n, hMem, mon, hMon, hu⟩
      have hSome : valCsumonMonitorCount (pe.mmio n.1) ≠ 0 := by
        intro hZero
        rw [hZero] at hMon
        exact absurd (mem_monitors.mp hMon) (Nat.not_lt_zero _)
      exact (m003Uses_inRange_iff pe hMem _ _ mon).mpr
        ((monitors_inRange_iff pe hSome n).mpr ⟨BitVec.le_refl _, h n hMem hSome⟩ mon hMon) u hu

end Ranges

/-- The uses of a test are in range exactly when its arrays are large enough, and, for m001 and
m002, every measured node has as many monitors as the node with the most. -/
theorem monitors_in_range_iff (id : CsuTest) (env : CsuEnv) (nodes : List (BitVec 64))
    (pe : PeState) :
    UsesInRange nodes pe (tracedCsuPayload env nodes id pe) ↔ TestFits nodes pe id := by
  cases id with
  | m001 => exact pmg_inRange_iff env nodes pe .cpor _
  | m002 => exact pmg_inRange_iff env nodes pe .ccap _
  | m003 => exact m003_inRange_iff env nodes pe maxDeviationCnt

/-- A cache with portions, and with one or two monitors. -/
def monitorPage (count : BitVec 32) : NodeRegs where
  plain offset :=
    if offset = regMpamfIdr then 0x42000000
    else if offset = regMpamfMsmonIdr then 0x10000
    else if offset = regMpamfCsumonIdr then count
    else 0
  byPartid _ _ := 0
  byMonitor _ _ := 0

def unequalPe : PeState :=
  { quietPe with mmio := fun base => monitorPage (if base = 0x10000 then 1 else 2) }

/-- The second monitor is configured on both nodes, and the first node does not have it. -/
theorem unequal_nodes_overrun :
    ¬ UsesInRange [0x10000, 0x20000] unequalPe
      (tracedCsuPayload ⟨fun _ => 0, fun _ => false⟩ [0x10000, 0x20000] .m001 unequalPe) := by
  have hMeasured : Partitioning.cpor.measured (unequalPe.mmio 0x10000) = true := by decide
  have hCount : ¬ maxMoncnt Partitioning.cpor.supports [0x10000, 0x20000] unequalPe ≤
      valCsumonMonitorCount (unequalPe.mmio 0x10000) := by decide
  rw [tracedCsuPayload, pmg_inRange_iff]
  rintro (hNone | hAll)
  · exact absurd hNone (by decide)
  · exact hCount (hAll (0x10000, 0) List.mem_cons_self hMeasured).1

end EnterpriseAcs.Mpam
