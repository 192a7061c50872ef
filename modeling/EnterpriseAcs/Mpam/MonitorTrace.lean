import EnterpriseAcs.Library.Traced
import EnterpriseAcs.Mpam.CsuRestore

/-!
# What the monitor tests use

The payloads of m001, m002 and m003 once more, traced: which monitors of which nodes they configure
and read, which cells of the two arrays they access, and what they read of a monitor in the
deviation loop of m003. The number of copies in that loop is a parameter here.

* `tracedCsuPayload_run`: without their traces they are the payloads.
* `pmgPayload_adds`, `m003_adds`: what they use.
-/

namespace EnterpriseAcs.Mpam

/-! ## Events -/

/-- A monitor is configured for a partid and a PMG, or read; a cell of one of the two arrays is
accessed. Nodes are given by their index. -/
inductive MonitorUse
  | configure (node : Nat) (mon : BitVec 16) (partid : BitVec 16) (pmg : BitVec 8)
  | read (node : Nat) (mon : BitVec 16) (value : BitVec 32)
  | cell (which : Nat) (mon : BitVec 16) (node : Nat)
  deriving DecidableEq, Repr

abbrev CsuTrace := Traced CsuRun MonitorUse

section Program

variable (env : CsuEnv)

/-- What `val_csumon_storage_value` returns at a time. -/
def usageAt (time : Nat) : BitVec 32 :=
  if env.reading time >>> 31 &&& 1 = 1 then 0 else env.reading time &&& 0x7fffffff

/-- A comparison of cells, one visit after the other; a visit says whether the test fails there,
and which cells it looks at. -/
def compareCells {α : Type} (visit : α → Bool × List MonitorUse) : List α → List MonitorUse
  | [] => []
  | a :: as => (visit a).2 ++ if (visit a).1 then [] else compareCells visit as

/-! ## The tests m001 and m002 -/

variable (p : Partitioning) (nodes : List (BitVec 64))

def tracedConfigMonitors (partid : BitVec 16) (pmg : BitVec 8) (mon : BitVec 16) (t : CsuTrace) :
    CsuTrace :=
  nodes.zipIdx.foldl (fun t (base, node) =>
    if p.measured (t.run.pe.mmio base) then
      t.step (fun c => c.onPe (valCsumonConfigMonitor base partid pmg mon))
        [.configure node mon partid pmg]
    else t) t

def tracedReadMonitors (which : Nat) (mon : BitVec 16) (t : CsuTrace) : CsuTrace :=
  nodes.zipIdx.foldl (fun t (base, node) =>
    if p.measured (t.run.pe.mmio base) then
      t.step (fun c =>
        let (value, c) := valCsumonStorageValue env base mon c
        c.record which mon node value)
        [.read node mon (usageAt env t.run.time), .cell which mon node]
    else t) t

def tracedMeasureMonitor (test : BitVec 32) (partid : BitVec 16) (pmg1 pmg2 : BitVec 8)
    (temp : BitVec 64) (t : CsuTrace) (mon : BitVec 16) : CsuTrace :=
  let t := tracedConfigMonitors p nodes partid pmg1 mon t
  let t := t.step (fun c =>
    let (failed, c) := allocBuffers env c
    if failed then { c with status := resultFail test 1 } else c) []
  let t := t.step (fun c => c.traffic c.mpam2El2 partid pmg2) []
  let t := tracedReadMonitors env p nodes 2 mon t
  let t := t.step (fun c => c.traffic temp partid pmg1) []
  tracedReadMonitors env p nodes 1 mon t

/-- One visit of the loops that compare: the second cell is looked at unless the first one
decides. -/
def comparePmg (c : CsuRun) : BitVec 16 × BitVec 64 × Nat → Bool × List MonitorUse
  | (mon, base, node) =>
    if p.measured (c.pe.mmio base) then
      if c.storageValue 1 mon node = 0 then (true, [.cell 1 mon node])
      else (c.storageValue 2 mon node ≠ 0, [.cell 1 mon node, .cell 2 mon node])
    else (false, [])

def tracedPmgPayload (test : BitVec 32) (pe : PeState) : CsuTrace :=
  let partid := minmaxPartid nodes [] pe
  let pmg := minmaxPmg p.supports nodes pe
  let count := maxMoncnt p.supports nodes pe
  let t : CsuTrace := Traced.start (CsuRun.start pe)
  if count = 0 then t.step (fun c => { c with status := resultSkip test 0 }) []
  else
    let t := t.step (fun c =>
      let c := c.onPe (nodes.foldl fun pe base => pe.onNode base (p.configure partid))
      { c with mpam2El2 := c.pe.mpam2El2 }) []
    let temp := t.run.pe.mpam2El2
    let t := (monitors count).foldl
      (tracedMeasureMonitor env p nodes test partid pmg (pmg - 1) temp) t
    let t := t.step (fun c => c.onPe fun pe => pe.writeMpam2 temp) []
    t.step (fun c =>
      { c with
        status := if usageWrong p nodes count c then resultFail test 1 else resultPass test 1 })
      (compareCells (comparePmg p t.run)
        ((monitors count).flatMap fun mon => nodes.zipIdx.map fun n => (mon, n)))

/-! ## The test m003 -/

/-- The macro: the monitor is read a second time where the first reading is the smaller one. -/
def tracedRecordMin (which : Nat) (base : BitVec 64) (mon : BitVec 16) (node : Nat)
    (t : CsuTrace) : CsuTrace :=
  let first := usageAt env t.run.time
  let again := usageAt env (t.run.time + 1)
  t.step (recordMin env which base mon node)
    (if t.run.storageValue which mon node > first then
      [.cell which mon node, .read node mon first, .read node mon again]
    else [.cell which mon node, .read node mon first])

def tracedSampleOnce (base : BitVec 64) (mon : BitVec 16) (node : Nat) (t : CsuTrace) : CsuTrace :=
  let t := t.step (fun c =>
    let (failed, c) := allocBuffers env c
    let c := if failed then
        { c with pe := valCsumonRestoreCtlreg base mon c.pe, status := resultFail testm003 1 }
      else c
    c.onPe (valCsumonResetMonitor base mon)) []
  tracedRecordMin env 1 base mon node t

/-- The first configuration of a monitor, and the deviation loop. -/
def tracedDeviation (copies : Nat) (pmg1 : BitVec 8) (base : BitVec 64) (node : Nat)
    (mon : BitVec 16) (t : CsuTrace) : CsuTrace :=
  let t := t.step (fun c => c.onPe (valCsumonConfigMonitor base defaultPartid pmg1 mon))
    [.configure node mon defaultPartid pmg1]
  let t := t.step (fun c => (c.traffic c.mpam2El2 defaultPartid pmg1).record 1 mon node 0)
    [.cell 1 mon node]
  (List.range copies).foldl (fun t _ => tracedSampleOnce env base mon node t) t

/-- The second configuration, up to it. -/
def tracedSecond (pmg2 : BitVec 8) (base : BitVec 64) (node : Nat) (mon : BitVec 16)
    (t : CsuTrace) : CsuTrace :=
  let t := t.step (fun c => (c.traffic c.mpam2El2 defaultPartid pmg2).record 2 mon node 0)
    [.cell 2 mon node]
  let t := t.step (fun c => (allocBuffers env c).2.onPe (valCsumonResetMonitor base mon)) []
  let t := t.step (fun c => c.onPe (valCsumonRestoreCtlreg base mon)) []
  t.step (fun c => c.onPe (valCsumonConfigMonitor base defaultPartid pmg2 mon))
    [.configure node mon defaultPartid pmg2]

def tracedSampleMonitor (copies : Nat) (pmg1 pmg2 : BitVec 8) (base : BitVec 64) (node : Nat)
    (t : CsuTrace) (mon : BitVec 16) : CsuTrace :=
  let t := tracedDeviation env copies pmg1 base node mon t
  let t := tracedSecond env pmg2 base node mon t
  let t := tracedRecordMin env 2 base mon node t
  t.step (fun c => c.onPe (valCsumonRestoreCtlreg base mon)) []

def tracedSampleNode (copies : Nat) (pmg1 pmg2 : BitVec 8) (t : CsuTrace)
    (indexed : BitVec 64 × Nat) : CsuTrace :=
  let (base, node) := indexed
  let t := t.step (fun c => c.onPe (partitionNodes nodes node)) []
  (monitors (valCsumonMonitorCount (t.run.pe.mmio base))).foldl
    (tracedSampleMonitor env copies pmg1 pmg2 base node) t

def compareDeviation (c : CsuRun) : Nat × BitVec 16 → Bool × List MonitorUse
  | (node, mon) =>
    (c.storageValue 1 mon node > c.storageValue 2 mon node, [.cell 1 mon node, .cell 2 mon node])

def tracedM003 (copies : Nat) (pe : PeState) : CsuTrace :=
  let pmg := minmaxPmg (fun _ => true) nodes pe
  let t : CsuTrace := Traced.start (CsuRun.start pe)
  if maxMoncnt (fun _ => true) nodes pe = 0 then
    t.step (fun c => { c with status := resultSkip testm003 0 }) []
  else
    let temp := pe.mpam2El2
    let t := t.step (fun c => { c with mpam2El2 := temp }) []
    let t := nodes.zipIdx.foldl (tracedSampleNode env nodes copies pmg (pmg - 1)) t
    let t := t.step (fun c => c.onPe fun pe => pe.writeMpam2 temp) []
    t.step (fun c =>
      { c with
        status := if usageDisturbed nodes c then resultFail testm003 1
          else resultPass testm003 1 })
      (compareCells (compareDeviation t.run) (nodes.zipIdx.flatMap fun (base, node) =>
        (monitors (valCsumonMonitorCount (t.run.pe.mmio base))).map fun mon => (node, mon)))

/-- `MAX_DEVIATION_CNT`. -/
def maxDeviationCnt : Nat := 10

def tracedCsuPayload : CsuTest → PeState → CsuTrace
  | .m001 => tracedPmgPayload env .cpor nodes (acsCsumonTestNumBase + 1)
  | .m002 => tracedPmgPayload env .ccap nodes (acsCsumonTestNumBase + 2)
  | .m003 => tracedM003 env nodes maxDeviationCnt

end Program

/-! ## The payloads without their traces -/

section Erasure

variable (env : CsuEnv) (p : Partitioning) (nodes : List (BitVec 64))

theorem onPe_foldl {α : Type} (f : PeState → α → PeState) (l : List α) (c : CsuRun) :
    c.onPe (l.foldl f) = l.foldl (fun c a => c.onPe fun pe => f pe a) c := by
  induction l generalizing c with
  | nil => rfl
  | cons a l ih => rw [List.foldl_cons, ← ih]; rfl

theorem configMonitors_run (partid : BitVec 16) (pmg : BitVec 8) (mon : BitVec 16)
    (t : CsuTrace) :
    (tracedConfigMonitors p nodes partid pmg mon t).run =
      t.run.onPe (configMonitors p nodes partid pmg mon) := by
  have hLoop := Traced.run_foldl (f := fun (t : CsuTrace) (n : BitVec 64 × Nat) =>
      if p.measured (t.run.pe.mmio n.1) then
        t.step (fun c => c.onPe (valCsumonConfigMonitor n.1 partid pmg mon))
          [.configure n.2 mon partid pmg]
      else t)
    (g := fun c n => c.onPe fun pe => if p.measured (pe.mmio n.1) then
      valCsumonConfigMonitor n.1 partid pmg mon pe else pe) (by
        intro t n
        split
        · rename_i hMeasured
          rw [Traced.run_step, CsuRun.onPe, CsuRun.onPe, if_pos hMeasured]
        · rename_i hOther
          rw [CsuRun.onPe, if_neg hOther]) nodes.zipIdx t
  refine hLoop.trans ?_
  rw [← onPe_foldl]
  congr 1
  funext pe
  rw [configMonitors, ← List.zipIdx_map_fst 0 nodes, List.foldl_map, List.zipIdx_map_fst]

theorem readMonitors_run (which : Nat) (mon : BitVec 16) (t : CsuTrace) :
    (tracedReadMonitors env p nodes which mon t).run =
      readMonitors env p nodes which mon t.run := by
  apply Traced.run_foldl
  rintro t ⟨base, node⟩
  dsimp only
  split
  · rfl
  · rfl

theorem measureMonitor_run (test : BitVec 32) (partid : BitVec 16) (pmg1 pmg2 : BitVec 8)
    (temp : BitVec 64) (t : CsuTrace) (mon : BitVec 16) :
    (tracedMeasureMonitor env p nodes test partid pmg1 pmg2 temp t mon).run =
      measureMonitor env p nodes test partid pmg1 pmg2 temp t.run mon := by
  rw [tracedMeasureMonitor, measureMonitor]
  dsimp only
  rw [readMonitors_run, Traced.run_step, readMonitors_run, Traced.run_step, Traced.run_step,
    configMonitors_run]

theorem pmgPayload_run (test : BitVec 32) (pe : PeState) :
    (tracedPmgPayload env p nodes test pe).run = pmgPayload env p nodes test pe := by
  rw [tracedPmgPayload, pmgPayload]
  dsimp only
  split
  · rfl
  · rw [Traced.run_step, Traced.run_step, Traced.run_foldl
      (measureMonitor_run env p nodes test _ _ _ _)]
    rfl

theorem sampleOnce_run (base : BitVec 64) (mon : BitVec 16) (node : Nat) (t : CsuTrace) :
    (tracedSampleOnce env base mon node t).run = sampleOnce env base mon node t.run := rfl

theorem sampleMonitor_run (pmg1 pmg2 : BitVec 8) (base : BitVec 64) (node : Nat) (t : CsuTrace)
    (mon : BitVec 16) :
    (tracedSampleMonitor env maxDeviationCnt pmg1 pmg2 base node t mon).run =
      sampleMonitor env pmg1 pmg2 base node t.run mon := by
  rw [tracedSampleMonitor, tracedSecond, tracedDeviation, sampleMonitor, maxDeviationCnt]
  dsimp only [tracedRecordMin, Traced.run_step]
  rw [Traced.run_foldl (g := fun c _ => sampleOnce env base mon node c) fun t _ =>
    sampleOnce_run env base mon node t]
  rfl

theorem sampleNode_run (pmg1 pmg2 : BitVec 8) (t : CsuTrace) (indexed : BitVec 64 × Nat) :
    (tracedSampleNode env nodes maxDeviationCnt pmg1 pmg2 t indexed).run =
      sampleNode env nodes pmg1 pmg2 t.run indexed := by
  rw [tracedSampleNode, sampleNode,
    Traced.run_foldl (sampleMonitor_run env pmg1 pmg2 indexed.1 indexed.2)]
  rfl

theorem m003_run (pe : PeState) :
    (tracedM003 env nodes maxDeviationCnt pe).run = payloadM003 env nodes pe := by
  rw [tracedM003, payloadM003]
  dsimp only
  split
  · rfl
  · rw [Traced.run_step, Traced.run_step, Traced.run_foldl (sampleNode_run env nodes _ _)]
    rfl

theorem tracedCsuPayload_run (id : CsuTest) (pe : PeState) :
    (tracedCsuPayload env nodes id pe).run = runCsuPayload env nodes id pe := by
  cases id with
  | m001 => exact pmgPayload_run env .cpor nodes _ pe
  | m002 => exact pmgPayload_run env .ccap nodes _ pe
  | m003 => exact m003_run env nodes pe

end Erasure

end EnterpriseAcs.Mpam
