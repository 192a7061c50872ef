import EnterpriseAcs.Library.Traced
import EnterpriseAcs.Mpam.CacheNodes
import EnterpriseAcs.Mpam.CsuRestore

/-!
# The cache partitioning tests

The tests c002 to c006 program the cache nodes for a share of the cache and measure how long a
copy takes. The size of the copy comes from the largest cache under test. The tests c005 and c006
use two partids, the smallest largest one of any node and the one below it. Latencies and
failures of the allocation are parameters, and the payloads are traced.

* `programNodes_adds`: which nodes are programmed for a partid.
* `cachePayload_adds`: what a payload programs, and the sizes that it asks for.
-/

namespace EnterpriseAcs.Mpam

/-! ## The tests -/

inductive CacheTest
  | c002
  | c003
  | c004
  | c005
  | c006
  deriving DecidableEq, Repr

/-- A row of the table of a test. The two percentages are for CCAP and CPOR in c004, and for the
two partids in c005 and c006; c002 and c003 only have the first one. -/
structure CacheConfig where
  partition1Percent : BitVec 8
  partition2Percent : BitVec 8
  cachePercent : BitVec 8
  configEnable : Bool
  deriving DecidableEq, Repr

/-- The portions of a partid, its capacity not limited. -/
def partitionCpor (partid : BitVec 16) (percent : BitVec 8) (r : NodeRegs) : NodeRegs :=
  let r := if valCacheSupportsCpor r then valCacheConfigureCpor partid (percent.setWidth 32) r
    else r
  if valCacheSupportsCcap r.msc then r.configureCcap partid 0 100 else r

/-- The capacity of a partid, its portions not limited. -/
def partitionCcap (partid : BitVec 16) (percent : BitVec 8) (r : NodeRegs) : NodeRegs :=
  let r := if valCacheSupportsCcap r.msc then r.configureCcap partid 1 (percent.setWidth 32)
    else r
  if valCacheSupportsCpor r then valCacheConfigureCpor partid 100 r else r

/-- Both, where a node has both. -/
def partitionBoth (partid : BitVec 16) (ccapPercent cporPercent : BitVec 8) (r : NodeRegs) :
    NodeRegs :=
  if valCacheSupportsCcap r.msc && valCacheSupportsCpor r then
    valCacheConfigureCpor partid (cporPercent.setWidth 32)
      (r.configureCcap partid 1 (ccapPercent.setWidth 32))
  else if valCacheSupportsCcap r.msc then r.configureCcap partid 0 100
  else if valCacheSupportsCpor r then valCacheConfigureCpor partid 100 r
  else r

namespace CacheTest

def num : CacheTest → BitVec 32
  | .c002 => acsCacheTestNumBase + 2
  | .c003 => acsCacheTestNumBase + 3
  | .c004 => acsCacheTestNumBase + 4
  | .c005 => acsCacheTestNumBase + 5
  | .c006 => acsCacheTestNumBase + 6

/-- The nodes that the test is about. -/
def supports : CacheTest → NodeRegs → Bool
  | .c002 | .c005 => valCacheSupportsCpor
  | .c003 | .c006 => fun r => valCacheSupportsCcap r.msc
  | .c004 => fun r => valCacheSupportsCcap r.msc && valCacheSupportsCpor r

def configData : CacheTest → List CacheConfig
  | .c002 | .c003 => [⟨75, 0, 75, true⟩, ⟨50, 0, 75, false⟩, ⟨25, 0, 75, true⟩]
  | .c004 => [⟨75, 75, 75, true⟩, ⟨75, 50, 75, false⟩, ⟨75, 25, 75, true⟩]
  | .c005 | .c006 => [⟨75, 50, 75, true⟩, ⟨75, 25, 75, false⟩]

/-- The partids that a row is about, and what is done to the nodes for each of them. -/
def programs (minmax : BitVec 16) (config : CacheConfig) :
    CacheTest → List (BitVec 16 × (NodeRegs → NodeRegs))
  | .c002 => [(minmax, partitionCpor minmax config.partition1Percent)]
  | .c003 => [(minmax, partitionCcap minmax config.partition1Percent)]
  | .c004 => [(minmax, partitionBoth minmax config.partition1Percent config.partition2Percent)]
  | .c005 =>
    [(minmax, partitionCpor minmax config.partition1Percent),
      (minmax - 1, partitionCpor (minmax - 1) config.partition2Percent)]
  | .c006 =>
    [(minmax, partitionCcap minmax config.partition1Percent),
      (minmax - 1, partitionCcap (minmax - 1) config.partition2Percent)]

/-- The tests that compare two partids, and not two rows. -/
def comparesPartids : CacheTest → Bool
  | .c002 | .c003 | .c004 => false
  | .c005 | .c006 => true

end CacheTest

/-! ## The machine during a test -/

/-- Whether one of the two buffers of a row cannot be allocated, and the latency of each copy that
a row measures. -/
structure CacheEnv where
  allocFails : Nat → Bool
  latency : Nat → Nat → BitVec 64

/-- The registers, the status of the PE and the latencies measured so far; c002 to c004 only have
the first list. -/
structure CacheRun where
  pe : PeState
  status : BitVec 32
  latency1 : List (BitVec 64)
  latency2 : List (BitVec 64)

def CacheRun.start (pe : PeState) : CacheRun where
  pe := pe
  status := 0
  latency1 := []
  latency2 := []

/-- A node, given by its index, is programmed for a partid; a buffer is asked for; a buffer is
copied. -/
inductive CacheEvent
  | configure (node : Nat) (partid : BitVec 16)
  | allocate (size : BitVec 64)
  | copy (size : BitVec 64)
  deriving DecidableEq, Repr

abbrev CacheTrace := Traced CacheRun CacheEvent

/-- Write `MPAM2_EL2` for the traffic of a partid. -/
def CacheRun.traffic (partid : BitVec 16) (c : CacheRun) : CacheRun :=
  { c with pe := c.pe.writeMpam2 (trafficMpam2 c.pe.mpam2El2 partid defaultPmg) }

/-- A node has something to program. -/
def programmed (r : NodeRegs) : Bool := valCacheSupportsCpor r || valCacheSupportsCcap r.msc

/-- `buf_size`: it has 64 bits, and is computed in 32. -/
def bufSize (maxsize : BitVec 32) (percent : BitVec 8) : BitVec 64 :=
  (maxsize * percent.setWidth 32 / 100 / 2).setWidth 64

/-! ## The payloads -/

section Program

variable (test : CacheTest) (env : CacheEnv) (caches : List CacheNodeEntry)

/-- The loop that computes the size of the largest cache that a test is about. -/
def cacheMaxsize (supports : NodeRegs → Bool) (pe : PeState) : BitVec 32 :=
  caches.foldl (fun maxsize n =>
    if supports (pe.mmio n.hwregBaseAddr) then if maxsize > n.size then maxsize else n.size
    else maxsize) 0

/-- A loop that programs the nodes for a partid. -/
def programNodes (partid : BitVec 16) (f : NodeRegs → NodeRegs) (t : CacheTrace) : CacheTrace :=
  caches.zipIdx.foldl (fun t (n, node) =>
    t.step (fun c => { c with pe := c.pe.onNode n.hwregBaseAddr f })
      (if programmed (t.run.pe.mmio n.hwregBaseAddr) then [.configure node partid] else [])) t

/-- The copies of a row. -/
def measureCopies (minmax : BitVec 16) (row : Nat) (size : BitVec 64) (t : CacheTrace) :
    CacheTrace :=
  match test with
  | .c002 | .c003 | .c004 =>
    t.step (fun c => { c with latency1 := c.latency1 ++ [env.latency row 0] })
      [.copy size, .copy size]
  | .c005 =>
    let t := t.step (CacheRun.traffic minmax) []
    let t := t.step (fun c => { c with latency1 := c.latency1 ++ [env.latency row 0] })
      [.copy size, .copy size]
    let t := t.step (CacheRun.traffic (minmax - 1)) []
    t.step (fun c => { c with latency2 := c.latency2 ++ [env.latency row 1] }) [.copy size]
  | .c006 =>
    let t := t.step (CacheRun.traffic minmax) []
    let t := t.step (fun c => { c with latency1 := c.latency1 ++ [env.latency row 0] })
      [.copy size, .copy size]
    let t := t.step (CacheRun.traffic (minmax - 1)) []
    t.step (fun c => { c with latency2 := c.latency2 ++ [env.latency row 1] })
      [.copy size, .copy size]

/-- The loop over the rows; it ends with whether all buffers were there. -/
def runRows (minmax : BitVec 16) (maxsize : BitVec 32) :
    List (CacheConfig × Nat) → CacheTrace → Bool × CacheTrace
  | [], t => (true, t)
  | (config, row) :: rows, t =>
    if config.configEnable then
      let t := (test.programs minmax config).foldl (fun t (partid, f) =>
        programNodes caches partid f t) t
      let size := bufSize maxsize config.cachePercent
      let t := t.step id [.allocate size, .allocate size]
      if env.allocFails row then (false, t)
      else runRows minmax maxsize rows (measureCopies test env minmax row size t)
    else runRows minmax maxsize rows t

/-- The comparison of the latencies; c006 leaves out the first row. -/
def latencyWrong (c : CacheRun) : Bool :=
  match test with
  | .c002 | .c003 | .c004 =>
    (c.latency1.tail.zip c.latency1).any fun (latency, previous) => latency < previous
  | .c005 => (c.latency1.zip c.latency2).any fun (latency1, latency2) => latency1 > latency2
  | .c006 =>
    ((c.latency1.zip c.latency2).drop 1).any fun (latency1, latency2) => latency1 > latency2

/-- c002 to c004 write `MPAM2_EL2` once, before the rows. -/
def startRows (minmax : BitVec 16) (t : CacheTrace) : CacheTrace :=
  if test.comparesPartids then t else t.step (CacheRun.traffic minmax) []

/-- What follows the rows; `temp` is `mpam2_el2_temp`. Without buffers c005 and c006 return with
the traffic as it is. -/
def finishRows (temp : BitVec 64) : Bool × CacheTrace → CacheTrace
  | (false, t) =>
    let t := t.step (fun c => { c with status := resultFail test.num 1 }) []
    if test.comparesPartids then t
    else t.step (fun c => { c with pe := c.pe.writeMpam2 temp }) []
  | (true, t) =>
    let t := t.step (fun c => { c with pe := c.pe.writeMpam2 temp }) []
    t.step (fun c =>
      { c with
        status := if latencyWrong test c then resultFail test.num 1 else resultPass test.num 1 })
      []

/-- `payload`. -/
def cachePayload (pe : PeState) : CacheTrace :=
  let minmax := minmaxPartid (caches.map CacheNodeEntry.hwregBaseAddr) [] pe
  let maxsize := cacheMaxsize caches test.supports pe
  let t : CacheTrace := Traced.start (CacheRun.start pe)
  if caches.all fun n => !test.supports (pe.mmio n.hwregBaseAddr) then
    t.step (fun c => { c with status := resultSkip test.num 0 }) []
  else
    finishRows test pe.mpam2El2
      (runRows test env caches minmax maxsize test.configData.zipIdx (startRows test minmax t))

end Program

/-! ## What is programmed -/

section Registers

variable {s s' : PeState} (base : BitVec 64)

theorem SamePlain.supportsCpor (h : SamePlain s s') :
    valCacheSupportsCpor (s'.mmio base) = valCacheSupportsCpor (s.mmio base) := by
  have hIdr := h.read base (o := regMpamfIdr) (by decide) (by decide) (by decide)
  rw [valCacheSupportsCpor, valCacheSupportsCpor, hIdr]

theorem SamePlain.supportsCcap (h : SamePlain s s') :
    valCacheSupportsCcap (s'.mmio base).msc = valCacheSupportsCcap (s.mmio base).msc := by
  have hIdr := h base regMpamfIdr (by decide) (by decide)
  simp only [valCacheSupportsCcap, NodeRegs.msc, hIdr]

theorem SamePlain.programmed (h : SamePlain s s') :
    programmed (s'.mmio base) = programmed (s.mmio base) := by
  rw [Mpam.programmed, Mpam.programmed, h.supportsCpor, h.supportsCcap]

theorem partitionCpor_keepsMonitors (partid : BitVec 16) (percent : BitVec 8) :
    KeepsMonitors (partitionCpor partid percent) :=
  ((ccap_keepsMonitors partid 0 100).ite fun r => valCacheSupportsCcap r.msc).comp
    ((cpor_keepsMonitors partid (percent.setWidth 32)).ite valCacheSupportsCpor)

theorem partitionCcap_keepsMonitors (partid : BitVec 16) (percent : BitVec 8) :
    KeepsMonitors (partitionCcap partid percent) :=
  ((cpor_keepsMonitors partid 100).ite valCacheSupportsCpor).comp
    ((ccap_keepsMonitors partid 1 (percent.setWidth 32)).ite fun r => valCacheSupportsCcap r.msc)

theorem partitionBoth_keepsMonitors (partid : BitVec 16) (ccapPercent cporPercent : BitVec 8) :
    KeepsMonitors (partitionBoth partid ccapPercent cporPercent) := by
  have hBoth := (cpor_keepsMonitors partid (cporPercent.setWidth 32)).comp
    (ccap_keepsMonitors partid 1 (ccapPercent.setWidth 32))
  have hCcap := ccap_keepsMonitors partid 0 100
  have hCpor := cpor_keepsMonitors partid 100
  refine ⟨fun r => ?_, fun r o hPart => ?_⟩
  · rw [partitionBoth]
    split
    · exact hBoth.monitors r
    · split
      · exact hCcap.monitors r
      · split
        · exact hCpor.monitors r
        · rfl
  · rw [partitionBoth]
    split
    · exact hBoth.plain r o hPart
    · split
      · exact hCcap.plain r o hPart
      · split
        · exact hCpor.plain r o hPart
        · rfl

/-- What the rows do to a node keeps its monitors. -/
theorem programs_keepMonitors (test : CacheTest) (minmax : BitVec 16) (config : CacheConfig) :
    ∀ prog ∈ test.programs minmax config, KeepsMonitors prog.2 := by
  intro prog hMem
  cases test with
  | c002 =>
    rw [List.mem_singleton.mp hMem]
    exact partitionCpor_keepsMonitors _ _
  | c003 =>
    rw [List.mem_singleton.mp hMem]
    exact partitionCcap_keepsMonitors _ _
  | c004 =>
    rw [List.mem_singleton.mp hMem]
    exact partitionBoth_keepsMonitors _ _ _
  | c005 =>
    rcases List.mem_pair.mp hMem with rfl | rfl
    · exact partitionCpor_keepsMonitors _ _
    · exact partitionCpor_keepsMonitors _ _
  | c006 =>
    rcases List.mem_pair.mp hMem with rfl | rfl
    · exact partitionCcap_keepsMonitors _ _
    · exact partitionCcap_keepsMonitors _ _

end Registers

section Runs

variable (test : CacheTest) (env : CacheEnv) (caches : List CacheNodeEntry) {pe : PeState}

/-- Every node that has something to program is programmed for the partid. -/
def programEvents (pe : PeState) (partid : BitVec 16) : Set CacheEvent :=
  {e | ∃ n ∈ caches.zipIdx,
    e ∈ {e | programmed (pe.mmio n.1.hwregBaseAddr) = true ∧ e = .configure n.2 partid}}

theorem programNodes_adds (partid : BitVec 16) {f : NodeRegs → NodeRegs} (hf : KeepsMonitors f)
    (t : CacheTrace) (hStart : SamePlain pe t.run.pe) :
    SamePlain pe (programNodes caches partid f t).run.pe ∧
      Traced.Adds id (programEvents caches pe partid) t (programNodes caches partid f t) := by
  refine Traced.Adds.foldl (I := fun c : CacheRun => SamePlain pe c.pe) _ ?_ hStart
  rintro ⟨n, node⟩ - t hSame
  refine ⟨hSame.trans (onNode_quiet t.run.pe _ hf.monitors hf.plain).same.plain, ?_⟩
  apply Traced.Adds.of_step
  intro e
  dsimp only
  rw [hSame.programmed, List.map_id]
  split
  · rename_i hProgrammed
    rw [List.mem_singleton]
    exact (and_iff_right hProgrammed).symm
  · rename_i hNone
    exact iff_of_false List.not_mem_nil fun h => hNone h.1

/-- What a row adds: it programs the nodes, asks for two buffers and, if it has them, copies. -/
def rowEvents (pe : PeState) (minmax : BitVec 16) (maxsize : BitVec 32)
    (row : CacheConfig × Nat) : Set CacheEvent :=
  {e | ∃ prog ∈ test.programs minmax row.1, e ∈ programEvents caches pe prog.1} ∪
    {.allocate (bufSize maxsize row.1.cachePercent)} ∪
      {e | env.allocFails row.2 = false ∧ e = .copy (bufSize maxsize row.1.cachePercent)}

theorem measureCopies_adds (minmax : BitVec 16) (row : Nat) (size : BitVec 64) (t : CacheTrace) :
    SamePlain t.run.pe (measureCopies test env minmax row size t).run.pe ∧
      Traced.Adds id {.copy size} t (measureCopies test env minmax row size t) := by
  refine ⟨?_, ?_⟩
  · cases test with
    | c002 | c003 | c004 | c005 | c006 => exact fun _ _ _ _ => rfl
  · have hPair : ∀ e, e ∈ [CacheEvent.copy size, .copy size].map id ↔
        e ∈ ({.copy size} : Set CacheEvent) := by
      intro e
      rw [List.map_id, List.mem_pair, or_self, Set.mem_singleton_iff]
    -- The traffic is silent, and the copies are all of one size.
    have hFirst := ((Traced.Adds.of_silent t (CacheRun.traffic minmax)).silent_trans
      (Traced.Adds.of_step _ (fun c => { c with latency1 := c.latency1 ++ [env.latency row 0] })
        hPair)).trans_silent (.of_silent _ (CacheRun.traffic (minmax - 1)))
    cases test with
    | c002 | c003 | c004 => exact Traced.Adds.of_step t _ hPair
    | c005 => exact hFirst.trans_step _ fun e hMem => List.mem_singleton.mp hMem
    | c006 =>
      apply hFirst.trans_step
      intro e hMem
      rw [List.mem_pair, or_self] at hMem
      exact hMem

/-- The rows that are run: those enabled, up to one without buffers. -/
def rowsRun : List (CacheConfig × Nat) → List (CacheConfig × Nat)
  | [] => []
  | row :: rows =>
    if row.1.configEnable then row :: if env.allocFails row.2 then [] else rowsRun rows
    else rowsRun rows

theorem row_adds (minmax : BitVec 16) (config : CacheConfig) (t : CacheTrace)
    (hStart : SamePlain pe t.run.pe) :
    let t' := (test.programs minmax config).foldl (fun t (partid, f) =>
      programNodes caches partid f t) t
    SamePlain pe t'.run.pe ∧
      Traced.Adds id
        {e | ∃ prog ∈ test.programs minmax config, e ∈ programEvents caches pe prog.1} t t' := by
  refine Traced.Adds.foldl (I := fun c : CacheRun => SamePlain pe c.pe) _ ?_ hStart
  intro prog hMem t hSame
  exact programNodes_adds caches prog.1 (programs_keepMonitors test minmax config prog hMem) t hSame

/-- What several rows add. -/
def rowsEvents (pe : PeState) (minmax : BitVec 16) (maxsize : BitVec 32)
    (rows : List (CacheConfig × Nat)) : Set CacheEvent :=
  {e | ∃ row ∈ rows, e ∈ rowEvents test env caches pe minmax maxsize row}

theorem rowsEvents_nil (minmax : BitVec 16) (maxsize : BitVec 32) :
    rowsEvents test env caches pe minmax maxsize [] = ∅ := by
  ext e
  exact iff_of_false (fun ⟨_, hMem, _⟩ => List.not_mem_nil hMem) (Set.notMem_empty e)

theorem rowsEvents_cons (minmax : BitVec 16) (maxsize : BitVec 32) (row : CacheConfig × Nat)
    (rows : List (CacheConfig × Nat)) :
    rowsEvents test env caches pe minmax maxsize (row :: rows) =
      rowEvents test env caches pe minmax maxsize row ∪
        rowsEvents test env caches pe minmax maxsize rows := by
  ext e
  exact List.exists_mem_cons_iff (fun row => e ∈ rowEvents test env caches pe minmax maxsize row)
    row rows

theorem runRows_adds (minmax : BitVec 16) (maxsize : BitVec 32) (rows : List (CacheConfig × Nat))
    (t : CacheTrace) (hStart : SamePlain pe t.run.pe) :
    Traced.Adds id (rowsEvents test env caches pe minmax maxsize (rowsRun env rows)) t
      (runRows test env caches minmax maxsize rows t).2 := by
  induction rows generalizing t with
  | nil =>
    rw [rowsRun, rowsEvents_nil]
    exact Traced.Adds.refl t
  | cons head rows ih =>
    obtain ⟨config, row⟩ := head
    rw [runRows, rowsRun]
    dsimp only
    split
    · obtain ⟨hSame, hProgram⟩ := row_adds test caches minmax config t hStart
      generalize (test.programs minmax config).foldl (fun t (partid, f) =>
        programNodes caches partid f t) t = t1 at hSame hProgram ⊢
      generalize hSize : bufSize maxsize config.cachePercent = size
      have hAllocate : Traced.Adds id {.allocate size} t1
          (t1.step id [.allocate size, .allocate size]) := by
        apply Traced.Adds.of_step
        intro e
        rw [List.map_id, List.mem_pair, or_self, Set.mem_singleton_iff]
      rw [rowsEvents_cons, rowEvents, hSize]
      dsimp only
      split
      · rename_i hFails
        have hNone : {e | env.allocFails row = false ∧ e = CacheEvent.copy size} = ∅ := by
          ext e
          exact iff_of_false (fun h => Bool.false_ne_true (h.1.symm.trans hFails))
            (Set.notMem_empty e)
        rw [rowsEvents_nil, hNone, Set.union_empty, Set.union_empty]
        exact hProgram.trans hAllocate
      · rename_i hGranted
        have hCopy : {e | env.allocFails row = false ∧ e = CacheEvent.copy size} =
            {.copy size} := by
          ext e
          exact and_iff_right (Bool.eq_false_of_not_eq_true hGranted)
        obtain ⟨hMeasured, hCopies⟩ := measureCopies_adds test env minmax row size
          (t1.step id [.allocate size, .allocate size])
        rw [hCopy]
        exact ((hProgram.trans hAllocate).trans hCopies).trans (ih _ (hSame.trans hMeasured))
    · exact ih t hStart

/-- No node is under test. -/
def CacheSkips (pe : PeState) : Prop :=
  ∀ n ∈ caches, test.supports (pe.mmio n.hwregBaseAddr) = false

/-- The smallest largest partid of the nodes. -/
def cachePartid (pe : PeState) : BitVec 16 :=
  minmaxPartid (caches.map CacheNodeEntry.hwregBaseAddr) [] pe

theorem startRows_silent (minmax : BitVec 16) (t : CacheTrace) :
    SamePlain t.run.pe (startRows test minmax t).run.pe ∧
      Traced.Adds id ∅ t (startRows test minmax t) := by
  rw [startRows]
  split
  · exact ⟨fun _ _ _ _ => rfl, Traced.Adds.refl t⟩
  · exact ⟨fun _ _ _ _ => rfl, Traced.Adds.of_silent t _⟩

theorem finishRows_silent (temp : BitVec 64) (out : Bool × CacheTrace) :
    Traced.Adds id ∅ out.2 (finishRows test temp out) := by
  obtain ⟨granted, t⟩ := out
  cases granted with
  | true => exact (Traced.Adds.of_silent t _).trans_silent (.of_silent _ _)
  | false =>
    rw [finishRows]
    dsimp only
    split
    · exact Traced.Adds.of_silent t _
    · exact (Traced.Adds.of_silent t _).trans_silent (.of_silent _ _)

theorem cachePayload_adds (pe : PeState) (hRuns : ¬ CacheSkips test caches pe) :
    Traced.Adds id (rowsEvents test env caches pe (cachePartid caches pe)
      (cacheMaxsize caches test.supports pe) (rowsRun env test.configData.zipIdx))
      (Traced.start (CacheRun.start pe)) (cachePayload test env caches pe) := by
  have hSome : ¬ (caches.all fun n => !test.supports (pe.mmio n.hwregBaseAddr)) = true := by
    rw [List.all_eq_true]
    intro hAll
    exact hRuns fun n hMem => by simpa using hAll n hMem
  obtain ⟨hSame, hStart⟩ := startRows_silent test (cachePartid caches pe)
    (Traced.start (CacheRun.start pe))
  rw [cachePayload, if_neg hSome]
  exact (hStart.silent_trans (runRows_adds test env caches _ _ _ _ hSame)).trans_silent
    (finishRows_silent test pe.mpam2El2 _)

/-- A test that skips uses nothing. -/
theorem cachePayload_skips (pe : PeState) (hSkips : CacheSkips test caches pe) :
    (cachePayload test env caches pe).trace = [] := by
  have hAll : (caches.all fun n => !test.supports (pe.mmio n.hwregBaseAddr)) = true := by
    rw [List.all_eq_true]
    intro n hMem
    rw [hSkips n hMem]
    rfl
  rw [cachePayload, if_pos hAll]
  rfl

/-- The partids that a test uses. -/
def CacheTest.partids (minmax : BitVec 16) (test : CacheTest) : List (BitVec 16) :=
  if test.comparesPartids then [minmax, minmax - 1] else [minmax]

theorem programs_fst (minmax : BitVec 16) (config : CacheConfig) :
    (test.programs minmax config).map Prod.fst = test.partids minmax := by
  cases test with
  | c002 | c003 | c004 | c005 | c006 => rfl

/-- The first row of each table is enabled. -/
theorem rowsRun_ne_nil : rowsRun env test.configData.zipIdx ≠ [] := by
  cases test with
  | c002 | c003 | c004 | c005 | c006 => exact List.cons_ne_nil _ _

theorem enabled_of_mem_rowsRun {rows : List (CacheConfig × Nat)} {row : CacheConfig × Nat}
    (hMem : row ∈ rowsRun env rows) : row ∈ rows ∧ row.1.configEnable = true := by
  induction rows with
  | nil => exact absurd hMem List.not_mem_nil
  | cons head rows ih =>
    rw [rowsRun] at hMem
    split at hMem
    · rename_i hEnabled
      rcases List.mem_cons.mp hMem with rfl | hMem
      · exact ⟨List.mem_cons_self, hEnabled⟩
      · split at hMem
        · exact absurd hMem List.not_mem_nil
        · exact ⟨List.mem_cons_of_mem head (ih hMem).1, (ih hMem).2⟩
    · exact ⟨List.mem_cons_of_mem head (ih hMem).1, (ih hMem).2⟩

theorem mem_cachePayload (pe : PeState) (hRuns : ¬ CacheSkips test caches pe) (e : CacheEvent) :
    e ∈ (cachePayload test env caches pe).trace ↔
      e ∈ rowsEvents test env caches pe (cachePartid caches pe)
        (cacheMaxsize caches test.supports pe) (rowsRun env test.configData.zipIdx) := by
  have hAdds := cachePayload_adds test env caches pe hRuns e
  rwa [List.map_id, Traced.trace_start, List.map_nil, or_iff_right List.not_mem_nil] at hAdds

/-- A test programs every node that has something to program, for each of its partids. -/
theorem configure_mem_cachePayload (pe : PeState) (hRuns : ¬ CacheSkips test caches pe)
    (node : Nat) (partid : BitVec 16) :
    .configure node partid ∈ (cachePayload test env caches pe).trace ↔
      (∃ n, caches[node]? = some n ∧ programmed (pe.mmio n.hwregBaseAddr) = true) ∧
        partid ∈ test.partids (cachePartid caches pe) := by
  rw [mem_cachePayload test env caches pe hRuns]
  apply Iff.intro
  · rintro ⟨row, -, (⟨prog, hProg, n, hNode, hProgrammed, hEq⟩ | hEq) | ⟨-, hEq⟩⟩
    · obtain ⟨rfl, rfl⟩ := CacheEvent.configure.inj hEq
      refine ⟨⟨n.1, List.mk_mem_zipIdx_iff_getElem?.mp hNode, hProgrammed⟩, ?_⟩
      rw [← programs_fst test _ row.1]
      exact List.mem_map_of_mem hProg
    · cases hEq
    · cases hEq
  · rintro ⟨⟨n, hNode, hProgrammed⟩, hPartid⟩
    obtain ⟨row, hRow⟩ := List.exists_mem_of_ne_nil _ (rowsRun_ne_nil test env)
    rw [← programs_fst test _ row.1] at hPartid
    obtain ⟨prog, hProg, rfl⟩ := List.mem_map.mp hPartid
    exact ⟨row, hRow, Or.inl (Or.inl ⟨prog, hProg, (n, node),
      List.mk_mem_zipIdx_iff_getElem?.mpr hNode, hProgrammed, rfl⟩)⟩

/-- The buffers that it asks for are those of an enabled row. -/
theorem allocate_mem_cachePayload (pe : PeState) {size : BitVec 64}
    (hMem : .allocate size ∈ (cachePayload test env caches pe).trace) :
    ∃ config ∈ test.configData, config.configEnable = true ∧
      size = bufSize (cacheMaxsize caches test.supports pe) config.cachePercent := by
  have hRuns : ¬ CacheSkips test caches pe := by
    intro hSkips
    rw [cachePayload_skips test env caches pe hSkips] at hMem
    exact List.not_mem_nil hMem
  obtain ⟨row, hRow, (⟨_, _, _, _, _, hEq⟩ | hEq) | ⟨-, hEq⟩⟩ :=
    (mem_cachePayload test env caches pe hRuns _).mp hMem
  · cases hEq
  · obtain ⟨hTable, hEnabled⟩ := enabled_of_mem_rowsRun env hRow
    exact ⟨row.1, List.fst_mem_of_mem_zipIdx hTable, hEnabled, CacheEvent.allocate.inj hEq⟩
  · cases hEq

end Runs

/-- A cache of some size. -/
def cacheOfSize (size : BitVec 32) : CacheNodeEntry where
  lineSize := 64
  size := size
  neighbours := Vector.replicate 4 0
  scopeIndex := 0
  nodeScope := 0
  allocType := 0
  cacheType := 0
  writePolicy := 0
  reserved := 0
  hwregBaseAddr := 0x10000
  notReadyMaxUs := 0
  intrInfo := {}

/-- A PE whose caches have portions, and a single partid. -/
def onePartidPe : PeState := { quietPe with mmio := fun _ => idPage 0x2000000 0 0 }

end EnterpriseAcs.Mpam
