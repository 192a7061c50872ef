import EnterpriseAcs.Mpam.LatencyTests

/-!
# The bandwidth portions test

The test d001 measures a copy on each node that has bandwidth portions, once for each enabled
scenario. The latencies go to an array of ten rows, one for each scenario, but the row is counted
up with each measurement, that is with each node. What the allocator answers and the latencies are
parameters.

* `measureScenarios_spec`: what the measurements leave.
* `bandwidth_index_iff`: when the indices stay inside the array, and the comparison is between
  latencies of one node.
-/

namespace EnterpriseAcs.Mpam

/-! ## The test -/

def testd001 : BitVec 32 := acsMemoryTestNumBase + 1

/-- `MBWPBM_SCENARIO_MAX`, the rows of the array. -/
def mbwpbmScenarioMax : Nat := 10

/-- `mbwpbm_config_t`. -/
structure MbwpbmConfig where
  partitionPercent : BitVec 8
  memcopySize : BitVec 64
  memcopySize_ne_zero : memcopySize ≠ 0
  configEnable : Bool

/-- `ONE_MB`. -/
def oneMb : BitVec 64 := 1024 * 1024

def mbwpbmConfigData : List MbwpbmConfig :=
  [⟨75, oneMb, by decide, true⟩, ⟨50, oneMb, by decide, false⟩, ⟨25, oneMb, by decide, true⟩]

/-- A latency, and what it is the latency of. -/
structure Measurement where
  scenario : Nat
  node : Nat
  latency : BitVec 64
  deriving DecidableEq, Repr

/-- The answers of `AllocatePages` for the buffers of a scenario on a node, the source being the
first and the destination the second search; whether the pool refuses the array or a row; the
latency of each scenario on each node; and what memory holds where no latency was written. -/
structure BandwidthEnv where
  firmware : Nat → Nat → Firmware
  tableFails : Bool
  rowFails : Nat → Bool
  latency : Nat → Nat → BitVec 64
  memory : Int → Nat → BitVec 64

/-- Two latencies that are compared for a node, as far as they were measured. -/
structure Comparison where
  node : Nat
  later : Option Measurement
  earlier : Option Measurement
  deriving DecidableEq, Repr

/-- The registers, the status of the PE, `enabled_scenarios`, the cells that were written, by row
and node, the rows that the payload has used, and what it has compared. -/
structure BandwidthRun where
  pe : PeState
  status : BitVec 32
  enabledScenarios : BitVec 8
  cell : Int → Nat → Option Measurement
  rows : List Int
  comparisons : List Comparison

def BandwidthRun.start (pe : PeState) : BandwidthRun where
  pe := pe
  status := 0
  enabledScenarios := 0
  cell _ _ := none
  rows := []
  comparisons := []

/-- How a measurement ends. It is stuck when it writes through a null pointer. -/
inductive MeasureEnd
  | goesOn
  | copyFails
  | stuck
  deriving DecidableEq, Repr

/-- A scenario and a node, each with its index. -/
structure ScenarioVisit where
  config : MbwpbmConfig
  scenario : Nat
  memory : MemoryNodeEntry
  node : Nat

/-- The visits of the two nested loops. -/
def scenarioVisits (memories : List MemoryNodeEntry) : List ScenarioVisit :=
  mbwpbmConfigData.zipIdx.flatMap fun (config, scenario) =>
    memories.zipIdx.map fun (memory, node) => ⟨config, scenario, memory, node⟩

section Program

variable (env : BandwidthEnv)

/-- The configuration of a node for a scenario. -/
def configureScenario (partid : BitVec 16) (config : MbwpbmConfig) (r : NodeRegs) : NodeRegs :=
  let r := valMemoryConfigureMbwpbm partid (config.partitionPercent.setWidth 32) r
  let r := if valMemorySupportsMbwmin r.msc then r.configureMbwmin partid 0 else r
  if valMemorySupportsMbwmax r.msc then r.configureMbwmax partid 0 100 else r

/-- `(src_buf == NULL) || (dest_buf == NULL)`. -/
def copyBufsFail (v : ScenarioVisit) : Bool :=
  let allocate := fun buffer =>
    palMemAllocateAddress (env.firmware v.scenario v.node) buffer v.memory.baseAddress
      v.memory.length v.config.memcopySize v.config.memcopySize_ne_zero
  allocate 0 = 0 || allocate 1 = 0

/-- The latency of a visit. -/
def measurementOf (v : ScenarioVisit) : Measurement :=
  ⟨v.scenario, v.node, env.latency v.scenario v.node⟩

/-- The assignment of a latency, and the debug print that reads it back. -/
def storeLatency (v : ScenarioVisit) (c : BandwidthRun) : BandwidthRun :=
  let row : Int := c.enabledScenarios.toNat
  let enabledScenarios := c.enabledScenarios + 1
  { c with
    enabledScenarios := enabledScenarios
    cell := Function.update c.cell row
      (Function.update (c.cell row) v.node (some (measurementOf env v)))
    rows := c.rows ++ [row, (enabledScenarios.toNat : Int) - 1] }

/-- The body of the two nested loops. -/
def measureScenario (partid : BitVec 16) (v : ScenarioVisit) (c : BandwidthRun) :
    MeasureEnd × BandwidthRun :=
  if v.config.configEnable && valMemorySupportsMbwpbm (c.pe.mmio v.memory.hwregBaseAddr) then
    let c := { c with pe := c.pe.onNode v.memory.hwregBaseAddr (configureScenario partid v.config) }
    if copyBufsFail env v then (.copyFails, c)
    else if env.rowFails c.enabledScenarios.toNat then
      (.stuck, { c with rows := c.rows ++ [(c.enabledScenarios.toNat : Int)] })
    else (.goesOn, storeLatency env v c)
  else (.goesOn, c)

def measureScenarios (partid : BitVec 16) :
    List ScenarioVisit → BandwidthRun → MeasureEnd × BandwidthRun
  | [], c => (.goesOn, c)
  | v :: vs, c =>
    match measureScenario env partid v c with
    | (.goesOn, c) => measureScenarios partid vs c
    | out => out

/-- The latency at a row and a node. -/
def BandwidthRun.readCell (c : BandwidthRun) (row : Int) (node : Nat) : BitVec 64 :=
  ((c.cell row node).map Measurement.latency).getD (env.memory row node)

/-- The comparison of the latencies, one visit of the inner body after the other; it ends with
whether the test fails. -/
def compareRows : List (Nat × MemoryNodeEntry × Nat) → BandwidthRun → Bool × BandwidthRun
  | [], c => (false, c)
  | (index, n, node) :: rest, c =>
    if valMemorySupportsMbwpbm (c.pe.mmio n.hwregBaseAddr) then
      let later : Int := index
      let c := { c with
        rows := c.rows ++ [later, later - 1]
        comparisons := c.comparisons ++ [⟨node, c.cell later node, c.cell (later - 1) node⟩] }
      if c.readCell env later node < c.readCell env (later - 1) node then (true, c)
      else compareRows rest c
    else compareRows rest c

variable (caches : List (BitVec 64)) (memories : List MemoryNodeEntry)

/-- The rows from 1 on, and the nodes. -/
def rowVisits (enabledScenarios : BitVec 8) : List (Nat × MemoryNodeEntry × Nat) :=
  (List.range' 1 (enabledScenarios.toNat - 1)).flatMap fun index =>
    memories.zipIdx.map fun n => (index, n)

/-- What follows the measurements, none for the status if the payload never returns; `mpam2El2` is
the value that was saved. -/
def finishBandwidth (mpam2El2 : BitVec 64) : MeasureEnd × BandwidthRun → BandwidthRun
  | (.stuck, c) => c
  | (.copyFails, c) =>
    { c with status := resultFail testd001 1, pe := c.pe.writeMpam2 mpam2El2 }
  | (.goesOn, c) =>
    let c := { c with pe := c.pe.writeMpam2 mpam2El2 }
    match compareRows env (rowVisits memories c.enabledScenarios) c with
    | (true, c) => { c with status := resultFail testd001 1 }
    | (false, c) => { c with status := resultPass testd001 1 }

/-- The payload of d001, up to its return or to where it writes through a null pointer: when the
pool refuses the array, or a row. -/
def payloadD001 (pe : PeState) : BandwidthRun :=
  let bases := memories.map MemoryNodeEntry.hwregBaseAddr
  let partid := minmaxPartid caches bases pe
  let c := BandwidthRun.start pe
  if bases.all fun base => !valMemorySupportsMbwpbm (pe.mmio base) then
    { c with status := resultSkip testd001 0 }
  else
    let c := { c with
      pe := caches.foldl (fun pe base => pe.onNode base (disableCache partid)) c.pe }
    if env.tableFails then { c with rows := [0] }
    else
      let c := { c with rows := (List.range mbwpbmScenarioMax).map Int.ofNat }
      let mpam2El2 := c.pe.mpam2El2
      let c := { c with pe := c.pe.writeMpam2 (trafficMpam2 mpam2El2 partid defaultPmg) }
      finishBandwidth env memories mpam2El2
        (measureScenarios env partid (scenarioVisits memories) c)

end Program

/-! ## What a run should use -/

def Enabled (scenario : Nat) : Prop :=
  (mbwpbmConfigData[scenario]?.any MbwpbmConfig.configEnable) = true

/-- Two enabled scenarios, and none between them. -/
structure Successive (earlier later : Nat) : Prop where
  lt : earlier < later
  earlier_enabled : Enabled earlier
  later_enabled : Enabled later
  between : ∀ scenario < later, earlier < scenario → ¬ Enabled scenario

/-- The latencies of one node, in successive scenarios. -/
def ComparedRight (p : Comparison) : Prop :=
  ∃ earlier later, p.earlier = some earlier ∧ p.later = some later ∧ earlier.node = p.node ∧
    later.node = p.node ∧ Successive earlier.scenario later.scenario

def RowsInside (c : BandwidthRun) : Prop := ∀ row ∈ c.rows, 0 ≤ row ∧ row < mbwpbmScenarioMax

/-- The payload uses the rows of the array, and compares latencies of one node. -/
structure IndexedRight (c : BandwidthRun) : Prop where
  rows : RowsInside c
  comparisons : ∀ p ∈ c.comparisons, ComparedRight p

/-- The nodes that have bandwidth portions. -/
def supporting (s : PeState) (memories : List MemoryNodeEntry) : List (MemoryNodeEntry × Nat) :=
  memories.zipIdx.filter fun n => valMemorySupportsMbwpbm (s.mmio n.1.hwregBaseAddr)

def measuredAt (s : PeState) (v : ScenarioVisit) : Bool :=
  v.config.configEnable && valMemorySupportsMbwpbm (s.mmio v.memory.hwregBaseAddr)

/-- The visits that measure, in their order. -/
def measuredVisits (s : PeState) (memories : List MemoryNodeEntry) : List ScenarioVisit :=
  (scenarioVisits memories).filter (measuredAt s)

/-- The measurement with a number stops the payload while its rows are still inside. -/
def StopsInside (env : BandwidthEnv) (number : Nat) (v : ScenarioVisit) : Prop :=
  (number ≤ mbwpbmScenarioMax ∧ copyBufsFail env v = true) ∨
    (number < mbwpbmScenarioMax ∧ env.rowFails number = true)

/-- The measurement with a number stops the payload. -/
def Stops (env : BandwidthEnv) (number : Nat) (v : ScenarioVisit) : Prop :=
  copyBufsFail env v = true ∨ env.rowFails (number % 256) = true

/-! ## The measurements -/

/-- The rows that the measurements so far have filled, one each. -/
structure MeasuredSoFar (env : BandwidthEnv) (s : PeState) (done : List ScenarioVisit)
    (c : BandwidthRun) : Prop where
  plain : SamePlain s c.pe
  enabled : c.enabledScenarios = BitVec.ofNat 8 done.length
  inside : RowsInside c ↔ done.length ≤ mbwpbmScenarioMax
  cells : done.length ≤ mbwpbmScenarioMax → ∀ (row node : Nat),
    c.cell row node = (done[row]?.filter fun v => v.node = node).map (measurementOf env)
  compared : c.comparisons = []

section Measurements

variable (env : BandwidthEnv) {s : PeState} {done : List ScenarioVisit} {c : BandwidthRun}

theorem SamePlain.supportsMbwpbm {s s' : PeState} (h : SamePlain s s') (base : BitVec 64) :
    valMemorySupportsMbwpbm (s'.mmio base) = valMemorySupportsMbwpbm (s.mmio base) := by
  have hIdr := h base regMpamfIdr (by decide) (by decide)
  have hMbwIdr := h.read base (o := regMpamfMbwIdr) (by decide) (by decide) (by decide)
  simp only [valMemorySupportsMbwpbm, valMemorySupportsPart, NodeRegs.msc, hIdr, hMbwIdr]

theorem configureScenario_keepsMonitors (partid : BitVec 16) (config : MbwpbmConfig) :
    KeepsMonitors (configureScenario partid config) :=
  ((mbwmax_keepsMonitors partid 0 100).ite fun r => valMemorySupportsMbwmax r.msc).comp
    (((mbwmin_keepsMonitors partid 0).ite fun r => valMemorySupportsMbwmin r.msc).comp
      (mbwpbm_keepsMonitors partid (config.partitionPercent.setWidth 32)))

/-- More rows are used. -/
theorem rowsInside_append {c c' : BandwidthRun} {rows : List Int} (h : c'.rows = c.rows ++ rows) :
    RowsInside c' ↔ RowsInside c ∧ ∀ row ∈ rows, 0 ≤ row ∧ row < mbwpbmScenarioMax := by
  rw [RowsInside, h]
  exact List.forall_mem_append

theorem MeasuredSoFar.toNat_enabled (h : MeasuredSoFar env s done c) :
    c.enabledScenarios.toNat = done.length % 256 := by
  rw [h.enabled, BitVec.toNat_ofNat]

/-- The row of the next measurement is one more row inside, or the first one outside. -/
theorem MeasuredSoFar.next_row (h : MeasuredSoFar env s done c) :
    (RowsInside c ∧ (c.enabledScenarios.toNat : Int) < mbwpbmScenarioMax) ↔
      done.length < mbwpbmScenarioMax := by
  rw [h.inside, h.toNat_enabled, mbwpbmScenarioMax]
  omega

theorem MeasuredSoFar.configure (h : MeasuredSoFar env s done c) {f : NodeRegs → NodeRegs}
    (hf : KeepsMonitors f) (base : BitVec 64) :
    MeasuredSoFar env s done { c with pe := c.pe.onNode base f } :=
  { h with plain := h.plain.trans (hf.samePlain c.pe base) }

theorem MeasuredSoFar.store (h : MeasuredSoFar env s done c) (v : ScenarioVisit) :
    MeasuredSoFar env s (done ++ [v]) (storeLatency env v c) where
  plain := h.plain
  enabled := by
    rw [storeLatency, List.length_append, BitVec.ofNat_add, ← h.enabled]
    rfl
  inside := by
    have hNext := h.next_row
    have hEnabled := h.toNat_enabled
    have hSucc : (c.enabledScenarios + 1).toNat = (done.length + 1) % 256 := by
      rw [BitVec.toNat_add, hEnabled]
      exact Nat.mod_add_mod done.length 256 1
    have hRows : (storeLatency env v c).rows = c.rows ++
        [(c.enabledScenarios.toNat : Int), ((c.enabledScenarios + 1).toNat : Int) - 1] := rfl
    rw [rowsInside_append hRows, List.length_append, List.length_singleton, hSucc]
    simp only [List.forall_mem_cons, List.not_mem_nil, false_implies, implies_true, and_true]
    rw [h.inside] at hNext ⊢
    unfold mbwpbmScenarioMax at hNext ⊢
    omega
  cells := by
    intro hLength row node
    rw [List.length_append, List.length_singleton, mbwpbmScenarioMax] at hLength
    have hOld := h.cells (by unfold mbwpbmScenarioMax; omega) row node
    have hEnabled : c.enabledScenarios.toNat = done.length := by
      rw [h.toNat_enabled]
      omega
    simp only [storeLatency]
    rw [hEnabled]
    by_cases hRow : row = done.length
    · subst hRow
      rw [Function.update_self, List.getElem?_concat_length]
      by_cases hNode : node = v.node
      · rw [hNode, Function.update_self]
        simp
      · rw [Function.update_of_ne hNode, hOld]
        simp [Ne.symm hNode]
    · have hCast : (row : Int) ≠ done.length := fun hEq => hRow (Int.ofNat.inj hEq)
      rw [Function.update_of_ne hCast, hOld]
      congr 2
      by_cases hLt : row < done.length
      · rw [List.getElem?_append_left hLt]
      · rw [List.getElem?_eq_none (by omega), List.getElem?_eq_none (by simp; omega)]
  compared := h.compared

/-- What stops before the last row stops inside. -/
theorem Stops.inside {v : ScenarioVisit} {k : Nat} (h : Stops env k v)
    (hLt : k < mbwpbmScenarioMax) : StopsInside env k v := by
  rcases h with hCopy | hRow
  · exact Or.inl ⟨hLt.le, hCopy⟩
  · rw [Nat.mod_eq_of_lt (hLt.trans (by decide))] at hRow
    exact Or.inr ⟨hLt, hRow⟩

theorem StopsInside.le {v : ScenarioVisit} {k : Nat} (h : StopsInside env k v) :
    k ≤ mbwpbmScenarioMax :=
  h.elim And.left fun hRow => hRow.1.le

/-- A visit that measures goes on, or stops: inside exactly as `StopsInside` says. -/
theorem measureScenario_spec (partid : BitVec 16) (v : ScenarioVisit)
    (h : MeasuredSoFar env s done c) (hMeasured : measuredAt s v = true) :
    let out := measureScenario env partid v c
    (out.1 = .goesOn ∧ MeasuredSoFar env s (done ++ [v]) out.2 ∧
        ¬ StopsInside env done.length v) ∨
      (out.1 ≠ .goesOn ∧ out.2.comparisons = [] ∧
        Stops env done.length v ∧ (RowsInside out.2 ↔ StopsInside env done.length v)) := by
  have hHere : (v.config.configEnable && valMemorySupportsMbwpbm
      (c.pe.mmio v.memory.hwregBaseAddr)) = true := by
    rw [h.plain.supportsMbwpbm]
    exact hMeasured
  have hNode := h.configure env (configureScenario_keepsMonitors partid v.config)
    v.memory.hwregBaseAddr
  rw [measureScenario, if_pos hHere]
  dsimp only
  rw [h.toNat_enabled]
  cases hCopy : copyBufsFail env v with
  | true =>
    rw [if_pos rfl]
    refine Or.inr ⟨MeasureEnd.noConfusion, h.compared, Or.inl hCopy, ?_⟩
    rw [hNode.inside, StopsInside, hCopy]
    unfold mbwpbmScenarioMax
    simp only [and_true]
    omega
  | false =>
    rw [if_neg Bool.false_ne_true]
    cases hRow : env.rowFails (done.length % 256) with
    | true =>
      rw [if_pos rfl]
      refine Or.inr ⟨MeasureEnd.noConfusion, h.compared, Or.inr hRow, ?_⟩
      have hNext := hNode.next_row
      dsimp only at hNext ⊢
      rw [h.toNat_enabled] at hNext
      rw [rowsInside_append (c := { c with
        pe := c.pe.onNode v.memory.hwregBaseAddr (configureScenario partid v.config) }) rfl,
        List.forall_mem_singleton, and_iff_right (Int.natCast_nonneg _), hNext, StopsInside, hCopy,
        or_iff_right fun hFails => Bool.false_ne_true hFails.2]
      refine ⟨fun hLt => ⟨hLt, ?_⟩, And.left⟩
      rw [← hRow, Nat.mod_eq_of_lt (hLt.trans (by decide))]
    | false =>
      rw [if_neg Bool.false_ne_true]
      refine Or.inl ⟨rfl, hNode.store env v, ?_⟩
      rintro (⟨-, hFails⟩ | ⟨hLt, hFails⟩)
      · rw [hCopy] at hFails
        exact Bool.false_ne_true hFails
      · rw [Nat.mod_eq_of_lt (hLt.trans (by decide)), hFails] at hRow
        exact Bool.true_eq_false.mp hRow

/-- All measurements are made, or one of them stops the payload. -/
theorem measureScenarios_spec (partid : BitVec 16) (vs : List ScenarioVisit)
    (h : MeasuredSoFar env s done c) :
    let out := measureScenarios env partid vs c
    let numbered := (vs.filter (measuredAt s)).zipIdx done.length
    (out.1 = .goesOn ∧ MeasuredSoFar env s (done ++ vs.filter (measuredAt s)) out.2 ∧
        ¬ ∃ w ∈ numbered, StopsInside env w.2 w.1) ∨
      (out.1 ≠ .goesOn ∧ out.2.comparisons = [] ∧ (∃ w ∈ numbered, Stops env w.2 w.1) ∧
        (RowsInside out.2 ↔ ∃ w ∈ numbered, StopsInside env w.2 w.1)) := by
  induction vs generalizing done c with
  | nil =>
    refine Or.inl ⟨rfl, ?_, fun hStops => List.not_mem_nil hStops.choose_spec.1⟩
    rw [List.filter_nil, List.append_nil]
    exact h
  | cons v vs ih =>
    rw [measureScenarios]
    cases hMeasured : measuredAt s v with
    | false =>
      have hOther : (v.config.configEnable && valMemorySupportsMbwpbm
          (c.pe.mmio v.memory.hwregBaseAddr)) = false := by
        rw [h.plain.supportsMbwpbm]
        exact hMeasured
      rw [measureScenario, hOther, if_neg Bool.false_ne_true, List.filter_cons, hMeasured,
        if_neg Bool.false_ne_true]
      exact ih h
    | true =>
      have hVisit := measureScenario_spec env partid v h hMeasured
      generalize measureScenario env partid v c = out at hVisit ⊢
      obtain ⟨ends, c'⟩ := out
      dsimp only at hVisit
      rw [List.filter_cons, hMeasured, if_pos rfl, List.zipIdx_cons]
      dsimp only
      rw [List.exists_mem_cons_iff, List.exists_mem_cons_iff]
      rcases hVisit with ⟨rfl, hNext, hStops⟩ | ⟨hEnds, hCompared, hStops, hInside⟩
      · have hRest := ih hNext
        rw [List.append_assoc, List.singleton_append, List.length_append, List.length_singleton]
          at hRest
        rw [or_iff_right hStops]
        rcases hRest with hGoes | ⟨hEnds, hCompared, hLater, hInside⟩
        · exact Or.inl hGoes
        · exact Or.inr ⟨hEnds, hCompared, Or.inr hLater, hInside⟩
      · have hHead : ∀ w ∈ (vs.filter (measuredAt s)).zipIdx (done.length + 1),
            StopsInside env w.2 w.1 → StopsInside env done.length v := fun w hMem hLater =>
          hStops.inside env ((List.le_snd_of_mem_zipIdx hMem).trans (hLater.le env))
        have hInside' : RowsInside c' ↔ StopsInside env done.length v ∨
            ∃ w ∈ (vs.filter (measuredAt s)).zipIdx (done.length + 1), StopsInside env w.2 w.1 := by
          rw [hInside]
          refine ⟨Or.inl, fun hOr => hOr.elim id ?_⟩
          rintro ⟨w, hMem, hLater⟩
          exact hHead w hMem hLater
        cases ends with
        | goesOn => exact absurd rfl hEnds
        | copyFails => exact Or.inr ⟨hEnds, hCompared, Or.inl hStops, hInside'⟩
        | stuck => exact Or.inr ⟨hEnds, hCompared, Or.inl hStops, hInside'⟩

end Measurements

/-! ## The comparison -/

section Comparisons

variable (env : BandwidthEnv) {s : PeState} {done : List ScenarioVisit} {c : BandwidthRun}

/-- What the comparison has used, it has used. -/
theorem compareRows_keeps (vs : List (Nat × MemoryNodeEntry × Nat)) :
    (∀ row ∈ c.rows, row ∈ (compareRows env vs c).2.rows) ∧
      ∀ p ∈ c.comparisons, p ∈ (compareRows env vs c).2.comparisons := by
  induction vs generalizing c with
  | nil => exact ⟨fun _ => id, fun _ => id⟩
  | cons v vs ih =>
    obtain ⟨index, n, node⟩ := v
    rw [compareRows]
    split
    · dsimp only
      split
      · exact ⟨fun _ => List.mem_append_left _, fun _ => List.mem_append_left _⟩
      · exact ⟨fun row hMem => ih.1 row (List.mem_append_left _ hMem),
          fun p hMem => ih.2 p (List.mem_append_left _ hMem)⟩
    · exact ih

/-- The comparison of one node that has bandwidth portions. -/
def comparisonAt (c : BandwidthRun) (index node : Nat) : Comparison :=
  ⟨node, c.cell index node, c.cell ((index : Int) - 1) node⟩

/-- When the first comparison would be wrong whichever it is, one is made. -/
theorem compareRows_wrong {vs : List (Nat × MemoryNodeEntry × Nat)}
    (hSome : ∃ v ∈ vs, valMemorySupportsMbwpbm (c.pe.mmio v.2.1.hwregBaseAddr) = true)
    (hWrong : ∀ v ∈ vs, ¬ ComparedRight (comparisonAt c v.1 v.2.2)) :
    ¬ IndexedRight (compareRows env vs c).2 := by
  induction vs with
  | nil => exact absurd hSome.choose_spec.1 List.not_mem_nil
  | cons v vs ih =>
    obtain ⟨index, n, node⟩ := v
    rw [List.exists_mem_cons_iff] at hSome
    rw [compareRows]
    split
    · intro hRight
      refine hWrong _ List.mem_cons_self (hRight.comparisons _ ?_)
      have hMem : comparisonAt c index node ∈
          c.comparisons ++ [⟨node, c.cell index node, c.cell ((index : Int) - 1) node⟩] :=
        List.mem_append_right _ (List.mem_singleton_self _)
      dsimp only
      split
      · exact hMem
      · exact (compareRows_keeps env vs).2 _ hMem
    · rename_i hOther
      exact ih (hSome.resolve_left hOther) fun v hMem => hWrong v (List.mem_cons_of_mem _ hMem)

/-- When every comparison is right and its rows are inside, so is the loop. -/
theorem compareRows_right {vs : List (Nat × MemoryNodeEntry × Nat)} (h : IndexedRight c)
    (hRight : ∀ v ∈ vs, valMemorySupportsMbwpbm (c.pe.mmio v.2.1.hwregBaseAddr) = true →
      0 < v.1 ∧ v.1 < mbwpbmScenarioMax ∧ ComparedRight (comparisonAt c v.1 v.2.2)) :
    IndexedRight (compareRows env vs c).2 := by
  induction vs generalizing c with
  | nil => exact h
  | cons v vs ih =>
    obtain ⟨index, n, node⟩ := v
    have hRest := fun v hMem => hRight v (List.mem_cons_of_mem _ hMem)
    rw [compareRows]
    split
    · rename_i hSupports
      obtain ⟨hPos, hLt, hCompared⟩ := hRight _ List.mem_cons_self hSupports
      dsimp only at hPos hLt hCompared ⊢
      have hNext : IndexedRight { c with
          rows := c.rows ++ [(index : Int), (index : Int) - 1]
          comparisons := c.comparisons ++ [comparisonAt c index node] } := by
        refine ⟨(rowsInside_append rfl).mpr ⟨h.rows, ?_⟩,
          List.forall_mem_append.mpr ⟨h.comparisons, List.forall_mem_singleton.mpr hCompared⟩⟩
        simp only [List.forall_mem_cons, List.not_mem_nil, false_implies, implies_true, and_true]
        omega
      split
      · exact hNext
      · exact ih hNext hRest
    · exact ih h hRest

end Comparisons

/-! ## The visits that measure -/

section MeasuredVisits

variable (s : PeState) (memories : List MemoryNodeEntry)

def visitOf (config : MbwpbmConfig) (scenario : Nat) (n : MemoryNodeEntry × Nat) : ScenarioVisit :=
  ⟨config, scenario, n.1, n.2⟩

/-- They are the supporting nodes, once for each of the two enabled scenarios. -/
theorem measuredVisits_eq : measuredVisits s memories =
    (supporting s memories).map (visitOf ⟨75, oneMb, by decide, true⟩ 0) ++
      (supporting s memories).map (visitOf ⟨25, oneMb, by decide, true⟩ 2) := by
  have hScenario : ∀ config scenario,
      (memories.zipIdx.map (visitOf config scenario)).filter (measuredAt s) =
        if config.configEnable then (supporting s memories).map (visitOf config scenario)
        else [] := by
    intro config scenario
    rw [List.filter_map, supporting]
    cases hEnable : config.configEnable with
    | true =>
      rw [if_pos rfl]
      congr 2
      funext n
      rw [Function.comp_apply, measuredAt, visitOf, hEnable, Bool.true_and]
    | false =>
      rw [if_neg Bool.false_ne_true, List.map_eq_nil_iff, List.filter_eq_nil_iff]
      intro n _
      rw [Function.comp_apply, measuredAt, visitOf, hEnable]
      exact Bool.false_ne_true
  have hVisits : scenarioVisits memories =
      memories.zipIdx.map (visitOf ⟨75, oneMb, by decide, true⟩ 0) ++
        (memories.zipIdx.map (visitOf ⟨50, oneMb, by decide, false⟩ 1) ++
          (memories.zipIdx.map (visitOf ⟨25, oneMb, by decide, true⟩ 2) ++ [])) := rfl
  rw [measuredVisits, hVisits, List.filter_append, List.filter_append, List.filter_append,
    hScenario, hScenario, hScenario]
  simp

theorem length_measuredVisits :
    (measuredVisits s memories).length =
      (supporting s memories).length + (supporting s memories).length := by
  rw [measuredVisits_eq, List.length_append, List.length_map, List.length_map]

theorem measuredVisits_nodes : (measuredVisits s memories).map ScenarioVisit.node =
    (supporting s memories).map Prod.snd ++ (supporting s memories).map Prod.snd := by
  rw [measuredVisits_eq, List.map_append, List.map_map, List.map_map]
  rfl

theorem supporting_nodup : ((supporting s memories).map Prod.snd).Nodup := by
  have hAll : (memories.zipIdx.map Prod.snd).Nodup := by
    rw [List.zipIdx_map_snd]
    exact List.nodup_range'
  exact hAll.sublist (List.filter_sublist.map Prod.snd)

end MeasuredVisits

/-- In a list written twice, no two neighbours are the same. -/
theorem twice_neighbours_ne {l : List Nat} (hNodup : l.Nodup) (hLength : 1 < l.length)
    {k x y : Nat} (hx : (l ++ l)[k]? = some x) (hy : (l ++ l)[k + 1]? = some y) : x ≠ y := by
  rintro rfl
  have hIndex : ∀ {i j : Nat}, l[i]? = some x → l[j]? = some x → i = j := by
    intro i j hi hj
    obtain ⟨hi', hiEq⟩ := List.getElem?_eq_some_iff.mp hi
    obtain ⟨hj', hjEq⟩ := List.getElem?_eq_some_iff.mp hj
    exact (hNodup.getElem_inj_iff).mp (hiEq.trans hjEq.symm)
  rcases Nat.lt_trichotomy (k + 1) l.length with hLt | hEq | hGt
  · rw [List.getElem?_append_left (by omega)] at hx
    rw [List.getElem?_append_left hLt] at hy
    have := hIndex hx hy
    omega
  · rw [List.getElem?_append_left (by omega)] at hx
    rw [List.getElem?_append_right (by omega)] at hy
    have := hIndex hx hy
    omega
  · rw [List.getElem?_append_right (by omega)] at hx hy
    have := hIndex hx hy
    omega

/-! ## The payload -/

section Payload

variable (env : BandwidthEnv) (caches : List (BitVec 64)) (memories : List MemoryNodeEntry)
  {s : PeState} {c : BandwidthRun}

/-- With two nodes or more, the rows that are compared hold latencies of different nodes. -/
theorem comparison_wrong (hMeasured : MeasuredSoFar env s (measuredVisits s memories) c)
    (hInside : (measuredVisits s memories).length ≤ mbwpbmScenarioMax)
    (hMany : 1 < (supporting s memories).length) (row node : Nat) :
    ¬ ComparedRight (comparisonAt c (row + 1) node) := by
  rintro ⟨earlier, later, hEarlier, hLater, -⟩
  have hCell : ∀ {row : Nat} {m : Measurement}, c.cell row node = some m →
      ((supporting s memories).map Prod.snd ++ (supporting s memories).map Prod.snd)[row]? =
        some node := by
    intro row m hSome
    rw [hMeasured.cells hInside] at hSome
    obtain ⟨v, hFilter, -⟩ := Option.map_eq_some_iff.mp hSome
    obtain ⟨hVisit, hNode⟩ := Option.filter_eq_some_iff.mp hFilter
    rw [← measuredVisits_nodes, List.getElem?_map, hVisit, Option.map_some, of_decide_eq_true hNode]
  have hBefore : ((row + 1 : Nat) : Int) - 1 = row := by omega
  rw [comparisonAt] at hEarlier hLater
  dsimp only at hEarlier hLater
  rw [hBefore] at hEarlier
  exact twice_neighbours_ne (supporting_nodup s memories) (by simpa using hMany) (hCell hEarlier)
    (hCell hLater) rfl

/-- With one node, the rows 0 and 1 hold its two latencies. -/
theorem comparison_right {n : MemoryNodeEntry × Nat} (hOne : supporting s memories = [n])
    (hMeasured : MeasuredSoFar env s (measuredVisits s memories) c) :
    ComparedRight (comparisonAt c 1 n.2) := by
  have hInside : (measuredVisits s memories).length ≤ mbwpbmScenarioMax := by
    rw [length_measuredVisits, hOne, List.length_singleton, mbwpbmScenarioMax]
    omega
  have hCells := hMeasured.cells hInside
  have hTwo : measuredVisits s memories = [visitOf ⟨75, oneMb, by decide, true⟩ 0 n,
      visitOf ⟨25, oneMb, by decide, true⟩ 2 n] := by
    rw [measuredVisits_eq, hOne]
    rfl
  rw [hTwo] at hCells
  have hSuccessive : Successive 0 2 := by
    refine ⟨by decide, rfl, rfl, fun scenario hLt hGt => ?_⟩
    obtain rfl : scenario = 1 := by omega
    exact Bool.false_ne_true
  refine ⟨⟨0, n.2, env.latency 0 n.2⟩, ⟨2, n.2, env.latency 2 n.2⟩, ?_, ?_, rfl, rfl, hSuccessive⟩
  · refine (hCells 0 n.2).trans ?_
    simp [visitOf, measurementOf]
  · refine (hCells 1 n.2).trans ?_
    simp [visitOf, measurementOf]

theorem indexedRight_congr {c c' : BandwidthRun} (hRows : c'.rows = c.rows)
    (hCompared : c'.comparisons = c.comparisons) : IndexedRight c' ↔ IndexedRight c := by
  have hInside : RowsInside c' ↔ RowsInside c := by rw [RowsInside, RowsInside, hRows]
  apply Iff.intro
  · intro h
    exact ⟨hInside.mp h.rows, hCompared ▸ h.comparisons⟩
  · intro h
    exact ⟨hInside.mpr h.rows, hCompared ▸ h.comparisons⟩

/-- A run that has compared nothing. -/
theorem indexedRight_iff_inside (hCompared : c.comparisons = []) :
    IndexedRight c ↔ RowsInside c := by
  refine ⟨IndexedRight.rows, fun h => ⟨h, fun p hMem => ?_⟩⟩
  rw [hCompared] at hMem
  exact absurd hMem List.not_mem_nil

theorem finish_goesOn (mpam2El2 : BitVec 64) :
    IndexedRight (finishBandwidth env memories mpam2El2 (.goesOn, c)) ↔
      IndexedRight (compareRows env (rowVisits memories c.enabledScenarios)
        { c with pe := c.pe.writeMpam2 mpam2El2 }).2 := by
  rw [finishBandwidth]
  dsimp only
  generalize compareRows env (rowVisits memories c.enabledScenarios)
    { c with pe := c.pe.writeMpam2 mpam2El2 } = out
  obtain ⟨fails, c'⟩ := out
  cases fails with
  | true => exact indexedRight_congr rfl rfl
  | false => exact indexedRight_congr rfl rfl

/-- The nodes that the comparison visits. -/
theorem mem_rowVisits {enabledScenarios : BitVec 8} {v : Nat × MemoryNodeEntry × Nat} :
    v ∈ rowVisits memories enabledScenarios ↔
      0 < v.1 ∧ v.1 < enabledScenarios.toNat ∧ v.2 ∈ memories.zipIdx := by
  obtain ⟨index, n⟩ := v
  simp only [rowVisits, List.mem_flatMap, List.mem_range'_1, List.mem_map, Prod.mk.injEq]
  apply Iff.intro
  · rintro ⟨index', hIndex, n', hMem, rfl, rfl⟩
    exact ⟨by omega, by omega, hMem⟩
  · rintro ⟨hPos, hLt, hMem⟩
    exact ⟨index, by omega, n, hMem, rfl, rfl⟩

theorem mem_supporting {n : MemoryNodeEntry × Nat} : n ∈ supporting s memories ↔
    n ∈ memories.zipIdx ∧ valMemorySupportsMbwpbm (s.mmio n.1.hwregBaseAddr) = true :=
  List.mem_filter

/-- When all measurements are made, one supporting node is what the code is right for. -/
theorem finish_indexed_iff (mpam2El2 : BitVec 64)
    (hMeasured : MeasuredSoFar env s (measuredVisits s memories) c)
    (hSome : supporting s memories ≠ []) :
    IndexedRight (finishBandwidth env memories mpam2El2 (.goesOn, c)) ↔
      (supporting s memories).length ≤ 1 := by
  have hLength := length_measuredVisits s memories
  have hPos := List.length_pos_of_ne_nil hSome
  have hSame := hMeasured.plain.trans (writeMpam2_quiet c.pe mpam2El2).same.plain
  have hRestored : MeasuredSoFar env s (measuredVisits s memories)
      { c with pe := c.pe.writeMpam2 mpam2El2 } := { hMeasured with plain := hSame }
  rw [finish_goesOn]
  by_cases hInside : (measuredVisits s memories).length ≤ mbwpbmScenarioMax
  · have hEnabled : c.enabledScenarios.toNat = (measuredVisits s memories).length := by
      rw [hMeasured.toNat_enabled]
      exact Nat.mod_eq_of_lt (lt_of_le_of_lt hInside (by decide))
    by_cases hMany : 1 < (supporting s memories).length
    · refine iff_of_false (compareRows_wrong env ?_ ?_) (by omega)
      · obtain ⟨n, hMem⟩ := List.exists_mem_of_ne_nil _ hSome
        obtain ⟨hNode, hSupports⟩ := (mem_supporting memories).mp hMem
        refine ⟨(1, n), (mem_rowVisits memories).mpr ⟨Nat.one_pos, by omega, hNode⟩, ?_⟩
        rw [hSame.supportsMbwpbm]
        exact hSupports
      · intro v hMem
        obtain ⟨hRow, -, -⟩ := (mem_rowVisits memories).mp hMem
        obtain ⟨row, hSucc⟩ := Nat.exists_eq_succ_of_ne_zero hRow.ne'
        rw [hSucc]
        exact comparison_wrong env memories hRestored hInside hMany row v.2.2
    · refine iff_of_true (compareRows_right env ?_ ?_) (by omega)
      · exact (indexedRight_iff_inside hRestored.compared).mpr (hRestored.inside.mpr hInside)
      · intro v hMem hSupports
        obtain ⟨n, hOne⟩ := List.length_eq_one_iff.mp (by omega :
          (supporting s memories).length = 1)
        obtain ⟨hRow, hLt, hNode⟩ := (mem_rowVisits memories).mp hMem
        have hSupporting : v.2 ∈ supporting s memories := by
          rw [mem_supporting, ← hSame.supportsMbwpbm]
          exact ⟨hNode, hSupports⟩
        have hFirst : v.1 = 1 := by omega
        rw [hOne, List.mem_singleton] at hSupporting
        rw [hFirst, hSupporting]
        exact ⟨Nat.one_pos, by decide, comparison_right env memories hOne hRestored⟩
  · refine iff_of_false (fun hRight => hInside (hMeasured.inside.mp fun row hMem => ?_)) ?_
    · exact hRight.rows row ((compareRows_keeps env _).1 row hMem)
    · unfold mbwpbmScenarioMax at hInside
      omega

theorem bandwidth_skips_iff (pe : PeState) :
    ((memories.map MemoryNodeEntry.hwregBaseAddr).all fun base =>
        !valMemorySupportsMbwpbm (pe.mmio base)) = true ↔ supporting pe memories = [] := by
  rw [supporting, List.filter_eq_nil_iff, List.all_map, List.all_eq_true]
  apply Iff.intro
  · intro h n hMem
    have hNode := h n.1 (List.fst_mem_of_mem_zipIdx hMem)
    rw [Function.comp_apply, Bool.not_eq_true'] at hNode
    rw [hNode]
    exact Bool.false_ne_true
  · intro h n hMem
    obtain ⟨node, hNode, rfl⟩ := List.getElem_of_mem hMem
    have hIndexed := h (memories[node], node) (List.mk_mem_zipIdx_iff_getElem?.mpr
      (List.getElem?_eq_getElem hNode))
    rwa [Function.comp_apply, Bool.not_eq_true', ← Bool.not_eq_true]

/-- The state before the two nested loops. -/
def beforeScenarios (pe : PeState) : BandwidthRun :=
  let partid := minmaxPartid caches (memories.map MemoryNodeEntry.hwregBaseAddr) pe
  let disabled := caches.foldl (fun s base => s.onNode base (disableCache partid)) pe
  { BandwidthRun.start pe with
    pe := disabled.writeMpam2 (trafficMpam2 disabled.mpam2El2 partid defaultPmg)
    rows := (List.range mbwpbmScenarioMax).map Int.ofNat }

theorem beforeScenarios_measured (pe : PeState) :
    MeasuredSoFar env pe [] (beforeScenarios caches memories pe) where
  plain := ((disableCaches_quiet _ caches pe).trans (writeMpam2_quiet _ _)).same.plain
  enabled := rfl
  inside := by
    have hRows : ∀ row ∈ (List.range mbwpbmScenarioMax).map Int.ofNat,
        0 ≤ row ∧ row < mbwpbmScenarioMax := by decide
    exact iff_of_true hRows (Nat.zero_le _)
  cells _ _ _ := rfl
  compared := rfl

/-- The run after its measurements, which have stopped it or not. -/
theorem finish_iff (mpam2El2 : BitVec 64) {out : MeasureEnd × BandwidthRun}
    (hSome : supporting s memories ≠ [])
    (hLoop : (out.1 = .goesOn ∧ MeasuredSoFar env s (measuredVisits s memories) out.2 ∧
        ¬ ∃ v ∈ (measuredVisits s memories).zipIdx, StopsInside env v.2 v.1) ∨
      (out.1 ≠ .goesOn ∧ out.2.comparisons = [] ∧
        (∃ v ∈ (measuredVisits s memories).zipIdx, Stops env v.2 v.1) ∧
        (RowsInside out.2 ↔
          ∃ v ∈ (measuredVisits s memories).zipIdx, StopsInside env v.2 v.1))) :
    IndexedRight (finishBandwidth env memories mpam2El2 out) ↔
      (supporting s memories).length ≤ 1 ∨
        ∃ v ∈ (measuredVisits s memories).zipIdx, StopsInside env v.2 v.1 := by
  obtain ⟨ends, c⟩ := out
  rcases hLoop with ⟨rfl, hMeasured, hStops⟩ | ⟨hEnds, hCompared, ⟨v, hMem, hStops⟩, hInside⟩
  · rw [finish_indexed_iff env memories mpam2El2 hMeasured hSome, or_iff_left hStops]
  · have hFew : (supporting s memories).length ≤ 1 →
        ∃ v ∈ (measuredVisits s memories).zipIdx, StopsInside env v.2 v.1 := by
      intro hLength
      have hLt := List.snd_lt_of_mem_zipIdx hMem
      rw [length_measuredVisits] at hLt
      exact ⟨v, hMem, hStops.inside env (by unfold mbwpbmScenarioMax; omega)⟩
    rw [or_iff_right_of_imp hFew, ← hInside, ← indexedRight_iff_inside hCompared]
    cases ends with
    | goesOn => exact absurd rfl hEnds
    | copyFails => exact indexedRight_congr rfl rfl
    | stuck => exact Iff.rfl

variable {caches memories} in
/-- A run that is not skipped and has the array. -/
theorem measured_indexed_iff {pe : PeState} (hSome : supporting pe memories ≠ [])
    (hTable : env.tableFails = false) :
    IndexedRight (payloadD001 env caches memories pe) ↔
      (supporting pe memories).length ≤ 1 ∨
        ∃ v ∈ (measuredVisits pe memories).zipIdx, StopsInside env v.2 v.1 := by
  have hLoop := measureScenarios_spec env (minmaxPartid caches
    (memories.map MemoryNodeEntry.hwregBaseAddr) pe) (scenarioVisits memories)
    (beforeScenarios_measured env caches memories pe)
  rw [List.length_nil, List.nil_append, ← measuredVisits] at hLoop
  rw [payloadD001]
  dsimp only
  rw [if_neg (mt (bandwidth_skips_iff memories pe).mp hSome), hTable, if_neg Bool.false_ne_true]
  exact finish_iff env memories _ hSome hLoop

end Payload

/-- The indices are right exactly when at most one node has bandwidth portions, or the payload
stops before it comes to the eleventh row: at a measurement whose buffers cannot be allocated, or
at a null row, or because the array is null. -/
theorem bandwidth_index_iff (env : BandwidthEnv) (caches : List (BitVec 64))
    (memories : List MemoryNodeEntry) (pe : PeState) :
    IndexedRight (payloadD001 env caches memories pe) ↔
      (supporting pe memories).length ≤ 1 ∨ env.tableFails = true ∨
        ∃ v ∈ (measuredVisits pe memories).zipIdx, StopsInside env v.2 v.1 := by
  by_cases hSome : supporting pe memories = []
  · have hFew : (supporting pe memories).length ≤ 1 := by
      rw [hSome]
      exact Nat.zero_le 1
    refine iff_of_true ?_ (Or.inl hFew)
    rw [payloadD001]
    dsimp only
    rw [if_pos ((bandwidth_skips_iff memories pe).mpr hSome)]
    exact ⟨fun _ => nofun, fun _ => nofun⟩
  · cases hTable : env.tableFails with
    | true =>
      refine iff_of_true ?_ (Or.inr (Or.inl rfl))
      rw [payloadD001]
      dsimp only
      rw [if_neg (mt (bandwidth_skips_iff memories pe).mp hSome), if_pos hTable]
      refine ⟨fun row hMem => ?_, fun _ => nofun⟩
      rw [List.mem_singleton.mp hMem]
      decide
    | false => rw [measured_indexed_iff env hSome hTable, or_iff_right Bool.false_ne_true]

/-- Two memory nodes that have bandwidth portions. -/
def portionNodes : List MemoryNodeEntry :=
  [⟨0, 0x80000000, 0x40000000, 0, 0x10000, 0, {}⟩, ⟨1, 0xc0000000, 0x40000000, 0, 0x20000, 0, {}⟩]

def portionPe : PeState where
  mpam2El2 := 0
  mpamidrEl1 := 0
  mmio _ := idPage 0x04000000 0 0x00201000
  errCtrlReg := 0
  csuCtlTemp := 0

/-- A machine on which every allocation and every attempt of a search is granted. -/
def grantingEnv : BandwidthEnv where
  firmware _ _ := refusing 0
  tableFails := false
  rowFails _ := false
  latency _ _ := 0
  memory _ _ := 0

theorem granting_copies {v : ScenarioVisit} (hBase : v.memory.baseAddress ≠ 0)
    (hLength : v.memory.length ≠ 0) : copyBufsFail grantingEnv v = false := by
  simpa [copyBufsFail, palMemAllocateAddress, search, grantingEnv, refusing] using
    And.intro hLength hBase

/-- The rows 0 to 3 are filled, each for one node only, and the comparison mixes them. -/
theorem two_nodes_mixed : ¬ IndexedRight (payloadD001 grantingEnv [] portionNodes portionPe) := by
  have hTwo : supporting portionPe portionNodes = portionNodes.zipIdx := rfl
  rw [measured_indexed_iff grantingEnv (by rw [hTwo]; exact List.cons_ne_nil _ _) rfl, hTwo]
  rintro (hFew | ⟨⟨v, number⟩, hMem, hStops⟩)
  · exact absurd hFew (by decide)
  · have hVisit := List.fst_mem_of_mem_zipIdx hMem
    rw [measuredVisits_eq, hTwo] at hVisit
    have hCopies : copyBufsFail grantingEnv v = false := by
      simp only [portionNodes, List.zipIdx_cons, List.zipIdx_nil, List.map_cons, List.map_nil,
        List.cons_append, List.nil_append, List.mem_cons, List.not_mem_nil, or_false] at hVisit
      rcases hVisit with rfl | rfl | rfl | rfl
      all_goals exact granting_copies (by simp [visitOf]) (by simp [visitOf])
    rcases hStops with ⟨-, hFails⟩ | ⟨-, hFails⟩
    · dsimp only at hFails
      rw [hCopies] at hFails
      exact Bool.false_ne_true hFails
    · exact Bool.false_ne_true hFails

end EnterpriseAcs.Mpam
