import EnterpriseAcs.Mpam.MonitorRange

/-!
# The deviation check

For each monitor, m003 keeps the smallest reading of a number of copies, and compares it with one
reading taken after a second configuration. Both minima start from zero, so that no reading is
ever kept.

* `m003Samples_eq`: what the readings of the monitors are, and what is kept of them.
* `deviation_right_iff`: when what is kept is what was read.
-/

namespace EnterpriseAcs.Mpam

/-! ## Samples -/

/-- The readings of the deviation loop, the value kept of them, what was read after the second
configuration, and the value kept of that. -/
structure MonitorSample where
  readings : List (BitVec 32)
  value1 : BitVec 32
  second : List (BitVec 32)
  value2 : BitVec 32
  deriving DecidableEq, Repr

def MonitorUse.reading? : MonitorUse → Option (BitVec 32)
  | .read _ _ value => some value
  | _ => none

/-- What was read from `t` to `t'`. -/
def readingsSince (t t' : CsuTrace) : List (BitVec 32) :=
  (t'.trace.drop t.trace.length).filterMap MonitorUse.reading?

section Program

variable (env : CsuEnv) (nodes : List (BitVec 64)) (copies : Nat) (pmg1 pmg2 : BitVec 8)

/-- The sample of a monitor. -/
def sampleOf (base : BitVec 64) (node : Nat) (t : CsuTrace) (mon : BitVec 16) : MonitorSample :=
  let looped := tracedDeviation env copies pmg1 base node mon t
  let second := tracedSecond env pmg2 base node mon looped
  let done := tracedRecordMin env 2 base mon node second
  { readings := readingsSince t looped
    value1 := looped.run.storageValue 1 mon node
    second := readingsSince second done
    value2 := done.run.storageValue 2 mon node }

/-- The samples of a node, by node and monitor. -/
def nodeSamples (t : CsuTrace) (n : BitVec 64 × Nat) :
    List ((Nat × BitVec 16) × MonitorSample) :=
  let t := t.step (fun c => c.onPe (partitionNodes nodes n.2)) []
  (Traced.visits (tracedSampleMonitor env copies pmg1 pmg2 n.1 n.2)
    (monitors (valCsumonMonitorCount (t.run.pe.mmio n.1))) t).map fun v =>
      ((n.2, v.2), sampleOf env copies pmg1 pmg2 n.1 n.2 v.1 v.2)

/-- The samples of m003. -/
def m003Samples (pe : PeState) : List ((Nat × BitVec 16) × MonitorSample) :=
  let pmg := minmaxPmg (fun _ => true) nodes pe
  let t : CsuTrace := Traced.start (CsuRun.start pe)
  if maxMoncnt (fun _ => true) nodes pe = 0 then []
  else
    let t := t.step (fun c => { c with mpam2El2 := pe.mpam2El2 }) []
    (Traced.visits (tracedSampleNode env nodes copies pmg (pmg - 1)) nodes.zipIdx t).flatMap
      fun v => nodeSamples env nodes copies pmg (pmg - 1) v.1 v.2

end Program

/-- The monitors of all nodes. -/
def allMonitors (nodes : List (BitVec 64)) (pe : PeState) : List (Nat × BitVec 16) :=
  nodes.zipIdx.flatMap fun n =>
    (monitors (valCsumonMonitorCount (pe.mmio n.1))).map fun mon => (n.2, mon)

/-- Every monitor of every node is sampled; what is kept is the smallest reading of the loop, and
the reading after the second configuration; the test fails when the first one exceeds the second
one for some monitor. -/
structure DeviationRight (nodes : List (BitVec 64)) (pe : PeState)
    (samples : List ((Nat × BitVec 16) × MonitorSample)) (status : BitVec 32) : Prop where
  complete : samples.map Prod.fst = allMonitors nodes pe
  minimum : ∀ s ∈ samples, IsLeast {r | r ∈ s.2.readings} s.2.value1
  second : ∀ s ∈ samples, s.2.second = [s.2.value2]
  verdict : status = resultFail testm003 1 ↔ ∃ s ∈ samples, s.2.value2 < s.2.value1

/-! ## What is read -/

/-- Nothing but zeros is stored. -/
def NullStored (c : CsuRun) : Prop := ∀ which mon node, c.storageValue which mon node = 0

/-- A stretch that reads at the given times, ends at a time, and stores zeros. -/
structure ReadsAt (env : CsuEnv) (times : List Nat) (finish : Nat) (t t' : CsuTrace) : Prop where
  null : NullStored t'.run
  time : t'.run.time = finish
  trace : ∃ more, t'.trace = t.trace ++ more ∧
    more.filterMap MonitorUse.reading? = times.map (usageAt env)

section Reading

variable {env : CsuEnv} {times times' : List Nat} {finish finish' : Nat} {t t' t'' : CsuTrace}

theorem ReadsAt.trans (h : ReadsAt env times finish t t') (h' : ReadsAt env times' finish' t' t'') :
    ReadsAt env (times ++ times') finish' t t'' := by
  obtain ⟨more, hTrace, hRead⟩ := h.trace
  obtain ⟨more', hTrace', hRead'⟩ := h'.trace
  refine ⟨h'.null, h'.time, more ++ more', ?_, ?_⟩
  · rw [hTrace', hTrace, List.append_assoc]
  · rw [List.filterMap_append, hRead, hRead', List.map_append]

theorem ReadsAt.readingsSince (h : ReadsAt env times finish t t') :
    readingsSince t t' = times.map (usageAt env) := by
  obtain ⟨more, hTrace, hRead⟩ := h.trace
  rw [Mpam.readingsSince, hTrace, List.drop_left, hRead]

theorem NullStored.onPe {c : CsuRun} (h : NullStored c) (f : PeState → PeState) :
    NullStored (c.onPe f) := by
  intro which mon node
  exact h which mon node

theorem NullStored.traffic {c : CsuRun} (h : NullStored c) (mpam2El2 : BitVec 64)
    (partid : BitVec 16) (pmg : BitVec 8) : NullStored (c.traffic mpam2El2 partid pmg) := by
  intro which mon node
  exact h which mon node

theorem NullStored.record {c : CsuRun} (h : NullStored c) (which : Nat) (mon : BitVec 16)
    (node : Nat) : NullStored (c.record which mon node 0) := by
  intro which' mon' node'
  rw [CsuRun.record]
  dsimp only
  split
  · rfl
  · exact h which' mon' node'

variable (env) in
theorem ReadsAt.refl (h : NullStored t.run) : ReadsAt env [] t.run.time t t :=
  ⟨h, rfl, [], (List.append_nil t.trace).symm, rfl⟩

/-- A step that does not read. -/
theorem ReadsAt.step (h : ReadsAt env times finish t t') (f : CsuRun → CsuRun)
    {events : List MonitorUse} (hNull : NullStored (f t'.run)) (hTime : (f t'.run).time = finish')
    (hEvents : events.filterMap MonitorUse.reading? = []) :
    ReadsAt env times finish' t (t'.step f events) := by
  obtain ⟨more, hTrace, hRead⟩ := h.trace
  refine ⟨hNull, hTime, more ++ events, ?_, ?_⟩
  · rw [Traced.trace_step, hTrace, List.append_assoc]
  · rw [List.filterMap_append, hRead, hEvents, List.append_nil]

/-- A step on the registers. -/
theorem ReadsAt.onPe (h : ReadsAt env times finish t t') (f : PeState → PeState)
    (events : List MonitorUse) (hEvents : events.filterMap MonitorUse.reading? = []) :
    ReadsAt env times finish t (t'.step (fun c => c.onPe f) events) :=
  h.step (fun c => c.onPe f) (h.null.onPe f) h.time hEvents

/-- Traffic is started, and a cell is set to zero. -/
theorem ReadsAt.start (h : ReadsAt env times finish t t') (partid : BitVec 16) (pmg : BitVec 8)
    (which : Nat) (mon : BitVec 16) (node : Nat) :
    ReadsAt env times finish t (t'.step (fun c =>
      (c.traffic c.mpam2El2 partid pmg).record which mon node 0) [.cell which mon node]) :=
  h.step (fun c => (c.traffic c.mpam2El2 partid pmg).record which mon node 0)
    ((h.null.traffic _ partid pmg).record which mon node) h.time rfl

variable (env) in
/-- The stored value is zero, so that no reading is smaller and the monitor is read once. -/
theorem recordMin_readsAt (which : Nat) (base : BitVec 64) (mon : BitVec 16) (node : Nat)
    (h : NullStored t.run) :
    ReadsAt env [t.run.time] (t.run.time + 1) t (tracedRecordMin env which base mon node t) := by
  have hNot : ∀ value : BitVec 32, ¬ t.run.storageValue which mon node > value := by
    intro value hLt
    rw [h which mon node] at hLt
    exact Nat.not_lt_zero _ hLt
  have hRun : recordMin env which base mon node t.run =
      (valCsumonStorageValue env base mon t.run).2.record which mon node 0 := by
    rw [recordMin]
    dsimp only
    rw [if_neg (hNot _), h which mon node]
  refine ⟨?_, ?_, [.cell which mon node, .read node mon (usageAt env t.run.time)], ?_, rfl⟩
  · rw [tracedRecordMin, Traced.run_step, hRun]
    exact NullStored.record (c := (valCsumonStorageValue env base mon t.run).2) h which mon node
  · rw [tracedRecordMin, Traced.run_step, hRun]
    rfl
  · rw [tracedRecordMin, Traced.trace_step, if_neg (hNot _)]

variable (env) (base : BitVec 64) (mon : BitVec 16) (node : Nat)

theorem sampleOnce_readsAt (h : NullStored t.run) :
    ReadsAt env [t.run.time + 1] (t.run.time + 2) t (tracedSampleOnce env base mon node t) := by
  obtain ⟨reset, hRun, -, hStored, hTime⟩ := sampleOnce_spec env base mon node t
  have hNull : NullStored (reset t.run) := by
    intro which' mon' node'
    rw [hStored]
    exact h which' mon' node'
  have hReset : ReadsAt env [] (t.run.time + 1) t (t.step reset []) :=
    (ReadsAt.refl env h).step reset hNull hTime rfl
  have hRecord := recordMin_readsAt env 1 base mon node (t := t.step reset []) hNull
  rw [Traced.run_step, hTime] at hRecord
  rw [hRun]
  exact hReset.trans hRecord

/-- The copies, one after the other. -/
theorem copies_readsAt (h : NullStored t.run) (copies : Nat) :
    ReadsAt env ((List.range copies).map fun k => t.run.time + (2 * k + 1))
      (t.run.time + 2 * copies) t
      ((List.range copies).foldl (fun t _ => tracedSampleOnce env base mon node t) t) := by
  induction copies with
  | zero => exact ⟨h, rfl, [], (List.append_nil _).symm, rfl⟩
  | succ copies ih =>
    have hOnce := sampleOnce_readsAt env base mon node ih.null
    rw [ih.time] at hOnce
    rw [List.range_succ, List.map_append, List.foldl_append]
    exact ih.trans hOnce

theorem deviation_readsAt (h : NullStored t.run) (copies : Nat) (pmg1 : BitVec 8) :
    ReadsAt env ((List.range copies).map fun k => t.run.time + (2 * k + 1))
      (t.run.time + 2 * copies) t (tracedDeviation env copies pmg1 base node mon t) := by
  have hConfigured := (ReadsAt.refl env h).onPe
    (valCsumonConfigMonitor base defaultPartid pmg1 mon)
    [.configure node mon defaultPartid pmg1] rfl
  have hStarted := hConfigured.start defaultPartid pmg1 1 mon node
  have hCopies := copies_readsAt env base mon node hStarted.null copies
  rw [hStarted.time] at hCopies
  exact hStarted.trans hCopies

theorem second_readsAt (h : NullStored t.run) (pmg2 : BitVec 8) :
    ReadsAt env [] (t.run.time + 1) t (tracedSecond env pmg2 base node mon t) := by
  have hStarted := (ReadsAt.refl env h).start defaultPartid pmg2 2 mon node
  have hReset : ReadsAt env [] (t.run.time + 1) t _ :=
    hStarted.step (fun c => (allocBuffers env c).2.onPe (valCsumonResetMonitor base mon))
      (hStarted.null.onPe (valCsumonResetMonitor base mon)) rfl List.filterMap_nil
  have hRestored := hReset.onPe (valCsumonRestoreCtlreg base mon) [] List.filterMap_nil
  exact hRestored.onPe (valCsumonConfigMonitor base defaultPartid pmg2 mon)
    [.configure node mon defaultPartid pmg2] rfl

/-- The visit of a monitor: the copies, and a last reading. -/
theorem sampleMonitor_readsAt (h : NullStored t.run) (copies : Nat) (pmg1 pmg2 : BitVec 8) :
    ReadsAt env ((List.range copies).map (fun k => t.run.time + (2 * k + 1)) ++
      [t.run.time + 2 * copies + 1]) (t.run.time + (2 * copies + 2)) t
      (tracedSampleMonitor env copies pmg1 pmg2 base node t mon) := by
  have hLooped := deviation_readsAt env base mon node h copies pmg1
  have hSecond := second_readsAt env base mon node hLooped.null pmg2
  have hRecord := recordMin_readsAt env 2 base mon node hSecond.null
  rw [hSecond.time, hLooped.time] at hRecord
  have hRead := (hLooped.trans hSecond).trans hRecord
  rw [List.append_nil] at hRead
  exact hRead.onPe (valCsumonRestoreCtlreg base mon) [] List.filterMap_nil

end Reading

/-- The sample of the monitor that is sampled as number `v`. -/
def sampleAt (env : CsuEnv) (copies v : Nat) : MonitorSample :=
  let start := v * (2 * copies + 2)
  { readings := (List.range copies).map fun k => usageAt env (start + (2 * k + 1))
    value1 := 0
    second := [usageAt env (start + (2 * copies + 1))]
    value2 := 0 }

/-- The state before the monitor that is sampled as number `v`. -/
structure SampledBefore (copies : Nat) (pe : PeState) (v : Nat) (t : CsuTrace) : Prop where
  null : NullStored t.run
  time : t.run.time = v * (2 * copies + 2)
  plain : SamePlain pe t.run.pe

section Samples

variable (env : CsuEnv) (nodes : List (BitVec 64)) (copies : Nat) (pmg1 pmg2 : BitVec 8)
  {pe : PeState} {v : Nat} {t : CsuTrace}

theorem sampleOf_eq (base : BitVec 64) (node : Nat) (mon : BitVec 16)
    (h : SampledBefore copies pe v t) :
    sampleOf env copies pmg1 pmg2 base node t mon = sampleAt env copies v := by
  have hLooped := deviation_readsAt env base mon node h.null copies pmg1
  have hSecond := second_readsAt env base mon node hLooped.null pmg2
  have hRecord := recordMin_readsAt env 2 base mon node hSecond.null
  rw [sampleOf, sampleAt]
  rw [hLooped.readingsSince, hLooped.null, hRecord.readingsSince, hRecord.null, hSecond.time,
    hLooped.time, h.time, List.map_map]
  rfl

theorem sampleMonitor_sampled (base : BitVec 64) (node : Nat) (mon : BitVec 16)
    (h : SampledBefore copies pe v t) :
    SampledBefore copies pe (v + 1) (tracedSampleMonitor env copies pmg1 pmg2 base node t mon) := by
  have hSampled := sampleMonitor_readsAt env base mon node h.null copies pmg1 pmg2
  refine ⟨hSampled.null, ?_, h.plain.trans
    (sampleMonitor_adds env base mon copies pmg1 pmg2 node t).1⟩
  rw [hSampled.time, h.time, Nat.add_mul, Nat.one_mul]

/-- The number of monitors of a node. -/
def monitorsOf (pe : PeState) (n : BitVec 64 × Nat) : Nat :=
  (valCsumonMonitorCount (pe.mmio n.1)).toNat

theorem length_monitors (count : BitVec 16) : (monitors count).length = count.toNat := by
  rw [monitors, List.length_map, List.length_range]

/-- The node before its monitors are sampled. -/
theorem partitioned_sampled (n : BitVec 64 × Nat) (h : SampledBefore copies pe v t) :
    SampledBefore copies pe v (t.step (fun c => c.onPe (partitionNodes nodes n.2)) []) :=
  ⟨h.null, h.time, h.plain.trans (partitionNodes_quiet nodes n.2 t.run.pe).same.plain⟩

theorem sampleNode_sampled (n : BitVec 64 × Nat) (h : SampledBefore copies pe v t) :
    SampledBefore copies pe (v + monitorsOf pe n)
      (tracedSampleNode env nodes copies pmg1 pmg2 t n) := by
  have hPartitioned := partitioned_sampled nodes copies n h
  have hLoop := Traced.foldl_numbered (fun _ => 1) (fun v t mon h =>
    sampleMonitor_sampled env copies pmg1 pmg2 n.1 n.2 mon h)
    (monitors (valCsumonMonitorCount (pe.mmio n.1))) hPartitioned
  rw [List.map_const', List.sum_replicate_nat, Nat.mul_one, length_monitors] at hLoop
  rw [tracedSampleNode, hPartitioned.plain.csumonCount]
  exact hLoop

theorem nodeSamples_snd (n : BitVec 64 × Nat) (h : SampledBefore copies pe v t) :
    (nodeSamples env nodes copies pmg1 pmg2 t n).map Prod.snd =
      (List.range' v (monitorsOf pe n)).map (sampleAt env copies) := by
  have hPartitioned := partitioned_sampled nodes copies n h
  have hVisits := Traced.visits_map (fun v t mon h =>
    sampleMonitor_sampled env copies pmg1 pmg2 n.1 n.2 mon h) (fun v t mon h =>
    sampleOf_eq env copies pmg1 pmg2 n.1 n.2 mon h)
    (monitors (valCsumonMonitorCount (pe.mmio n.1))) hPartitioned
  rw [nodeSamples, List.map_map, hPartitioned.plain.csumonCount, monitorsOf, ← length_monitors,
    ← hVisits]
  rfl

theorem nodeSamples_fst (n : BitVec 64 × Nat) (h : SampledBefore copies pe v t) :
    (nodeSamples env nodes copies pmg1 pmg2 t n).map Prod.fst =
      (monitors (valCsumonMonitorCount (pe.mmio n.1))).map fun mon => (n.2, mon) := by
  rw [nodeSamples, List.map_map, (partitioned_sampled nodes copies n h).plain.csumonCount,
    ← Traced.map_snd_visits (f := tracedSampleMonitor env copies pmg1 pmg2 n.1 n.2)
      (monitors (valCsumonMonitorCount (pe.mmio n.1)))
      (t.step (fun c => c.onPe (partitionNodes nodes n.2)) []),
    List.map_map, Traced.map_snd_visits]
  rfl

/-- The number of monitors of all nodes. -/
def totalMonitors (pe : PeState) : Nat := (nodes.zipIdx.map (monitorsOf pe)).sum

theorem start_sampled (pe : PeState) : SampledBefore copies pe 0
    ((Traced.start (CsuRun.start pe)).step (fun c => { c with mpam2El2 := pe.mpam2El2 }) []) :=
  ⟨fun _ _ _ => rfl, (Nat.zero_mul _).symm, fun _ _ _ _ => rfl⟩

theorem m003Samples_snd (pe : PeState) :
    (m003Samples env nodes copies pe).map Prod.snd =
      (List.range (totalMonitors nodes pe)).map (sampleAt env copies) := by
  rw [m003Samples]
  dsimp only
  split
  · rename_i hCount
    have hZero : totalMonitors nodes pe = 0 := by
      refine List.sum_eq_zero fun count hMem => ?_
      obtain ⟨n, hNode, rfl⟩ := List.mem_map.mp hMem
      rw [monitorsOf, count_eq_zero_of_skip nodes pe hCount (List.fst_mem_of_mem_zipIdx hNode)]
      rfl
    rw [hZero]
    rfl
  · rw [List.map_flatMap, List.range_eq_range']
    exact Traced.visits_flatMap (monitorsOf pe)
      (fun t n => (nodeSamples env nodes copies (minmaxPmg (fun _ => true) nodes pe)
        (minmaxPmg (fun _ => true) nodes pe - 1) t n).map Prod.snd)
      (fun v t n h => sampleNode_sampled env nodes copies _ _ n h)
      (fun v t n h => nodeSamples_snd env nodes copies _ _ n h) nodes.zipIdx
      (start_sampled copies pe)

theorem m003Samples_fst (pe : PeState) :
    (m003Samples env nodes copies pe).map Prod.fst = allMonitors nodes pe := by
  rw [m003Samples]
  dsimp only
  split
  · rename_i hCount
    symm
    rw [allMonitors, List.map_nil, List.flatMap_eq_nil_iff]
    intro n hMem
    rw [count_eq_zero_of_skip nodes pe hCount (List.fst_mem_of_mem_zipIdx hMem)]
    rfl
  · rw [List.map_flatMap]
    exact Traced.visits_flatMap_const (monitorsOf pe)
      (fun t n => (nodeSamples env nodes copies (minmaxPmg (fun _ => true) nodes pe)
        (minmaxPmg (fun _ => true) nodes pe - 1) t n).map Prod.fst)
      (fun v t n h => sampleNode_sampled env nodes copies _ _ n h)
      (fun v t n h => nodeSamples_fst env nodes copies _ _ n h) nodes.zipIdx
      (start_sampled copies pe)

theorem usageDisturbed_of_null {c : CsuRun} (h : NullStored c) :
    usageDisturbed nodes c = false := by
  rw [usageDisturbed, List.any_eq_false]
  rintro ⟨base, node⟩ _
  rw [Bool.not_eq_true, List.any_eq_false]
  intro mon _
  rw [h, h]
  decide

/-- With zeros on both sides the test never fails. -/
theorem m003_passes (pe : PeState) :
    (tracedM003 env nodes copies pe).run.status ≠ resultFail testm003 1 := by
  have hSkip : resultSkip testm003 0 ≠ resultFail testm003 1 := by decide
  have hPass : resultPass testm003 1 ≠ resultFail testm003 1 := by decide
  rw [tracedM003]
  dsimp only
  split
  · exact hSkip
  · have hLoop := Traced.foldl_numbered (monitorsOf pe) (fun v t n h =>
      sampleNode_sampled env nodes copies (minmaxPmg (fun _ => true) nodes pe)
        (minmaxPmg (fun _ => true) nodes pe - 1) n h)
      nodes.zipIdx (start_sampled copies pe)
    rw [Traced.run_step]
    dsimp only
    rw [usageDisturbed_of_null, if_neg Bool.false_ne_true]
    · exact hPass
    · exact hLoop.null

end Samples

/-! ## The check -/

/-- The monitor that is sampled as number `v` reads zero at least once in the loop, and reads zero
after the second configuration. -/
def ReadsZero (env : CsuEnv) (copies v : Nat) : Prop :=
  (∃ k < copies, usageAt env (v * (2 * copies + 2) + (2 * k + 1)) = 0) ∧
    usageAt env (v * (2 * copies + 2) + (2 * copies + 1)) = 0

theorem sampleAt_minimum_iff (env : CsuEnv) (copies v : Nat) :
    IsLeast {r | r ∈ (sampleAt env copies v).readings} (sampleAt env copies v).value1 ↔
      ∃ k < copies, usageAt env (v * (2 * copies + 2) + (2 * k + 1)) = 0 := by
  have hMem : ∀ r, r ∈ (sampleAt env copies v).readings ↔
      ∃ k < copies, usageAt env (v * (2 * copies + 2) + (2 * k + 1)) = r := by
    intro r
    simp only [sampleAt, List.mem_map, List.mem_range]
  apply Iff.intro
  · intro h
    exact (hMem 0).mp h.1
  · intro h
    exact ⟨(hMem 0).mpr h, fun r _ => Nat.zero_le r.toNat⟩

/-- What is kept is what was read exactly when every monitor reads zero in the loop and after it. -/
theorem deviation_right_iff (env : CsuEnv) (nodes : List (BitVec 64)) (copies : Nat)
    (pe : PeState) :
    DeviationRight nodes pe (m003Samples env nodes copies pe)
        (tracedM003 env nodes copies pe).run.status ↔
      ∀ v < totalMonitors nodes pe, ReadsZero env copies v := by
  have hSamples := m003Samples_snd env nodes copies pe
  have hAll : ∀ P : MonitorSample → Prop, (∀ s ∈ m003Samples env nodes copies pe, P s.2) ↔
      ∀ v < totalMonitors nodes pe, P (sampleAt env copies v) := by
    intro P
    rw [← List.forall_mem_map (f := Prod.snd), hSamples, List.forall_mem_map]
    simp only [List.mem_range]
  have hMinimum := hAll fun s => IsLeast {r | r ∈ s.readings} s.value1
  have hSecond := hAll fun s => s.second = [s.value2]
  have hKept := hAll fun s => ¬ s.value2 < s.value1
  apply Iff.intro
  · intro h v hv
    refine ⟨(sampleAt_minimum_iff env copies v).mp (hMinimum.mp h.minimum v hv), ?_⟩
    exact List.singleton_inj.mp (hSecond.mp h.second v hv)
  · intro h
    refine ⟨m003Samples_fst env nodes copies pe, hMinimum.mpr fun v hv => ?_,
      hSecond.mpr fun v hv => ?_, ?_⟩
    · exact (sampleAt_minimum_iff env copies v).mpr (h v hv).1
    · exact congrArg (fun r => [r]) (h v hv).2
    · refine iff_of_false (m003_passes env nodes copies pe) ?_
      rintro ⟨s, hMem, hLt⟩
      exact hKept.mpr (fun v _ => Nat.not_lt_zero _) s hMem hLt

/-- One node with one monitor, which reads 64 in every copy and 32 after the second
configuration. -/
def fallingEnv : CsuEnv := ⟨fun time => if time = 21 then 32 else 64, fun _ => false⟩

/-- The test passes, and nothing of what was read is kept. -/
theorem deviation_not_kept :
    ¬ DeviationRight [0x10000] { quietPe with mmio := fun _ => monitorOff }
      (m003Samples fallingEnv [0x10000] 10 { quietPe with mmio := fun _ => monitorOff })
      (tracedM003 fallingEnv [0x10000] 10
        { quietPe with mmio := fun _ => monitorOff }).run.status := by
  intro h
  have hSample := m003Samples_snd fallingEnv [0x10000] 10
    { quietPe with mmio := fun _ => monitorOff }
  have hTotal : totalMonitors [0x10000] { quietPe with mmio := fun _ => monitorOff } = 1 := by
    decide
  rw [hTotal] at hSample
  have hMem : sampleAt fallingEnv 10 0 ∈ (m003Samples fallingEnv [0x10000] 10
      { quietPe with mmio := fun _ => monitorOff }).map Prod.snd := by
    rw [hSample]
    exact List.mem_singleton_self _
  obtain ⟨s, hSampled, hEq⟩ := List.mem_map.mp hMem
  have hMinimum := h.minimum s hSampled
  rw [hEq, sampleAt_minimum_iff] at hMinimum
  exact absurd hMinimum (by decide)

end EnterpriseAcs.Mpam
