import EnterpriseAcs.Mpam.CsuMonitor
import EnterpriseAcs.Mpam.InterruptRestore

/-!
# The monitors after a test

The tests m001 and m002 configure monitors and never restore them; m003 restores each one before
it goes on to the next.

* `measureMonitor_configures`: the tests m001 and m002, for one monitor of each node.
* `sampleMonitor_same`: the test m003, for one monitor.
* `csu_tests_restore_iff`: when a test leaves the monitors as it found them.
-/

namespace EnterpriseAcs.Mpam

/-! ## The nodes of a test -/

section Nodes

variable {s s' : PeState} (base : BitVec 64)

theorem SamePlain.trans {a b c : PeState} (h : SamePlain a b) (h' : SamePlain b c) :
    SamePlain a c :=
  fun base o hPart hMon => (h' base o hPart hMon).trans (h base o hPart hMon)

theorem SamePlain.read (h : SamePlain s s') {o : Nat} (hSelector : selector o = .none)
    (hPart : o ≠ regMpamcfgPartSel) (hMon : o ≠ regMsmonCfgMonSel) :
    (s'.mmio base).read o = (s.mmio base).read o := by
  simp only [NodeRegs.read, hSelector]
  exact h base o hPart hMon

theorem SamePlain.supportsMon (h : SamePlain s s') :
    valNodeSupportsMon (s'.mmio base) = valNodeSupportsMon (s.mmio base) := by
  have hIdr := h.read base (o := regMpamfIdr) (by decide) (by decide) (by decide)
  rw [valNodeSupportsMon, valNodeSupportsMon, hIdr]

theorem SamePlain.supportsCsumon (h : SamePlain s s') :
    valCacheSupportsCsumon (s'.mmio base) = valCacheSupportsCsumon (s.mmio base) := by
  have hIdr := h.read base (o := regMpamfMsmonIdr) (by decide) (by decide) (by decide)
  rw [valCacheSupportsCsumon, valCacheSupportsCsumon, h.supportsMon base, hIdr]

theorem SamePlain.measured (h : SamePlain s s') (p : Partitioning) :
    p.measured (s'.mmio base) = p.measured (s.mmio base) := by
  have hSupports : p.supports (s'.mmio base) = p.supports (s.mmio base) := by
    cases p with
    | cpor =>
      have hIdr := h.read base (o := regMpamfIdr) (by decide) (by decide) (by decide)
      simp only [Partitioning.supports, valCacheSupportsCpor, hIdr]
    | ccap =>
      have hIdr := h base regMpamfIdr (by decide) (by decide)
      simp only [Partitioning.supports, valCacheSupportsCcap, NodeRegs.msc, hIdr]
  rw [Partitioning.measured, Partitioning.measured, hSupports, h.supportsCsumon base]

end Nodes

/-! ## Partitioning -/

/-- A configuration that leaves the monitors and the registers that nothing selects. -/
structure KeepsMonitors (f : NodeRegs → NodeRegs) : Prop where
  monitors : ∀ r, (f r).byMonitor = r.byMonitor
  plain : ∀ r o, o ≠ regMpamcfgPartSel → (f r).plain o = r.plain o

theorem KeepsMonitors.comp {f g : NodeRegs → NodeRegs} (hg : KeepsMonitors g)
    (hf : KeepsMonitors f) : KeepsMonitors fun r => g (f r) :=
  ⟨fun r => (hg.monitors _).trans (hf.monitors r),
    fun r o hPart => (hg.plain _ o hPart).trans (hf.plain r o hPart)⟩

theorem KeepsMonitors.ite {f : NodeRegs → NodeRegs} (hf : KeepsMonitors f)
    (supports : NodeRegs → Bool) : KeepsMonitors fun r => if supports r then f r else r := by
  refine ⟨fun r => ?_, fun r o hPart => ?_⟩
  · split
    · exact hf.monitors r
    · rfl
  · split
    · exact hf.plain r o hPart
    · rfl

theorem cpor_keepsMonitors (partid : BitVec 16) (percentage : BitVec 32) :
    KeepsMonitors (valCacheConfigureCpor partid percentage) := by
  have hPlain : ∀ r, (valCacheConfigureCpor partid percentage r).plain =
      Function.update r.plain regMpamcfgPartSel (partid.setWidth 32) := fun r =>
    (configurePortions_spec _ partid r (Nat.le_refl _) rfl).1
  refine ⟨fun r => (configurePortions_spec _ partid r (Nat.le_refl _) rfl).2.1, fun r o hPart => ?_⟩
  rw [hPlain, Function.update_of_ne hPart]

theorem ccap_keepsMonitors (partid : BitVec 16) (hardlim : BitVec 8) (percentage : BitVec 32) :
    KeepsMonitors fun r => r.configureCcap partid hardlim percentage := by
  refine ⟨fun r => ?_, fun r o hPart => ?_⟩
  · rw [NodeRegs.configureCcap, write_byPartid _ _ (by decide), write_plain _ _ (by decide)]
  · rw [NodeRegs.configureCcap, write_byPartid _ _ (by decide), write_plain _ _ (by decide)]
    exact Function.update_of_ne hPart _ _

/-- A capacity, and then the portions, where the node has them. -/
theorem configure_keepsMonitors (partid : BitVec 16) (p : Partitioning) :
    KeepsMonitors (p.configure partid) := by
  cases p with
  | cpor =>
    exact ((ccap_keepsMonitors partid 0 100).ite fun r => valCacheSupportsCcap r.msc).comp
      ((cpor_keepsMonitors partid 75).ite valCacheSupportsCpor)
  | ccap =>
    exact ((cpor_keepsMonitors partid 100).ite valCacheSupportsCpor).comp
      ((ccap_keepsMonitors partid 1 75).ite fun r => valCacheSupportsCcap r.msc)

theorem disableCache_keepsMonitors (partid : BitVec 16) : KeepsMonitors (disableCache partid) :=
  ((ccap_keepsMonitors partid 0 100).ite fun r => valCacheSupportsCcap r.msc).comp
    ((cpor_keepsMonitors partid 100).ite valCacheSupportsCpor)

theorem partitionNode_keepsMonitors : KeepsMonitors partitionNode :=
  ((ccap_keepsMonitors defaultPartid 1 75).ite fun r => valCacheSupportsCcap r.msc).comp
    ((cpor_keepsMonitors defaultPartid 75).ite valCacheSupportsCpor)

/-! ## Loops -/

section Loops

variable {α β : Type}

/-- What a body keeps, its loop keeps. -/
theorem foldl_quiet (view : β → PeState) {f : β → α → β}
    (hStep : ∀ b a, Quiet (view b) (view (f b a))) (l : List α) (b : β) :
    Quiet (view b) (view (l.foldl f b)) :=
  List.foldlRecOn (motive := fun b' => Quiet (view b) (view b')) l f (Quiet.refl (view b))
    fun b' h a _ => h.trans (hStep b' a)

/-- The monitors that a loop configures. A body may look at the registers that nothing selects:
they are those of the start. -/
theorem foldl_configures (view : β → PeState) {f : β → α → β}
    (T : α → Set (BitVec 64 × BitVec 16)) {s : PeState} {l : List α}
    (hStep : ∀ a ∈ l, ∀ b, SamePlain s (view b) → Configures (T a) (view b) (view (f b a)))
    (b : β) (hStart : SamePlain s (view b)) :
    Configures {x | ∃ a ∈ l, x ∈ T a} (view b) (view (l.foldl f b)) := by
  induction l generalizing b with
  | nil =>
    have hNone : {x : BitVec 64 × BitVec 16 | ∃ a ∈ ([] : List α), x ∈ T a} = ∅ := by
      ext x
      simp
    rw [hNone]
    exact Configures.refl _
  | cons a l ih =>
    have hHead := hStep a List.mem_cons_self b hStart
    have hTail := ih (fun a' ha' => hStep a' (List.mem_cons_of_mem a ha')) (f b a)
      (hStart.trans hHead.plain)
    have hSets : {x : BitVec 64 × BitVec 16 | ∃ a' ∈ a :: l, x ∈ T a'} =
        T a ∪ {x | ∃ a' ∈ l, x ∈ T a'} := by
      ext x
      simp
    rw [hSets]
    exact hHead.trans hTail

end Loops

/-! ## The tests m001 and m002 -/

section Pmg

variable (p : Partitioning) (nodes : List (BitVec 64)) {s : PeState}

/-- One monitor of the measured nodes, in the state `s`. -/
def monitorOfAll (s : PeState) (mon : BitVec 16) : Set (BitVec 64 × BitVec 16) :=
  {x | x.1 ∈ nodes ∧ p.measured (s.mmio x.1) = true ∧ x.2 = mon}

theorem configMonitors_configures (partid : BitVec 16) (pmg : BitVec 8) (mon : BitVec 16)
    (pe : PeState) (hStart : SamePlain s pe) :
    Configures (monitorOfAll p nodes s mon) pe (configMonitors p nodes partid pmg mon pe) := by
  have hStep : ∀ base ∈ nodes, ∀ pe', SamePlain s pe' →
      Configures {x | p.measured (s.mmio base) = true ∧ x = (base, mon)} pe'
        (if p.measured (pe'.mmio base) then valCsumonConfigMonitor base partid pmg mon pe'
          else pe') := by
    intro base _ pe' hSame
    rw [hSame.measured base p]
    by_cases h : p.measured (s.mmio base) = true
    · have hOne : {x | p.measured (s.mmio base) = true ∧ x = (base, mon)} = {(base, mon)} := by
        ext x
        simp [h]
      rw [hOne, if_pos h]
      exact (configMonitor_spec pe' base partid pmg mon).1
    · have hNone : {x | p.measured (s.mmio base) = true ∧ x = (base, mon)} = ∅ := by
        ext x
        simp [h]
      rw [hNone, if_neg h]
      exact Configures.refl pe'
  have hSets : monitorOfAll p nodes s mon =
      {x | ∃ base ∈ nodes, p.measured (s.mmio base) = true ∧ x = (base, mon)} := by
    ext ⟨base, mon'⟩
    apply Iff.intro
    · rintro ⟨hMem, hMeasured, rfl⟩
      exact ⟨base, hMem, hMeasured, rfl⟩
    · rintro ⟨base', hMem, hMeasured, hEq⟩
      obtain ⟨rfl, rfl⟩ := Prod.mk.inj hEq
      exact ⟨hMem, hMeasured, rfl⟩
  rw [hSets]
  exact foldl_configures id
    (fun base => {x | p.measured (s.mmio base) = true ∧ x = (base, mon)}) hStep pe hStart

variable (env : CsuEnv)

theorem storageValue_quiet (base : BitVec 64) (mon : BitVec 16) (c : CsuRun) :
    Quiet c.pe (valCsumonStorageValue env base mon c).2.pe :=
  write_quiet c.pe base _ (by decide) (Or.inl rfl)

theorem readMonitors_quiet (which : Nat) (mon : BitVec 16) (c : CsuRun) :
    Quiet c.pe (readMonitors env p nodes which mon c).pe := by
  apply foldl_quiet CsuRun.pe
  rintro c' ⟨base, node⟩
  dsimp only
  split
  · exact storageValue_quiet env base mon c'
  · exact Quiet.refl _

theorem measureMonitor_configures (test : BitVec 32) (partid : BitVec 16) (pmg1 pmg2 : BitVec 8)
    (temp : BitVec 64) (c : CsuRun) (mon : BitVec 16) (hStart : SamePlain s c.pe) :
    Configures (monitorOfAll p nodes s mon) c.pe
      (measureMonitor env p nodes test partid pmg1 pmg2 temp c mon).pe := by
  have hConfig := configMonitors_configures p nodes partid pmg1 mon c.pe hStart
  refine hConfig.then (Quiet.same ?_)
  -- What follows the configuration is traffic and readings.
  generalize hAsked : (if (allocBuffers env (c.onPe (configMonitors p nodes partid pmg1 mon))).1
    then { (allocBuffers env (c.onPe (configMonitors p nodes partid pmg1 mon))).2 with
      status := resultFail test 1 }
    else (allocBuffers env (c.onPe (configMonitors p nodes partid pmg1 mon))).2) = asked
  have hPe : asked.pe = configMonitors p nodes partid pmg1 mon c.pe := by
    rw [← hAsked]
    split
    · rfl
    · rfl
  have hRun : measureMonitor env p nodes test partid pmg1 pmg2 temp c mon =
      readMonitors env p nodes 1 mon ((readMonitors env p nodes 2 mon
        (asked.traffic asked.mpam2El2 partid pmg2)).traffic temp partid pmg1) := by
    rw [← hAsked]
    rfl
  have hFirst := (writeMpam2_quiet asked.pe (trafficMpam2 asked.mpam2El2 partid pmg2)).trans
    (readMonitors_quiet p nodes env 2 mon (asked.traffic asked.mpam2El2 partid pmg2))
  have hSecond := (writeMpam2_quiet _ (trafficMpam2 temp partid pmg1)).trans
    (readMonitors_quiet p nodes env 1 mon ((readMonitors env p nodes 2 mon
      (asked.traffic asked.mpam2El2 partid pmg2)).traffic temp partid pmg1))
  rw [hRun, ← hPe]
  exact hFirst.trans hSecond

theorem mem_monitors {count mon : BitVec 16} : mon ∈ monitors count ↔ mon < count := by
  rw [monitors, List.mem_map]
  apply Iff.intro
  · rintro ⟨i, hi, rfl⟩
    have hLt := List.mem_range.mp hi
    have hCount := count.isLt
    rw [BitVec.lt_def, BitVec.toNat_ofNat, Nat.mod_eq_of_lt (hLt.trans hCount)]
    exact hLt
  · intro h
    exact ⟨mon.toNat, List.mem_range.mpr h, by simp⟩

/-- The monitors that a test configures. -/
def measuredMonitors (s : PeState) : Set (BitVec 64 × BitVec 16) :=
  {x | x.1 ∈ nodes ∧ p.measured (s.mmio x.1) = true ∧ x.2 < maxMoncnt p.supports nodes s}

/-- They are the monitors below the count, one after the other. -/
theorem measuredMonitors_eq (s : PeState) :
    {x | ∃ mon ∈ monitors (maxMoncnt p.supports nodes s), x ∈ monitorOfAll p nodes s mon} =
      measuredMonitors p nodes s := by
  ext ⟨base, mon⟩
  apply Iff.intro
  · rintro ⟨mon', hMon, hMem, hMeasured, rfl⟩
    exact ⟨hMem, hMeasured, mem_monitors.mp hMon⟩
  · rintro ⟨hMem, hMeasured, hLt⟩
    exact ⟨mon, mem_monitors.mpr hLt, hMem, hMeasured, rfl⟩

theorem foldl_onNode_mpam2 (f : NodeRegs → NodeRegs) (pe : PeState) :
    (nodes.foldl (fun pe base => pe.onNode base f) pe).mpam2El2 = pe.mpam2El2 :=
  List.foldlRecOn (motive := fun pe' : PeState => pe'.mpam2El2 = pe.mpam2El2) nodes _ rfl
    fun _ h _ _ => h

theorem pmgPayload_spec (test : BitVec 32) (pe : PeState) :
    Configures (measuredMonitors p nodes pe) pe (pmgPayload env p nodes test pe).pe ∧
      (pmgPayload env p nodes test pe).pe.mpam2El2 = pe.mpam2El2 := by
  rw [pmgPayload]
  dsimp only
  split
  · rename_i hCount
    have hNone : measuredMonitors p nodes pe = ∅ := by
      ext x
      simp [measuredMonitors, hCount]
    rw [hNone]
    exact ⟨Configures.refl pe, rfl⟩
  · have hKeeps := configure_keepsMonitors (minmaxPartid nodes [] pe) p
    have hMpam2 := foldl_onNode_mpam2 nodes (p.configure (minmaxPartid nodes [] pe)) pe
    have hPartition : Quiet pe (nodes.foldl (fun pe' base =>
        pe'.onNode base (p.configure (minmaxPartid nodes [] pe))) pe) :=
      foldl_quiet id (fun s base => onNode_quiet s base hKeeps.monitors hKeeps.plain) nodes pe
    let c : CsuRun := { CsuRun.start pe with
      pe := nodes.foldl (fun pe' base =>
        pe'.onNode base (p.configure (minmaxPartid nodes [] pe))) pe
      mpam2El2 := (nodes.foldl (fun pe' base =>
        pe'.onNode base (p.configure (minmaxPartid nodes [] pe))) pe).mpam2El2 }
    have hLoop := foldl_configures CsuRun.pe (monitorOfAll p nodes pe)
      (l := monitors (maxMoncnt p.supports nodes pe))
      (fun mon _ c' hSame => measureMonitor_configures p nodes env test (minmaxPartid nodes [] pe)
        (minmaxPmg p.supports nodes pe) (minmaxPmg p.supports nodes pe - 1) c.mpam2El2 c' mon hSame)
      c hPartition.same.plain
    rw [measuredMonitors_eq] at hLoop
    have hMeasured := hPartition.same.then hLoop
    exact ⟨hMeasured.then (writeMpam2_quiet _ _).same, hMpam2⟩

end Pmg

/-! ## The test m003 -/

/-- A monitor is configured and its control register is saved; the other ones are as before. -/
structure Measuring (base : BitVec 64) (mon : BitVec 16) (s s' : PeState) : Prop where
  others : ∀ base' mon', ¬ (base' = base ∧ mon' = mon) → ctlOf s' base' mon' = ctlOf s base' mon'
  plain : SamePlain s s'
  temp : s'.csuCtlTemp = ctlOf s base mon

section Sampling

variable {base : BitVec 64} {mon : BitVec 16} {s s' s'' : PeState}

theorem configMonitor_measuring (partid : BitVec 16) (pmg : BitVec 8) (h : SameCtl s s') :
    Measuring base mon s (valCsumonConfigMonitor base partid pmg mon s') := by
  obtain ⟨hConfig, hTemp⟩ := configMonitor_spec s' base partid pmg mon
  have hSame := fun base' mon' => h.outside base' mon' (Set.notMem_empty _)
  refine ⟨fun base' mon' hOther => ?_, h.plain.trans hConfig.plain, hTemp.trans (hSame base mon)⟩
  have hOut : (base', mon') ∉ ({(base, mon)} : Set (BitVec 64 × BitVec 16)) := fun hMem =>
    hOther (Prod.mk.inj (Set.mem_singleton_iff.mp hMem))
  exact (hConfig.outside base' mon' hOut).trans (hSame base' mon')

theorem Measuring.quiet (h : Measuring base mon s s') (h' : Quiet s' s'') :
    Measuring base mon s s'' :=
  ⟨fun base' mon' hOther =>
    (h'.same.outside base' mon' (Set.notMem_empty _)).trans (h.others base' mon' hOther),
    h.plain.trans h'.same.plain, h'.temp.trans h.temp⟩

/-- The control register that was saved is restored. -/
theorem Measuring.restore (h : Measuring base mon s s') :
    SameCtl s (valCsumonRestoreCtlreg base mon s') := by
  have hSpec := restoreCtlreg_spec s' base mon
  have hSelector : selector regMsmonCfgCsuCtl ≠ .none := by decide
  refine ⟨fun base' mon' hMem => absurd hMem (Set.notMem_empty _), fun base' mon' _ => ?_,
    fun base' o hPart hMon => ?_⟩
  · rw [hSpec]
    split
    · rename_i hHere
      obtain ⟨rfl, rfl⟩ := hHere
      exact h.temp
    · rename_i hOther
      exact h.others base' mon' hOther
  · rw [valCsumonRestoreCtlreg, plain_write_at, if_neg fun hHere => hSelector hHere.2.2,
      plain_write_at, if_neg fun hHere => hMon hHere.2.1]
    exact h.plain base' o hPart hMon

/-- After a restore that is not the last one, the monitor is still being measured. -/
theorem Measuring.restore_measuring (h : Measuring base mon s s') :
    Measuring base mon s (valCsumonRestoreCtlreg base mon s') :=
  ⟨fun base' mon' _ => h.restore.outside base' mon' (Set.notMem_empty _), h.restore.plain, h.temp⟩

variable (env : CsuEnv) (base mon)

theorem recordMin_quiet (which node : Nat) (c : CsuRun) :
    Quiet c.pe (recordMin env which base mon node c).pe := by
  have hFirst := storageValue_quiet env base mon c
  rw [recordMin]
  dsimp only
  split
  · exact hFirst.trans (storageValue_quiet env base mon _)
  · exact hFirst

theorem sampleOnce_measuring (node : Nat) {c : CsuRun} (h : Measuring base mon s c.pe) :
    Measuring base mon s (sampleOnce env base mon node c).pe := by
  have hRest : ∀ c' : CsuRun, Measuring base mon s c'.pe → Measuring base mon s
      (recordMin env 1 base mon node (c'.onPe (valCsumonResetMonitor base mon))).pe := by
    intro c' h'
    have hReset := h'.quiet (resetMonitor_quiet c'.pe base mon)
    exact hReset.quiet
      (recordMin_quiet base mon env 1 node (c'.onPe (valCsumonResetMonitor base mon)))
  rw [sampleOnce]
  dsimp only
  apply hRest
  split
  · exact h.restore_measuring
  · exact h

/-- Whichever copies lacked their buffers, the monitor has its control register back. -/
theorem sampleMonitor_same (pmg1 pmg2 : BitVec 8) (node : Nat) (c : CsuRun) :
    SameCtl c.pe (sampleMonitor env pmg1 pmg2 base node c mon).pe := by
  let first := c.onPe (valCsumonConfigMonitor base defaultPartid pmg1 mon)
  have hFirst : Measuring base mon c.pe first.pe :=
    configMonitor_measuring defaultPartid pmg1 (Configures.refl c.pe)
  let started := (first.traffic first.mpam2El2 defaultPartid pmg1).record 1 mon node 0
  have hStarted : Measuring base mon c.pe started.pe :=
    hFirst.quiet (writeMpam2_quiet first.pe _)
  let copied := (List.range 10).foldl (fun c _ => sampleOnce env base mon node c) started
  have hCopied : Measuring base mon c.pe copied.pe :=
    List.foldlRecOn (motive := fun c' : CsuRun => Measuring base mon c.pe c'.pe) (List.range 10) _
      hStarted fun _ h _ _ => sampleOnce_measuring base mon env node h
  let other := (copied.traffic copied.mpam2El2 defaultPartid pmg2).record 2 mon node 0
  have hOther : Measuring base mon c.pe other.pe := hCopied.quiet (writeMpam2_quiet copied.pe _)
  let reset := (allocBuffers env other).2.onPe (valCsumonResetMonitor base mon)
  have hReset : Measuring base mon c.pe reset.pe :=
    hOther.quiet (resetMonitor_quiet other.pe base mon)
  let second := (reset.onPe (valCsumonRestoreCtlreg base mon)).onPe
    (valCsumonConfigMonitor base defaultPartid pmg2 mon)
  have hSecond : Measuring base mon c.pe second.pe :=
    configMonitor_measuring defaultPartid pmg2 hReset.restore
  have hRecorded := hSecond.quiet (recordMin_quiet base mon env 2 node second)
  exact hRecorded.restore

theorem foldl_sameCtl {α β : Type} (view : β → PeState) {f : β → α → β}
    (hStep : ∀ b a, SameCtl (view b) (view (f b a))) (l : List α) (b : β) :
    SameCtl (view b) (view (l.foldl f b)) :=
  List.foldlRecOn (motive := fun b' => SameCtl (view b) (view b')) l f (Configures.refl (view b))
    fun b' h a _ => SameCtl.trans h (hStep b' a)

variable (nodes : List (BitVec 64))

theorem partitionNodes_quiet (node : Nat) (pe : PeState) :
    Quiet pe (partitionNodes nodes node pe) := by
  apply foldl_quiet id
  rintro pe' ⟨base', node2⟩
  have hDisable := disableCache_keepsMonitors defaultPartid
  dsimp only
  split
  · exact onNode_quiet pe' base' hDisable.monitors hDisable.plain
  · exact onNode_quiet pe' base' partitionNode_keepsMonitors.monitors
      partitionNode_keepsMonitors.plain

theorem sampleNode_same (pmg1 pmg2 : BitVec 8) (c : CsuRun) (indexed : BitVec 64 × Nat) :
    SameCtl c.pe (sampleNode env nodes pmg1 pmg2 c indexed).pe := by
  obtain ⟨base', node⟩ := indexed
  have hPartition := partitionNodes_quiet nodes node c.pe
  exact hPartition.same.trans (foldl_sameCtl CsuRun.pe
    (fun c' mon' => sampleMonitor_same base' mon' env pmg1 pmg2 node c') _
    (c.onPe (partitionNodes nodes node)))

theorem payloadM003_spec (pe : PeState) :
    SameCtl pe (payloadM003 env nodes pe).pe ∧
      (payloadM003 env nodes pe).pe.mpam2El2 = pe.mpam2El2 := by
  rw [payloadM003]
  dsimp only
  split
  · exact ⟨Configures.refl pe, rfl⟩
  · have hLoop := foldl_sameCtl CsuRun.pe
      (sampleNode_same env nodes (minmaxPmg (fun _ => true) nodes pe)
        (minmaxPmg (fun _ => true) nodes pe - 1)) nodes.zipIdx
      { CsuRun.start pe with mpam2El2 := pe.mpam2El2 }
    exact ⟨hLoop.trans (writeMpam2_quiet _ _).same, rfl⟩

end Sampling

/-! ## The monitors after a test -/

/-- The tests of this group. -/
inductive CsuTest
  | m001
  | m002
  | m003
  deriving DecidableEq, Repr

def runCsuPayload (env : CsuEnv) (nodes : List (BitVec 64)) : CsuTest → PeState → CsuRun
  | .m001 => payloadM001 env nodes
  | .m002 => payloadM002 env nodes
  | .m003 => payloadM003 env nodes

/-- `MPAM2_EL2` and the control register of every monitor of every node are as before. -/
structure MonitorsRestored (nodes : List (BitVec 64)) (pe pe' : PeState) : Prop where
  ctl : ∀ base ∈ nodes, ∀ mon < valCsumonMonitorCount (pe.mmio base),
    ctlOf pe' base mon = ctlOf pe base mon
  mpam2 : pe'.mpam2El2 = pe.mpam2El2

/-- The nodes whose monitors the test configures for good. -/
def LeavesConfigured (r : NodeRegs) : CsuTest → Prop
  | .m001 => valCacheSupportsCpor r = true
  | .m002 => valCacheSupportsCcap r.msc = true
  | .m003 => False

section Restoring

variable (p : Partitioning) (env : CsuEnv) (nodes : List (BitVec 64)) (pe : PeState)

/-- The loop that computes the largest monitor count. -/
theorem maxMoncnt_isGreatest (supports : NodeRegs → Bool) :
    IsGreatest ({0} ∪ Extremum.selected
      (fun base => (supports (pe.mmio base) && valCacheSupportsCsumon (pe.mmio base)) = true)
      (fun base => (valCsumonMonitorCount (pe.mmio base)).toNat) nodes)
      (maxMoncnt supports nodes pe).toNat := by
  apply Extremum.foldl_isGreatest BitVec.toNat _ _ _ _ _ isGreatest_singleton
  · intro count base hMeasured
    dsimp only
    rw [if_pos hMeasured]
    exact Extremum.toNat_larger _ _
  · intro count base hOther
    dsimp only
    rw [if_neg hOther]

theorem count_le_maxMoncnt {supports : NodeRegs → Bool} {base : BitVec 64} (hMem : base ∈ nodes)
    (hMeasured : (supports (pe.mmio base) && valCacheSupportsCsumon (pe.mmio base)) = true) :
    valCsumonMonitorCount (pe.mmio base) ≤ maxMoncnt supports nodes pe :=
  (maxMoncnt_isGreatest nodes pe supports).2 (Or.inr ⟨base, hMem, hMeasured, rfl⟩)

/-- A node with monitors has them measured, if it has the partitioning of the test. -/
theorem measured_of_lt {base : BitVec 64} {mon : BitVec 16}
    (hSupports : p.supports (pe.mmio base) = true)
    (hLt : mon < valCsumonMonitorCount (pe.mmio base)) : p.measured (pe.mmio base) = true := by
  rw [valCsumonMonitorCount] at hLt
  split at hLt
  · rename_i hCsumon
    rw [Partitioning.measured, hSupports, hCsumon]
    rfl
  · exact absurd hLt (by simp)

/-- m001 and m002 restore the monitors that they found configured. -/
theorem pmgPayload_restored_iff (test : BitVec 32) :
    MonitorsRestored nodes pe (pmgPayload env p nodes test pe).pe ↔
      ∀ base ∈ nodes, p.supports (pe.mmio base) = true →
        ∀ mon < valCsumonMonitorCount (pe.mmio base), IsConfigured (ctlOf pe base mon) := by
  obtain ⟨hConfig, hMpam2⟩ := pmgPayload_spec p nodes env test pe
  apply Iff.intro
  · intro h base hMem hSupports mon hLt
    have hMeasured := measured_of_lt p pe hSupports hLt
    have hBelow := Nat.lt_of_lt_of_le hLt (count_le_maxMoncnt nodes pe hMem hMeasured)
    rw [← configured_eq_iff, ← hConfig.inside base mon ⟨hMem, hMeasured, hBelow⟩]
    exact h.ctl base hMem mon hLt
  · intro h
    refine ⟨fun base hMem mon hLt => ?_, hMpam2⟩
    by_cases hIn : (base, mon) ∈ measuredMonitors p nodes pe
    · have hSupports : p.supports (pe.mmio base) = true :=
        (Bool.and_eq_true_iff.mp hIn.2.1).1
      rw [hConfig.inside base mon hIn, configured_eq_iff]
      exact h base hMem hSupports mon hLt
    · exact hConfig.outside base mon hIn

end Restoring

/-- A test leaves `MPAM2_EL2` and the control register of every monitor as they were. Only m001
and m002 may not: the monitors that they configure stay so. -/
theorem csu_tests_restore_iff (id : CsuTest) (env : CsuEnv) (nodes : List (BitVec 64))
    (pe : PeState) :
    MonitorsRestored nodes pe (runCsuPayload env nodes id pe).pe ↔
      ∀ base ∈ nodes, LeavesConfigured (pe.mmio base) id →
        ∀ mon < valCsumonMonitorCount (pe.mmio base), IsConfigured (ctlOf pe base mon) := by
  cases id with
  | m001 => exact pmgPayload_restored_iff .cpor env nodes pe (acsCsumonTestNumBase + 1)
  | m002 => exact pmgPayload_restored_iff .ccap env nodes pe (acsCsumonTestNumBase + 2)
  | m003 =>
    obtain ⟨hSame, hMpam2⟩ := payloadM003_spec env nodes pe
    refine iff_of_true ⟨fun base _ mon _ => ?_, hMpam2⟩ (fun _ _ hFalse => hFalse.elim)
    exact hSame.outside base mon (Set.notMem_empty _)

/-- A cache with portions and one monitor, which is off. -/
def monitorOff : NodeRegs where
  plain offset :=
    if offset = regMpamfIdr then 0x42000000
    else if offset = regMpamfMsmonIdr then 0x10000
    else if offset = regMpamfCsumonIdr then 1
    else 0
  byPartid _ _ := 0
  byMonitor _ _ := 0

/-- The monitor stays configured. -/
theorem monitor_left_on :
    ¬ MonitorsRestored [0x10000] { quietPe with mmio := fun _ => monitorOff }
      (runCsuPayload ⟨fun _ => 0, fun _ => false⟩ [0x10000] .m001
        { quietPe with mmio := fun _ => monitorOff }).pe := by
  intro h
  have hConfigured := (pmgPayload_restored_iff .cpor _ _ _ _).mp h 0x10000
    (List.mem_singleton_self _) (by decide) 0 (by decide)
  exact absurd hConfigured.enable (by decide)

end EnterpriseAcs.Mpam
