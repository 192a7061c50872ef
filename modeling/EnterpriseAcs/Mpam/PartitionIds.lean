import EnterpriseAcs.Mpam.CacheTests
import EnterpriseAcs.Mpam.MonitorRange

/-!
# The ids of the partitions

The tests that tell two partitions apart use two partids or two PMGs: the smallest of the maxima
that the nodes report, and the id below it. A maximum may be zero, and the second id then wraps.

* `idsUsable_iff`: a minimum and the id below it, for any list of maxima.
* `ids_usable_iff`: when the nodes that a test programs allow its two ids.
-/

namespace EnterpriseAcs.Mpam

/-! ## Two ids -/

/-- The ids are distinct, and none of the maxima is smaller. -/
structure IdsUsable {w : Nat} (id1 id2 : BitVec w) (maxima : Set (BitVec w)) : Prop where
  distinct : id1 ≠ id2
  first : ∀ m ∈ maxima, id1 ≤ m
  second : ∀ m ∈ maxima, id2 ≤ m

theorem zero_sub_one (w : Nat) : (0 : BitVec w) - 1 = BitVec.allOnes w := by
  rw [← BitVec.neg_one_eq_allOnes, BitVec.ofNat_eq_ofNat, BitVec.zero_sub]
  rfl

theorem sub_one_lt {w : Nat} {least : BitVec w} (h : least ≠ 0) : least - 1 < least := by
  have hPos : 0 < least.toNat := Nat.pos_of_ne_zero fun hZero => h (BitVec.eq_of_toNat_eq hZero)
  have hLt := least.isLt
  have hWidth : 1 < 2 ^ w := Nat.lt_of_le_of_lt hPos hLt
  have hOne : (1 : BitVec w).toNat = 1 := by
    rw [BitVec.ofNat_eq_ofNat, BitVec.toNat_ofNat, Nat.mod_eq_of_lt hWidth]
  rw [BitVec.lt_def, BitVec.toNat_sub, hOne]
  have hBack : 2 ^ w - 1 + least.toNat = least.toNat - 1 + 2 ^ w := by omega
  rw [hBack, Nat.add_mod_right, Nat.mod_eq_of_lt (by omega)]
  omega

/-- The id below a minimum wraps when the minimum is zero. -/
theorem idsUsable_iff {w : Nat} (hw : 0 < w) {least : BitVec w} {maxima : Set (BitVec w)}
    (hLeast : ∀ m ∈ maxima, least ≤ m) :
    IdsUsable least (least - 1) maxima ↔ least ≠ 0 ∨ ∀ m ∈ maxima, m = BitVec.allOnes w := by
  by_cases hZero : least = 0
  · subst hZero
    rw [zero_sub_one, or_iff_right (not_not_intro rfl)]
    apply Iff.intro
    · intro h m hMem
      exact BitVec.allOnes_le_iff.mp (h.second m hMem)
    · intro h
      refine ⟨?_, hLeast, fun m hMem => ?_⟩
      · intro hEq
        have hBit := congrArg (fun x => x.getLsbD 0) hEq
        simp [hw] at hBit
      · rw [h m hMem]
        exact BitVec.le_refl _
  · have hBelow := sub_one_lt hZero
    refine iff_of_true ⟨?_, hLeast, fun m hMem => ?_⟩ (Or.inl hZero)
    · intro hEq
      rw [← hEq] at hBelow
      exact BitVec.lt_irrefl _ hBelow
    · exact BitVec.le_trans (BitVec.le_of_lt hBelow) (hLeast m hMem)

/-- The maxima of the nodes that are programmed; these are given by their index. -/
def maximaOf {α : Type} {w : Nat} (nodes : List α) (Programs : Nat → Prop)
    (maximum : α → BitVec w) : Set (BitVec w) :=
  {m | ∃ node, Programs node ∧ ∃ n, nodes[node]? = some n ∧ m = maximum n}

theorem idsUsable_maximaOf_iff {α : Type} {w : Nat} (hw : 0 < w) {least : BitVec w} {nodes : List α}
    {Programs : Nat → Prop} {maximum : α → BitVec w} {P : α → Prop}
    (hPrograms : ∀ node, Programs node ↔ ∃ n, nodes[node]? = some n ∧ P n)
    (hLeast : ∀ n ∈ nodes, P n → least ≤ maximum n) :
    IdsUsable least (least - 1) (maximaOf nodes Programs maximum) ↔
      least ≠ 0 ∨ ∀ n ∈ nodes, P n → maximum n = BitVec.allOnes w := by
  have hMaxima : ∀ m, m ∈ maximaOf nodes Programs maximum ↔ ∃ n ∈ nodes, P n ∧ m = maximum n := by
    intro m
    apply Iff.intro
    · rintro ⟨node, hProgrammed, n, hNode, rfl⟩
      obtain ⟨n', hNode', hP⟩ := (hPrograms node).mp hProgrammed
      obtain rfl := Option.some.inj (hNode'.symm.trans hNode)
      exact ⟨n', List.mem_of_getElem? hNode, hP, rfl⟩
    · rintro ⟨n, hMem, hP, rfl⟩
      obtain ⟨node, hNode⟩ := List.mem_iff_getElem?.mp hMem
      exact ⟨node, (hPrograms node).mpr ⟨n, hNode, hP⟩, n, hNode, rfl⟩
  have hBelow : ∀ m ∈ maximaOf nodes Programs maximum, least ≤ m := by
    intro m hm
    obtain ⟨n, hMem, hP, rfl⟩ := (hMaxima m).mp hm
    exact hLeast n hMem hP
  rw [idsUsable_iff hw hBelow]
  apply or_congr_right
  apply Iff.intro
  · intro h n hMem hP
    exact h _ ((hMaxima _).mpr ⟨n, hMem, hP, rfl⟩)
  · intro h m hm
    obtain ⟨n, hMem, hP, rfl⟩ := (hMaxima m).mp hm
    exact h n hMem hP

/-! ## The partids of c005 and c006 -/

section Partids

variable (test : CacheTest) (env : CacheEnv) (caches : List CacheNodeEntry) (pe : PeState)

/-- The two partids of a cache test are usable on the nodes that it programs. -/
def PartidsUsable : Prop :=
  IdsUsable (cachePartid caches pe) (cachePartid caches pe - 1)
    (maximaOf caches
      (fun node => ∃ partid, .configure node partid ∈ (cachePayload test env caches pe).trace)
      (fun n => valNodeGetPartid (pe.mmio n.hwregBaseAddr)))

/-- A cache test programs a node, unless it skips. -/
def ProgramsPartid (r : NodeRegs) : Prop := ¬ CacheSkips test caches pe ∧ programmed r = true

theorem cachePartid_le {n : CacheNodeEntry} (hMem : n ∈ caches) :
    cachePartid caches pe ≤ valNodeGetPartid (pe.mmio n.hwregBaseAddr) := by
  apply (minmaxPartid_isLeast (caches.map CacheNodeEntry.hwregBaseAddr) [] pe).2
  exact Or.inr ⟨n.hwregBaseAddr, List.mem_map_of_mem hMem, rfl⟩

theorem cachePartid_eq_zero_iff :
    cachePartid caches pe = 0 ↔ ∃ n ∈ caches, valNodeGetPartid (pe.mmio n.hwregBaseAddr) = 0 := by
  have hZero := Extremum.isLeast_eq_zero_iff
    (minmaxPartid_isLeast (caches.map CacheNodeEntry.hwregBaseAddr) [] pe)
  refine (BitVec.toNat_inj.symm.trans hZero).trans ?_
  apply Iff.intro
  · rintro ((hDefault | ⟨_, hMem, -⟩) | ⟨base, hMem, hMaximum⟩)
    · exact absurd hDefault (by decide)
    · exact absurd hMem List.not_mem_nil
    · obtain ⟨n, hNode, rfl⟩ := List.mem_map.mp hMem
      exact ⟨n, hNode, BitVec.eq_of_toNat_eq hMaximum.symm⟩
  · rintro ⟨n, hNode, hMaximum⟩
    exact Or.inr ⟨n.hwregBaseAddr, List.mem_map_of_mem hNode,
      (congrArg BitVec.toNat hMaximum).symm⟩

theorem partids_ne_nil (minmax : BitVec 16) : test.partids minmax ≠ [] := by
  rw [CacheTest.partids]
  split
  · exact List.cons_ne_nil _ _
  · exact List.cons_ne_nil _ _

theorem programsPartid_iff (node : Nat) :
    (∃ partid, .configure node partid ∈ (cachePayload test env caches pe).trace) ↔
      ∃ n, caches[node]? = some n ∧ ProgramsPartid test caches pe (pe.mmio n.hwregBaseAddr) := by
  by_cases hSkips : CacheSkips test caches pe
  · rw [cachePayload_skips test env caches pe hSkips]
    apply iff_of_false
    · rintro ⟨partid, hMem⟩
      exact List.not_mem_nil hMem
    · rintro ⟨n, -, hRuns, -⟩
      exact hRuns hSkips
  · have hMem := configure_mem_cachePayload test env caches pe hSkips node
    apply Iff.intro
    · rintro ⟨partid, hEvent⟩
      obtain ⟨⟨n, hNode, hProgrammed⟩, -⟩ := (hMem partid).mp hEvent
      exact ⟨n, hNode, hSkips, hProgrammed⟩
    · rintro ⟨n, hNode, -, hProgrammed⟩
      obtain ⟨partid, hPartid⟩ :=
        List.exists_mem_of_ne_nil _ (partids_ne_nil test (cachePartid caches pe))
      exact ⟨partid, (hMem partid).mpr ⟨⟨n, hNode, hProgrammed⟩, hPartid⟩⟩

theorem partids_usable_iff :
    PartidsUsable test env caches pe ↔
      (∀ n ∈ caches, valNodeGetPartid (pe.mmio n.hwregBaseAddr) ≠ 0) ∨
      ∀ n ∈ caches, ProgramsPartid test caches pe (pe.mmio n.hwregBaseAddr) →
        valNodeGetPartid (pe.mmio n.hwregBaseAddr) = BitVec.allOnes 16 := by
  have hIds := idsUsable_maximaOf_iff (by decide) (programsPartid_iff test env caches pe)
    fun _ hMem _ => cachePartid_le caches pe hMem
  refine hIds.trans (or_congr_left ?_)
  rw [Ne, cachePartid_eq_zero_iff, not_exists]
  exact forall_congr' fun n => not_and

end Partids

/-! ## The PMGs of the monitor tests -/

section Pmgs

variable (test : CsuTest) (env : CsuEnv) (nodes : List (BitVec 64)) (pe : PeState)

/-- `minmax_pmg`. -/
def CsuTest.pmg : CsuTest → BitVec 8
  | .m001 => minmaxPmg Partitioning.cpor.supports nodes pe
  | .m002 => minmaxPmg Partitioning.ccap.supports nodes pe
  | .m003 => minmaxPmg (fun _ => true) nodes pe

/-- The two PMGs of a monitor test are usable on the nodes whose monitors it configures. -/
def PmgsUsable : Prop :=
  IdsUsable (test.pmg nodes pe) (test.pmg nodes pe - 1)
    (maximaOf nodes
      (fun node => ∃ mon partid pmg,
        .configure node mon partid pmg ∈ (tracedCsuPayload env nodes test pe).trace)
      (fun base => valNodeGetPmg (pe.mmio base)))

/-- The nodes that a monitor test takes the minimum over. -/
def CsuTest.counts : CsuTest → NodeRegs → Bool
  | .m001 => Partitioning.cpor.supports
  | .m002 => Partitioning.ccap.supports
  | .m003 => fun _ => true

/-- A test is about a node that has monitors. -/
def HasMonitors (p : Partitioning) : Prop :=
  ∃ base ∈ nodes, p.measured (pe.mmio base) = true ∧ valCsumonMonitorCount (pe.mmio base) ≠ 0

/-- A monitor test configures a monitor of a node. -/
def ConfiguresPmg (r : NodeRegs) : CsuTest → Prop
  | .m001 => HasMonitors nodes pe .cpor ∧ Partitioning.cpor.measured r = true
  | .m002 => HasMonitors nodes pe .ccap ∧ Partitioning.ccap.measured r = true
  | .m003 => valCsumonMonitorCount r ≠ 0

theorem minmaxPmg_isLeast (supports : NodeRegs → Bool) :
    IsLeast ({255} ∪ Extremum.selected (fun base => supports (pe.mmio base) = true)
      (fun base => (valNodeGetPmg (pe.mmio base)).toNat) nodes)
      (minmaxPmg supports nodes pe).toNat := by
  apply Extremum.foldl_isLeast BitVec.toNat _ _ _ _ _ isLeast_singleton
  · intro minmax base hSupports
    dsimp only
    rw [if_pos hSupports]
    exact Extremum.toNat_smaller _ _
  · intro minmax base hOther
    dsimp only
    rw [if_neg hOther]

theorem minmaxPmg_le (supports : NodeRegs → Bool) {base : BitVec 64} (hMem : base ∈ nodes)
    (hSupports : supports (pe.mmio base) = true) :
    minmaxPmg supports nodes pe ≤ valNodeGetPmg (pe.mmio base) :=
  (minmaxPmg_isLeast nodes pe supports).2 (Or.inr ⟨base, hMem, hSupports, rfl⟩)

theorem pmg_eq_zero_iff :
    test.pmg nodes pe = 0 ↔
      ∃ base ∈ nodes, test.counts (pe.mmio base) = true ∧ valNodeGetPmg (pe.mmio base) = 0 := by
  have hPmg : test.pmg nodes pe = minmaxPmg test.counts nodes pe := by
    cases test with
    | m001 | m002 | m003 => rfl
  have hZero := Extremum.isLeast_eq_zero_iff (minmaxPmg_isLeast nodes pe test.counts)
  rw [hPmg]
  refine (BitVec.toNat_inj.symm.trans hZero).trans ?_
  apply Iff.intro
  · rintro (hDefault | ⟨base, hMem, hCounts, hMaximum⟩)
    · exact absurd hDefault (by decide)
    · exact ⟨base, hMem, hCounts, BitVec.eq_of_toNat_eq hMaximum.symm⟩
  · rintro ⟨base, hMem, hCounts, hMaximum⟩
    exact Or.inr ⟨base, hMem, hCounts, (congrArg BitVec.toNat hMaximum).symm⟩

theorem maxMoncnt_eq_zero_iff (p : Partitioning) :
    maxMoncnt p.supports nodes pe = 0 ↔ ¬ HasMonitors nodes pe p := by
  have hZero := Extremum.isGreatest_eq_zero_iff (maxMoncnt_isGreatest nodes pe p.supports)
  refine (BitVec.toNat_inj.symm.trans hZero).trans ?_
  apply Iff.intro
  · rintro hAll ⟨base, hMem, hMeasured, hCount⟩
    exact hCount (BitVec.eq_of_toNat_eq (hAll _ (Or.inr ⟨base, hMem, hMeasured, rfl⟩)))
  · rintro hNone count (hDefault | ⟨base, hMem, hMeasured, rfl⟩)
    · exact hDefault
    · by_contra hCount
      exact hNone ⟨base, hMem, hMeasured, fun hEq => hCount (congrArg BitVec.toNat hEq)⟩

/-- The configurations of a trace that started empty. -/
theorem configure_mem_iff {A : Set MonitorUse} {t t' : CsuTrace}
    (hAdds : Traced.Adds MonitorUse.forget A t t') (hStart : t.trace = []) (node : Nat)
    (mon partid : BitVec 16) (pmg : BitVec 8) :
    .configure node mon partid pmg ∈ t'.trace ↔ .configure node mon partid pmg ∈ A := by
  have hForget : .configure node mon partid pmg ∈ t'.trace.map MonitorUse.forget ↔
      .configure node mon partid pmg ∈ t'.trace := by
    apply Iff.intro
    · intro h
      obtain ⟨u, hMem, hEq⟩ := List.mem_map.mp h
      cases u with
      | configure => exact hEq ▸ hMem
      | read => cases hEq
      | cell => cases hEq
    · intro h
      exact List.mem_map_of_mem (f := MonitorUse.forget) h
  rw [← hForget, hAdds, hStart, List.map_nil, or_iff_right List.not_mem_nil]

theorem zero_mem_monitors {count : BitVec 16} (h : count ≠ 0) : 0 ∈ monitors count := by
  have hPos : 0 < count.toNat := Nat.pos_of_ne_zero fun hZero => h (BitVec.eq_of_toNat_eq hZero)
  exact mem_monitors.mpr hPos

/-- The tests m001 and m002 configure the first monitor of every measured node. -/
theorem pmgPayload_configures_iff (p : Partitioning) (num : BitVec 32) (node : Nat) :
    (∃ mon partid pmg,
      .configure node mon partid pmg ∈ (tracedPmgPayload env p nodes num pe).trace) ↔
      ∃ base, nodes[node]? = some base ∧
        HasMonitors nodes pe p ∧ p.measured (pe.mmio base) = true := by
  have hSkips := maxMoncnt_eq_zero_iff nodes pe p
  by_cases hCount : maxMoncnt p.supports nodes pe = 0
  · have hNone : (tracedPmgPayload env p nodes num pe).trace = [] := by
      rw [tracedPmgPayload]
      dsimp only
      rw [if_pos hCount]
      rfl
    rw [hNone]
    apply iff_of_false
    · rintro ⟨mon, partid, pmg, hMem⟩
      exact List.not_mem_nil hMem
    · rintro ⟨base, -, hSome, -⟩
      exact hSkips.mp hCount hSome
  · have hMem := configure_mem_iff (pmgPayload_adds env p nodes num pe hCount) rfl node
    apply Iff.intro
    · rintro ⟨mon, partid, pmg, hEvent⟩
      obtain ⟨mon', -, n, hNode, hMeasured, hUse⟩ := (hMem mon partid pmg).mp hEvent
      have hIndex : node = n.2 := by
        simp only [pmgUses, Set.mem_insert_iff, Set.mem_singleton_iff, MonitorUse.configure.injEq,
          reduceCtorEq, or_false] at hUse
        exact hUse.1
      rw [hIndex]
      exact ⟨n.1, List.mk_mem_zipIdx_iff_getElem?.mp hNode, not_not.mp (mt hSkips.mpr hCount),
        hMeasured⟩
    · rintro ⟨base, hNode, -, hMeasured⟩
      have hFirst := zero_mem_monitors hCount
      exact ⟨_, _, _, (hMem 0 _ _).mpr ⟨0, hFirst, (base, node),
        List.mk_mem_zipIdx_iff_getElem?.mpr hNode, hMeasured, Or.inl rfl⟩⟩

/-- The test m003 configures the monitors that a node has. -/
theorem m003_configures_iff (copies node : Nat) :
    (∃ mon partid pmg,
      .configure node mon partid pmg ∈ (tracedM003 env nodes copies pe).trace) ↔
      ∃ base, nodes[node]? = some base ∧ valCsumonMonitorCount (pe.mmio base) ≠ 0 := by
  by_cases hCount : maxMoncnt (fun _ => true) nodes pe = 0
  · have hNone : (tracedM003 env nodes copies pe).trace = [] := by
      rw [tracedM003]
      dsimp only
      rw [if_pos hCount]
      rfl
    rw [hNone]
    apply iff_of_false
    · rintro ⟨mon, partid, pmg, hMem⟩
      exact List.not_mem_nil hMem
    · rintro ⟨base, hNode, hSome⟩
      exact hSome (count_eq_zero_of_skip nodes pe hCount (List.mem_of_getElem? hNode))
  · have hMem := configure_mem_iff (m003_adds env nodes copies pe hCount) rfl node
    apply Iff.intro
    · rintro ⟨mon, partid, pmg, hEvent⟩
      obtain ⟨n, hNode, mon', hMon, hUse⟩ := (hMem mon partid pmg).mp hEvent
      have hIndex : node = n.2 := by
        simp only [m003Uses, Set.mem_insert_iff, Set.mem_singleton_iff, MonitorUse.configure.injEq,
          reduceCtorEq, or_false] at hUse
        exact hUse.elim And.left And.left
      rw [hIndex]
      refine ⟨n.1, List.mk_mem_zipIdx_iff_getElem?.mp hNode, fun hZero => ?_⟩
      rw [hZero] at hMon
      exact absurd (mem_monitors.mp hMon) (Nat.not_lt_zero _)
    · rintro ⟨base, hNode, hSome⟩
      exact ⟨_, _, _, (hMem 0 _ _).mpr ⟨(base, node), List.mk_mem_zipIdx_iff_getElem?.mpr hNode, 0,
        zero_mem_monitors hSome, Or.inl rfl⟩⟩

theorem configuresPmg_iff (node : Nat) :
    (∃ mon partid pmg,
      .configure node mon partid pmg ∈ (tracedCsuPayload env nodes test pe).trace) ↔
      ∃ base, nodes[node]? = some base ∧ ConfiguresPmg nodes pe (pe.mmio base) test := by
  cases test with
  | m001 => exact pmgPayload_configures_iff env nodes pe .cpor _ node
  | m002 => exact pmgPayload_configures_iff env nodes pe .ccap _ node
  | m003 => exact m003_configures_iff env nodes pe maxDeviationCnt node

/-- The minimum is taken over all nodes that a test configures. -/
theorem pmg_le {base : BitVec 64} (hMem : base ∈ nodes)
    (hConfigures : ConfiguresPmg nodes pe (pe.mmio base) test) :
    test.pmg nodes pe ≤ valNodeGetPmg (pe.mmio base) := by
  cases test with
  | m001 => exact minmaxPmg_le nodes pe _ hMem (Bool.and_eq_true_iff.mp hConfigures.2).1
  | m002 => exact minmaxPmg_le nodes pe _ hMem (Bool.and_eq_true_iff.mp hConfigures.2).1
  | m003 => exact minmaxPmg_le nodes pe _ hMem rfl

theorem pmgs_usable_iff :
    PmgsUsable test env nodes pe ↔
      (∀ base ∈ nodes, test.counts (pe.mmio base) = true → valNodeGetPmg (pe.mmio base) ≠ 0) ∨
      ∀ base ∈ nodes, ConfiguresPmg nodes pe (pe.mmio base) test →
        valNodeGetPmg (pe.mmio base) = BitVec.allOnes 8 := by
  have hIds := idsUsable_maximaOf_iff (by decide) (configuresPmg_iff test env nodes pe)
    fun _ hMem hConfigures => pmg_le test nodes pe hMem hConfigures
  refine hIds.trans (or_congr_left ?_)
  rw [Ne, pmg_eq_zero_iff, not_exists]
  refine forall_congr' fun base => ?_
  rw [not_and, not_and]

end Pmgs

/-! ## The tests -/

/-- The tests that use two ids. -/
inductive IdTest
  | c005
  | c006
  | monitor (test : CsuTest)
  deriving DecidableEq, Repr

section Tests

variable (cacheEnv : CacheEnv) (csuEnv : CsuEnv) (caches : List CacheNodeEntry) (pe : PeState)

/-- The ids of a test are usable on the nodes that it programs. -/
def TestIdsUsable : IdTest → Prop
  | .c005 => PartidsUsable .c005 cacheEnv caches pe
  | .c006 => PartidsUsable .c006 cacheEnv caches pe
  | .monitor test => PmgsUsable test csuEnv (caches.map CacheNodeEntry.hwregBaseAddr) pe

/-- A test takes the minimum over the node, and this reports the maximum zero. -/
def ReportsZero (r : NodeRegs) : IdTest → Prop
  | .c005 | .c006 => valNodeGetPartid r = 0
  | .monitor test => test.counts r = true ∧ valNodeGetPmg r = 0

/-- A test programs the node. -/
def ProgramsNode (r : NodeRegs) : IdTest → Prop
  | .c005 => ProgramsPartid .c005 caches pe r
  | .c006 => ProgramsPartid .c006 caches pe r
  | .monitor test => ConfiguresPmg (caches.map CacheNodeEntry.hwregBaseAddr) pe r test

/-- The node reports the largest maximum that its field can hold. -/
def FullRange (r : NodeRegs) : IdTest → Prop
  | .c005 | .c006 => valNodeGetPartid r = BitVec.allOnes 16
  | .monitor _ => valNodeGetPmg r = BitVec.allOnes 8

end Tests

/-- The two ids of a test are usable exactly when no node reports the maximum zero, or every node
that the test programs has the full range of ids. -/
theorem ids_usable_iff (id : IdTest) (cacheEnv : CacheEnv) (csuEnv : CsuEnv)
    (caches : List CacheNodeEntry) (pe : PeState) :
    TestIdsUsable cacheEnv csuEnv caches pe id ↔
      (∀ n ∈ caches, ¬ ReportsZero (pe.mmio n.hwregBaseAddr) id) ∨
      ∀ n ∈ caches, ProgramsNode caches pe (pe.mmio n.hwregBaseAddr) id →
        FullRange (pe.mmio n.hwregBaseAddr) id := by
  cases id with
  | c005 => exact partids_usable_iff .c005 cacheEnv caches pe
  | c006 => exact partids_usable_iff .c006 cacheEnv caches pe
  | monitor test =>
    refine (pmgs_usable_iff test csuEnv _ pe).trans (or_congr ?_ List.forall_mem_map)
    refine List.forall_mem_map.trans (forall₂_congr fun n _ => ?_)
    exact not_and.symm

/-- The second partid is 65535, and the only node allows none but zero. -/
theorem partid_wraps :
    ¬ TestIdsUsable ⟨fun _ => false, fun _ _ => 0⟩ ⟨fun _ => 0, fun _ => false⟩
      [cacheOfSize 0x100000] onePartidPe .c005 := by
  let n := cacheOfSize 0x100000
  have hRuns : ¬ CacheSkips .c005 [n] onePartidPe := by
    intro hSkips
    exact absurd (hSkips n List.mem_cons_self) (by decide)
  have hProgrammed : programmed (onePartidPe.mmio n.hwregBaseAddr) = true := by decide
  have hFull : ¬ valNodeGetPartid (onePartidPe.mmio n.hwregBaseAddr) = BitVec.allOnes 16 := by
    decide
  rw [TestIdsUsable, partids_usable_iff]
  rintro (hNone | hAll)
  · exact hNone n List.mem_cons_self (by decide)
  · exact hFull (hAll n List.mem_cons_self ⟨hRuns, hProgrammed⟩)

end EnterpriseAcs.Mpam
