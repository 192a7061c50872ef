import EnterpriseAcs.Mpam.MpamParams
import EnterpriseAcs.Mpam.Status
import EnterpriseAcs.Mpam.TestSuite

/-!
# The cache storage usage monitors

The tests configure monitors on the nodes, generate traffic and read the monitors. What
`MSMON_CSU` reads as is a parameter, and so is whether the buffers for the traffic can be
allocated. A monitor's control register is saved in one variable when the monitor is configured.

* `configMonitor_spec`, `restoreCtlreg_spec`: what the library does to the control registers.
* `configured_eq_iff`: when configuring a monitor leaves its control register as it was.
-/

namespace EnterpriseAcs.Mpam

/-! ## The library -/

/-- `val_csumon_config_monitor`. -/
def valCsumonConfigMonitor (base : BitVec 64) (partid : BitVec 16) (pmg : BitVec 8)
    (monSel : BitVec 16) (s : PeState) : PeState :=
  let s := s.write base regMsmonCfgMonSel (monSel.setWidth 32)
  let s := s.write base regMsmonCsu (1#32 <<< 31)
  let s := s.write base regMsmonCfgCsuFlt (pmg.setWidth 32 <<< 16 ||| partid.setWidth 32)
  let s := { s with csuCtlTemp := (s.mmio base).read regMsmonCfgCsuCtl }
  let csuCtlReg := s.csuCtlTemp &&& ~~~(1#32 <<< 31)
  let s := s.write base regMsmonCfgCsuCtl csuCtlReg
  let csuCtlReg := csuCtlReg &&& ~~~(1#32 <<< 25)
  let csuCtlReg := csuCtlReg ||| (1#32 <<< 16 ||| 1#32 <<< 17 ||| 1#32 <<< 31)
  s.write base regMsmonCfgCsuCtl csuCtlReg

/-- `val_csumon_reset_monitor`. -/
def valCsumonResetMonitor (base : BitVec 64) (monSel : BitVec 16) (s : PeState) : PeState :=
  (s.write base regMsmonCfgMonSel (monSel.setWidth 32)).write base regMsmonCsu (1#32 <<< 31)

/-- `val_csumon_restore_ctlreg`. -/
def valCsumonRestoreCtlreg (base : BitVec 64) (monSel : BitVec 16) (s : PeState) : PeState :=
  (s.write base regMsmonCfgMonSel (monSel.setWidth 32)).write base regMsmonCfgCsuCtl s.csuCtlTemp

/-! ## The machine during a test -/

/-- What `MSMON_CSU` reads as, and whether one of two buffers cannot be allocated, each at the
time it is asked. -/
structure CsuEnv where
  reading : Nat → BitVec 32
  allocFails : Nat → Bool

/-- The registers, the local variable `mpam2_el2`, the arrays `storage_value1` and
`storage_value2` by number, monitor and node, the status of the PE and the time. -/
structure CsuRun where
  pe : PeState
  mpam2El2 : BitVec 64
  storageValue : Nat → BitVec 16 → Nat → BitVec 32
  status : BitVec 32
  time : Nat

def CsuRun.start (pe : PeState) : CsuRun where
  pe := pe
  mpam2El2 := 0
  storageValue _ _ _ := 0
  status := 0
  time := 0

def CsuRun.onPe (c : CsuRun) (f : PeState → PeState) : CsuRun := { c with pe := f c.pe }

def CsuRun.record (c : CsuRun) (which : Nat) (mon : BitVec 16) (node : Nat)
    (value : BitVec 32) : CsuRun :=
  { c with
    storageValue := fun which' mon' node' =>
      if which' = which ∧ mon' = mon ∧ node' = node then value
      else c.storageValue which' mon' node' }

/-- `MPAM2_EL2` for traffic with a partid and a PMG. -/
def trafficMpam2 (mpam2El2 : BitVec 64) (partid : BitVec 16) (pmg : BitVec 8) : BitVec 64 :=
  let mpam2El2 := clearBitsMToN mpam2El2 (partidDShift + 15) partidDShift
  let mpam2El2 := clearBitsMToN mpam2El2 (pmgDShift + 7) pmgDShift
  mpam2El2 ||| (pmg.setWidth 64 <<< pmgDShift ||| partid.setWidth 64 <<< partidDShift)

/-- Write it to the local variable and to the register. -/
def CsuRun.traffic (c : CsuRun) (mpam2El2 : BitVec 64) (partid : BitVec 16) (pmg : BitVec 8) :
    CsuRun :=
  { c with
    mpam2El2 := trafficMpam2 mpam2El2 partid pmg
    pe := c.pe.writeMpam2 (trafficMpam2 mpam2El2 partid pmg) }

section Env

variable (env : CsuEnv)

/-- Ask for the two buffers. -/
def allocBuffers (c : CsuRun) : Bool × CsuRun :=
  (env.allocFails c.time, { c with time := c.time + 1 })

/-- `val_csumon_storage_value`: zero as long as the monitor is not ready. -/
def valCsumonStorageValue (base : BitVec 64) (monSel : BitVec 16) (c : CsuRun) :
    BitVec 32 × CsuRun :=
  (if env.reading c.time >>> 31 &&& 1 = 1 then 0 else env.reading c.time &&& 0x7fffffff,
    { c with
      pe := c.pe.write base regMsmonCfgMonSel (monSel.setWidth 32)
      time := c.time + 1 })

/-! ## The tests m001 and m002 -/

/-- `GET_MAX_VALUE`. -/
def getMaxValue (ax ay : BitVec 16) : BitVec 16 := if ax > ay then ax else ay

/-- The loop that computes `minmax_pmg`, over the nodes that a test is about. -/
def minmaxPmg (supports : NodeRegs → Bool) (nodes : List (BitVec 64)) (pe : PeState) : BitVec 8 :=
  nodes.foldl (fun minmax base =>
    let r := pe.mmio base
    if supports r then if minmax > valNodeGetPmg r then valNodeGetPmg r else minmax
    else minmax) 255

/-- The loop that computes `max_moncnt`. -/
def maxMoncnt (supports : NodeRegs → Bool) (nodes : List (BitVec 64)) (pe : PeState) :
    BitVec 16 :=
  nodes.foldl (fun maxMoncnt base =>
    let r := pe.mmio base
    if supports r && valCacheSupportsCsumon r then getMaxValue maxMoncnt (valCsumonMonitorCount r)
    else maxMoncnt) 0

/-- The monitors below a count. -/
def monitors (count : BitVec 16) : List (BitVec 16) :=
  (List.range count.toNat).map (BitVec.ofNat 16)

/-- The partitioning that a test is about: m001 about portions, m002 about capacities. -/
inductive Partitioning
  | cpor
  | ccap
  deriving DecidableEq, Repr

def Partitioning.supports : Partitioning → NodeRegs → Bool
  | .cpor => valCacheSupportsCpor
  | .ccap => fun r => valCacheSupportsCcap r.msc

/-- Configure it for a partid, and disable the other one. -/
def Partitioning.configure (partid : BitVec 16) : Partitioning → NodeRegs → NodeRegs
  | .cpor => fun r =>
    let r := if valCacheSupportsCpor r then valCacheConfigureCpor partid 75 r else r
    if valCacheSupportsCcap r.msc then r.configureCcap partid 0 100 else r
  | .ccap => fun r =>
    let r := if valCacheSupportsCcap r.msc then r.configureCcap partid 1 75 else r
    if valCacheSupportsCpor r then valCacheConfigureCpor partid 100 r else r

variable (p : Partitioning) (nodes : List (BitVec 64))

/-- The nodes whose monitors are read. -/
def Partitioning.measured (r : NodeRegs) : Bool := p.supports r && valCacheSupportsCsumon r

def configMonitors (partid : BitVec 16) (pmg : BitVec 8) (mon : BitVec 16) (pe : PeState) :
    PeState :=
  nodes.foldl (fun pe base =>
    if p.measured (pe.mmio base) then valCsumonConfigMonitor base partid pmg mon pe else pe) pe

/-- The loop that reads a monitor of all nodes. -/
def readMonitors (which : Nat) (mon : BitVec 16) (c : CsuRun) : CsuRun :=
  nodes.zipIdx.foldl (fun c (base, node) =>
    if p.measured (c.pe.mmio base) then
      let (value, c) := valCsumonStorageValue env base mon c
      c.record which mon node value
    else c) c

/-- The body of the loop over the monitors; `temp` is `mpam2_el2_temp`. -/
def measureMonitor (test : BitVec 32) (partid : BitVec 16) (pmg1 pmg2 : BitVec 8)
    (temp : BitVec 64) (c : CsuRun) (mon : BitVec 16) : CsuRun :=
  let c := c.onPe (configMonitors p nodes partid pmg1 mon)
  let (failed, c) := allocBuffers env c
  let c := if failed then { c with status := resultFail test 1 } else c
  let c := readMonitors env p nodes 2 mon (c.traffic c.mpam2El2 partid pmg2)
  readMonitors env p nodes 1 mon (c.traffic temp partid pmg1)

/-- A monitor read nothing for its own PMG, or something for the other one. -/
def usageWrong (count : BitVec 16) (c : CsuRun) : Bool :=
  (monitors count).any fun mon => nodes.zipIdx.any fun (base, node) =>
    p.measured (c.pe.mmio base) && (c.storageValue 1 mon node = 0 ∨ c.storageValue 2 mon node ≠ 0)

/-- The payload of m001 and m002. -/
def pmgPayload (test : BitVec 32) (pe : PeState) : CsuRun :=
  let partid := minmaxPartid nodes [] pe
  let pmg := minmaxPmg p.supports nodes pe
  let count := maxMoncnt p.supports nodes pe
  let c := CsuRun.start pe
  if count = 0 then { c with status := resultSkip test 0 }
  else
    let c := c.onPe (nodes.foldl fun pe base => pe.onNode base (p.configure partid))
    let temp := c.pe.mpam2El2
    let c := { c with mpam2El2 := temp }
    let c := (monitors count).foldl (measureMonitor env p nodes test partid pmg (pmg - 1) temp) c
    let c := c.onPe fun pe => pe.writeMpam2 temp
    { c with status := if usageWrong p nodes count c then resultFail test 1 else resultPass test 1 }

def payloadM001 : PeState → CsuRun := pmgPayload env .cpor nodes (acsCsumonTestNumBase + 1)

def payloadM002 : PeState → CsuRun := pmgPayload env .ccap nodes (acsCsumonTestNumBase + 2)

/-! ## The test m003 -/

def testm003 : BitVec 32 := acsCsumonTestNumBase + 3

/-- Partition the node, as m001 and m002 do. -/
def partitionNode (r : NodeRegs) : NodeRegs :=
  let r := if valCacheSupportsCpor r then valCacheConfigureCpor defaultPartid 75 r else r
  if valCacheSupportsCcap r.msc then r.configureCcap defaultPartid 1 75 else r

/-- The loop that partitions one node and disables the partitioning of the others. -/
def partitionNodes (node : Nat) (pe : PeState) : PeState :=
  nodes.zipIdx.foldl (fun pe (base, node2) =>
    pe.onNode base (if node2 ≠ node then disableCache defaultPartid else partitionNode)) pe

/-- The assignment of the smaller of a stored value and a new one. The macro reads the monitor
again where the first reading is the smaller one. -/
def recordMin (which : Nat) (base : BitVec 64) (mon : BitVec 16) (node : Nat) (c : CsuRun) :
    CsuRun :=
  let old := c.storageValue which mon node
  let (value, c) := valCsumonStorageValue env base mon c
  if old > value then
    let (value, c) := valCsumonStorageValue env base mon c
    c.record which mon node value
  else c.record which mon node old

/-- One of the ten copies. Without buffers the control register is restored, and the loop goes
on. -/
def sampleOnce (base : BitVec 64) (mon : BitVec 16) (node : Nat) (c : CsuRun) : CsuRun :=
  let (failed, c) := allocBuffers env c
  let c := if failed then
      { c with pe := valCsumonRestoreCtlreg base mon c.pe, status := resultFail testm003 1 }
    else c
  recordMin env 1 base mon node (c.onPe (valCsumonResetMonitor base mon))

/-- The body of the loop over the monitors of a node. -/
def sampleMonitor (pmg1 pmg2 : BitVec 8) (base : BitVec 64) (node : Nat) (c : CsuRun)
    (mon : BitVec 16) : CsuRun :=
  let c := c.onPe (valCsumonConfigMonitor base defaultPartid pmg1 mon)
  let c := (c.traffic c.mpam2El2 defaultPartid pmg1).record 1 mon node 0
  let c := (List.range 10).foldl (fun c _ => sampleOnce env base mon node c) c
  let c := (c.traffic c.mpam2El2 defaultPartid pmg2).record 2 mon node 0
  let c := (allocBuffers env c).2.onPe (valCsumonResetMonitor base mon)
  let c := c.onPe (valCsumonRestoreCtlreg base mon)
  let c := c.onPe (valCsumonConfigMonitor base defaultPartid pmg2 mon)
  (recordMin env 2 base mon node c).onPe (valCsumonRestoreCtlreg base mon)

/-- The body of the loop over the nodes. -/
def sampleNode (pmg1 pmg2 : BitVec 8) (c : CsuRun) (indexed : BitVec 64 × Nat) : CsuRun :=
  let (base, node) := indexed
  let c := c.onPe (partitionNodes nodes node)
  (monitors (valCsumonMonitorCount (c.pe.mmio base))).foldl
    (sampleMonitor env pmg1 pmg2 base node) c

/-- The first configuration of a monitor read more than the second one. -/
def usageDisturbed (c : CsuRun) : Bool :=
  nodes.zipIdx.any fun (base, node) =>
    (monitors (valCsumonMonitorCount (c.pe.mmio base))).any fun mon =>
      c.storageValue 1 mon node > c.storageValue 2 mon node

def payloadM003 (pe : PeState) : CsuRun :=
  let pmg := minmaxPmg (fun _ => true) nodes pe
  let c := CsuRun.start pe
  if maxMoncnt (fun _ => true) nodes pe = 0 then { c with status := resultSkip testm003 0 }
  else
    let temp := pe.mpam2El2
    let c := { c with mpam2El2 := temp }
    let c := nodes.zipIdx.foldl (sampleNode env nodes pmg (pmg - 1)) c
    let c := c.onPe fun pe => pe.writeMpam2 temp
    { c with
      status := if usageDisturbed nodes c then resultFail testm003 1 else resultPass testm003 1 }

end Env

/-! ## Control registers -/

/-- The control register of a monitor. -/
def ctlOf (s : PeState) (base : BitVec 64) (mon : BitVec 16) : BitVec 32 :=
  (s.mmio base).byMonitor mon regMsmonCfgCsuCtl

/-- A control register after its monitor is configured. -/
def configured (ctl : BitVec 32) : BitVec 32 :=
  ctl &&& ~~~(1#32 <<< 31) &&& ~~~(1#32 <<< 25) ||| (1#32 <<< 16 ||| 1#32 <<< 17 ||| 1#32 <<< 31)

/-- A monitor that counts for a partid and a PMG and raises no overflow interrupt. -/
structure IsConfigured (ctl : BitVec 32) : Prop where
  matchPartid : ctl.getLsbD 16 = true
  matchPmg : ctl.getLsbD 17 = true
  oflowIntr : ctl.getLsbD 25 = false
  enable : ctl.getLsbD 31 = true

theorem getLsbD_configured (ctl : BitVec 32) {i : Nat} (hi : i < 32) :
    (configured ctl).getLsbD i =
      (decide (i = 16 ∨ i = 17 ∨ i = 31) || ctl.getLsbD i && decide (i ≠ 25)) := by
  have hBit : ∀ k, k < 32 → (1#32 <<< k).getLsbD i = decide (i = k) := by
    intro k hk
    rw [BitVec.getLsbD_shiftLeft, BitVec.getLsbD_one]
    by_cases h : i = k
    · subst h
      simp [hi]
    · simp [h]
      omega
  rw [configured, BitVec.getLsbD_or, BitVec.getLsbD_or, BitVec.getLsbD_or, BitVec.getLsbD_and,
    BitVec.getLsbD_and, BitVec.getLsbD_not, BitVec.getLsbD_not, hBit 31 (by omega),
    hBit 25 (by omega), hBit 16 (by omega), hBit 17 (by omega)]
  by_cases h31 : i = 31
  · simp [h31]
  · by_cases h25 : i = 25
    · simp [h25]
    · simp [hi, h31, h25, Bool.or_comm]

theorem configured_eq_iff (ctl : BitVec 32) : configured ctl = ctl ↔ IsConfigured ctl := by
  apply Iff.intro
  · intro h
    have hBit : ∀ i < 32, ctl.getLsbD i =
        (decide (i = 16 ∨ i = 17 ∨ i = 31) || ctl.getLsbD i && decide (i ≠ 25)) := by
      intro i hi
      rw [← getLsbD_configured ctl hi, h]
    exact ⟨by simpa using hBit 16, by simpa using hBit 17, by simpa using hBit 25,
      by simpa using hBit 31⟩
  · intro h
    apply BitVec.eq_of_getLsbD_eq
    intro i hi
    rw [getLsbD_configured ctl hi]
    by_cases hSet : i = 16 ∨ i = 17 ∨ i = 31
    · rcases hSet with rfl | rfl | rfl
      · simp [h.matchPartid]
      · simp [h.matchPmg]
      · simp [h.enable]
    · by_cases h25 : i = 25
      · rw [h25, h.oflowIntr]
        rfl
      · simp [hSet, h25]

theorem configured_idem (ctl : BitVec 32) : configured (configured ctl) = configured ctl := by
  have hBit := fun (i : Nat) (hi : i < 32) => getLsbD_configured ctl hi
  rw [configured_eq_iff]
  exact ⟨hBit 16 (by omega), hBit 17 (by omega), (hBit 25 (by omega)).trans (Bool.and_false _),
    hBit 31 (by omega)⟩

/-- The registers that nothing selects are as before, apart from the two selectors. -/
def SamePlain (s s' : PeState) : Prop :=
  ∀ base o, o ≠ regMpamcfgPartSel → o ≠ regMsmonCfgMonSel →
    (s'.mmio base).plain o = (s.mmio base).plain o

/-- The monitors in `T` are configured and the other control registers are as before. -/
structure Configures (T : Set (BitVec 64 × BitVec 16)) (s s' : PeState) : Prop where
  inside : ∀ base mon, (base, mon) ∈ T → ctlOf s' base mon = configured (ctlOf s base mon)
  outside : ∀ base mon, (base, mon) ∉ T → ctlOf s' base mon = ctlOf s base mon
  plain : SamePlain s s'

section Configuration

variable {T T' : Set (BitVec 64 × BitVec 16)} {a b c : PeState}

theorem Configures.refl (s : PeState) : Configures ∅ s s :=
  ⟨fun base mon h => absurd h (Set.notMem_empty (base, mon)), fun _ _ _ => rfl,
    fun _ _ _ _ => rfl⟩

/-- A monitor that is configured twice is configured once. -/
theorem Configures.trans (h : Configures T a b) (h' : Configures T' b c) :
    Configures (T ∪ T') a c := by
  refine ⟨fun base mon hMem => ?_, fun base mon hMem => ?_, fun base o hPart hMon =>
    (h'.plain base o hPart hMon).trans (h.plain base o hPart hMon)⟩
  · by_cases hLast : (base, mon) ∈ T'
    · rw [h'.inside base mon hLast]
      by_cases hFirst : (base, mon) ∈ T
      · rw [h.inside base mon hFirst, configured_idem]
      · rw [h.outside base mon hFirst]
    · have hFirst : (base, mon) ∈ T := hMem.resolve_right hLast
      rw [h'.outside base mon hLast, h.inside base mon hFirst]
  · have hFirst : (base, mon) ∉ T := fun hIn => hMem (Or.inl hIn)
    have hLast : (base, mon) ∉ T' := fun hIn => hMem (Or.inr hIn)
    rw [h'.outside base mon hLast, h.outside base mon hFirst]

/-- No control register is changed. -/
abbrev SameCtl : PeState → PeState → Prop := Configures ∅

theorem SameCtl.trans (h : SameCtl a b) (h' : SameCtl b c) : SameCtl a c := by
  have hBoth := Configures.trans h h'
  rwa [Set.union_self] at hBoth

theorem SameCtl.then (h : SameCtl a b) (h' : Configures T b c) : Configures T a c := by
  have hBoth := Configures.trans h h'
  rwa [Set.empty_union] at hBoth

theorem Configures.then (h : Configures T a b) (h' : SameCtl b c) : Configures T a c := by
  have hBoth := Configures.trans h h'
  rwa [Set.union_empty] at hBoth

/-- Nor is the saved one. -/
structure Quiet (s s' : PeState) : Prop where
  same : SameCtl s s'
  temp : s'.csuCtlTemp = s.csuCtlTemp

theorem Quiet.refl (s : PeState) : Quiet s s := ⟨Configures.refl s, rfl⟩

theorem Quiet.trans (h : Quiet a b) (h' : Quiet b c) : Quiet a c :=
  ⟨SameCtl.trans h.same h'.same, h'.temp.trans h.temp⟩

end Configuration

section Accesses

variable (s : PeState) (base : BitVec 64)

theorem mmio_onNode (f : NodeRegs → NodeRegs) (base' : BitVec 64) :
    (s.onNode base f).mmio base' = if base' = base then f (s.mmio base) else s.mmio base' :=
  Function.update_apply ..

theorem ctlOf_write (offset : Nat) (value : BitVec 32) (base' : BitVec 64) (mon : BitVec 16) :
    ctlOf (s.write base offset value) base' mon =
      if base' = base ∧ mon = (s.mmio base).monSel ∧ offset = regMsmonCfgCsuCtl then value
      else ctlOf s base' mon := by
  have hSelector : selector regMsmonCfgCsuCtl = .monitor := by decide
  rw [ctlOf, PeState.write, mmio_onNode]
  by_cases h : base' = base
  · subst h
    rw [if_pos rfl, byMonitor_write]
    by_cases hOffset : offset = regMsmonCfgCsuCtl
    · simp [hOffset, hSelector, ctlOf]
    · simp [hOffset, Ne.symm hOffset, ctlOf]
  · simp [h, ctlOf]

theorem write_quiet {offset : Nat} (value : BitVec 32) (hCtl : offset ≠ regMsmonCfgCsuCtl)
    (hOffset : offset = regMsmonCfgMonSel ∨ selector offset = .monitor) :
    Quiet s (s.write base offset value) := by
  refine ⟨⟨fun base' mon h => absurd h (Set.notMem_empty (base', mon)), fun base' mon _ => ?_,
    fun base' o _ hMon => ?_⟩, rfl⟩
  · rw [ctlOf_write, if_neg fun h => hCtl h.2.2]
  · rw [plain_write_at]
    refine if_neg fun h => ?_
    rcases hOffset with hSel | hSel
    · exact hMon (h.2.1.trans hSel)
    · rw [hSel] at h
      exact Selector.noConfusion h.2.2

theorem writeMpam2_quiet (value : BitVec 64) : Quiet s (s.writeMpam2 value) :=
  ⟨⟨fun base' mon h => absurd h (Set.notMem_empty (base', mon)), fun _ _ _ => rfl,
    fun _ _ _ _ => rfl⟩, rfl⟩

/-- A change of the page that leaves the monitors and the registers that nothing selects. -/
theorem onNode_quiet {f : NodeRegs → NodeRegs} (hMonitors : ∀ r, (f r).byMonitor = r.byMonitor)
    (hPlain : ∀ r o, o ≠ regMpamcfgPartSel → (f r).plain o = r.plain o) :
    Quiet s (s.onNode base f) := by
  refine ⟨⟨fun base' mon h => absurd h (Set.notMem_empty (base', mon)), fun base' mon _ => ?_,
    fun base' o hPart _ => ?_⟩, rfl⟩
  · rw [ctlOf, mmio_onNode]
    split
    · rename_i h
      rw [h, hMonitors]
      rfl
    · rfl
  · rw [mmio_onNode]
    split
    · rename_i h
      rw [h, hPlain _ o hPart]
    · rfl

theorem monSel_write {offset : Nat} (value : BitVec 32) (h : selector offset = .monitor) :
    ((s.write base offset value).mmio base).monSel = (s.mmio base).monSel := by
  rw [NodeRegs.monSel, plain_write_at, if_neg fun h' => by rw [h] at h'; cases h'.2.2]
  rfl

theorem monSel_select (mon : BitVec 16) :
    ((s.write base regMsmonCfgMonSel (mon.setWidth 32)).mmio base).monSel = mon := by
  rw [NodeRegs.monSel, plain_write_at, if_pos ⟨rfl, rfl, by decide⟩]
  simp

/-- The state in which `val_csumon_config_monitor` reads the control register: the monitor is
selected, its value cleared and its filter set. -/
def filterMonitor (partid : BitVec 16) (pmg : BitVec 8) (mon : BitVec 16) : PeState :=
  ((s.write base regMsmonCfgMonSel (mon.setWidth 32)).write base regMsmonCsu
    (1#32 <<< 31)).write base regMsmonCfgCsuFlt (pmg.setWidth 32 <<< 16 ||| partid.setWidth 32)

theorem filterMonitor_quiet (partid : BitVec 16) (pmg : BitVec 8) (mon : BitVec 16) :
    Quiet s (filterMonitor s base partid pmg mon) := by
  have hSelected := write_quiet s base (mon.setWidth 32) (by decide) (Or.inl rfl)
  have hCleared := write_quiet (s.write base regMsmonCfgMonSel (mon.setWidth 32)) base
    (1#32 <<< 31) (show regMsmonCsu ≠ regMsmonCfgCsuCtl by decide) (Or.inr (by decide))
  exact (hSelected.trans hCleared).trans (write_quiet _ base _ (by decide) (Or.inr (by decide)))

theorem filterMonitor_monSel (partid : BitVec 16) (pmg : BitVec 8) (mon : BitVec 16) :
    ((filterMonitor s base partid pmg mon).mmio base).monSel = mon := by
  rw [filterMonitor, monSel_write _ base _ (by decide), monSel_write _ base _ (by decide)]
  exact monSel_select s base mon

theorem filterMonitor_read (partid : BitVec 16) (pmg : BitVec 8) (mon : BitVec 16) :
    ((filterMonitor s base partid pmg mon).mmio base).read regMsmonCfgCsuCtl =
      ctlOf s base mon := by
  have hSelector : selector regMsmonCfgCsuCtl = .monitor := by decide
  simp only [NodeRegs.read, hSelector, filterMonitor_monSel]
  exact (filterMonitor_quiet s base partid pmg mon).same.outside base mon (Set.notMem_empty _)

theorem configMonitor_spec (partid : BitVec 16) (pmg : BitVec 8) (mon : BitVec 16) :
    Configures {(base, mon)} s (valCsumonConfigMonitor base partid pmg mon s) ∧
      (valCsumonConfigMonitor base partid pmg mon s).csuCtlTemp = ctlOf s base mon := by
  have hSelector : selector regMsmonCfgCsuCtl = .monitor := by decide
  have hQuiet := filterMonitor_quiet s base partid pmg mon
  have hSel := filterMonitor_monSel s base partid pmg mon
  let saved := { filterMonitor s base partid pmg mon with csuCtlTemp := ctlOf s base mon }
  let disabled := saved.write base regMsmonCfgCsuCtl (ctlOf s base mon &&& ~~~(1#32 <<< 31))
  have hRun : valCsumonConfigMonitor base partid pmg mon s =
      disabled.write base regMsmonCfgCsuCtl (configured (ctlOf s base mon)) := by
    change _ = (({ filterMonitor s base partid pmg mon with
      csuCtlTemp := ctlOf s base mon } : PeState).write base regMsmonCfgCsuCtl _).write base _ _
    rw [← filterMonitor_read s base partid pmg mon]
    rfl
  have hSelDisabled : (disabled.mmio base).monSel = mon :=
    (monSel_write saved base _ hSelector).trans hSel
  refine ⟨⟨fun base' mon' hMem => ?_, fun base' mon' hMem => ?_, fun base' o hPart hMon => ?_⟩, ?_⟩
  · obtain ⟨rfl, rfl⟩ := Prod.mk.inj (Set.mem_singleton_iff.mp hMem)
    rw [hRun, ctlOf_write, if_pos ⟨rfl, hSelDisabled.symm, rfl⟩]
  · have hOther : ¬ (base' = base ∧ mon' = mon ∧ regMsmonCfgCsuCtl = regMsmonCfgCsuCtl) := by
      rintro ⟨rfl, rfl, -⟩
      exact hMem (Set.mem_singleton _)
    rw [hRun, ctlOf_write, hSelDisabled, if_neg hOther, ctlOf_write,
      show (saved.mmio base).monSel = mon from hSel, if_neg hOther]
    exact hQuiet.same.outside base' mon' (Set.notMem_empty _)
  · have hNone : ¬ (base' = base ∧ o = regMsmonCfgCsuCtl ∧
        selector regMsmonCfgCsuCtl = .none) := by
      intro h
      rw [hSelector] at h
      exact Selector.noConfusion h.2.2
    rw [hRun, plain_write_at, if_neg hNone, plain_write_at, if_neg hNone]
    exact hQuiet.same.plain base' o hPart hMon
  · rw [hRun]
    rfl

theorem restoreCtlreg_spec (mon : BitVec 16) (base' : BitVec 64) (mon' : BitVec 16) :
    ctlOf (valCsumonRestoreCtlreg base mon s) base' mon' =
      if base' = base ∧ mon' = mon then s.csuCtlTemp else ctlOf s base' mon' := by
  have hSelect := write_quiet s base (mon.setWidth 32) (by decide) (Or.inl rfl)
  rw [valCsumonRestoreCtlreg, ctlOf_write, monSel_select,
    hSelect.same.outside base' mon' (Set.notMem_empty _)]
  simp only [and_true]

theorem resetMonitor_quiet (mon : BitVec 16) : Quiet s (valCsumonResetMonitor base mon s) :=
  (write_quiet s base _ (by decide) (Or.inl rfl)).trans
    (write_quiet _ base _ (by decide) (Or.inr (by decide)))

end Accesses

end EnterpriseAcs.Mpam
