import EnterpriseAcs.Library.BitSet
import EnterpriseAcs.Mpam.PartitionControl

/-!
# The registers of a node

The feature page of a node is addressed by offset. Some offsets stand for a register of the
partid that `MPAMCFG_PART_SEL` selects, some for a register of the monitor that
`MSMON_CFG_MON_SEL` selects, and the others for one register each.

* `write_plain`, `write_byPartid`, `write_byMonitor`: what a write changes.
* `msc_configureCcap`: the configuration of a capacity, on these registers.
-/

namespace EnterpriseAcs.Mpam

/-! ## Offsets -/

def regMpamfIdr : Nat := 0x0000
def regMpamfCporIdr : Nat := 0x0030
def regMpamfCcapIdr : Nat := 0x0038
def regMpamfMbwIdr : Nat := 0x0040
def regMpamfMsmonIdr : Nat := 0x0080
def regMpamfCsumonIdr : Nat := 0x0088
def regMpamfMbwumonIdr : Nat := 0x0090
def regMpamfEcr : Nat := 0x00f0
def regMpamfEsr : Nat := 0x00f8
def regMpamcfgPartSel : Nat := 0x0100
def regMpamcfgCmax : Nat := 0x0108
def regMpamcfgMbwMin : Nat := 0x0200
def regMpamcfgMbwMax : Nat := 0x0208
def regMpamcfgMbwWinwd : Nat := 0x0220
def regMsmonCfgMonSel : Nat := 0x0800
def regMsmonCfgCsuFlt : Nat := 0x0810
def regMsmonCfgCsuCtl : Nat := 0x0818
def regMsmonCfgMbwuFlt : Nat := 0x0820
def regMsmonCfgMbwuCtl : Nat := 0x0828
def regMsmonCsu : Nat := 0x0840
def regMsmonCsuCapture : Nat := 0x0848
def regMsmonMbwu : Nat := 0x0860
def regMsmonMbwuCapture : Nat := 0x0868
def regMpamcfgCpbm : Nat := 0x1000
def regMpamcfgMbwPbm : Nat := 0x2000

/-- What selects the register at an offset. -/
inductive Selector
  | none
  | partid
  | monitor
  deriving DecidableEq, Repr

/-- The portion bitmaps take the page from `0x1000` on. -/
def selector (offset : Nat) : Selector :=
  if regMpamcfgCpbm ≤ offset ∨
      offset ∈ [regMpamcfgCmax, regMpamcfgMbwMin, regMpamcfgMbwMax, regMpamcfgMbwWinwd] then
    .partid
  else if offset ∈ [regMsmonCfgCsuFlt, regMsmonCfgCsuCtl, regMsmonCfgMbwuFlt,
      regMsmonCfgMbwuCtl, regMsmonCsu, regMsmonCsuCapture, regMsmonMbwu,
      regMsmonMbwuCapture] then
    .monitor
  else .none

theorem selector_bitmap {offset : Nat} (h : regMpamcfgCpbm ≤ offset) :
    selector offset = .partid := by
  rw [selector, if_pos (Or.inl h)]

/-! ## The register file -/

/-- The registers that nothing selects, and those of each partid and each monitor. -/
structure NodeRegs where
  plain : Nat → BitVec 32
  byPartid : BitVec 16 → Nat → BitVec 32
  byMonitor : BitVec 16 → Nat → BitVec 32

/-- `PARTID_SEL`. -/
def NodeRegs.partidSel (r : NodeRegs) : BitVec 16 := (r.plain regMpamcfgPartSel).setWidth 16

/-- `MON_SEL`. -/
def NodeRegs.monSel (r : NodeRegs) : BitVec 16 := (r.plain regMsmonCfgMonSel).setWidth 16

/-- `val_mmio_read`. -/
def NodeRegs.read (r : NodeRegs) (offset : Nat) : BitVec 32 :=
  match selector offset with
  | .none => r.plain offset
  | .partid => r.byPartid r.partidSel offset
  | .monitor => r.byMonitor r.monSel offset

/-- Store to the register of a partid or of a monitor. -/
def store (regs : BitVec 16 → Nat → BitVec 32) (id : BitVec 16) (offset : Nat)
    (value : BitVec 32) : BitVec 16 → Nat → BitVec 32 :=
  Function.update regs id (Function.update (regs id) offset value)

theorem store_apply (regs : BitVec 16 → Nat → BitVec 32) (id id' : BitVec 16)
    (offset offset' : Nat) (value : BitVec 32) :
    store regs id offset value id' offset' =
      if id' = id ∧ offset' = offset then value else regs id' offset' := by
  unfold store
  by_cases hId : id' = id
  · subst hId
    rw [Function.update_self, Function.update_apply]
    simp
  · rw [Function.update_of_ne hId]
    simp [hId]

/-- `val_mmio_write`. -/
def NodeRegs.write (r : NodeRegs) (offset : Nat) (value : BitVec 32) : NodeRegs :=
  match selector offset with
  | .none => { r with plain := Function.update r.plain offset value }
  | .partid => { r with byPartid := store r.byPartid r.partidSel offset value }
  | .monitor => { r with byMonitor := store r.byMonitor r.monSel offset value }

section Writes

variable (r : NodeRegs) {offset : Nat} (value : BitVec 32)

theorem write_plain (h : selector offset = .none) :
    r.write offset value = { r with plain := Function.update r.plain offset value } := by
  rw [NodeRegs.write, h]

theorem write_byPartid (h : selector offset = .partid) :
    r.write offset value = { r with byPartid := store r.byPartid r.partidSel offset value } := by
  rw [NodeRegs.write, h]

theorem write_byMonitor (h : selector offset = .monitor) :
    r.write offset value = { r with byMonitor := store r.byMonitor r.monSel offset value } := by
  rw [NodeRegs.write, h]

theorem plain_write (offset' : Nat) :
    (r.write offset value).plain offset' =
      if offset' = offset ∧ selector offset = .none then value else r.plain offset' := by
  rw [NodeRegs.write]
  split
  · rename_i h
    simp [h, Function.update_apply]
  · rename_i h
    simp [h]
  · rename_i h
    simp [h]

theorem byMonitor_write (mon : BitVec 16) (offset' : Nat) :
    (r.write offset value).byMonitor mon offset' =
      if mon = r.monSel ∧ offset' = offset ∧ selector offset = .monitor then value
      else r.byMonitor mon offset' := by
  rw [NodeRegs.write]
  split
  · rename_i h
    simp [h]
  · rename_i h
    simp [h]
  · rename_i h
    simp [h, store_apply]

end Writes

/-! ## ID registers -/

/-- What the configuration of limits sees of the page. -/
def NodeRegs.msc (r : NodeRegs) : Msc where
  idr := r.plain regMpamfIdr
  ccapIdr := r.plain regMpamfCcapIdr
  mbwIdr := r.plain regMpamfMbwIdr
  partSel := r.plain regMpamcfgPartSel
  cfg
    | .cmax => fun partid => r.byPartid partid regMpamcfgCmax
    | .mbwMin => fun partid => r.byPartid partid regMpamcfgMbwMin
    | .mbwMax => fun partid => r.byPartid partid regMpamcfgMbwMax

def valNodeGetPartid (r : NodeRegs) : BitVec 16 := (r.read regMpamfIdr).setWidth 16

def valNodeGetPmg (r : NodeRegs) : BitVec 8 := (r.read regMpamfIdr >>> 16).setWidth 8

def valNodeSupportsMon (r : NodeRegs) : Bool := idrBit (r.read regMpamfIdr) 30

def valCacheSupportsCpor (r : NodeRegs) : Bool := idrBit (r.read regMpamfIdr) 25

def valCacheSupportsCsumon (r : NodeRegs) : Bool :=
  valNodeSupportsMon r && idrBit (r.read regMpamfMsmonIdr) 16

def valMemorySupportsMbwumon (r : NodeRegs) : Bool :=
  valNodeSupportsMon r && idrBit (r.read regMpamfMsmonIdr) 17

def valMemorySupportsMbwpbm (r : NodeRegs) : Bool :=
  valMemorySupportsPart r.msc && idrBit (r.read regMpamfMbwIdr) 12

def valCacheCpbmWidth (r : NodeRegs) : BitVec 16 :=
  if valCacheSupportsCpor r then (r.read regMpamfCporIdr &&& 0xffff).setWidth 16 else 0

def valMemoryMbwpbmWidth (r : NodeRegs) : BitVec 16 :=
  if valMemorySupportsPart r.msc then
    (r.read regMpamfMbwIdr >>> 16 &&& 0x1fff).setWidth 16
  else 0

/-- `val_csumon_monitor_count`, and `val_cache_mon_count`. -/
def valCsumonMonitorCount (r : NodeRegs) : BitVec 16 :=
  if valCacheSupportsCsumon r then (r.read regMpamfCsumonIdr &&& 0xffff).setWidth 16 else 0

def valMemoryMonCount (r : NodeRegs) : BitVec 16 :=
  if valMemorySupportsMbwumon r then (r.read regMpamfMbwumonIdr &&& 0xffff).setWidth 16 else 0

/-! ## Capacities -/

/-- `val_cache_configure_ccap` on the registers of the page. -/
def NodeRegs.configureCcap (r : NodeRegs) (partid : BitVec 16) (hardlim : BitVec 8)
    (percentage : BitVec 32) : NodeRegs :=
  (r.write regMpamcfgPartSel (partid.setWidth 32)).write regMpamcfgCmax
    (hardlim.setWidth 32 <<< 31 ||| fractionWord (valCacheCmaxWidth r.msc) percentage)

/-- It does to the page what the configuration of a capacity does to the limits. -/
theorem msc_configureCcap (r : NodeRegs) (partid : BitVec 16) (hardlim : BitVec 8)
    (percentage : BitVec 32) :
    (r.configureCcap partid hardlim percentage).msc =
      valCacheConfigureCcap partid hardlim percentage r.msc := by
  rw [NodeRegs.configureCcap, write_plain r _ (by decide), write_byPartid _ _ (by decide)]
  simp only [NodeRegs.msc, valCacheConfigureCcap, configure, Msc.writeCfg, Msc.writePartSel,
    NodeRegs.partidSel, Function.update_self]
  congr 1
  funext reg q
  have hMin : regMpamcfgMbwMin ≠ regMpamcfgCmax := by decide
  have hMax : regMpamcfgMbwMax ≠ regMpamcfgCmax := by decide
  cases reg <;> simp [store_apply, Function.update_apply, hMin, hMax]

/-! ## The executing PE -/

/-- What a test on one PE reads and writes: `MPAM2_EL2` and `MPAMIDR_EL1`, the pages of the
nodes by their base address, and the variables `err_ctrl_reg` and `csu_ctl_temp` in which the
library saves a control register. -/
structure PeState where
  mpam2El2 : BitVec 64
  mpamidrEl1 : BitVec 64
  mmio : BitVec 64 → NodeRegs
  errCtrlReg : BitVec 32
  csuCtlTemp : BitVec 32

/-- Change the page of one node. -/
def PeState.onNode (s : PeState) (base : BitVec 64) (f : NodeRegs → NodeRegs) : PeState :=
  { s with mmio := Function.update s.mmio base (f (s.mmio base)) }

/-- `val_mmio_write` to an offset of a node's page. -/
def PeState.write (s : PeState) (base : BitVec 64) (offset : Nat) (value : BitVec 32) : PeState :=
  s.onNode base fun r => r.write offset value

theorem plain_write_at (s : PeState) (base base' : BitVec 64) (offset offset' : Nat)
    (value : BitVec 32) :
    ((s.write base offset value).mmio base').plain offset' =
      if base' = base ∧ offset' = offset ∧ selector offset = .none then value
      else (s.mmio base').plain offset' := by
  rw [PeState.write, PeState.onNode]
  by_cases h : base' = base
  · subst h
    simp [plain_write]
  · simp [h]

/-- `val_sysreg_write` to `MPAM2_EL2`. -/
def PeState.writeMpam2 (s : PeState) (value : BitVec 64) : PeState := { s with mpam2El2 := value }

/-- `CLEAR_BITS_M_TO_N`, 64 bits wide. -/
def clearBitsMToN (num : BitVec 64) (m n : Nat) : BitVec 64 :=
  num &&& (~~~(0#64) <<< (m + 1) ||| (1#64 <<< n - 1))

theorem getLsbD_clearBitsMToN (num : BitVec 64) {m n i : Nat} (hn : n < 64) (hi : i < 64) :
    (clearBitsMToN num m n).getLsbD i = (num.getLsbD i && decide (m < i ∨ i < n)) := by
  rw [clearBitsMToN, BitVec.getLsbD_and, BitVec.getLsbD_or, BitSet.getLsbD_ones hn,
    BitVec.getLsbD_shiftLeft, BitVec.getLsbD_not, BitVec.getLsbD_zero]
  by_cases hm : m < i
  · have hShift : ¬ i < m + 1 := by omega
    have hIn : i - (m + 1) < 64 := by omega
    simp [hi, hm, hShift, hIn]
  · have hShift : i < m + 1 := by omega
    simp [hm, hShift]

end EnterpriseAcs.Mpam
