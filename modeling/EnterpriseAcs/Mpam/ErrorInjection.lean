import EnterpriseAcs.Mpam.MpamParams

/-!
# Generating errors on a node

A generator saves the error control register of the node, enables its error interrupt and makes
an access that is out of range: it selects a partid or a monitor beyond the last one, puts such
a partid into the filter of a monitor, or generates traffic with such a partid or PMG.

* `generate_psr` and its like: the registers that a generator leaves.
* `injects_iff`: when the value is one above the maximum and stays inside its field.
-/

namespace EnterpriseAcs.Mpam

/-! ## Accesses -/

/-- One access of the PE to its registers or to a node's page. -/
abbrev Access := PeState → PeState

/-- The accesses one after the other. -/
def runAccesses (accesses : List Access) (s : PeState) : PeState :=
  accesses.foldl (fun s access => access s) s

/-- `err_ctrl_reg = val_mmio_read(base + REG_MPAMF_ECR)`. -/
def saveEcr (base : BitVec 64) : Access := fun s =>
  { s with errCtrlReg := (s.mmio base).read regMpamfEcr }

/-- Set the interrupt enable bit in `MPAMF_ECR`. -/
def enableIntr (base : BitVec 64) : Access := fun s => s.write base regMpamfEcr 1

/-- `val_node_restore_ecr`. -/
def valNodeRestoreEcr (base : BitVec 64) : Access := fun s =>
  s.write base regMpamfEcr s.errCtrlReg

/-- `val_node_clear_intr`. -/
def valNodeClearIntr (base : BitVec 64) : Access := fun s => s.write base regMpamfEsr 0

/-! ## The generators -/

/-- The kinds of nodes that the tests visit. -/
inductive NodeType
  | cache
  | memory
  deriving DecidableEq, Repr

/-- A generator saves `MPAMF_ECR` first. Then it returns `ACS_STATUS_SKIP`, or goes on with its
other accesses. -/
structure Generator where
  skips : PeState → Bool
  accesses : List Access

/-- The largest partid of the node plus one, an `int`. -/
def beyondPartid (base : BitVec 64) (s : PeState) : BitVec 32 :=
  (valNodeGetPartid (s.mmio base)).setWidth 32 + 1

def valNodeGeneratePsrError (base : BitVec 64) : Generator where
  skips _ := false
  accesses := [enableIntr base, fun s => s.write base regMpamcfgPartSel (beyondPartid base s)]

def valNodeGenerateMsrError (base : BitVec 64) (monCount : BitVec 16) : Generator where
  skips _ := false
  accesses :=
    [enableIntr base, fun s => s.write base regMsmonCfgMonSel (monCount.setWidth 32 + 1)]

/-- The filter register of the monitors of a node. -/
def filterReg : NodeType → Nat
  | .cache => regMsmonCfgCsuFlt
  | .memory => regMsmonCfgMbwuFlt

def valNodeGenerateMsmonConfigError (type : NodeType) (base : BitVec 64) (monCount : BitVec 16) :
    Generator where
  skips _ := false
  accesses :=
    [enableIntr base, fun s => s.write base regMsmonCfgMonSel (monCount.setWidth 32 - 1),
      fun s => s.write base (filterReg type) (beyondPartid base s)]

/-- The control register of a monitor that counts reads and writes of the default partid and
PMG, freezes on overflow and raises an interrupt. -/
def mbwuOflowCtl : BitVec 32 :=
  1#32 <<< 16 ||| 1#32 <<< 17 ||| 3#32 <<< 20 ||| 1#32 <<< 24 ||| 1#32 <<< 25

/-- `MBWU_VALUE_MAX`. -/
def mbwuValueMax : BitVec 32 := 0xefffffff

/-- The buffers and the copy that causes the overflow touch no register. -/
def valNodeGenerateMsmonOflowError (base : BitVec 64) (monCount : BitVec 16) : Generator where
  skips _ := false
  accesses :=
    [enableIntr base, fun s => s.write base regMsmonCfgMonSel (monCount.setWidth 32 - 1),
      fun s => s.write base regMsmonCfgMbwuFlt
        (defaultPmg.setWidth 32 <<< 16 ||| defaultPartid.setWidth 32),
      fun s => s.write base regMsmonCfgMbwuCtl mbwuOflowCtl,
      fun s => s.write base regMsmonMbwu mbwuValueMax]

/-- `PARTID_MAX` and `PMG_MAX` of `MPAMIDR_EL1`. -/
def pePartidMax (s : PeState) : BitVec 16 := s.mpamidrEl1.setWidth 16
def pePmgMax (s : PeState) : BitVec 8 := (s.mpamidrEl1 >>> 32).setWidth 8

/-- The partid out of range is an `int`, which the assignment to 64 bits extends with its
sign. -/
def porMpam2 (base : BitVec 64) (s : PeState) : BitVec 64 :=
  s.mpam2El2 ||| (beyondPartid base s <<< partidDShift).signExtend 64

def valNodeGeneratePorError (base : BitVec 64) : Generator where
  skips s := valNodeGetPartid (s.mmio base) > pePartidMax s
  accesses := [enableIntr base, fun s => s.writeMpam2 (porMpam2 base s)]

def pmgorMpam2 (base : BitVec 64) (s : PeState) : BitVec 64 :=
  let mpam2El2 := clearBitsMToN s.mpam2El2 (partidDShift + 15) partidDShift
  let mpam2El2 := clearBitsMToN mpam2El2 (pmgDShift + 7) pmgDShift
  mpam2El2 ||| (((valNodeGetPmg (s.mmio base)).setWidth 64 + 1) <<< pmgDShift |||
    defaultPartid.setWidth 64 <<< partidDShift)

def valNodeGeneratePmgorError (base : BitVec 64) : Generator where
  skips s := valNodeGetPmg (s.mmio base) > pePmgMax s
  accesses := [enableIntr base, fun s => s.writeMpam2 (pmgorMpam2 base s)]

/-- The registers that a generator leaves. -/
def generate (g : Generator) (base : BitVec 64) (s : PeState) : PeState :=
  let s := saveEcr base s
  if g.skips s then s else runAccesses g.accesses s

/-! ## What the generators write -/

section Registers

variable (base : BitVec 64) (s : PeState)

theorem write_mmio (offset : Nat) (value : BitVec 32) :
    (s.write base offset value).mmio base = (s.mmio base).write offset value :=
  Function.update_self ..

/-- The accesses before the last one leave the ID register of the node. -/
theorem read_idr_write {offset : Nat} (hIdr : offset ≠ regMpamfIdr) (value : BitVec 32) :
    ((s.write base offset value).mmio base).read regMpamfIdr =
      (s.mmio base).read regMpamfIdr := by
  have hSelector : selector regMpamfIdr = .none := by decide
  simp only [NodeRegs.read, hSelector, plain_write_at, Ne.symm hIdr, false_and, and_false,
    if_false]

theorem beyondPartid_congr {s t : PeState}
    (h : (t.mmio base).read regMpamfIdr = (s.mmio base).read regMpamfIdr) :
    beyondPartid base t = beyondPartid base s := by
  rw [beyondPartid, beyondPartid, valNodeGetPartid, valNodeGetPartid, h]

theorem read_write_plain (r : NodeRegs) {offset : Nat} (h : selector offset = .none)
    (value : BitVec 32) : (r.write offset value).read offset = value := by
  simp [write_plain r value h, NodeRegs.read, h]

theorem read_write_byMonitor (r : NodeRegs) {offset : Nat} (h : selector offset = .monitor)
    (value : BitVec 32) : (r.write offset value).read offset = value := by
  simp [write_byMonitor r value h, NodeRegs.read, h, NodeRegs.monSel, store_apply]

theorem read_idr_enableIntr :
    ((enableIntr base (saveEcr base s)).mmio base).read regMpamfIdr =
      (s.mmio base).read regMpamfIdr :=
  read_idr_write base (saveEcr base s) (by decide) 1

theorem generate_psr :
    ((generate (valNodeGeneratePsrError base) base s).mmio base).read regMpamcfgPartSel =
      beyondPartid base s := by
  have hRun : generate (valNodeGeneratePsrError base) base s =
      (enableIntr base (saveEcr base s)).write base regMpamcfgPartSel
        (beyondPartid base (enableIntr base (saveEcr base s))) := rfl
  rw [hRun, write_mmio, read_write_plain _ (by decide)]
  exact beyondPartid_congr base (read_idr_enableIntr base s)

theorem generate_msmonConfig (type : NodeType) (monCount : BitVec 16) :
    ((generate (valNodeGenerateMsmonConfigError type base monCount) base s).mmio base).read
      (filterReg type) = beyondPartid base s := by
  have hSelector : selector (filterReg type) = .monitor := by cases type <;> decide
  have hRun : generate (valNodeGenerateMsmonConfigError type base monCount) base s =
      let s' := (enableIntr base (saveEcr base s)).write base regMsmonCfgMonSel
        (monCount.setWidth 32 - 1)
      s'.write base (filterReg type) (beyondPartid base s') := rfl
  rw [hRun, write_mmio, read_write_byMonitor _ hSelector]
  apply beyondPartid_congr base
  rw [read_idr_write base _ (by decide), read_idr_enableIntr]

theorem generate_por (hSkips : (valNodeGeneratePorError base).skips s = false) :
    (generate (valNodeGeneratePorError base) base s).mpam2El2 = porMpam2 base s := by
  have hSaved : (valNodeGeneratePorError base).skips (saveEcr base s) = false := hSkips
  have hRun : generate (valNodeGeneratePorError base) base s =
      (enableIntr base (saveEcr base s)).writeMpam2
        (porMpam2 base (enableIntr base (saveEcr base s))) := by
    simp only [generate, hSaved]
    rfl
  rw [hRun, PeState.writeMpam2, porMpam2, beyondPartid_congr base (read_idr_enableIntr base s)]
  rfl

theorem generate_pmgor (hSkips : (valNodeGeneratePmgorError base).skips s = false) :
    (generate (valNodeGeneratePmgorError base) base s).mpam2El2 = pmgorMpam2 base s := by
  have hSaved : (valNodeGeneratePmgorError base).skips (saveEcr base s) = false := hSkips
  have hRun : generate (valNodeGeneratePmgorError base) base s =
      (enableIntr base (saveEcr base s)).writeMpam2
        (pmgorMpam2 base (enableIntr base (saveEcr base s))) := by
    simp only [generate, hSaved]
    rfl
  rw [hRun, PeState.writeMpam2, pmgorMpam2, valNodeGetPmg, read_idr_enableIntr base s]
  rfl

end Registers

/-! ## Injected values -/

/-- The field of `len` bits from bit `lo` on holds the maximum plus one, and no bit outside it
is set that `old` has not. -/
structure Injected {w : Nat} (lo len max : Nat) (old new : BitVec w) : Prop where
  field : (new.extractLsb' lo len).toNat = max + 1
  outside : ∀ i < w, ¬ (lo ≤ i ∧ i < lo + len) → new.getLsbD i = true → old.getLsbD i = true

/-- A field that holds the maximum plus one has room for it. -/
theorem Injected.lt {w lo len max : Nat} {old new : BitVec w} (h : Injected lo len max old new) :
    max + 1 < 2 ^ len := by
  rw [← h.field]
  exact BitVec.isLt _

/-- The generators that put an id into a register. -/
inductive Injection
  | psr
  | msmonConfig (type : NodeType) (monCount : BitVec 16)
  | por
  | pmgor

def Injection.generator (base : BitVec 64) : Injection → Generator
  | .psr => valNodeGeneratePsrError base
  | .msmonConfig type monCount => valNodeGenerateMsmonConfigError type base monCount
  | .por => valNodeGeneratePorError base
  | .pmgor => valNodeGeneratePmgorError base

/-- The id in the register that a generator targets. A selector and a filter are written as a
whole, and start from 0; `MPAM2_EL2` starts from what it holds. -/
def TargetInjected (base : BitVec 64) (before after : PeState) : Injection → Prop
  | .psr =>
    Injected 0 16 (valNodeGetPartid (before.mmio base)).toNat 0
      ((after.mmio base).read regMpamcfgPartSel)
  | .msmonConfig type _ =>
    Injected 0 16 (valNodeGetPartid (before.mmio base)).toNat 0
      ((after.mmio base).read (filterReg type))
  | .por =>
    Injected partidDShift 16 (valNodeGetPartid (before.mmio base)).toNat before.mpam2El2
      after.mpam2El2
  | .pmgor =>
    Injected pmgDShift 8 (valNodeGetPmg (before.mmio base)).toNat before.mpam2El2 after.mpam2El2

/-- The generator puts the maximum plus one into the field it targets, sets no other bit of
that register, and changes `MPAM2_EL2` in the fields `PARTID_D` and `PMG_D` alone. -/
structure Injects (base : BitVec 64) (s : PeState) (inj : Injection) : Prop where
  target : TargetInjected base s (generate (inj.generator base) base s) inj
  mpam2 : ∀ i < 64, ¬ (16 ≤ i ∧ i < 32) → ¬ (40 ≤ i ∧ i < 48) →
    (generate (inj.generator base) base s).mpam2El2.getLsbD i = s.mpam2El2.getLsbD i

/-- The maximum is not the largest value of its field. For `por` the old partid has no bit that
the new one lacks, and a new one with its top bit set finds ones in the upper half. -/
def Injectable (base : BitVec 64) (s : PeState) : Injection → Prop
  | .psr => valNodeGetPartid (s.mmio base) ≠ 0xffff
  | .msmonConfig _ _ => valNodeGetPartid (s.mmio base) ≠ 0xffff
  | .por =>
    valNodeGetPartid (s.mmio base) ≠ 0xffff ∧
      s.mpam2El2.extractLsb' partidDShift 16 ||| (valNodeGetPartid (s.mmio base) + 1) =
        valNodeGetPartid (s.mmio base) + 1 ∧
      ((valNodeGetPartid (s.mmio base) + 1).getLsbD 15 = true →
        s.mpam2El2.extractLsb' 32 32 = BitVec.allOnes 32)
  | .pmgor => valNodeGetPmg (s.mmio base) ≠ 0xff

section Values

variable {base : BitVec 64} {s : PeState}

theorem toNat_succ {w : Nat} {x : BitVec w} (h : x.toNat + 1 < 2 ^ w) :
    (x + 1).toNat = x.toNat + 1 := by
  have hw : 1 < 2 ^ w := by omega
  rw [BitVec.toNat_add, show (1 : BitVec w).toNat = 1 % 2 ^ w from BitVec.toNat_ofNat ..,
    Nat.mod_eq_of_lt hw, Nat.mod_eq_of_lt h]

/-- A maximum below the largest value leaves room for one more. -/
theorem partid_succ_lt (h : valNodeGetPartid (s.mmio base) ≠ 0xffff) :
    (valNodeGetPartid (s.mmio base)).toNat + 1 < 2 ^ 16 := by
  have hLt := (valNodeGetPartid (s.mmio base)).isLt
  have hNe : (valNodeGetPartid (s.mmio base)).toNat ≠ 65535 := fun hEq =>
    h (BitVec.eq_of_toNat_eq hEq)
  omega

theorem partid_ne_of_lt (h : (valNodeGetPartid (s.mmio base)).toNat + 1 < 2 ^ 16) :
    valNodeGetPartid (s.mmio base) ≠ 0xffff := by
  intro hEq
  rw [hEq] at h
  exact absurd h (by decide)

/-- Without overflow the partid out of range fits into 16 bits. -/
theorem beyondPartid_eq (h : valNodeGetPartid (s.mmio base) ≠ 0xffff) :
    beyondPartid base s = (valNodeGetPartid (s.mmio base) + 1).setWidth 32 := by
  have hLt := partid_succ_lt h
  have hWide : ((valNodeGetPartid (s.mmio base)).setWidth 32).toNat =
      (valNodeGetPartid (s.mmio base)).toNat := by
    rw [BitVec.toNat_setWidth]
    omega
  apply BitVec.eq_of_toNat_eq
  rw [beyondPartid, toNat_succ (by omega), hWide, BitVec.toNat_setWidth, toNat_succ hLt]
  omega

variable (base s) in
/-- A register written as a whole holds the id exactly when there is room. -/
theorem beyondPartid_injected_iff :
    Injected 0 16 (valNodeGetPartid (s.mmio base)).toNat 0 (beyondPartid base s) ↔
      valNodeGetPartid (s.mmio base) ≠ 0xffff := by
  constructor
  · intro h
    exact partid_ne_of_lt h.lt
  · intro h
    have hLt := partid_succ_lt h
    rw [beyondPartid_eq h]
    refine ⟨?_, fun i _ hOut hBit => ?_⟩
    · rw [BitVec.extractLsb'_toNat, BitVec.toNat_setWidth, toNat_succ hLt]
      omega
    · rw [BitVec.getLsbD_setWidth, BitVec.getLsbD_of_ge _ _ (by omega)] at hBit
      simp at hBit

/-- A partid moved to `PARTID_D` as an `int`, extended with its sign. -/
theorem getLsbD_signExtend_partid (partid : BitVec 16) {i : Nat} (hi : i < 64) :
    ((partid.setWidth 32 <<< 16).signExtend 64).getLsbD i =
      if i < 16 then false
      else if i < 32 then partid.getLsbD (i - 16) else partid.getLsbD 15 := by
  have hBit : ∀ j < 32, (partid.setWidth 32 <<< 16).getLsbD j =
      if j < 16 then false else partid.getLsbD (j - 16) := by
    intro j hj
    rw [BitVec.getLsbD_shiftLeft, BitVec.getLsbD_setWidth]
    by_cases hLow : j < 16
    · simp [hLow]
    · have hIn : j - 16 < 32 := by omega
      simp [hj, hLow, hIn]
  rw [BitVec.getLsbD_signExtend, BitVec.msb_eq_getLsbD_last, hBit (32 - 1) (by decide)]
  by_cases hWord : i < 32
  · rw [if_pos hWord, hBit i hWord]
    simp [hi, hWord]
  · have hLow : ¬ i < 16 := by omega
    simp [hi, hWord, hLow]

/-- The bits that the request for a partid out of range sets. -/
theorem getLsbD_porMpam2 (h : valNodeGetPartid (s.mmio base) ≠ 0xffff) {i : Nat} (hi : i < 64) :
    (porMpam2 base s).getLsbD i =
      (s.mpam2El2.getLsbD i ||
        if i < 16 then false
        else if i < 32 then (valNodeGetPartid (s.mmio base) + 1).getLsbD (i - 16)
        else (valNodeGetPartid (s.mmio base) + 1).getLsbD 15) := by
  rw [porMpam2, beyondPartid_eq h, BitVec.getLsbD_or, partidDShift,
    getLsbD_signExtend_partid _ hi]

theorem por_injected_of_injectable (h : Injectable base s .por) :
    Injected partidDShift 16 (valNodeGetPartid (s.mmio base)).toNat s.mpam2El2
      (porMpam2 base s) := by
  obtain ⟨hNe, hOld, hTop⟩ := h
  refine ⟨?_, fun i hi hOut hBit => ?_⟩
  · rw [← toNat_succ (partid_succ_lt hNe), BitVec.toNat_inj, ← hOld]
    apply BitVec.eq_of_getLsbD_eq
    intro j hj
    have hIndex : partidDShift + j < 64 := by unfold partidDShift; omega
    have hLow : ¬ 16 + j < 16 := by omega
    have hWord : 16 + j < 32 := by omega
    rw [BitVec.getLsbD_extractLsb', getLsbD_porMpam2 hNe hIndex, BitVec.getLsbD_or,
      BitVec.getLsbD_extractLsb']
    simp [hj, partidDShift, hLow, hWord]
  · rw [getLsbD_porMpam2 hNe hi] at hBit
    unfold partidDShift at hOut
    by_cases hLow : i < 16
    · simpa [hLow] using hBit
    · have hWord : ¬ i < 32 := by omega
      simp only [hLow, hWord, if_false, Bool.or_eq_true] at hBit
      obtain hBit | hBit := hBit
      · exact hBit
      · have hIn : i - 32 < 32 := by omega
        have hOnes : (s.mpam2El2.extractLsb' 32 32).getLsbD (i - 32) = true := by
          rw [hTop hBit, BitVec.getLsbD_allOnes]
          exact decide_eq_true hIn
        rw [BitVec.getLsbD_extractLsb', show 32 + (i - 32) = i by omega] at hOnes
        simpa [hIn] using hOnes

theorem por_injectable_of_injected
    (h : Injected partidDShift 16 (valNodeGetPartid (s.mmio base)).toNat s.mpam2El2
      (porMpam2 base s)) : Injectable base s .por := by
  have hNe := partid_ne_of_lt h.lt
  have hField := h.field
  rw [← toNat_succ h.lt, BitVec.toNat_inj] at hField
  refine ⟨hNe, ?_, fun hTop => ?_⟩
  · rw [← hField]
    apply BitVec.eq_of_getLsbD_eq
    intro j hj
    have hIndex : partidDShift + j < 64 := by unfold partidDShift; omega
    rw [BitVec.getLsbD_or, BitVec.getLsbD_extractLsb', BitVec.getLsbD_extractLsb',
      getLsbD_porMpam2 hNe hIndex]
    cases s.mpam2El2.getLsbD (partidDShift + j) <;> simp
  · apply BitVec.eq_of_getLsbD_eq
    intro j hj
    have hIndex : 32 + j < 64 := by omega
    have hLow : ¬ 32 + j < 16 := by omega
    have hWord : ¬ 32 + j < 32 := by omega
    have hBit := h.outside (32 + j) hIndex (by unfold partidDShift; omega)
    rw [getLsbD_porMpam2 hNe hIndex] at hBit
    simp only [hLow, hWord, if_false, hTop, Bool.or_true, true_implies] at hBit
    rw [BitVec.getLsbD_extractLsb', BitVec.getLsbD_allOnes, hBit]
    simp

/-- A request that sets no bit outside `PARTID_D` changes no bit outside it. -/
theorem porMpam2_outside {i : Nat}
    (h : Injected partidDShift 16 (valNodeGetPartid (s.mmio base)).toNat s.mpam2El2
      (porMpam2 base s)) (hi : i < 64) (hOut : ¬ (16 ≤ i ∧ i < 32)) :
    (porMpam2 base s).getLsbD i = s.mpam2El2.getLsbD i := by
  have hSet := h.outside i hi hOut
  revert hSet
  rw [getLsbD_porMpam2 (partid_ne_of_lt h.lt) hi]
  cases s.mpam2El2.getLsbD i <;> simp

/-! ## The PMG out of range -/

theorem pmg_succ_lt_iff :
    (valNodeGetPmg (s.mmio base)).toNat + 1 < 2 ^ 8 ↔ valNodeGetPmg (s.mmio base) ≠ 0xff := by
  have hLt := (valNodeGetPmg (s.mmio base)).isLt
  constructor
  · intro h hEq
    rw [hEq] at h
    exact absurd h (by decide)
  · intro h
    have hNe : (valNodeGetPmg (s.mmio base)).toNat ≠ 255 := fun hEq =>
      h (BitVec.eq_of_toNat_eq hEq)
    omega

theorem getLsbD_pmgorMpam2 (h : valNodeGetPmg (s.mmio base) ≠ 0xff) {i : Nat} (hi : i < 64) :
    (pmgorMpam2 base s).getLsbD i =
      if 16 ≤ i ∧ i < 32 then false
      else if 40 ≤ i ∧ i < 48 then (valNodeGetPmg (s.mmio base) + 1).getLsbD (i - 40)
      else s.mpam2El2.getLsbD i := by
  have hLt := pmg_succ_lt_iff.mpr h
  have hWide : (valNodeGetPmg (s.mmio base)).setWidth 64 + 1 =
      (valNodeGetPmg (s.mmio base) + 1).setWidth 64 := by
    have hSame : ((valNodeGetPmg (s.mmio base)).setWidth 64).toNat =
        (valNodeGetPmg (s.mmio base)).toNat := by
      rw [BitVec.toNat_setWidth]
      omega
    apply BitVec.eq_of_toNat_eq
    rw [toNat_succ (by omega), hSame, BitVec.toNat_setWidth, toNat_succ hLt]
    omega
  simp only [pmgorMpam2, hWide, BitVec.getLsbD_or]
  rw [getLsbD_clearBitsMToN _ (by decide) hi, getLsbD_clearBitsMToN _ (by decide) hi]
  generalize valNodeGetPmg (s.mmio base) + 1 = next
  simp only [BitVec.getLsbD_shiftLeft, BitVec.getLsbD_setWidth, pmgDShift, partidDShift,
    defaultPartid]
  by_cases hPartid : 16 ≤ i ∧ i < 32
  · have hClear : ¬ (16 + 15 < i ∨ i < 16) := by omega
    have hLow : i < 40 := by omega
    simp [hPartid, hClear, hLow]
  · have hKeep : 16 + 15 < i ∨ i < 16 := by omega
    by_cases hPmg : 40 ≤ i ∧ i < 48
    · have hHigh : ¬ 47 < i := by omega
      have hLow : ¬ i < 40 := by omega
      have hIn : i - 40 < 64 := by omega
      simp [hPartid, hPmg, hHigh, hLow, hIn, hi]
    · have hKeep' : 40 + 7 < i ∨ i < 40 := by omega
      have hHigh : i < 40 ∨ next.getLsbD (i - 40) = false := by
        by_cases hLow : i < 40
        · exact Or.inl hLow
        · exact Or.inr (BitVec.getLsbD_of_ge _ _ (by omega))
      obtain hHigh | hHigh := hHigh <;> simp [hPartid, hPmg, hKeep, hKeep', hHigh]

theorem pmgor_injected_iff :
    Injected pmgDShift 8 (valNodeGetPmg (s.mmio base)).toNat s.mpam2El2 (pmgorMpam2 base s) ↔
      valNodeGetPmg (s.mmio base) ≠ 0xff := by
  constructor
  · intro h
    exact pmg_succ_lt_iff.mp h.lt
  · intro h
    refine ⟨?_, fun i hi hOut hBit => ?_⟩
    · rw [← toNat_succ (pmg_succ_lt_iff.mpr h), BitVec.toNat_inj]
      apply BitVec.eq_of_getLsbD_eq
      intro j hj
      have hIndex : pmgDShift + j < 64 := by unfold pmgDShift; omega
      have hPartid : ¬ (16 ≤ 40 + j ∧ 40 + j < 32) := by omega
      have hPmg : 40 ≤ 40 + j ∧ 40 + j < 48 := by omega
      rw [BitVec.getLsbD_extractLsb', getLsbD_pmgorMpam2 h hIndex]
      simp [hj, pmgDShift, hPartid, hPmg]
    · rw [getLsbD_pmgorMpam2 h hi] at hBit
      unfold pmgDShift at hOut
      by_cases hPartid : 16 ≤ i ∧ i < 32
      · simp [hPartid] at hBit
      · simpa [hPartid, hOut] using hBit

end Values

/-! ## When the generators inject the id -/

/-- **Error injection.** For all ID registers for which the generator does not skip and every
prior value of `MPAM2_EL2`, a generator injects the maximum plus one, and nothing else, exactly
when it is injectable. -/
theorem injects_iff (base : BitVec 64) (s : PeState) (inj : Injection)
    (hSkips : (inj.generator base).skips s = false) :
    Injects base s inj ↔ Injectable base s inj := by
  cases inj with
  | psr =>
    have hMpam2 : (generate (valNodeGeneratePsrError base) base s).mpam2El2 = s.mpam2El2 := rfl
    have hIff := beyondPartid_injected_iff base s
    rw [← generate_psr] at hIff
    exact ⟨fun h => hIff.mp h.target, fun h => ⟨hIff.mpr h, fun i _ _ _ => by
      rw [Injection.generator, hMpam2]⟩⟩
  | msmonConfig type monCount =>
    have hMpam2 : (generate (valNodeGenerateMsmonConfigError type base monCount) base s).mpam2El2 =
        s.mpam2El2 := rfl
    have hIff := beyondPartid_injected_iff base s
    rw [← generate_msmonConfig base s type monCount] at hIff
    exact ⟨fun h => hIff.mp h.target, fun h => ⟨hIff.mpr h, fun i _ _ _ => by
      rw [Injection.generator, hMpam2]⟩⟩
  | por =>
    have hMpam2 := generate_por base s hSkips
    constructor
    · intro h
      have hTarget := h.target
      rw [TargetInjected, Injection.generator, hMpam2] at hTarget
      exact por_injectable_of_injected hTarget
    · intro h
      have hTarget := por_injected_of_injectable h
      refine ⟨?_, fun i hi hPartid _ => ?_⟩
      · rw [TargetInjected, Injection.generator, hMpam2]
        exact hTarget
      · rw [Injection.generator, hMpam2]
        exact porMpam2_outside hTarget hi hPartid
  | pmgor =>
    have hMpam2 := generate_pmgor base s hSkips
    constructor
    · intro h
      have hTarget := h.target
      rw [TargetInjected, Injection.generator, hMpam2] at hTarget
      exact pmgor_injected_iff.mp hTarget
    · intro h
      refine ⟨?_, fun i hi hPartid hPmg => ?_⟩
      · rw [TargetInjected, Injection.generator, hMpam2]
        exact pmgor_injected_iff.mpr h
      · rw [Injection.generator, hMpam2, getLsbD_pmgorMpam2 h hi, if_neg hPartid, if_neg hPmg]

/-- A node with this ID register, on a PE that generates every partid and PMG. -/
def injectionPe (idr : BitVec 32) : PeState where
  mpam2El2 := 0
  mpamidrEl1 := 0xff0000ffff
  mmio _ := idPage idr 0 0
  errCtrlReg := 0
  csuCtlTemp := 0

/-- A node with 64 partids takes the injections of all four generators. -/
theorem injects_sixty_four :
    Injects 0 (injectionPe 0x3f) .psr ∧ Injects 0 (injectionPe 0x3f) (.msmonConfig .cache 1) ∧
      Injects 0 (injectionPe 0x3f) .por ∧ Injects 0 (injectionPe 0x3f) .pmgor := by
  have hPartid : valNodeGetPartid ((injectionPe 0x3f).mmio 0) = 0x3f := by decide
  have hBelow : valNodeGetPartid ((injectionPe 0x3f).mmio 0) ≠ 0xffff := by
    rw [hPartid]
    decide
  refine ⟨?_, ?_, ?_, ?_⟩
  · exact (injects_iff 0 (injectionPe 0x3f) .psr rfl).mpr hBelow
  · exact (injects_iff 0 (injectionPe 0x3f) (.msmonConfig .cache 1) rfl).mpr hBelow
  · refine (injects_iff 0 (injectionPe 0x3f) .por (by decide)).mpr ⟨hBelow, ?_, ?_⟩
    · rw [hPartid]
      decide
    · rw [hPartid]
      intro hTop
      exact absurd hTop (by decide)
  · have hPmg : valNodeGetPmg ((injectionPe 0x3f).mmio 0) ≠ 0xff := by decide
    exact (injects_iff 0 (injectionPe 0x3f) .pmgor (by decide)).mpr hPmg

/-- A node with 32768 partids: the request sets the upper half of `MPAM2_EL2`. -/
theorem por_sets_upper_half :
    (Injection.por.generator 0).skips (injectionPe 0x7fff) = false ∧
      (generate (valNodeGeneratePorError 0) 0 (injectionPe 0x7fff)).mpam2El2 =
        0xffffffff80000000 ∧
      ¬ Injects 0 (injectionPe 0x7fff) .por := by
  have hWritten : (generate (valNodeGeneratePorError 0) 0 (injectionPe 0x7fff)).mpam2El2 =
      0xffffffff80000000 := by decide
  refine ⟨by decide, hWritten, fun h => ?_⟩
  have hBit := h.mpam2 63 (by decide) (by decide) (by decide)
  rw [Injection.generator, hWritten] at hBit
  revert hBit
  decide

end EnterpriseAcs.Mpam
