import EnterpriseAcs.Library.BitSet
import Mathlib.Logic.Function.Iterate

/-!
# Bracketing the cycle counter

`pal_pmu_cycle_counter_start` saves the filter and the control register of the PMU, enables the
counter, and `pal_pmu_cycle_counter_stop` writes the two saved values back. The enable register
takes writes as bits to set, so the enabled counters can only become more. The masks are values of
`int`, and the one of bit 31 is negative.

* `widen_enableBit`: widened to 64 bits, this mask has bits 63:31.
* `start_spec`, `pair_spec`: the registers after a start, and after a start and a stop.
* `bracketing_iff`: the pairs leave the registers as they were exactly when bits 63:31 of the enable
  register are set before.
-/

namespace EnterpriseAcs.Mpam

/-! ## The registers -/

/-- The registers of the PMU. The bit that resets the cycle counter reads as zero. -/
structure Pmu where
  pmcr : BitVec 64
  pmccntr : BitVec 64
  pmccfiltr : BitVec 64
  pmcntenset : BitVec 64
  reset_zero : pmcr.getLsbD 2 = false

inductive PmuReg where
  | pmcr
  | pmccntr
  | pmccfiltr
  | pmcntenset
  deriving DecidableEq, Repr

/-- `PMCR_C_RESET_BIT`. -/
def pmcrCResetBit : Nat := 2

def palPmuRegRead (pmu : Pmu) : PmuReg → BitVec 64
  | .pmcr => pmu.pmcr
  | .pmccntr => pmu.pmccntr
  | .pmccfiltr => pmu.pmccfiltr
  | .pmcntenset => pmu.pmcntenset

theorem reset_cleared (value : BitVec 64) :
    (value &&& ~~~(1#64 <<< pmcrCResetBit)).getLsbD 2 = false := by
  simp [pmcrCResetBit]

def palPmuRegWrite (pmu : Pmu) (reg : PmuReg) (value : BitVec 64) : Pmu :=
  match reg with
  | .pmcr =>
    { pmu with
      pmcr := value &&& ~~~(1#64 <<< pmcrCResetBit)
      pmccntr := if value.getLsbD pmcrCResetBit then 0 else pmu.pmccntr
      reset_zero := reset_cleared value }
  | .pmccntr => { pmu with pmccntr := value }
  | .pmccfiltr => { pmu with pmccfiltr := value }
  -- write one to set
  | .pmcntenset => { pmu with pmcntenset := pmu.pmcntenset ||| value }

/-- The PMU, `ControlRegBackup` and `CcFiltRegBackup`. -/
structure CounterState where
  pmu : Pmu
  controlRegBackup : BitVec 64
  ccFiltRegBackup : BitVec 64

/-- `PMCCFILTR_NSH_EN_BIT`, `PMCNTENSET_C_EN_BIT`, `PMCR_LC_EN_BIT` and `PMCR_EN_BIT`. -/
def pmccfiltrNshEnBit : Nat := 27
def pmcntensetCEnBit : Nat := 31
def pmcrLcEnBit : Nat := 6
def pmcrEnBit : Nat := 0

/-- `1 << n`, an `int`. -/
def intBit (n : Nat) : BitVec 32 := 1#32 <<< n

def palPmuCycleCounterStart (s : CounterState) : CounterState :=
  let ccFiltReg := palPmuRegRead s.pmu .pmccfiltr
  let controlReg := palPmuRegRead s.pmu .pmcr
  let pmu := palPmuRegWrite s.pmu .pmccfiltr
    (ccFiltReg ||| (intBit pmccfiltrNshEnBit).signExtend 64)
  let pmu := palPmuRegWrite pmu .pmcntenset
    (palPmuRegRead pmu .pmcntenset ||| (intBit pmcntensetCEnBit).signExtend 64)
  let pmu := palPmuRegWrite pmu .pmcr
    (controlReg |||
      (intBit pmcrLcEnBit ||| intBit pmcrCResetBit ||| intBit pmcrEnBit).signExtend 64)
  { pmu, controlRegBackup := controlReg, ccFiltRegBackup := ccFiltReg }

def palPmuCycleCounterStop (s : CounterState) : CounterState :=
  let pmu := palPmuRegWrite s.pmu .pmcr s.controlRegBackup
  { s with pmu := palPmuRegWrite pmu .pmccfiltr s.ccFiltRegBackup }

/-- A start and the stop after it. -/
def pair (s : CounterState) : CounterState := palPmuCycleCounterStop (palPmuCycleCounterStart s)

/-! ## The property -/

/-- A bit that is set in `new` was set in `old`, or is one of those named. -/
def SetsOnly (old new : BitVec 64) (named : List Nat) : Prop :=
  ∀ i, new.getLsbD i = true → old.getLsbD i = true ∨ i ∈ named

/-- A start sets the named bits only, and the stop after it leads back. -/
structure Bracketed (s : CounterState) : Prop where
  control : SetsOnly s.pmu.pmcr (palPmuCycleCounterStart s).pmu.pmcr
    [pmcrLcEnBit, pmcrCResetBit, pmcrEnBit]
  filter : SetsOnly s.pmu.pmccfiltr (palPmuCycleCounterStart s).pmu.pmccfiltr [pmccfiltrNshEnBit]
  enable : SetsOnly s.pmu.pmcntenset (palPmuCycleCounterStart s).pmu.pmcntenset
    [pmcntensetCEnBit]
  controlBack : (pair s).pmu.pmcr = s.pmu.pmcr
  filterBack : (pair s).pmu.pmccfiltr = s.pmu.pmccfiltr
  enableBack : (pair s).pmu.pmcntenset = s.pmu.pmcntenset

/-! ## The masks -/

/-- The bits from 31 on. -/
def enableMask : BitVec 64 := (intBit pmcntensetCEnBit).signExtend 64

/-- The mask of bit 31 is negative, so that widening it sets the bits above as well. -/
theorem widen_enableBit {i : Nat} (hi : i < 64) : enableMask.getLsbD i = decide (31 ≤ i) := by
  have hMask : enableMask = BitVec.allOnes 64 <<< 31 := by decide
  rw [hMask, BitVec.getLsbD_shiftLeft, BitVec.getLsbD_allOnes]
  by_cases h : 31 ≤ i
  · have hShift : i - 31 < 64 := by omega
    simp [hi, h, hShift]
  · simp [hi, h, Nat.lt_of_not_le h]

theorem setsOnly_or {old mask : BitVec 64} {named : List Nat}
    (h : ∀ i, mask.getLsbD i = true → i ∈ named) : SetsOnly old (old ||| mask) named := by
  intro i hi
  rw [BitVec.getLsbD_or, Bool.or_eq_true] at hi
  exact hi.imp_right (h i)

theorem filterMask_bits {i : Nat}
    (h : ((intBit pmccfiltrNshEnBit).signExtend 64).getLsbD i = true) :
    i ∈ [pmccfiltrNshEnBit] := by
  have hMask : (intBit pmccfiltrNshEnBit).signExtend 64 = BitSet.mask 64 pmccfiltrNshEnBit := by
    decide
  rw [hMask, BitSet.getLsbD_mask (Nat.zero_lt_succ 63), decide_eq_true_eq] at h
  exact List.mem_singleton.mpr h

theorem controlMask_bits {i : Nat}
    (h : ((intBit pmcrLcEnBit ||| intBit pmcrCResetBit ||| intBit pmcrEnBit).signExtend
      64).getLsbD i = true) : i ∈ [pmcrLcEnBit, pmcrCResetBit, pmcrEnBit] := by
  have hMask : (intBit pmcrLcEnBit ||| intBit pmcrCResetBit ||| intBit pmcrEnBit).signExtend 64 =
      BitSet.mask 64 pmcrLcEnBit ||| BitSet.mask 64 pmcrCResetBit |||
        BitSet.mask 64 pmcrEnBit := by
    decide
  simp only [hMask, BitVec.getLsbD_or, BitSet.getLsbD_mask (Nat.zero_lt_succ 63),
    Bool.or_eq_true, decide_eq_true_eq] at h
  rcases h with (h | h) | h
  · exact h ▸ List.mem_cons_self
  · exact h ▸ List.mem_cons_of_mem _ List.mem_cons_self
  · exact h ▸ List.mem_cons_of_mem _ (List.mem_cons_of_mem _ List.mem_cons_self)

/-! ## A start and a stop -/

/-- What a start leaves in the enable register. -/
theorem start_enable (s : CounterState) :
    (palPmuCycleCounterStart s).pmu.pmcntenset = s.pmu.pmcntenset ||| enableMask := by
  show s.pmu.pmcntenset ||| (s.pmu.pmcntenset ||| enableMask) = _
  rw [← BitVec.or_assoc, BitVec.or_self]

/-- The stop does not write it. -/
theorem pair_enable (s : CounterState) :
    (pair s).pmu.pmcntenset = s.pmu.pmcntenset ||| enableMask := start_enable s

theorem pair_filter (s : CounterState) : (pair s).pmu.pmccfiltr = s.pmu.pmccfiltr := rfl

theorem pair_control (s : CounterState) : (pair s).pmu.pmcr = s.pmu.pmcr := by
  show s.pmu.pmcr &&& ~~~(1#64 <<< pmcrCResetBit) = s.pmu.pmcr
  apply BitVec.eq_of_getLsbD_eq
  intro i hi
  have hMask : 1#64 <<< pmcrCResetBit = BitSet.mask 64 2 := rfl
  rw [hMask, BitVec.getLsbD_and, BitVec.getLsbD_not, BitSet.getLsbD_mask (Nat.zero_lt_succ 63)]
  by_cases hReset : i = 2
  · subst hReset
    rw [s.pmu.reset_zero, Bool.false_and]
  · simp [hi, hReset]

theorem start_control (s : CounterState) :
    SetsOnly s.pmu.pmcr (palPmuCycleCounterStart s).pmu.pmcr
      [pmcrLcEnBit, pmcrCResetBit, pmcrEnBit] := by
  intro i hi
  have hWritten : (s.pmu.pmcr ||| (intBit pmcrLcEnBit ||| intBit pmcrCResetBit |||
      intBit pmcrEnBit).signExtend 64).getLsbD i = true := by
    have hStored : ((s.pmu.pmcr ||| (intBit pmcrLcEnBit ||| intBit pmcrCResetBit |||
        intBit pmcrEnBit).signExtend 64) &&& ~~~(1#64 <<< pmcrCResetBit)).getLsbD i = true := hi
    rw [BitVec.getLsbD_and, Bool.and_eq_true] at hStored
    exact hStored.1
  exact setsOnly_or (fun i => controlMask_bits) i hWritten

/-! ## Any number of pairs -/

/-- A pair is bracketed exactly when the enable register has the bits of the mask before. -/
theorem bracketed_iff (s : CounterState) :
    Bracketed s ↔ s.pmu.pmcntenset ||| enableMask = s.pmu.pmcntenset := by
  constructor
  · intro h
    rw [← pair_enable]
    exact h.enableBack
  · intro h
    refine ⟨start_control s, setsOnly_or fun i => filterMask_bits, ?_, pair_control s,
      pair_filter s, (pair_enable s).trans h⟩
    intro i hi
    rw [start_enable, h] at hi
    exact Or.inl hi

theorem pairs_enable (s : CounterState) (k : Nat)
    (h : s.pmu.pmcntenset ||| enableMask = s.pmu.pmcntenset) :
    (pair^[k] s).pmu.pmcntenset = s.pmu.pmcntenset := by
  induction k with
  | zero => rfl
  | succ k ih => rw [Function.iterate_succ_apply', pair_enable, ih, h]

theorem mask_or_iff (x : BitVec 64) :
    x ||| enableMask = x ↔ ∀ i, 31 ≤ i → i < 64 → x.getLsbD i = true := by
  constructor
  · intro h i hLow hi
    rw [← h, BitVec.getLsbD_or, widen_enableBit hi, decide_eq_true hLow, Bool.or_true]
  · intro h
    apply BitVec.eq_of_getLsbD_eq
    intro i hi
    rw [BitVec.getLsbD_or, widen_enableBit hi]
    by_cases hLow : 31 ≤ i
    · rw [h i hLow hi, Bool.true_or]
    · rw [decide_eq_false hLow, Bool.or_false]

/-- Every pair of a run is bracketed exactly when bits 63:31 of the enable register are set before
the first. -/
theorem bracketing_iff (s : CounterState) :
    (∀ k, Bracketed (pair^[k] s)) ↔
      ∀ i, 31 ≤ i → i < 64 → s.pmu.pmcntenset.getLsbD i = true := by
  rw [← mask_or_iff]
  constructor
  · intro h
    exact (bracketed_iff s).mp (h 0)
  · intro h k
    rw [bracketed_iff, pairs_enable s k h]
    exact h

/-- No counter enabled before. -/
def idleCounters : CounterState where
  pmu :=
    { pmcr := 0, pmccntr := 0, pmccfiltr := 0, pmcntenset := 0
      reset_zero := BitVec.getLsbD_zero }
  controlRegBackup := 0
  ccFiltRegBackup := 0

/-- The counter stays enabled. -/
theorem idleCounters_not_bracketed : ¬ ∀ k, Bracketed (pair^[k] idleCounters) := by
  intro h
  have hEnable := (bracketed_iff idleCounters).mp (h 0)
  exact absurd hEnable (by decide)

end EnterpriseAcs.Mpam
