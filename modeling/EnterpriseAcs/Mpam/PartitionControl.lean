import Mathlib.Data.BitVec
import Mathlib.Logic.Function.Basic
import Mathlib.Tactic.IntervalCases

/-!
# Disabling the capacity and bandwidth limits

A test that measures one kind of partitioning first disables the others: a cache gets 100% of
its capacity, and a memory channel at most 100% and at least 0% of its bandwidth. A percentage
becomes a fixed-point fraction of as many bits as the component implements. The fraction
stands for its value plus one, so the code subtracts one, for 0% as well.

* `fraction_extremes`: the fractions for 100% and for 0%. They are equal.
* `configure_cfg`: a configuration sets one register of one partid.
* `limits_disabled_iff`: when the sequence leaves no limit and no guarantee.
-/

namespace EnterpriseAcs.Mpam

/-! ## A memory system component -/

/-- The configuration registers `MPAMCFG_CMAX`, `MPAMCFG_MBW_MIN` and `MPAMCFG_MBW_MAX`. -/
inductive CfgReg
  | cmax
  | mbwMin
  | mbwMax
  deriving DecidableEq, Repr

/-- The feature page of a component: the ID registers `MPAMF_IDR`, `MPAMF_CCAP_IDR` and
`MPAMF_MBW_IDR`, the selector `MPAMCFG_PART_SEL`, and for each partid its copy of each
configuration register. -/
structure Msc where
  idr : BitVec 32
  ccapIdr : BitVec 32
  mbwIdr : BitVec 32
  partSel : BitVec 32
  cfg : CfgReg → BitVec 16 → BitVec 32

/-- `val_mmio_write` to `REG_MPAMCFG_PART_SEL`. -/
def Msc.writePartSel (msc : Msc) (value : BitVec 32) : Msc := { msc with partSel := value }

/-- `val_mmio_write` to a configuration register: to the copy that `PARTID_SEL` selects. -/
def Msc.writeCfg (msc : Msc) (reg : CfgReg) (value : BitVec 32) : Msc :=
  { msc with
    cfg := Function.update msc.cfg reg
      (Function.update (msc.cfg reg) (msc.partSel.setWidth 16) value) }

/-! ## What a component supports -/

/-- The one-bit field of an ID register at `shift`. -/
def idrBit (reg : BitVec 32) (shift : Nat) : Bool := reg >>> shift &&& 1 = 1

def valCacheSupportsCcap (msc : Msc) : Bool := idrBit msc.idr 24

def valMemorySupportsPart (msc : Msc) : Bool := idrBit msc.idr 26

def valMemorySupportsMbwmin (msc : Msc) : Bool :=
  valMemorySupportsPart msc && idrBit msc.mbwIdr 10

def valMemorySupportsMbwmax (msc : Msc) : Bool :=
  valMemorySupportsPart msc && idrBit msc.mbwIdr 11

/-- The six-bit width field at bit 0 of an ID register. -/
def widthField (supported : Bool) (reg : BitVec 32) : BitVec 8 :=
  if supported then (reg &&& 0x3f).setWidth 8 else 0

def valCacheCmaxWidth (msc : Msc) : BitVec 8 := widthField (valCacheSupportsCcap msc) msc.ccapIdr

def valMemoryMbwminWidth (msc : Msc) : BitVec 8 := widthField (valMemorySupportsPart msc) msc.mbwIdr

def valMemoryMbwmaxWidth (msc : Msc) : BitVec 8 := widthField (valMemorySupportsPart msc) msc.mbwIdr

/-! ## Configuration -/

/-- `fixed_point_fraction`, a `uint16_t`. -/
def fixedPointFraction (width : BitVec 8) (percentage : BitVec 32) : BitVec 16 :=
  ((1#32 <<< width.toNat) * percentage / 100 - 1).setWidth 16

/-- The fraction at the top of the low 16 bits. -/
def fractionWord (width : BitVec 8) (percentage : BitVec 32) : BitVec 32 :=
  (fixedPointFraction width percentage).setWidth 32 <<< (16 - width.toNat) &&& 0xffff

/-- The body that the three functions share: select the partid and write its register. -/
def configure (reg : CfgReg) (width : BitVec 8) (partid : BitVec 16) (hardlim : BitVec 8)
    (percentage : BitVec 32) (msc : Msc) : Msc :=
  (msc.writePartSel (partid.setWidth 32)).writeCfg reg
    (hardlim.setWidth 32 <<< 31 ||| fractionWord width percentage)

def valCacheConfigureCcap (partid : BitVec 16) (hardlim : BitVec 8) (percentage : BitVec 32)
    (msc : Msc) : Msc :=
  configure .cmax (valCacheCmaxWidth msc) partid hardlim percentage msc

/-- The minimum has no hard limit bit. -/
def valMemoryConfigureMbwmin (partid : BitVec 16) (percentage : BitVec 32) (msc : Msc) : Msc :=
  configure .mbwMin (valMemoryMbwminWidth msc) partid 0 percentage msc

def valMemoryConfigureMbwmax (partid : BitVec 16) (hardlim : BitVec 8) (percentage : BitVec 32)
    (msc : Msc) : Msc :=
  configure .mbwMax (valMemoryMbwmaxWidth msc) partid hardlim percentage msc

/-! ## The disabling sequence -/

/-- The components by the base address of their feature page. -/
abbrev Mmio := BitVec 64 → Msc

/-- Disable CCAP partitioning, where the node supports it. -/
def disableCcap (partid : BitVec 16) (msc : Msc) : Msc :=
  if valCacheSupportsCcap msc then valCacheConfigureCcap partid 0 100 msc else msc

/-- Disable MBWMIN partitioning, where the node supports it. -/
def disableMbwmin (partid : BitVec 16) (msc : Msc) : Msc :=
  if valMemorySupportsMbwmin msc then valMemoryConfigureMbwmin partid 0 msc else msc

/-- Disable MBWMAX partitioning, where the node supports it. -/
def disableMbwmax (partid : BitVec 16) (msc : Msc) : Msc :=
  if valMemorySupportsMbwmax msc then valMemoryConfigureMbwmax partid 0 100 msc else msc

/-- The loop over a list of nodes, given by `val_node_hwreg_base`. -/
def forNodes (f : Msc → Msc) (bases : List (BitVec 64)) (mmio : Mmio) : Mmio :=
  bases.foldl (fun mmio base => Function.update mmio base (f (mmio base))) mmio

/-- The tests' sequence: the cache nodes, then the memory nodes. -/
def disableLimits (partid : BitVec 16) (caches memories : List (BitVec 64)) (mmio : Mmio) : Mmio :=
  forNodes (fun msc => disableMbwmax partid (disableMbwmin partid msc)) memories
    (forNodes (disableCcap partid) caches mmio)

/-! ## Registers -/

theorem configure_cfg (reg reg' : CfgReg) (width : BitVec 8) (partid partid' : BitVec 16)
    (hardlim : BitVec 8) (percentage : BitVec 32) (msc : Msc) :
    (configure reg width partid hardlim percentage msc).cfg reg' partid' =
      if reg' = reg ∧ partid' = partid then
        hardlim.setWidth 32 <<< 31 ||| fractionWord width percentage
      else msc.cfg reg' partid' := by
  have hSelect : (partid.setWidth 32).setWidth 16 = partid := by
    apply BitVec.eq_of_toNat_eq
    have := partid.isLt
    simp only [BitVec.toNat_setWidth]
    omega
  simp only [configure, Msc.writeCfg, Msc.writePartSel, hSelect]
  by_cases hReg : reg' = reg
  · subst hReg
    rw [Function.update_self]
    by_cases hPartid : partid' = partid
    · rw [hPartid, Function.update_self, if_pos ⟨rfl, rfl⟩]
    · rw [Function.update_of_ne hPartid, if_neg fun h => hPartid h.2]
  · rw [Function.update_of_ne hReg, if_neg fun h => hReg h.1]

/-! ## Fractions -/

/-- The fraction that a configuration register holds. -/
def fraction (width : BitVec 8) (reg : BitVec 32) : Nat :=
  (reg &&& 0xffff).toNat / 2 ^ (16 - width.toNat)

/-- The fractions for 100% and for 0% are both the largest of the width: 0 - 1 wraps. -/
theorem fraction_extremes {width : BitVec 8} (hPos : 1 ≤ width.toNat) (hLe : width.toNat ≤ 16) :
    fraction width (fractionWord width 100) = 2 ^ width.toNat - 1 ∧
      fraction width (fractionWord width 0) = 2 ^ width.toNat - 1 := by
  obtain ⟨n, hn, rfl⟩ : ∃ n, n = width.toNat ∧ width = BitVec.ofNat 8 n :=
    ⟨_, rfl, by simp⟩
  rw [← hn] at hPos hLe
  clear hn
  interval_cases n <;> decide

/-! ## What a step of the sequence sets -/

/-- The ID registers of two states of a component are the same. -/
structure SameId (msc msc' : Msc) : Prop where
  idr : msc'.idr = msc.idr
  ccapIdr : msc'.ccapIdr = msc.ccapIdr
  mbwIdr : msc'.mbwIdr = msc.mbwIdr

/-- The step writes the words that `word` gives, to the copy of `partid`. Which ones these are
depends on the ID registers alone, and the step keeps them. -/
structure Sets (partid : BitVec 16) (word : Msc → CfgReg → Option (BitVec 32))
    (step : Msc → Msc) : Prop where
  sameId : ∀ msc, SameId msc (step msc)
  wordCongr : ∀ {msc msc'}, SameId msc msc' → word msc' = word msc
  cfg : ∀ msc reg q, (step msc).cfg reg q =
    if q = partid then (word msc reg).getD (msc.cfg reg q) else msc.cfg reg q

section Steps

variable {partid : BitVec 16} {word word' : Msc → CfgReg → Option (BitVec 32)}
  {step step' : Msc → Msc}

theorem SameId.trans {a b c : Msc} (h : SameId a b) (h' : SameId b c) : SameId a c :=
  ⟨h'.idr.trans h.idr, h'.ccapIdr.trans h.ccapIdr, h'.mbwIdr.trans h.mbwIdr⟩

/-- Two steps, the second of which wins. -/
theorem Sets.comp (h : Sets partid word step) (h' : Sets partid word' step') :
    Sets partid (fun msc reg => (word' msc reg).or (word msc reg)) fun msc => step' (step msc) where
  sameId msc := (h.sameId msc).trans (h'.sameId (step msc))
  wordCongr hId := by
    funext reg
    rw [h.wordCongr hId, h'.wordCongr hId]
  cfg msc reg q := by
    rw [h'.cfg, h.cfg, h'.wordCongr (h.sameId msc)]
    split
    · cases word' msc reg <;> rfl
    · rfl

/-- The loop sets the words on the nodes of its list. -/
theorem forNodes_sets (h : Sets partid word step) (bases : List (BitVec 64)) (mmio : Mmio)
    (base : BitVec 64) :
    SameId (mmio base) (forNodes step bases mmio base) ∧
      ∀ reg q, (forNodes step bases mmio base).cfg reg q =
        if base ∈ bases ∧ q = partid then
          (word (mmio base) reg).getD ((mmio base).cfg reg q)
        else (mmio base).cfg reg q := by
  induction bases generalizing mmio with
  | nil => exact ⟨⟨rfl, rfl, rfl⟩, fun reg q => by simp [forNodes]⟩
  | cons a bases ih =>
    obtain ⟨hId, hCfg⟩ := ih (Function.update mmio a (step (mmio a)))
    by_cases hBase : base = a
    · subst hBase
      rw [Function.update_self] at hId hCfg
      refine ⟨(h.sameId _).trans hId, fun reg q => ?_⟩
      rw [forNodes, List.foldl_cons]
      rw [forNodes] at hCfg
      rw [hCfg, h.wordCongr (h.sameId _), h.cfg]
      by_cases hq : q = partid
      · simp only [hq, and_true, List.mem_cons_self, if_true]
        cases word (mmio base) reg <;> simp
      · simp [hq]
    · rw [Function.update_of_ne hBase] at hId hCfg
      refine ⟨hId, fun reg q => ?_⟩
      rw [forNodes, List.foldl_cons]
      rw [forNodes] at hCfg
      rw [hCfg]
      simp [hBase]

/-- A step that configures one register where the component supports it. -/
def controlWord (reg : CfgReg) (supported : Msc → Bool) (width : Msc → BitVec 8)
    (percentage : BitVec 32) (msc : Msc) (reg' : CfgReg) : Option (BitVec 32) :=
  if reg' = reg ∧ supported msc then some (fractionWord (width msc) percentage) else none

theorem sets_configure {reg : CfgReg} {supported : Msc → Bool} {width : Msc → BitVec 8}
    {percentage : BitVec 32}
    (hSupported : ∀ {msc msc'}, SameId msc msc' → supported msc' = supported msc)
    (hWidth : ∀ {msc msc'}, SameId msc msc' → width msc' = width msc) :
    Sets partid (controlWord reg supported width percentage) fun msc =>
      if supported msc then configure reg (width msc) partid 0 percentage msc else msc where
  sameId msc := by
    split <;> exact ⟨rfl, rfl, rfl⟩
  wordCongr hId := by
    funext reg'
    rw [controlWord, controlWord, hSupported hId, hWidth hId]
  cfg msc reg' q := by
    rw [controlWord]
    split
    · rename_i hSupp
      rw [configure_cfg]
      by_cases hReg : reg' = reg
      · simp [hReg, hSupp]
      · simp [hReg]
    · rename_i hSupp
      simp [hSupp]

end Steps

/-! ## The sequence -/

section Sequence

variable (partid : BitVec 16) {msc msc' : Msc}

theorem supports_congr (h : SameId msc msc') :
    valCacheSupportsCcap msc' = valCacheSupportsCcap msc ∧
      valMemorySupportsMbwmin msc' = valMemorySupportsMbwmin msc ∧
      valMemorySupportsMbwmax msc' = valMemorySupportsMbwmax msc := by
  simp only [valCacheSupportsCcap, valMemorySupportsMbwmin, valMemorySupportsMbwmax,
    valMemorySupportsPart, h.idr, h.mbwIdr, and_self]

theorem width_congr (h : SameId msc msc') :
    valCacheCmaxWidth msc' = valCacheCmaxWidth msc ∧
      valMemoryMbwminWidth msc' = valMemoryMbwminWidth msc ∧
      valMemoryMbwmaxWidth msc' = valMemoryMbwmaxWidth msc := by
  simp only [valCacheCmaxWidth, valMemoryMbwminWidth, valMemoryMbwmaxWidth, valCacheSupportsCcap,
    valMemorySupportsPart, h.idr, h.ccapIdr, h.mbwIdr, and_self]

theorem disableCcap_sets :
    Sets partid (controlWord .cmax valCacheSupportsCcap valCacheCmaxWidth 100)
      (disableCcap partid) :=
  sets_configure (fun h => (supports_congr h).1) fun h => (width_congr h).1

theorem disableMbwmin_sets :
    Sets partid (controlWord .mbwMin valMemorySupportsMbwmin valMemoryMbwminWidth 0)
      (disableMbwmin partid) :=
  sets_configure (fun h => (supports_congr h).2.1) fun h => (width_congr h).2.1

theorem disableMbwmax_sets :
    Sets partid (controlWord .mbwMax valMemorySupportsMbwmax valMemoryMbwmaxWidth 100)
      (disableMbwmax partid) :=
  sets_configure (fun h => (supports_congr h).2.2) fun h => (width_congr h).2.2

end Sequence

section Limits

variable {partid : BitVec 16} {caches memories : List (BitVec 64)} {mmio : Mmio}

theorem getD_ite {p : Prop} [Decidable p] (supported : Bool) (w old : BitVec 32) :
    (if p then (if supported then some w else none).getD old else old) =
      if p ∧ supported then w else old := by
  by_cases hp : p <;> cases supported <;> simp [hp]

/-- What the sequence leaves in a register. -/
theorem disableLimits_cfg (base : BitVec 64) (reg : CfgReg) (q : BitVec 16) :
    (disableLimits partid caches memories mmio base).cfg reg q =
      if q = partid then
        match reg with
        | .cmax =>
          if base ∈ caches ∧ valCacheSupportsCcap (mmio base) then
            fractionWord (valCacheCmaxWidth (mmio base)) 100
          else (mmio base).cfg .cmax q
        | .mbwMin =>
          if base ∈ memories ∧ valMemorySupportsMbwmin (mmio base) then
            fractionWord (valMemoryMbwminWidth (mmio base)) 0
          else (mmio base).cfg .mbwMin q
        | .mbwMax =>
          if base ∈ memories ∧ valMemorySupportsMbwmax (mmio base) then
            fractionWord (valMemoryMbwmaxWidth (mmio base)) 100
          else (mmio base).cfg .mbwMax q
      else (mmio base).cfg reg q := by
  obtain ⟨hId, hCaches⟩ := forNodes_sets (disableCcap_sets partid) caches mmio base
  obtain ⟨-, hMemories⟩ := forNodes_sets ((disableMbwmin_sets partid).comp
    (disableMbwmax_sets partid)) memories (forNodes (disableCcap partid) caches mmio) base
  rw [disableLimits, hMemories, hCaches]
  obtain ⟨-, hMin, hMax⟩ := supports_congr hId
  obtain ⟨-, hMinWidth, hMaxWidth⟩ := width_congr hId
  by_cases hq : q = partid
  · subst hq
    simp only [and_true, if_true]
    cases reg with
    | cmax =>
      simp only [controlWord, reduceCtorEq, false_and, if_false, Option.or_none, Option.getD_none,
        ite_self, true_and]
      exact getD_ite _ _ _
    | mbwMin =>
      simp only [controlWord, reduceCtorEq, false_and, if_false, Option.none_or, Option.getD_none,
        ite_self, true_and, hMin, hMinWidth]
      exact getD_ite _ _ _
    | mbwMax =>
      simp only [controlWord, reduceCtorEq, false_and, if_false, Option.or_none, Option.getD_none,
        ite_self, true_and, hMax, hMaxWidth]
      exact getD_ite _ _ _
  · simp only [hq, and_false, if_false]

/-- The fields of the nodes that are used have widths from 1 to 16. -/
structure WidthsImplemented (caches memories : List (BitVec 64)) (mmio : Mmio) : Prop where
  cache : ∀ base ∈ caches, valCacheSupportsCcap (mmio base) →
    1 ≤ (valCacheCmaxWidth (mmio base)).toNat ∧ (valCacheCmaxWidth (mmio base)).toNat ≤ 16
  memory : ∀ base ∈ memories,
    valMemorySupportsMbwmin (mmio base) ∨ valMemorySupportsMbwmax (mmio base) →
      1 ≤ (valMemoryMbwminWidth (mmio base)).toNat ∧ (valMemoryMbwminWidth (mmio base)).toNat ≤ 16

/-- No limit and no guarantee on `partid`: on the nodes that support the control, the largest
maxima and the minimum 0. The settings of the other partids are as before. -/
structure LimitsDisabled (partid : BitVec 16) (caches memories : List (BitVec 64))
    (before after : Mmio) : Prop where
  cmax : ∀ base ∈ caches, valCacheSupportsCcap (before base) →
    fraction (valCacheCmaxWidth (before base)) ((after base).cfg .cmax partid) =
      2 ^ (valCacheCmaxWidth (before base)).toNat - 1
  mbwMax : ∀ base ∈ memories, valMemorySupportsMbwmax (before base) →
    fraction (valMemoryMbwmaxWidth (before base)) ((after base).cfg .mbwMax partid) =
      2 ^ (valMemoryMbwmaxWidth (before base)).toNat - 1
  mbwMin : ∀ base ∈ memories, valMemorySupportsMbwmin (before base) →
    fraction (valMemoryMbwminWidth (before base)) ((after base).cfg .mbwMin partid) = 0
  others : ∀ base reg q, q ≠ partid → (after base).cfg reg q = (before base).cfg reg q

/-- The maxima are as they should be, and the minimum is the largest fraction as well. -/
theorem disableLimits_fractions (partid : BitVec 16)
    (hWidths : WidthsImplemented caches memories mmio) :
    (∀ base ∈ caches, valCacheSupportsCcap (mmio base) →
      fraction (valCacheCmaxWidth (mmio base))
        ((disableLimits partid caches memories mmio base).cfg .cmax partid) =
          2 ^ (valCacheCmaxWidth (mmio base)).toNat - 1) ∧
    (∀ base ∈ memories, valMemorySupportsMbwmax (mmio base) →
      fraction (valMemoryMbwmaxWidth (mmio base))
        ((disableLimits partid caches memories mmio base).cfg .mbwMax partid) =
          2 ^ (valMemoryMbwmaxWidth (mmio base)).toNat - 1) ∧
    ∀ base ∈ memories, valMemorySupportsMbwmin (mmio base) →
      fraction (valMemoryMbwminWidth (mmio base))
        ((disableLimits partid caches memories mmio base).cfg .mbwMin partid) =
          2 ^ (valMemoryMbwminWidth (mmio base)).toNat - 1 := by
  refine ⟨fun base hBase hSupp => ?_, fun base hBase hSupp => ?_, fun base hBase hSupp => ?_⟩
  · obtain ⟨hPos, hLe⟩ := hWidths.cache base hBase hSupp
    rw [disableLimits_cfg, if_pos rfl]
    dsimp only
    rw [if_pos ⟨hBase, hSupp⟩]
    exact (fraction_extremes hPos hLe).1
  · obtain ⟨hPos, hLe⟩ := hWidths.memory base hBase (Or.inr hSupp)
    rw [disableLimits_cfg, if_pos rfl]
    dsimp only
    rw [if_pos ⟨hBase, hSupp⟩]
    exact (fraction_extremes hPos hLe).1
  · obtain ⟨hPos, hLe⟩ := hWidths.memory base hBase (Or.inl hSupp)
    rw [disableLimits_cfg, if_pos rfl]
    dsimp only
    rw [if_pos ⟨hBase, hSupp⟩]
    exact (fraction_extremes hPos hLe).2

/-- **Disabled limits.** For all lists of nodes with widths from 1 to 16 and whatever their
registers held, the sequence leaves no limit and no guarantee on the partid exactly when none
of the memory nodes supports minimum bandwidth partitioning. -/
theorem limits_disabled_iff (partid : BitVec 16) (caches memories : List (BitVec 64))
    (mmio : Mmio) (hWidths : WidthsImplemented caches memories mmio) :
    LimitsDisabled partid caches memories mmio (disableLimits partid caches memories mmio) ↔
      ∀ base ∈ memories, valMemorySupportsMbwmin (mmio base) = false := by
  obtain ⟨hCmax, hMax, hMin⟩ := disableLimits_fractions partid hWidths
  constructor
  · intro h base hBase
    by_contra hSupp
    rw [Bool.not_eq_false] at hSupp
    have hZero := h.mbwMin base hBase hSupp
    rw [hMin base hBase hSupp] at hZero
    have hTwo := Nat.pow_le_pow_right (show 0 < 2 by omega)
      (hWidths.memory base hBase (Or.inl hSupp)).1
    omega
  · intro h
    refine ⟨hCmax, hMax, fun base hBase hSupp => ?_, fun base reg q hq => ?_⟩
    · rw [h base hBase] at hSupp
      cases hSupp
    · rw [disableLimits_cfg, if_neg hq]

/-! ## Two memory nodes -/

/-- A component with the partitioning features of these ID registers and 8-bit fractions,
whose limits are at 0. -/
def sampleMsc (idr mbwIdr : BitVec 32) : Msc where
  idr := idr
  ccapIdr := 8
  mbwIdr := mbwIdr
  partSel := 0
  cfg := fun _ _ => 0

/-- A cache with CCAP at 0 and a memory channel with MBWMAX, not MBWMIN, at 1. -/
def maxOnlyMmio : Mmio := fun base =>
  if base = 0 then sampleMsc 0x01000000 0 else sampleMsc 0x04000000 0x808

theorem limits_disabled_max_only :
    LimitsDisabled 3 [0] [1] maxOnlyMmio (disableLimits 3 [0] [1] maxOnlyMmio) := by
  apply (limits_disabled_iff 3 [0] [1] maxOnlyMmio ?_).mpr
  · exact List.forall_mem_singleton.mpr (by decide)
  · exact ⟨List.forall_mem_singleton.mpr (by decide), List.forall_mem_singleton.mpr (by decide)⟩

/-- A memory channel with MBWMIN. -/
def minMmio : Mmio := fun _ => sampleMsc 0x04000000 0x408

/-- The minimum for 0% is all ones, the largest guarantee that 8 bits express. -/
theorem limits_minimum_wraps :
    WidthsImplemented [] [0] minMmio ∧
      (disableLimits 3 [] [0] minMmio 0).cfg .mbwMin 3 = 0xff00 ∧
      ¬ LimitsDisabled 3 [] [0] minMmio (disableLimits 3 [] [0] minMmio) := by
  have hWord : (disableLimits 3 [] [0] minMmio 0).cfg .mbwMin 3 = 0xff00 := by decide
  refine ⟨⟨by simp, List.forall_mem_singleton.mpr (by decide)⟩, hWord, fun h => ?_⟩
  have hZero := h.mbwMin 0 List.mem_cons_self (by decide)
  rw [hWord] at hZero
  revert hZero
  decide

end Limits

end EnterpriseAcs.Mpam
