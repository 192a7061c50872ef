import EnterpriseAcs.Sdei.GicDriver

/-!
# Two drivers of the distributor

The MPAM suite has its own copies of the state query and of the clearing of an interrupt. They
pass the number of the interrupt's bit where the SDEI driver passes the bit itself.

* `mask_agree_iff`: when two disjoint masks clear and select the same of a word.
* `drivers_agree_iff`: the states in which the two drivers do the same to an interrupt.
-/

/-! ## The MPAM driver -/

namespace EnterpriseAcs.Mpam

open Machine

/-- `reg_shift`, the number of the id's bit in its word. -/
def regShift (id : BitVec 32) : BitVec 32 := id % 32

/-- `val_gic_get_interrupt_state` of the MPAM suite. -/
def valGicGetInterruptState (id : BitVec 32) (bus : GicBus) : Option (BitVec 32) := do
  let pending ← bus.mmioRead (wordAddress bus.gicdBase 0x200 id)
  let active ← bus.mmioRead (wordAddress bus.gicdBase 0x300 id)
  return Sdei.truth (regShift id &&& active ≠ 0 ∨ regShift id &&& pending ≠ 0)

/-- `val_gic_clear_interrupt` of the MPAM suite. -/
def valGicClearInterrupt (id : BitVec 32) (bus : GicBus) : GicBus :=
  let bus := bus.mmioWrite (wordAddress bus.gicdBase 0x280 id) (regShift id)
  bus.mmioWrite (wordAddress bus.gicdBase 0x380 id) (regShift id)

section Spis

variable (spi : Spi) (bus : GicBus)

theorem valGicGetInterruptState_spi :
    valGicGetInterruptState spi.id bus =
      some (Sdei.truth (regShift spi.id &&& bus.gicd.bank .active (spi.id.toNat / 32) ≠ 0 ∨
        regShift spi.id &&& bus.gicd.bank .pending (spi.id.toNat / 32) ≠ 0)) := by
  have hPending : bus.mmioRead (wordAddress bus.gicdBase 0x200 spi.id) =
      some (bus.gicd.bank .pending (spi.id.toNat / 32)) := mmioRead_set bus .pending spi
  have hActive : bus.mmioRead (wordAddress bus.gicdBase 0x300 spi.id) =
      some (bus.gicd.bank .active (spi.id.toNat / 32)) := mmioRead_set bus .active spi
  rw [valGicGetInterruptState, hPending, hActive]
  rfl

theorem valGicClearInterrupt_spi :
    valGicClearInterrupt spi.id bus =
      { bus with
        gicd := (bus.gicd.clear .pending (spi.id.toNat / 32) (regShift spi.id)).clear .active
          (spi.id.toNat / 32) (regShift spi.id) } := by
  have hPending : bus.mmioWrite (wordAddress bus.gicdBase 0x280 spi.id) (regShift spi.id) =
      { bus with gicd := bus.gicd.clear .pending (spi.id.toNat / 32) (regShift spi.id) } :=
    mmioWrite_clear bus .pending spi (regShift spi.id)
  rw [valGicClearInterrupt, hPending]
  exact mmioWrite_clear _ .active spi (regShift spi.id)

end Spis

end EnterpriseAcs.Mpam

namespace EnterpriseAcs.Suites

open Machine Sdei

/-! ## Masks -/

/-- The number of a bit does not have that bit set. -/
theorem regShift_and_idMask (id : BitVec 32) : Mpam.regShift id &&& idMask id = 0 := by
  have hLt : id.toNat % 32 < 2 ^ (id.toNat % 32) := Nat.lt_two_pow_self
  have hShift : (Mpam.regShift id).toNat = id.toNat % 32 := BitVec.toNat_umod
  rw [idMask_eq]
  apply BitVec.eq_of_getLsbD_eq
  intro j hj
  rw [BitVec.getLsbD_and, BitSet.getLsbD_mask (by omega)]
  by_cases h : j = id.toNat % 32
  · rw [BitVec.getLsbD, hShift, h, Nat.testBit_lt_two_pow hLt]
    simp
  · simp [h]

/-- Disjoint masks leave the same of a word when cleared in it exactly when the word has
neither. -/
theorem mask_agree_iff {n : Nat} {s m : BitVec n} (hDisjoint : s &&& m = 0) (word : BitVec n) :
    word &&& ~~~s = word &&& ~~~m ↔ word &&& (s ||| m) = 0 := by
  simp only [BitVec.eq_of_getLsbD_eq_iff, BitVec.getLsbD_and, BitVec.getLsbD_or,
    BitVec.getLsbD_not] at hDisjoint ⊢
  apply forall_congr'
  intro i
  apply forall_congr'
  intro hi
  have hBit := hDisjoint i hi
  revert hBit
  simp only [hi, decide_true, Bool.true_and]
  cases word.getLsbD i <;> cases s.getLsbD i <;> cases m.getLsbD i <;> simp

/-- A word without the bits of a mask is read as 0 through each part of the mask. -/
theorem and_eq_zero_of_or {n : Nat} {s m word : BitVec n} (h : word &&& (s ||| m) = 0) :
    s &&& word = 0 ∧ m &&& word = 0 := by
  simp only [BitVec.eq_of_getLsbD_eq_iff, BitVec.getLsbD_and, BitVec.getLsbD_or]
    at h ⊢
  refine ⟨fun i hi => ?_, fun i hi => ?_⟩
  · have hBit := h i hi
    revert hBit
    cases word.getLsbD i <;> cases s.getLsbD i <;> simp
  · have hBit := h i hi
    revert hBit
    cases word.getLsbD i <;> cases m.getLsbD i <;> simp

/-! ## When the drivers agree -/

/-- On this interrupt, the drivers answer the same, leave the same state, and clearing leaves
the interrupt neither pending nor active and the others as they were. -/
structure Agree (bus : GicBus) (spi : Spi) : Prop where
  status : ∃ status, valGicGetInterruptState spi.id false bus = some (acsSuccess, some status) ∧
    Mpam.valGicGetInterruptState spi.id bus = some status
  cleared : Mpam.valGicClearInterrupt spi.id bus = (valGicClearInterrupt spi.id bus).2
  sets : irqSets (Mpam.valGicClearInterrupt spi.id bus).gicd =
    { irqSets bus.gicd with
      pending := (irqSets bus.gicd).pending \ {spi.id.toNat}
      active := (irqSets bus.gicd).active \ {spi.id.toNat} }

/-- In the words of this interrupt, neither its own bit nor a bit that the binary digits of
its number name is pending or active. -/
def Quiet (bus : GicBus) (spi : Spi) : Prop :=
  bus.gicd.bank .pending (spi.id.toNat / 32) &&& (Mpam.regShift spi.id ||| idMask spi.id) = 0 ∧
    bus.gicd.bank .active (spi.id.toNat / 32) &&& (Mpam.regShift spi.id ||| idMask spi.id) = 0

instance (bus : GicBus) (spi : Spi) : Decidable (Quiet bus spi) :=
  inferInstanceAs (Decidable (_ ∧ _))

theorem quiet_of_cleared {bus : GicBus} {spi : Spi}
    (h : Mpam.valGicClearInterrupt spi.id bus = (valGicClearInterrupt spi.id bus).2) :
    Quiet bus spi := by
  rw [Mpam.valGicClearInterrupt_spi, valGicClearInterrupt_spi] at h
  have hBank := fun bank : Bank => congrArg (fun b => b.gicd.bank bank (spi.id.toNat / 32)) h
  have hPending := hBank .pending
  have hActive := hBank .active
  simp only [bank_clear, BitSet.clearWord, reduceCtorEq, if_true, if_false,
    Function.update_self] at hPending hActive
  have hDisjoint := regShift_and_idMask spi.id
  exact ⟨(mask_agree_iff hDisjoint _).mp hPending, (mask_agree_iff hDisjoint _).mp hActive⟩

theorem clear_congr {d : Distributor} {bank : Bank} {word : Nat} {s m : BitVec 32}
    (h : d.bank bank word &&& ~~~s = d.bank bank word &&& ~~~m) :
    d.clear bank word s = d.clear bank word m := by
  rw [Distributor.clear, Distributor.clear, BitSet.clearWord, BitSet.clearWord, h]

theorem cleared_of_quiet {bus : GicBus} {spi : Spi} (h : Quiet bus spi) :
    Mpam.valGicClearInterrupt spi.id bus = (valGicClearInterrupt spi.id bus).2 := by
  have hDisjoint := regShift_and_idMask spi.id
  have hPending := clear_congr ((mask_agree_iff hDisjoint _).mpr h.1)
  rw [Mpam.valGicClearInterrupt_spi, valGicClearInterrupt_spi, hPending]
  have hActive : ((bus.gicd.clear .pending (spi.id.toNat / 32) (idMask spi.id)).bank .active
      (spi.id.toNat / 32)) &&& (Mpam.regShift spi.id ||| idMask spi.id) = 0 := by
    simpa using h.2
  rw [clear_congr ((mask_agree_iff hDisjoint _).mpr hActive)]

theorem status_of_quiet {bus : GicBus} {spi : Spi} (h : Quiet bus spi) :
    valGicGetInterruptState spi.id false bus = some (acsSuccess, some 0) ∧
      Mpam.valGicGetInterruptState spi.id bus = some 0 := by
  obtain ⟨hPendingShift, hPendingMask⟩ := and_eq_zero_of_or h.1
  obtain ⟨hActiveShift, hActiveMask⟩ := and_eq_zero_of_or h.2
  rw [idMask_eq, BitSet.mask_and_eq_zero (by omega)] at hPendingMask hActiveMask
  rw [valGicGetInterruptState_spi, Mpam.valGicGetInterruptState_spi, hPendingShift, hActiveShift]
  simp [truth, hPendingMask, hActiveMask]

/-- **Agreement of the drivers.** For every state of the distributor and every shared interrupt
the drivers do the same exactly when the words of the interrupt have none of these bits. -/
theorem drivers_agree_iff (bus : GicBus) (spi : Spi) : Agree bus spi ↔ Quiet bus spi := by
  constructor
  · intro h
    exact quiet_of_cleared h.cleared
  · intro h
    have hCleared := cleared_of_quiet h
    refine ⟨⟨0, status_of_quiet h⟩, hCleared, ?_⟩
    rw [hCleared, valGicClearInterrupt_spi, irqSets_clear, irqSets_clear]

/-! ## A pending interrupt -/

/-- Interrupt 40 is pending. -/
def pendingBus : GicBus :=
  { idleBus with gicd := idleBus.gicd.set .pending 1 (idMask 40) }

/-- The MPAM driver does not see the interrupt, and does not clear it. -/
theorem drivers_disagree_pending :
    valGicGetInterruptState 40 false pendingBus = some (acsSuccess, some 1) ∧
      Mpam.valGicGetInterruptState 40 pendingBus = some 0 ∧
      (Mpam.valGicClearInterrupt 40 pendingBus).gicd.bank .pending 1 = idMask 40 ∧
      ¬ Agree pendingBus spi40 := by
  refine ⟨by decide, by decide, by decide, fun h => ?_⟩
  obtain ⟨status, hSdei, hMpam⟩ := h.status
  have hZero : Mpam.valGicGetInterruptState spi40.id pendingBus = some 0 := by decide
  have hOne : valGicGetInterruptState spi40.id false pendingBus = some (acsSuccess, some 1) := by
    decide
  rw [hZero] at hMpam
  rw [hOne] at hSdei
  cases hMpam
  revert hSdei
  decide

end EnterpriseAcs.Suites
