import EnterpriseAcs.Library.Transition
import EnterpriseAcs.Machine.Distributor
import EnterpriseAcs.Sdei.AppMain

/-!
# The interrupt driver of the SDEI suite

The driver enables, disables, generates, clears and queries one interrupt at a time, each time
with the bit of that interrupt alone in the value written. Private interrupts have their bits
in the redistributor of each PE instead.

* `step_refines`: one call on a shared interrupt is one step on three sets of ids.
* `driver_refines`: so is every sequence of calls.
-/

namespace EnterpriseAcs.Sdei

open Machine Transition

/-! ## The driver -/

/-- What the driver reads besides the distributor: the entries of `g_gic_info_table`,
`val_pe_get_num` and the service behind `pal_gic_install_isr`, which returns a status. -/
structure GicEnv where
  gicInfo : List GicInfoEntry
  peNum : BitVec 32
  palGicInstallIsr : BitVec 32 → BitVec 64 → GicBus → BitVec 32 × GicBus

/-- The base address of the first redistributor before the end marker, or 0. -/
def firstGicrdBase : List GicInfoEntry → BitVec 64
  | [] => 0
  | e :: rest =>
    if e.type = entryTypeEnd then 0
    else if e.type = entryTypeGicrd then e.base.getD 0
    else firstGicrdBase rest

/-- The address of a frame: two pages of 64 KB for each PE, the distance a `uint32_t`. -/
def frameAddress (first : BitVec 64) (index : Nat) : BitVec 64 :=
  first + (BitVec.ofNat 32 index * 2 * 0x10000).setWidth 64

/-- The loop that writes the mask to the redistributor of each PE. -/
def writeFrames (env : GicEnv) (first : BitVec 64) (mask : BitVec 32) (bus : GicBus) : GicBus :=
  (List.range env.peNum.toNat).foldl
    (fun bus index => bus.mmioWrite (frameAddress first index) mask) bus

/-- The two branches of `val_gic_generate_interrupt` and `val_gic_disable_interrupt`. -/
def writeIntr (env : GicEnv) (block : BitVec 64) (intId : BitVec 32) (bus : GicBus) :
    BitVec 32 × GicBus :=
  if 0 < intId ∧ intId < 32 then
    (acsSuccess,
      writeFrames env (wordAddress (firstGicrdBase env.gicInfo) block intId) (idMask intId) bus)
  else if 31 < intId ∧ intId < 1020 then
    (acsSuccess, bus.mmioWrite (wordAddress bus.gicdBase block intId) (idMask intId))
  else (acsError, bus)

def valGicGenerateInterrupt (env : GicEnv) (intId : BitVec 32) (bus : GicBus) :
    BitVec 32 × GicBus :=
  writeIntr env gicdIspendr intId bus

def valGicDisableInterrupt (env : GicEnv) (intId : BitVec 32) (bus : GicBus) :
    BitVec 32 × GicBus :=
  writeIntr env gicdIcenabler intId bus

def valGicInstallIsr (env : GicEnv) (intId : BitVec 32) (isr : BitVec 64) (bus : GicBus) :
    BitVec 32 × GicBus :=
  if 1019 < intId ∨ intId = 0 then (acsError, bus)
  else
    let (ret, bus) := env.palGicInstallIsr intId isr bus
    if ret ≠ 0 then (acsError, bus)
    else if 31 < intId then
      (acsSuccess, bus.mmioWrite (wordAddress bus.gicdBase gicdIsenabler intId) (idMask intId))
    else (acsSuccess, bus)

def valGicClearInterrupt (intId : BitVec 32) (bus : GicBus) : BitVec 32 × GicBus :=
  if 31 < intId ∧ intId < 1020 then
    let bus := bus.mmioWrite (wordAddress bus.gicdBase gicdIcpendr0 intId) (idMask intId)
    (acsSuccess, bus.mmioWrite (wordAddress bus.gicdBase gicdIcactiver0 intId) (idMask intId))
  else (acsError, bus)

/-- The value of a C condition. -/
def truth (p : Prop) [Decidable p] : BitVec 32 := if p then 1 else 0

/-- The status returned, and what is stored in `*status` unless the pointer is null. It is none
when a word lies outside the distributor's page. -/
def valGicGetInterruptState (intId : BitVec 32) (statusNull : Bool) (bus : GicBus) :
    Option (BitVec 32 × Option (BitVec 32)) :=
  if statusNull then some (acsError, none)
  else do
    let pending ← bus.mmioRead (wordAddress bus.gicdBase gicdIspendr intId)
    let active ← bus.mmioRead (wordAddress bus.gicdBase gicdIsactiver0 intId)
    return (acsSuccess, some (truth (idMask intId &&& active ≠ 0 ∨ idMask intId &&& pending ≠ 0)))

/-! ## Calls -/

/-- A call on a shared interrupt. -/
inductive GicCall
  | install (spi : Spi) (isr : BitVec 64)
  | disable (spi : Spi)
  | generate (spi : Spi)
  | clear (spi : Spi)
  | getState (spi : Spi)

/-- The interrupt that a call names. -/
def GicCall.spi : GicCall → Spi
  | .install spi _ => spi
  | .disable spi => spi
  | .generate spi => spi
  | .clear spi => spi
  | .getState spi => spi

/-- What a call answers: the status returned, and `*status` where it stores one. -/
abbrev GicAnswer := BitVec 32 × Option (BitVec 32)

def noStatus (r : BitVec 32 × GicBus) : Option (GicAnswer × GicBus) := some ((r.1, none), r.2)

/-- The driver's answer to a call and the registers after it. -/
def GicCall.perform (env : GicEnv) (bus : GicBus) : GicCall → Option (GicAnswer × GicBus)
  | .install spi isr => noStatus (valGicInstallIsr env spi.id isr bus)
  | .disable spi => noStatus (valGicDisableInterrupt env spi.id bus)
  | .generate spi => noStatus (valGicGenerateInterrupt env spi.id bus)
  | .clear spi => noStatus (valGicClearInterrupt spi.id bus)
  | .getState spi => (valGicGetInterruptState spi.id false bus).map fun answer => (answer, bus)

/-! ## Three sets of ids -/

/-- The purpose of the driver: interrupts are enabled, pending and active. -/
@[ext] structure IrqSets where
  enabled : Set Nat
  pending : Set Nat
  active : Set Nat

/-- The sets that the registers stand for. -/
def irqSets (d : Distributor) : IrqSets where
  enabled := BitSet.toSet (d.bank .enabled)
  pending := BitSet.toSet (d.bank .pending)
  active := BitSet.toSet (d.bank .active)

open Classical in
/-- A call adds its id to a set, removes it, or asks whether it is in pending or active. -/
noncomputable def IrqSets.call (s : IrqSets) : GicCall → GicAnswer × IrqSets
  | .install spi _ =>
    ((acsSuccess, none), { s with enabled := insert spi.id.toNat s.enabled })
  | .disable spi => ((acsSuccess, none), { s with enabled := s.enabled \ {spi.id.toNat} })
  | .generate spi => ((acsSuccess, none), { s with pending := insert spi.id.toNat s.pending })
  | .clear spi =>
    ((acsSuccess, none),
      { s with pending := s.pending \ {spi.id.toNat}, active := s.active \ {spi.id.toNat} })
  | .getState spi =>
    ((acsSuccess, some (truth (spi.id.toNat ∈ s.pending ∨ spi.id.toNat ∈ s.active))), s)

theorem irqSets_set (d : Distributor) (bank : Bank) (spi : Spi) :
    irqSets (d.set bank (spi.id.toNat / 32) (idMask spi.id)) =
      match bank with
      | .enabled => { irqSets d with enabled := insert spi.id.toNat (irqSets d).enabled }
      | .pending => { irqSets d with pending := insert spi.id.toNat (irqSets d).pending }
      | .active => { irqSets d with active := insert spi.id.toNat (irqSets d).active } := by
  have hSet := BitSet.toSet_setWord (show 0 < 32 by omega) (d.bank bank) spi.id.toNat
  rw [idMask_eq]
  cases bank <;> ext i <;> simp [irqSets, ← hSet]

theorem irqSets_clear (d : Distributor) (bank : Bank) (spi : Spi) :
    irqSets (d.clear bank (spi.id.toNat / 32) (idMask spi.id)) =
      match bank with
      | .enabled => { irqSets d with enabled := (irqSets d).enabled \ {spi.id.toNat} }
      | .pending => { irqSets d with pending := (irqSets d).pending \ {spi.id.toNat} }
      | .active => { irqSets d with active := (irqSets d).active \ {spi.id.toNat} } := by
  have hClear := BitSet.toSet_clearWord (show 0 < 32 by omega) (d.bank bank) spi.id.toNat
  rw [idMask_eq]
  cases bank <;> ext i <;> simp [irqSets, ← hClear]

/-! ## One call -/

/-- `pal_gic_install_isr` succeeds and does not touch the distributor. -/
structure PalInstalls (env : GicEnv) : Prop where
  succeeds : ∀ intId isr bus, (env.palGicInstallIsr intId isr bus).1 = 0
  gicd : ∀ intId isr bus, (env.palGicInstallIsr intId isr bus).2.gicd = bus.gicd

section Calls

variable {env : GicEnv} (spi : Spi) (bus : GicBus)

theorem valGicGenerateInterrupt_spi :
    valGicGenerateInterrupt env spi.id bus =
      (acsSuccess,
        { bus with gicd := bus.gicd.set .pending (spi.id.toNat / 32) (idMask spi.id) }) := by
  rw [valGicGenerateInterrupt, writeIntr, if_neg spi.not_private, if_pos spi.shared]
  exact congrArg _ (mmioWrite_set bus .pending spi _)

theorem valGicDisableInterrupt_spi :
    valGicDisableInterrupt env spi.id bus =
      (acsSuccess,
        { bus with gicd := bus.gicd.clear .enabled (spi.id.toNat / 32) (idMask spi.id) }) := by
  rw [valGicDisableInterrupt, writeIntr, if_neg spi.not_private, if_pos spi.shared]
  exact congrArg _ (mmioWrite_clear bus .enabled spi _)

theorem valGicInstallIsr_spi (hPal : PalInstalls env) (isr : BitVec 64) :
    (valGicInstallIsr env spi.id isr bus).1 = acsSuccess ∧
      (valGicInstallIsr env spi.id isr bus).2.gicd =
        bus.gicd.set .enabled (spi.id.toNat / 32) (idMask spi.id) := by
  have hRet := hPal.succeeds spi.id isr bus
  have hGicd := hPal.gicd spi.id isr bus
  have hWrite := mmioWrite_set (env.palGicInstallIsr spi.id isr bus).2 .enabled spi
    (idMask spi.id)
  rw [valGicInstallIsr, if_neg spi.not_invalid]
  simp only [hRet, ne_eq, not_true_eq_false, if_false, if_pos spi.shared.1]
  refine ⟨trivial, ?_⟩
  rw [← hGicd]
  exact congrArg GicBus.gicd hWrite

theorem valGicClearInterrupt_spi :
    valGicClearInterrupt spi.id bus =
      (acsSuccess,
        { bus with
          gicd := (bus.gicd.clear .pending (spi.id.toNat / 32) (idMask spi.id)).clear .active
            (spi.id.toNat / 32) (idMask spi.id) }) := by
  have hPending := mmioWrite_clear bus .pending spi (idMask spi.id)
  rw [Bank.clearBlock] at hPending
  rw [valGicClearInterrupt, if_pos spi.shared, hPending]
  exact congrArg _ (mmioWrite_clear _ .active spi _)

theorem valGicGetInterruptState_spi :
    valGicGetInterruptState spi.id false bus =
      some (acsSuccess, some (truth (BitSet.Mem (bus.gicd.bank .pending) spi.id.toNat ∨
        BitSet.Mem (bus.gicd.bank .active) spi.id.toNat))) := by
  have hPending : bus.mmioRead (wordAddress bus.gicdBase gicdIspendr spi.id) =
      some (bus.gicd.bank .pending (spi.id.toNat / 32)) := mmioRead_set bus .pending spi
  have hActive : bus.mmioRead (wordAddress bus.gicdBase gicdIsactiver0 spi.id) =
      some (bus.gicd.bank .active (spi.id.toNat / 32)) := mmioRead_set bus .active spi
  have hMask : ∀ bank, idMask spi.id &&& bus.gicd.bank bank (spi.id.toNat / 32) ≠ 0 ↔
      BitSet.Mem (bus.gicd.bank bank) spi.id.toNat := by
    intro bank
    rw [idMask_eq, Ne, BitSet.mask_and_eq_zero (by omega), not_not]
  simp only [valGicGetInterruptState, Bool.false_eq_true, if_false, hPending, hActive,
    Option.bind_eq_bind, Option.bind_some, hMask]
  simp only [truth, or_comm]
  rfl

/-- One call answers as the sets do, and the registers stand for the sets after it. -/
theorem step_refines (hPal : PalInstalls env) (call : GicCall) :
    ∃ bus', call.perform env bus = some (((irqSets bus.gicd).call call).1, bus') ∧
      irqSets bus'.gicd = ((irqSets bus.gicd).call call).2 := by
  cases call with
  | install spi isr =>
    obtain ⟨hStatus, hGicd⟩ := valGicInstallIsr_spi spi bus hPal isr
    refine ⟨(valGicInstallIsr env spi.id isr bus).2, ?_, ?_⟩
    · rw [GicCall.perform, noStatus, hStatus]
      rfl
    · rw [hGicd, irqSets_set]
      rfl
  | disable spi =>
    refine ⟨(valGicDisableInterrupt env spi.id bus).2, ?_, ?_⟩
    · rw [GicCall.perform, valGicDisableInterrupt_spi]
      rfl
    · rw [valGicDisableInterrupt_spi, irqSets_clear]
      rfl
  | generate spi =>
    refine ⟨(valGicGenerateInterrupt env spi.id bus).2, ?_, ?_⟩
    · rw [GicCall.perform, valGicGenerateInterrupt_spi]
      rfl
    · rw [valGicGenerateInterrupt_spi, irqSets_set]
      rfl
  | clear spi =>
    refine ⟨(valGicClearInterrupt spi.id bus).2, ?_, ?_⟩
    · rw [GicCall.perform, valGicClearInterrupt_spi]
      rfl
    · rw [valGicClearInterrupt_spi, irqSets_clear, irqSets_clear]
      rfl
  | getState spi =>
    refine ⟨bus, ?_, rfl⟩
    rw [GicCall.perform, valGicGetInterruptState_spi]
    simp only [Option.map_some, IrqSets.call, irqSets, BitSet.mem_toSet, truth]

end Calls

/-! ## Every sequence of calls -/

/-- Whether an id is enabled, pending and active in two states is the same. -/
def SameIrq (id : Nat) (s t : IrqSets) : Prop :=
  (id ∈ t.enabled ↔ id ∈ s.enabled) ∧ (id ∈ t.pending ↔ id ∈ s.pending) ∧
    (id ∈ t.active ↔ id ∈ s.active)

theorem SameIrq.trans {id : Nat} {s t u : IrqSets} (h : SameIrq id s t) (h' : SameIrq id t u) :
    SameIrq id s u :=
  ⟨h'.1.trans h.1, h'.2.1.trans h.2.1, h'.2.2.trans h.2.2⟩

/-- A call leaves every id but its own as it is. -/
theorem call_sameIrq (s : IrqSets) {call : GicCall} {id : Nat} (h : id ≠ call.spi.id.toNat) :
    SameIrq id s (s.call call).2 := by
  cases call <;> simp_all [SameIrq, IrqSets.call, GicCall.spi]

theorem specOutputs_sameIrq {calls : List GicCall} {id : Nat}
    (h : ∀ call ∈ calls, id ≠ call.spi.id.toNat) (s : IrqSets) :
    SameIrq id s (specOutputs IrqSets.call s calls).2 := by
  induction calls generalizing s with
  | nil => exact ⟨Iff.rfl, Iff.rfl, Iff.rfl⟩
  | cons call calls ih =>
    have hHead := call_sameIrq s (h call List.mem_cons_self)
    exact hHead.trans (ih (fun c hc => h c (List.mem_cons_of_mem call hc)) _)

/-- **The driver refines the sets.** From every state of the registers, every sequence of calls
on shared interrupts is answered as the sets answer it, and the registers stand for the sets
that result; an interrupt that no call names is in the state it was. -/
theorem driver_refines (env : GicEnv) (hPal : PalInstalls env) (bus : GicBus)
    (calls : List GicCall) :
    ∃ bus', outputs (GicCall.perform env) bus calls =
        some ((specOutputs IrqSets.call (irqSets bus.gicd) calls).1, bus') ∧
      irqSets bus'.gicd = (specOutputs IrqSets.call (irqSets bus.gicd) calls).2 ∧
      ∀ id, (∀ call ∈ calls, id ≠ call.spi.id.toNat) →
        SameIrq id (irqSets bus.gicd) (irqSets bus'.gicd) := by
  have hAnswers : ∃ bus', outputs (GicCall.perform env) bus calls =
        some ((specOutputs IrqSets.call (irqSets bus.gicd) calls).1, bus') ∧
      irqSets bus'.gicd = (specOutputs IrqSets.call (irqSets bus.gicd) calls).2 :=
    outputs_refine (fun bus : GicBus => irqSets bus.gicd)
      (fun bus call => step_refines bus hPal call) bus calls
  obtain ⟨bus', hRun, hSets⟩ := hAnswers
  refine ⟨bus', hRun, hSets, fun id hId => ?_⟩
  rw [hSets]
  exact specOutputs_sameIrq hId _

/-- A platform whose service only returns its status. -/
def plainEnv : GicEnv where
  gicInfo := []
  peNum := 1
  palGicInstallIsr _ _ bus := (0, bus)

theorem plainEnv_installs : PalInstalls plainEnv := ⟨fun _ _ _ => rfl, fun _ _ _ => rfl⟩

/-- A distributor at `0x2c000000` with every register 0. -/
def idleBus : GicBus where
  gicdBase := 0x2c000000
  gicd := ⟨fun _ _ => 0, fun _ => 0⟩
  elsewhere := []

def spi40 : Spi := ⟨40, by decide, by decide⟩

/-- Install, generate and query one interrupt. -/
def generateCalls : List GicCall := [.install spi40 0, .generate spi40, .getState spi40]

theorem driver_refines_generate :
    PalInstalls plainEnv ∧ ∃ bus', outputs (GicCall.perform plainEnv) idleBus generateCalls =
        some ((specOutputs IrqSets.call (irqSets idleBus.gicd) generateCalls).1, bus') ∧
      irqSets bus'.gicd = (specOutputs IrqSets.call (irqSets idleBus.gicd) generateCalls).2 ∧
      ∀ id, (∀ call ∈ generateCalls, id ≠ call.spi.id.toNat) →
        SameIrq id (irqSets idleBus.gicd) (irqSets bus'.gicd) :=
  ⟨plainEnv_installs, driver_refines plainEnv plainEnv_installs idleBus generateCalls⟩

example : (outputs (GicCall.perform plainEnv) idleBus generateCalls).map (fun r => r.1) =
    some [(acsSuccess, none), (acsSuccess, none), (acsSuccess, some 1)] := by decide

end EnterpriseAcs.Sdei
