import EnterpriseAcs.Mpam.PeInfo

/-!
# Do the stacks of the secondary PEs stay inside their pool?

A secondary PE takes the position that its affinity has among the field maxima, and sets
its stack pointer that many slots above the base of the pool. The stack grows down, so it
uses the slot below: position 1 uses the first slot, and position zero one that lies before
the pool. The size of the pool is the product of the maxima plus one, times the size of a
slot, in 32 bits.

* `stackBytes_toNat`: the size of the pool.
* `frameInPool_iff`: when the slot below a stack pointer lies in the pool.
* `secondary_stacks_in_pool`: for which tables this is so for all secondary PEs.
-/

namespace EnterpriseAcs.Mpam

open Acpi Machine MixedRadix

/-- The stack pointer that `ModuleEntryPoint` computes on the PE whose `MPIDR_EL1` has the
affinity of `mpidr`. -/
def moduleEntryStackPointer (stack mpidrMax mpidr : BitVec 64) : BitVec 64 :=
  stack + corePos mpidr mpidrMax * 0x200#64

/-- Every byte of the `0x200` below `sp` is one of the `size` bytes from `stack` on. -/
def FrameInPool (stack : BitVec 64) (size : BitVec 32) (sp : BitVec 64) : Prop :=
  ∀ k < 0x200, (sp - 0x200#64 + BitVec.ofNat 64 k - stack).toNat < size.toNat

/-- The frames of the PEs that are powered on from the PE `boot`: those of the other PEs of
the table. -/
def StacksInPool (stack : BitVec 64) (setup : PeSetup) (boot : BitVec 64) : Prop :=
  ∀ e ∈ setup.table.peInfo, affinity e.mpidr ≠ affinity boot →
    FrameInPool stack setup.stackBytes (moduleEntryStackPointer stack setup.mpidrMax e.mpidr)

/-! ## The pool -/

theorem stackBytes_toNat (mpidr : BitVec 64) :
    (palAllocateSecondaryStack mpidr).toNat = (radices mpidr).prod % 2 ^ 23 * 0x200 := by
  have hWord : palAllocateSecondaryStack mpidr =
      BitVec.ofNat 32 ((radices mpidr).prod * 0x200) := by
    simp only [palAllocateSecondaryStack, sizeStackSecondaryPe, radices, affinity, List.map_cons,
      List.map_nil, List.prod_cons, List.prod_nil, BitVec.ofNat_mul, BitVec.ofNat_add,
      BitVec.ofNat_toNat, show 1#32 = 1 from rfl, show 0x200#32 = 0x200 from rfl]
    ring
  rw [hWord, BitVec.toNat_ofNat, show (2 : Nat) ^ 32 = 2 ^ 23 * 0x200 from rfl,
    Nat.mul_mod_mul_right]

/-! ## A frame -/

theorem frame_offset (stack : BitVec 64) (pos : BitVec 64) (k : Nat) :
    stack + pos * 0x200#64 - 0x200#64 + BitVec.ofNat 64 k - stack =
      pos * 0x200#64 - 0x200#64 + BitVec.ofNat 64 k := by
  ring

/-- Position zero uses the slot before the pool. -/
theorem frameInPool_iff {stack : BitVec 64} {size : BitVec 32} {pos : BitVec 64}
    (hPos : pos.toNat < 2 ^ 32) :
    FrameInPool stack size (stack + pos * 0x200#64) ↔
      pos.toNat ≠ 0 ∧ pos.toNat * 0x200 ≤ size.toNat := by
  have hSize := size.isLt
  have hOffset : ∀ k < 0x200, (pos * 0x200#64 - 0x200#64 + BitVec.ofNat 64 k).toNat =
      (2 ^ 64 + pos.toNat * 0x200 - 0x200 + k) % 2 ^ 64 := by
    intro k hk
    simp only [BitVec.toNat_add, BitVec.toNat_sub, BitVec.toNat_mul, BitVec.toNat_ofNat]
    omega
  unfold FrameInPool
  simp only [frame_offset]
  constructor
  · intro h
    have hFirst := h 0 (by omega)
    have hLast := h 0x1ff (by omega)
    rw [hOffset _ (by omega)] at hFirst hLast
    omega
  · rintro ⟨hne, hLe⟩ k hk
    rw [hOffset k hk]
    omega

theorem affinity_eq_zero_iff (mpidr mpidrMax : BitVec 64) :
    (corePos mpidr mpidrMax).toNat = 0 ↔ affinity mpidr = [0, 0, 0, 0] := by
  rw [corePos_toNat]
  simp [affinity, radices]

/-! ## The secondary PEs of a table -/

/-- A position that has a slot of its own in a pool for `numPe` PEs, whose size in bytes is
a 32-bit number. -/
def SlotInPool (numPe pos : Nat) : Prop := numPe < 2 ^ 23 ∨ pos ≤ numPe % 2 ^ 23

theorem stacksInPool_iff (madt : Madt) (stack boot : BitVec 64) :
    StacksInPool stack (peSetup madt) boot ↔
      ∀ m ∈ madt.mpidrs, affinity m ≠ affinity boot → affinity m ≠ [0, 0, 0, 0] ∧
        SlotInPool (radices (affMaxOf madt.mpidrs).mpidrMax).prod
          (value (affinity m) (radices (affMaxOf madt.mpidrs).mpidrMax)) := by
  have hFrame : ∀ m ∈ madt.mpidrs,
      FrameInPool stack (peSetup madt).stackBytes
          (moduleEntryStackPointer stack (peSetup madt).mpidrMax m) ↔
        affinity m ≠ [0, 0, 0, 0] ∧
          SlotInPool (radices (affMaxOf madt.mpidrs).mpidrMax).prod
            (value (affinity m) (radices (affMaxOf madt.mpidrs).mpidrMax)) := by
    intro m hm
    have hPos := corePos_toNat m (affMaxOf madt.mpidrs).mpidrMax
    have hLt := value_affinity_lt m (affMaxOf madt.mpidrs).mpidrMax
    have hValue := value_lt (affinity_valid hm)
    simp only [moduleEntryStackPointer, peSetup]
    rw [frameInPool_iff (by omega), Ne, affinity_eq_zero_iff, stackBytes_toNat, hPos, SlotInPool]
    refine and_congr_right fun _ => ?_
    constructor
    · intro h
      omega
    · rintro (h | h)
      · rw [Nat.mod_eq_of_lt h]
        omega
      · omega
  simp only [StacksInPool, peSetup] at hFrame ⊢
  rw [← peTable_mpidrs madt] at hFrame ⊢
  constructor
  · rintro h m hm hne
    obtain ⟨e, he, rfl⟩ := List.mem_map.mp hm
    exact (hFrame _ hm).mp (h e he hne)
  · intro h e he hne
    exact (hFrame _ (List.mem_map_of_mem he)).mpr (h _ (List.mem_map_of_mem he) hne)

/-- **Secondary stacks.** `pal_pe_create_info_table` terminates on every MADT, and whichever
PE boots, the frames of the other PEs lie in the pool exactly when none of them is 0.0.0.0
and each one's position fits the 32-bit size of the pool. -/
theorem secondary_stacks_in_pool (madt : Madt) (stack boot : BitVec 64) :
    ∃ setup, (∀ fuel, madt.entries.length ≤ fuel →
        palPeCreateInfoTable madt.mem fuel = some setup) ∧
      (StacksInPool stack setup boot ↔
        ∀ m ∈ madt.mpidrs, affinity m ≠ affinity boot → affinity m ≠ [0, 0, 0, 0] ∧
          SlotInPool (radices (affMaxOf madt.mpidrs).mpidrMax).prod
            (value (affinity m) (radices (affMaxOf madt.mpidrs).mpidrMax))) :=
  ⟨peSetup madt, fun _ => palPeCreateInfoTable_eq madt, stacksInPool_iff madt stack boot⟩

/-- Booted from PE 0.0.0.1, PE 0.0.0.0 uses the 512 bytes before the pool. -/
theorem secondary_stack_before_pool :
    ∃ setup, palPeCreateInfoTable (twoGiccMadt 0 1).mem 2 = some setup ∧
      ¬ StacksInPool 0x80000000 setup 0x80000001 := by
  refine ⟨peSetup (twoGiccMadt 0 1), palPeCreateInfoTable_eq _ (by decide), ?_⟩
  rw [stacksInPool_iff]
  intro h
  have hZero := (h 0 (by decide) (by decide)).1
  revert hZero
  decide

end EnterpriseAcs.Mpam
