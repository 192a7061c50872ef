import EnterpriseAcs.Sdei.PeInfo

/-!
# Do both sides of a mailbox use the same address?

The primary posts to `PeStackTop(i)`, a function of the table index. The secondary polls
the address that `ModuleEntryPoint` computes from its own affinity and `gMpidrMax`. Both
are 512-byte slots below the same stack base, so they agree exactly when the position of
the `i`-th GICC structure is `i` (and the `int` product of the macro does not overflow).

* `peStackTop_eq`, `peStackTop_overflow`: the macro in 64-bit terms.
* `mailboxAgreement_iff`: agreement for the whole table means that the MADT lists its GICC
  structures in odometer order, from 0.0.0.0 on and without gaps.
-/

namespace EnterpriseAcs.Sdei

open Acpi Machine MixedRadix

/-- `PeStackTop(i)` for an `int` index: the product is an `int`, sign-extended to the
width of the base address. -/
def peStackTop (stack : BitVec 64) (i : BitVec 32) : BitVec 64 :=
  stack + ((i - 1) * 0x200#32).signExtend 64

/-- The address that `ModuleEntryPoint` clears and hands to `CEntryPoint`, on the PE whose
`MPIDR_EL1` has the affinity of `mpidr`. -/
def moduleEntryMailbox (stack mpidrMax mpidr : BitVec 64) : BitVec 64 :=
  stack + (corePos mpidr mpidrMax * 0x200#64 - 0x200#64)

/-- For every PE of the table, the address the primary uses for it is the address it polls
itself, and no other PE polls it. -/
def MailboxAgreement (stack : BitVec 64) (setup : PeSetup) : Prop :=
  ∀ i e, setup.table.peInfo[i]? = some e →
    peStackTop stack (BitVec.ofNat 32 i) = moduleEntryMailbox stack setup.mpidrMax e.mpidr ∧
      ∀ j e', setup.table.peInfo[j]? = some e' → j ≠ i →
        peStackTop stack (BitVec.ofNat 32 i) ≠
          moduleEntryMailbox stack setup.mpidrMax e'.mpidr

/-! ## Slots -/

/-- The `k`-th slot, the one at `k * 512` above the slot of position zero. -/
def slot (stack : BitVec 64) (k : Nat) : BitVec 64 :=
  stack + (BitVec.ofNat 64 k * 0x200#64 - 0x200#64)

theorem slot_offset_toNat {k : Nat} (hk : k < 2 ^ 32) :
    (BitVec.ofNat 64 k * 0x200#64).toNat = k * 512 := by
  simp only [BitVec.toNat_mul, BitVec.toNat_ofNat]
  omega

theorem slot_injective {stack : BitVec 64} {k l : Nat} (hk : k < 2 ^ 32) (hl : l < 2 ^ 32)
    (h : slot stack k = slot stack l) : k = l := by
  have hProduct : BitVec.ofNat 64 k * 0x200#64 = BitVec.ofNat 64 l * 0x200#64 :=
    (BitVec.sub_left_inj _).mp ((BitVec.add_right_inj _).mp h)
  have hNat := congrArg BitVec.toNat hProduct
  rw [slot_offset_toNat hk, slot_offset_toNat hl] at hNat
  omega

theorem moduleEntryMailbox_eq (stack mpidrMax mpidr : BitVec 64) :
    moduleEntryMailbox stack mpidrMax mpidr =
      slot stack (value (affinity mpidr) (radices mpidrMax)) := by
  rw [slot, ← corePos_toNat, BitVec.ofNat_toNat, BitVec.setWidth_eq]
  rfl

theorem peStackTop_eq (stack : BitVec 64) {i : Nat} (hi : i ≤ 2 ^ 22) :
    peStackTop stack (BitVec.ofNat 32 i) = slot stack i := by
  unfold peStackTop slot
  congr 1
  cases i with
  | zero => rfl
  | succ k =>
    have hProduct : (BitVec.ofNat 32 (k + 1) - 1) * 0x200#32 = BitVec.ofNat 32 (k * 512) := by
      rw [BitVec.ofNat_add, BitVec.ofNat_mul]
      simp
    have hMsb : (BitVec.ofNat 32 (k * 512)).msb = false := by
      rw [BitVec.msb_eq_false_iff_two_mul_lt, BitVec.toNat_ofNat]
      omega
    rw [hProduct, BitVec.signExtend_eq_setWidth_of_msb_false hMsb]
    apply BitVec.eq_of_toNat_eq
    simp only [BitVec.toNat_setWidth, BitVec.toNat_ofNat, BitVec.toNat_sub, BitVec.toNat_mul]
    omega

/-- At this index the `int` product is `-2^31`. -/
theorem peStackTop_overflow (stack : BitVec 64) {k : Nat} (hk : k < 2 ^ 32) :
    peStackTop stack (BitVec.ofNat 32 (2 ^ 22 + 1)) ≠ slot stack k := by
  intro h
  have hOffset := (BitVec.add_right_inj _).mp h
  have hProduct : ((BitVec.ofNat 32 (2 ^ 22 + 1) - 1) * 0x200#32).signExtend 64 + 0x200#64 =
      BitVec.ofNat 64 k * 0x200#64 := by
    rw [hOffset, BitVec.sub_add_cancel]
  have hNat := congrArg BitVec.toNat hProduct
  rw [slot_offset_toNat hk] at hNat
  have hValue : (((BitVec.ofNat 32 (2 ^ 22 + 1) - 1) * 0x200#32).signExtend 64 +
      0x200#64).toNat = 0xFFFFFFFF80000200 := by decide
  omega

/-! ## Agreement -/

/-- The MADT lists its GICC structures by affinity like an odometer: the first one is
0.0.0.0, and each next one raises Aff0, or carries into the next field after a field has
reached its maximum over the table. -/
def OdometerOrder (madt : Madt) : Prop :=
  Counts (radices (affMaxOf madt.mpidrs).mpidrMax) (madt.mpidrs.map affinity)

theorem odometerOrder_iff (madt : Madt) :
    OdometerOrder madt ↔ ∀ i m, madt.mpidrs[i]? = some m →
      value (affinity m) (radices (affMaxOf madt.mpidrs).mpidrMax) = i := by
  have hValid : ∀ t ∈ madt.mpidrs.map affinity,
      Valid t (radices (affMaxOf madt.mpidrs).mpidrMax) := by
    intro t ht
    obtain ⟨m, hm, rfl⟩ := List.mem_map.mp ht
    exact affinity_valid hm
  rw [OdometerOrder, ← value_eq_index_iff hValid]
  simp only [List.getElem?_map, Option.map_eq_some_iff]
  constructor
  · intro h i m hm
    exact h i _ ⟨m, hm, rfl⟩
  · rintro h i t ⟨m, hm, rfl⟩
    exact h i m hm

theorem mpidr_of_entry {madt : Madt} {i : Nat} {e : PeInfoEntry}
    (h : (peTable madt).peInfo[i]? = some e) : madt.mpidrs[i]? = some e.mpidr := by
  rw [← peTable_mpidr_at, h]
  rfl

theorem entry_of_mpidr {madt : Madt} {i : Nat} {m : BitVec 64}
    (h : madt.mpidrs[i]? = some m) : ∃ e, (peTable madt).peInfo[i]? = some e ∧ e.mpidr = m := by
  rw [← peTable_mpidr_at] at h
  exact Option.map_eq_some_iff.mp h

/-- An index past the reach of the `int` product breaks the agreement. -/
theorem length_le_of_agreement {madt : Madt} {stack : BitVec 64}
    (h : MailboxAgreement stack (peSetup madt)) : madt.giccs.length ≤ 2 ^ 22 + 1 := by
  by_contra hLong
  have hm : madt.mpidrs[2 ^ 22 + 1]? = some (madt.mpidrs.get ⟨2 ^ 22 + 1, by simp; omega⟩) :=
    List.getElem?_eq_getElem _
  obtain ⟨e, he, -⟩ := entry_of_mpidr hm
  have hEq := (h _ e he).1
  rw [moduleEntryMailbox_eq] at hEq
  exact peStackTop_overflow stack (value_affinity_lt _ _) hEq

theorem mailboxAgreement_iff (madt : Madt) (stack : BitVec 64) :
    MailboxAgreement stack (peSetup madt) ↔
      OdometerOrder madt ∧ madt.giccs.length ≤ 2 ^ 22 + 1 := by
  have hIndex : ∀ {i m}, madt.mpidrs[i]? = some m → i < madt.giccs.length := by
    intro i m hm
    have := (List.getElem?_eq_some_iff.mp hm).1
    simpa using this
  constructor
  · intro h
    have hLength := length_le_of_agreement h
    refine ⟨(odometerOrder_iff madt).mpr ?_, hLength⟩
    intro i m hm
    obtain ⟨e, he, rfl⟩ := entry_of_mpidr hm
    have hi := hIndex hm
    have hEq := (h i e he).1
    rw [moduleEntryMailbox_eq, peStackTop_eq stack (by omega)] at hEq
    exact (slot_injective (by omega) (value_affinity_lt _ _) hEq).symm
  · rintro ⟨hOrder, hLength⟩ i e he
    rw [odometerOrder_iff] at hOrder
    have hi := hIndex (mpidr_of_entry he)
    have hPos := hOrder i _ (mpidr_of_entry he)
    refine ⟨?_, ?_⟩
    · rw [moduleEntryMailbox_eq, peStackTop_eq stack (by omega)]
      exact congrArg (slot stack) hPos.symm
    · intro j e' he' hne hEq
      have hPos' := hOrder j _ (mpidr_of_entry he')
      rw [moduleEntryMailbox_eq, peStackTop_eq stack (by omega)] at hEq
      have := slot_injective (by omega) (value_affinity_lt _ _) hEq
      exact hne (hPos'.symm.trans this.symm)

/-- **Mailbox addresses.** `pal_pe_create_info_table` terminates on every MADT, and the
two sides agree on every mailbox exactly when the GICC structures are listed in odometer
order and there are at most `2^22 + 1` of them. -/
theorem mailbox_address_agreement (madt : Madt) (stack : BitVec 64) :
    ∃ setup, (∀ fuel, madt.entries.length ≤ fuel →
        palPeCreateInfoTable madt.mem fuel = some setup) ∧
      (MailboxAgreement stack setup ↔
        OdometerOrder madt ∧ madt.giccs.length ≤ 2 ^ 22 + 1) :=
  ⟨peSetup madt, fun _ => palPeCreateInfoTable_eq madt, mailboxAgreement_iff madt stack⟩

/-- Two PEs 0.0.0.0 and 0.0.0.2: the primary posts to slot 1 for the second one, which
polls slot 2. -/
theorem mailbox_address_sparse :
    (twoGiccMadt 0 2).mpidrs.Nodup ∧
      ∃ setup, palPeCreateInfoTable (twoGiccMadt 0 2).mem 2 = some setup ∧
        ¬ MailboxAgreement 0x80000000 setup := by
  refine ⟨by decide, peSetup (twoGiccMadt 0 2), palPeCreateInfoTable_eq _ (by decide), ?_⟩
  intro h
  have hEq := (h 1 _ rfl).1
  revert hEq
  decide

end EnterpriseAcs.Sdei
