import EnterpriseAcs.Sdei.Mailbox
import EnterpriseAcs.Sdei.PeInfo
import Mathlib.Data.Set.Basic

/-!
# Which PEs are the secondaries?

`pal_pe_create_info_table` powers on the entries from index 1, `pal_pe_clean_up` switches
off the entries from index 1, and `pal_pe_execute_on_all` serves every entry whose MPIDR
is not the masked MPIDR of the calling PE. Writing `b` for the entry of the boot PE:

* `poweredOn_eq`, `toldToPowerOff_eq`: the first two are the entries other than entry 0.
* `postedTo_eq`: the third is the entries with another MPIDR.
* `isSecondary_iff_postedTo`: these are the secondaries of the mailbox handshake.
* `secondarySetsAgree_iff`: all three are the entries other than `b` exactly when `b` is 0
  and the entry holds the masked MPIDR.
-/

namespace EnterpriseAcs.Sdei

open Acpi Machine

/-- The PEs of the table that `CPU_ON` was called for. -/
def poweredOn (setup : PeSetup) : Set Nat :=
  {i | ∃ e, setup.table.peInfo[i]? = some e ∧ e.mpidr ∈ setup.cpuOn}

/-- The PEs that `pal_pe_execute_on_all` posts to and waits for, called as
`val_pe_execute_on_all` calls it. -/
def postedTo (setup : PeSetup) (my : BitVec 64) : Set Nat :=
  {i | i ∈ palPeExecuteOnAllTargets setup.table setup.table.numOfPe my}

/-- The PEs that `pal_pe_clean_up` tells to power off. -/
def toldToPowerOff (setup : PeSetup) : Set Nat := {i | i ∈ palPeCleanUpTargets setup.table}

/-- The PEs of the table other than the boot PE `b`. -/
def otherPes (setup : PeSetup) (b : Nat) : Set Nat :=
  {i | i < setup.table.peInfo.length ∧ i ≠ b}

/-- The three sets are the PEs other than the boot PE. -/
structure SecondarySetsAgree (setup : PeSetup) (my : BitVec 64) (b : Nat) : Prop where
  poweredOn : poweredOn setup = otherPes setup b
  postedTo : postedTo setup my = otherPes setup b
  toldToPowerOff : toldToPowerOff setup = otherPes setup b

/-- Entry `b` describes the PE with this `MPIDR_EL1`: their affinity fields agree. -/
def DescribesPe (madt : Madt) (b : Nat) (mpidrEl1 : BitVec 64) : Prop :=
  ∃ m, madt.mpidrs[b]? = some m ∧ affinity m = affinity mpidrEl1

/-! ## The three loops on a MADT -/

theorem mem_tail_iff {α : Type*} {l : List α} (hNodup : l.Nodup) {i : Nat} {a : α}
    (h : l[i]? = some a) : a ∈ l.tail ↔ 1 ≤ i := by
  cases l with
  | nil => simp at h
  | cons x l =>
    cases i with
    | zero =>
      obtain rfl : x = a := by simpa using h
      simpa using (List.nodup_cons.mp hNodup).1
    | succ i =>
      have hMem : a ∈ l := List.mem_of_getElem? (by simpa using h)
      simpa using hMem

theorem poweredOn_eq {madt : Madt} (hDistinct : madt.mpidrs.Nodup) :
    poweredOn (peSetup madt) = {i | 1 ≤ i ∧ i < madt.giccs.length} := by
  ext i
  simp only [poweredOn, peSetup, Set.mem_ofPred_eq]
  constructor
  · rintro ⟨e, he, hOn⟩
    have hm : madt.mpidrs[i]? = some e.mpidr := by rw [← peTable_mpidr_at, he]; rfl
    have hi := (List.getElem?_eq_some_iff.mp he).1
    exact ⟨(mem_tail_iff hDistinct hm).mp hOn, by simpa using hi⟩
  · rintro ⟨hOne, hi⟩
    have he : (peTable madt).peInfo[i]? = some ((peTable madt).peInfo.get ⟨i, by simpa using hi⟩) :=
      List.getElem?_eq_getElem _
    refine ⟨_, he, (mem_tail_iff hDistinct ?_).mpr hOne⟩
    rw [← peTable_mpidr_at, he]
    rfl

theorem toldToPowerOff_eq (madt : Madt) :
    toldToPowerOff (peSetup madt) = {i | 1 ≤ i ∧ i < madt.giccs.length} := by
  ext i
  exact mem_fromSecond

/-- The `int` loop bound is the number of PEs. -/
theorem numPe_toInt (madt : Madt) :
    (peTable madt).numOfPe.toInt.toNat = madt.giccs.length := by
  have := madt.giccs_bytes
  have hNat := peTable_numOfPe_toNat madt
  rw [BitVec.toInt_eq_toNat_of_lt (by omega), hNat, Int.toNat_natCast]

theorem postedTo_eq (madt : Madt) (my : BitVec 64) :
    postedTo (peSetup madt) my = {i | i < madt.giccs.length ∧ madt.mpidrs[i]? ≠ some my} := by
  ext i
  simp [postedTo, palPeExecuteOnAllTargets, peSetup, numPe_toInt, peTable_mpidr_at]

/-- The PEs between which the mailbox handshake runs. -/
def PeSetup.peSet (setup : PeSetup) (my : BitVec 64) : PeSet where
  mpidrs := setup.table.peInfo.map PeInfoEntry.mpidr
  my := my

theorem isSecondary_iff_postedTo (madt : Madt) (my : BitVec 64) (i : Nat) :
    ((peSetup madt).peSet my).IsSecondary i ↔ i ∈ postedTo (peSetup madt) my := by
  rw [postedTo_eq, PeSet.IsSecondary, PeSetup.peSet, peSetup, peTable_mpidrs,
    madt.length_mpidrs]
  rfl

theorem otherPes_eq (madt : Madt) (b : Nat) :
    otherPes (peSetup madt) b = {i | i < madt.giccs.length ∧ i ≠ b} := by
  simp [otherPes, peSetup]

/-! ## Agreement -/

theorem secondarySetsAgree_iff {madt : Madt} (hDistinct : madt.mpidrs.Nodup) {b : Nat}
    (hb : b < madt.giccs.length) (my : BitVec 64) :
    SecondarySetsAgree (peSetup madt) my b ↔ b = 0 ∧ madt.mpidrs[0]? = some my := by
  constructor
  · rintro ⟨hOn, hPost, -⟩
    rw [poweredOn_eq hDistinct, otherPes_eq] at hOn
    rw [postedTo_eq, otherPes_eq] at hPost
    have hZero : b = 0 := by
      by_contra hne
      have : (0 : Nat) ∈ {i | i < madt.giccs.length ∧ i ≠ b} := ⟨by omega, by omega⟩
      rw [← hOn] at this
      exact absurd this.1 (by omega)
    subst b
    refine ⟨rfl, ?_⟩
    by_contra hne
    have : (0 : Nat) ∈ {i | i < madt.giccs.length ∧ madt.mpidrs[i]? ≠ some my} := ⟨hb, hne⟩
    rw [hPost] at this
    exact this.2 rfl
  · rintro ⟨rfl, hMy⟩
    have hRange : {i | 1 ≤ i ∧ i < madt.giccs.length} = {i | i < madt.giccs.length ∧ i ≠ 0} := by
      ext i
      simp only [Set.mem_ofPred_eq]
      omega
    constructor
    · rw [poweredOn_eq hDistinct, otherPes_eq, hRange]
    · rw [postedTo_eq, otherPes_eq]
      ext i
      simp only [Set.mem_ofPred_eq, and_congr_right_iff]
      intro hi
      refine not_congr ⟨fun h => ?_, fun h => h ▸ hMy⟩
      -- two entries with the caller's MPIDR are one entry
      have hLength : i < madt.mpidrs.length := by simpa using hi
      exact (List.getElem?_inj hLength hDistinct).mp (h.trans hMy.symm)
    · rw [toldToPowerOff_eq, otherPes_eq, hRange]

/-- **Secondary sets.** On every MADT with distinct MPIDRs, whichever entry describes the
boot PE, the PEs powered on, posted to and told to power off are the PEs other than the
boot PE exactly when its entry is the first one and holds its masked `MPIDR_EL1`. -/
theorem secondary_sets_agree (madt : Madt) (hDistinct : madt.mpidrs.Nodup) (b : Nat)
    (mpidrEl1 : BitVec 64) (hBoot : DescribesPe madt b mpidrEl1) :
    ∃ setup, (∀ fuel, madt.entries.length ≤ fuel →
        palPeCreateInfoTable madt.mem fuel = some setup) ∧
      (SecondarySetsAgree setup (myMpidr mpidrEl1) b ↔
        b = 0 ∧ madt.mpidrs[0]? = some (myMpidr mpidrEl1)) := by
  obtain ⟨m, hm, -⟩ := hBoot
  have hb : b < madt.giccs.length := by
    simpa using (List.getElem?_eq_some_iff.mp hm).1
  exact ⟨peSetup madt, fun _ => palPeCreateInfoTable_eq madt,
    secondarySetsAgree_iff hDistinct hb _⟩

/-- `secondary_sets_agree` with the boot PE 0.0.0.0 in the first of two entries. -/
theorem secondary_sets_agree_boot_first :
    ∃ setup, (∀ fuel, 2 ≤ fuel →
        palPeCreateInfoTable (twoGiccMadt 0 1).mem fuel = some setup) ∧
      SecondarySetsAgree setup (myMpidr 0x80000000) 0 := by
  obtain ⟨setup, hSetup, hIff⟩ := secondary_sets_agree (twoGiccMadt 0 1) (by decide) 0
    0x80000000 ⟨0, by decide, by decide⟩
  exact ⟨setup, hSetup, hIff.mpr (by decide)⟩

/-- The boot PE 0.0.0.1 in the second of two entries: PE 0 is posted to and waited for,
but only PE 1, the boot PE itself, was powered on. -/
theorem secondary_sets_boot_second :
    (twoGiccMadt 0 1).mpidrs.Nodup ∧ DescribesPe (twoGiccMadt 0 1) 1 0x80000001 ∧
      ∃ setup, palPeCreateInfoTable (twoGiccMadt 0 1).mem 2 = some setup ∧
        ¬ SecondarySetsAgree setup (myMpidr 0x80000001) 1 ∧
        0 ∈ postedTo setup (myMpidr 0x80000001) ∧ 0 ∉ poweredOn setup := by
  have hDistinct : (twoGiccMadt 0 1).mpidrs.Nodup := by decide
  refine ⟨hDistinct, ⟨1, by decide, by decide⟩, peSetup (twoGiccMadt 0 1),
    palPeCreateInfoTable_eq _ (by decide), ?_, ?_, ?_⟩
  · rw [secondarySetsAgree_iff hDistinct (by decide)]
    rintro ⟨h, -⟩
    cases h
  · rw [postedTo_eq]
    exact ⟨by decide, by decide⟩
  · rw [poweredOn_eq hDistinct]
    rintro ⟨h, -⟩
    cases h

end EnterpriseAcs.Sdei
