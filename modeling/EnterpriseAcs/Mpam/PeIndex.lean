import EnterpriseAcs.Machine.PeTable

/-!
# Finding a PE in the table

The MPAM suite goes from an index to an MPIDR when it powers a PE on, and the PE goes from
its `MPIDR_EL1` back to its index when it looks for its payload. The second step packs Aff3
into bits 31:24, so the two agree where Aff3 is zero.

* `Platform`: a PE table together with the PEs it describes.
* `ownIndex_eq`, `peWith_eq`: both ways lead back to the same PE.
* `platformOfMadt`: the table of a MADT is such a platform.
-/

namespace EnterpriseAcs.Mpam

open Machine Acpi

/-- `val_pe_get_mpid` on a PE with this `MPIDR_EL1`. -/
def valPeGetMpid (mpidrEl1 : BitVec 64) : BitVec 64 :=
  (mpidrEl1 >>> 32 &&& 0xff) <<< 24 ||| (mpidrEl1 &&& 0xffffff)

/-- `none` stands for a read past the table, which the check lets through at `num_of_pe`. -/
def valPeGetMpidIndex (table : PeInfoTable) (index : Nat) : Option (BitVec 64) :=
  if table.numOfPe.toNat < index then some 0xffffff
  else table.peInfo[index]?.map PeInfoEntry.mpidr

/-- The loop of `val_pe_get_index_mpid`; 0 is its failsafe value. -/
def indexLoop (mpid : BitVec 64) : List PeInfoEntry → BitVec 32
  | [] => 0
  | entry :: entries => if entry.mpidr = mpid then entry.peNum else indexLoop mpid entries

def valPeGetIndexMpid (table : PeInfoTable) (mpid : BitVec 64) : BitVec 32 :=
  indexLoop mpid (table.peInfo.take table.numOfPe.toNat)

/-- The affinity fields of an `MPIDR_EL1`, which is what a GICC structure holds. -/
def affinityBits (mpidrEl1 : BitVec 64) : BitVec 64 := mpidrEl1 &&& 0xff00ffffff

/-- A PE table with the PEs of the machine: entry `i` describes the PE whose `MPIDR_EL1` is
`mpidrEl1 i`. -/
structure Platform where
  table : PeInfoTable
  mpidrEl1 : Nat → BitVec 64
  count : table.numOfPe.toNat = table.peInfo.length
  numbered : ∀ (i : Nat) (entry : PeInfoEntry), table.peInfo[i]? = some entry →
    entry.peNum.toNat = i
  describes : ∀ (i : Nat) (entry : PeInfoEntry), table.peInfo[i]? = some entry →
    entry.mpidr = affinityBits (mpidrEl1 i)
  aff3_zero : ∀ (i : Nat) (entry : PeInfoEntry), table.peInfo[i]? = some entry →
    aff3 entry.mpidr = 0
  distinct : (table.peInfo.map PeInfoEntry.mpidr).Nodup

namespace Platform

variable (p : Platform)

def numPe : Nat := p.table.peInfo.length

/-- The PE that a `CPU_ON` call with this MPIDR is for. -/
def peWith (mpid : BitVec 64) : Option Nat :=
  (List.range p.numPe).find? fun i => affinityBits (p.mpidrEl1 i) = mpid

/-- The index that PE `i` computes for itself. -/
def ownIndex (i : Nat) : Nat :=
  (valPeGetIndexMpid p.table (valPeGetMpid (p.mpidrEl1 i))).toNat

end Platform

/-! ## MPIDRs without Aff3 -/

theorem high_eq_zero {m : BitVec 64} (h : aff3 m = 0) : m &&& 0xff00000000 = 0#64 := by
  apply BitVec.eq_of_getLsbD_eq
  intro i hi
  have hMask : (0xff00000000 : BitVec 64) = 0xff#64 <<< 32 := by decide
  have hBit : (aff3 m).getLsbD (i - 32) = false := by rw [h]; exact BitVec.getLsbD_zero
  by_cases hlt : i < 32
  · rw [hMask]
    simp only [BitVec.getLsbD_and, BitVec.getLsbD_shiftLeft, hlt, decide_true, Bool.not_true,
      Bool.and_false, Bool.false_and, BitVec.getLsbD_zero]
  · rw [aff3, BitVec.getLsbD_ushiftRight, show 32 + (i - 32) = i by omega] at hBit
    rwa [BitVec.getLsbD_zero]

theorem affinityBits_of_aff3 {m : BitVec 64} (h : aff3 (affinityBits m) = 0) :
    affinityBits m = m &&& 0xffffff := by
  have hMask : (0xff00ffffff : BitVec 64) = 0xff00000000 ||| 0xffffff := by decide
  have hHigh : m &&& 0xff00000000 = 0 := by
    have hZero := high_eq_zero h
    rw [affinityBits, BitVec.and_assoc] at hZero
    exact hZero
  rw [affinityBits, hMask, BitVec.and_or_distrib_left, hHigh]
  exact BitVec.zero_or

theorem valPeGetMpid_eq {m : BitVec 64} (h : aff3 (affinityBits m) = 0) :
    valPeGetMpid m = affinityBits m := by
  have hField : m >>> 32 &&& 0xff = 0 := by
    have hShift : aff3 (affinityBits m) = m >>> 32 &&& 0xff := by
      rw [aff3, affinityBits, BitVec.and_assoc, BitVec.ushiftRight_and_distrib]
      rfl
    rw [← hShift, h]
  rw [valPeGetMpid, hField, affinityBits_of_aff3 h]
  simp

/-! ## Both ways -/

theorem indexLoop_eq {mpid : BitVec 64} {entries : List PeInfoEntry} {i : Nat}
    {entry : PeInfoEntry} (hDistinct : (entries.map PeInfoEntry.mpidr).Nodup)
    (hEntry : entries[i]? = some entry) (hMpid : entry.mpidr = mpid) :
    indexLoop mpid entries = entry.peNum := by
  induction entries generalizing i with
  | nil => simp at hEntry
  | cons e entries ih =>
    rw [List.map_cons, List.nodup_cons] at hDistinct
    cases i with
    | zero =>
      obtain rfl : e = entry := by simpa using hEntry
      rw [indexLoop, if_pos hMpid]
    | succ i =>
      rw [List.getElem?_cons_succ] at hEntry
      have hMem : entry.mpidr ∈ entries.map PeInfoEntry.mpidr :=
        List.mem_map_of_mem (List.mem_of_getElem? hEntry)
      have hne : e.mpidr ≠ mpid := fun hEq => hDistinct.1 (hEq.trans hMpid.symm ▸ hMem)
      rw [indexLoop, if_neg hne, ih hDistinct.2 hEntry]

namespace Platform

variable {p : Platform} {i : Nat}

theorem entry_of_lt (hi : i < p.numPe) :
    ∃ entry, p.table.peInfo[i]? = some entry ∧ entry.mpidr = affinityBits (p.mpidrEl1 i) ∧
      entry.peNum.toNat = i ∧ aff3 (affinityBits (p.mpidrEl1 i)) = 0 := by
  obtain ⟨entry, hEntry⟩ : ∃ entry, p.table.peInfo[i]? = some entry :=
    ⟨_, List.getElem?_eq_getElem hi⟩
  have hMpidr := p.describes i entry hEntry
  exact ⟨entry, hEntry, hMpidr, p.numbered i entry hEntry, hMpidr ▸ p.aff3_zero i entry hEntry⟩

/-- A PE finds its own index. -/
theorem ownIndex_eq (hi : i < p.numPe) : p.ownIndex i = i := by
  obtain ⟨entry, hEntry, hMpidr, hNum, hAff3⟩ := entry_of_lt hi
  rw [ownIndex, valPeGetIndexMpid, p.count, List.take_length,
    indexLoop_eq p.distinct hEntry (hMpidr.trans (valPeGetMpid_eq hAff3).symm), hNum]

/-- The MPIDR of entry `i` is that of PE `i` and of no other. -/
theorem peWith_eq (hi : i < p.numPe) :
    (valPeGetMpidIndex p.table i).map p.peWith = some (some i) := by
  obtain ⟨entry, hEntry, hMpidr, -, -⟩ := entry_of_lt hi
  have hNot : ¬ p.table.numOfPe.toNat < i := by
    rw [p.count]
    exact Nat.not_lt.mpr (Nat.le_of_lt hi)
  rw [valPeGetMpidIndex, if_neg hNot, hEntry, Option.map_some, Option.map_some, Option.some_inj,
    peWith, List.find?_range_eq_some]
  refine ⟨by simpa using hMpidr.symm, by simpa using hi, fun j hji => ?_⟩
  obtain ⟨other, hOther, hOtherMpidr, -, -⟩ := entry_of_lt (p := p) (i := j) (by omega)
  simp only [Bool.not_eq_true', decide_eq_false_iff_not]
  intro hSame
  have hlt : j < (p.table.peInfo.map PeInfoEntry.mpidr).length := by
    rw [List.length_map]
    exact Nat.lt_trans hji hi
  have hEq : (p.table.peInfo.map PeInfoEntry.mpidr)[j]? =
      (p.table.peInfo.map PeInfoEntry.mpidr)[i]? := by
    simp only [List.getElem?_map, hOther, hEntry, Option.map_some, hOtherMpidr, hSame]
  exact absurd ((List.getElem?_inj hlt p.distinct).mp hEq) (by omega)

end Platform

/-- The table that the suite builds from a MADT, on the machine that the MADT describes. -/
def platformOfMadt (madt : Madt) (mpidrEl1 : Nat → BitVec 64)
    (hDescribes : ∀ i m, madt.mpidrs[i]? = some m → m = affinityBits (mpidrEl1 i))
    (hAff3 : ∀ m ∈ madt.mpidrs, aff3 m = 0) (hDistinct : madt.mpidrs.Nodup) : Platform where
  table := peTable madt
  mpidrEl1 := mpidrEl1
  count := (peTable_numOfPe_toNat madt).trans (peTable_length madt).symm
  numbered _ _ hEntry := peTable_numbered hEntry
  describes i entry hEntry := hDescribes i entry.mpidr (mem_mpidrs_of_entry hEntry)
  aff3_zero _ entry hEntry :=
    hAff3 entry.mpidr (List.mem_of_getElem? (mem_mpidrs_of_entry hEntry))
  distinct := (peTable_mpidrs madt).symm ▸ hDistinct

end EnterpriseAcs.Mpam
