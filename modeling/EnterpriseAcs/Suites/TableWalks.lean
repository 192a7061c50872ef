import EnterpriseAcs.Acpi.MadtReads
import EnterpriseAcs.Suites.InfoTables

/-!
# Do the walks over the MADT stay in the table?

Nothing checks the MADT before the PE and GIC table builders of the two suites walk it. They
read the first entry before they compare anything with the table length, take each length
byte as it is, and look at the fields of an entry wherever it ends.

* `peFootprint`, `mpam_gicFootprint` and `sdei_gicFootprint`: the bytes that a visit reads.
* `walks_robust_iff`: the memories on which all four builders return without reading beyond
  the table.
* `tables_eq_of_agree`: on these, the tables are a function of the bytes of the MADT.
-/

namespace EnterpriseAcs.Machine

open Acpi

/-- `MPIDR` and `PerformanceInterruptGsiv`, in a GICC structure. -/
def peFields (mem : Memory) (entry : Nat) : List Nat :=
  if entryType mem entry = gicType then bytesAt (entry + 68) 8 ++ bytesAt (entry + 20) 4 else []

/-- The addresses that the PE table builder of either suite reads. -/
def peReads (mem : Memory) (fuel : Nat) : Option (List Nat) :=
  (loggedScan mem (PeScan.visit mem) (peFields mem) fuel {}).map Prod.snd

/-- `PhysicalBaseAddress` and `GicVersion`, in a distributor structure. -/
def gicdFields (mem : Memory) (entry : Nat) : List Nat :=
  if entryType mem entry = gicdType then bytesAt (entry + 8) 8 ++ [entry + 20] else []

/-- `PhysicalBaseAddress`, in an ITS structure. -/
def itsFields (mem : Memory) (entry : Nat) : List Nat :=
  if entryType mem entry = gicItsType then bytesAt (entry + 8) 8 else []

def peNeed (type : BitVec 8) : Nat := if type = gicType then 76 else 2

end EnterpriseAcs.Machine

namespace EnterpriseAcs.Mpam

open Acpi Machine

/-- The fields read by the GIC table builder: `PhysicalBaseAddress` and `GICRBaseAddress` of
a GICC structure, and those of a distributor or an ITS. -/
def gicFields (mem : Memory) (entry : Nat) : List Nat :=
  (if entryType mem entry = gicType then bytesAt (entry + 32) 8 ++ bytesAt (entry + 60) 8
    else []) ++ (gicdFields mem entry ++ itsFields mem entry)

def gicReads (mem : Memory) (fuel : Nat) : Option (List Nat) :=
  (loggedScan mem (gicVisit mem) (gicFields mem) fuel {}).map Prod.snd

def gicNeed (type : BitVec 8) : Nat :=
  if type = gicType then 68 else if type = gicdType then 21
  else if type = gicItsType then 16 else 2

end EnterpriseAcs.Mpam

namespace EnterpriseAcs.Sdei

open Acpi Machine

/-- The fields read by the GIC table builder: `PhysicalBaseAddress` of a GICC structure,
`DiscoveryRangeBaseAddress` of a redistributor, and those of a distributor or an ITS. -/
def gicFields (mem : Memory) (entry : Nat) : List Nat :=
  (if entryType mem entry = gicType then bytesAt (entry + 32) 8 else []) ++
    ((if entryType mem entry = gicrType then bytesAt (entry + 4) 8 else []) ++
      (gicdFields mem entry ++ itsFields mem entry))

def gicReads (mem : Memory) (fuel : Nat) : Option (List Nat) :=
  (loggedScan mem (gicVisit mem) (gicFields mem) fuel {}).map Prod.snd

def gicNeed (type : BitVec 8) : Nat :=
  if type = gicType then 40 else if type = gicdType then 21
  else if type = gicrType then 12 else if type = gicItsType then 16 else 2

end EnterpriseAcs.Sdei

namespace EnterpriseAcs.Suites

open Acpi Machine

/-! ## What a visit reads -/

section Footprints

variable {mem mem' : Memory} {entry : Nat}

/-- The memories agree on the reads of an entry: on its type and on its fields. -/
theorem agree_entry {fields : Nat → List Nat}
    (h : ∀ a ∈ entryReads fields entry, mem a = mem' a) :
    entryType mem entry = entryType mem' entry ∧ ∀ a ∈ fields entry, mem a = mem' a :=
  ⟨h entry (by simp [entryReads]), fun a ha => h a (by simp [entryReads, ha])⟩

/-- The memories agree on bytes that are read under the condition `c`, and on those read
after them. -/
theorem agree_if {c : Prop} [Decidable c] {bytes rest : List Nat}
    (h : ∀ a ∈ (if c then bytes else []) ++ rest, mem a = mem' a) :
    (c → ∀ a ∈ bytes, mem a = mem' a) ∧ ∀ a ∈ rest, mem a = mem' a := by
  constructor
  · intro hc a ha
    apply h
    rw [if_pos hc]
    exact List.mem_append_left _ ha
  · exact fun a ha => h a (List.mem_append_right _ ha)

theorem agree_append {bytes rest : List Nat} (h : ∀ a ∈ bytes ++ rest, mem a = mem' a) :
    (∀ a ∈ bytes, mem a = mem' a) ∧ ∀ a ∈ rest, mem a = mem' a :=
  ⟨fun a ha => h a (List.mem_append_left _ ha), fun a ha => h a (List.mem_append_right _ ha)⟩

/-- The reads of an entry whose last byte is the `need`-th. -/
theorem reads_lt_iff {fields : Nat → List Nat} {need L : Nat}
    (hLast : entry + need ∈ entryReads fields entry)
    (hFields : ∀ a ∈ fields entry, a ≤ entry + need) (hTwo : 1 ≤ need) :
    (∀ a ∈ entryReads fields entry, a < L) ↔ entry + (need + 1) ≤ L := by
  constructor
  · intro h
    exact h _ hLast
  · intro h a ha
    rw [entryReads, List.mem_cons, List.mem_append, List.mem_singleton] at ha
    rcases ha with rfl | ha | rfl
    · omega
    · have := hFields a ha
      omega
    · omega

theorem no_reads_lt_iff {fields : Nat → List Nat} {L : Nat} (h : fields entry = []) :
    (∀ a ∈ entryReads fields entry, a < L) ↔ entry + 2 ≤ L := by
  apply reads_lt_iff
  · simp [entryReads]
  · simp [h]
  · omega

/-- A run of bytes that ends at the last byte needed. -/
theorem bytes_reads_lt_iff {fields : Nat → List Nat} {offset n L : Nat}
    (h : fields entry = bytesAt (entry + offset) (n + 1)) (hTwo : 1 ≤ offset + n) :
    (∀ a ∈ entryReads fields entry, a < L) ↔ entry + (offset + n + 1) ≤ L := by
  apply reads_lt_iff
  · rw [entryReads, h]
    simp
    omega
  · intro a ha
    rw [h, mem_bytesAt] at ha
    omega
  · exact hTwo

theorem gicd_reads_lt_iff {fields : Nat → List Nat} {L : Nat}
    (h : fields entry = bytesAt (entry + 8) 8 ++ [entry + 20]) :
    (∀ a ∈ entryReads fields entry, a < L) ↔ entry + 21 ≤ L := by
  apply reads_lt_iff
  · simp [entryReads, h]
  · intro a ha
    rw [h, List.mem_append, mem_bytesAt, List.mem_singleton] at ha
    omega
  · omega

/-! ### The PE table -/

theorem peVisit_congr (hType : entryType mem entry = entryType mem' entry)
    (hMpidr : entryType mem entry = gicType → gicMpidr mem entry = gicMpidr mem' entry)
    (hGsiv : entryType mem entry = gicType →
      gicPerformanceInterruptGsiv mem entry = gicPerformanceInterruptGsiv mem' entry)
    (s : PeScan) : PeScan.visit mem entry s = PeScan.visit mem' entry s := by
  rw [PeScan.visit, PeScan.visit, ← hType]
  split
  · rename_i hGic
    rw [PeScan.add, PeScan.add, hMpidr hGic, hGsiv hGic]
  · rfl

theorem peFootprint : Footprint PeScan.visit peFields peNeed where
  complete := by
    intro mem mem' entry h
    obtain ⟨hType, hFields⟩ := agree_entry h
    rw [peFields, ← List.append_nil (ite ..)] at hFields
    have hGic := fun hc => agree_append ((agree_if hFields).1 hc)
    refine ⟨peVisit_congr hType (fun hc => read64_congr (hGic hc).1)
      (fun hc => read32_congr (hGic hc).2), ?_⟩
    rw [peFields, peFields, hType]
  bounds := by
    intro mem entry L
    by_cases hGic : entryType mem entry = gicType
    · rw [peNeed, if_pos hGic]
      apply reads_lt_iff
      · simp [entryReads, peFields, hGic]
      · intro a ha
        simp only [peFields, hGic, if_true, List.mem_append, mem_bytesAt] at ha
        omega
      · omega
    · rw [peNeed, if_neg hGic]
      apply reads_lt_iff
      · simp [entryReads]
      · simp [peFields, hGic]
      · omega

/-! ### The GIC tables -/

theorem visitCpuif_congr
    (h : gicPhysicalBaseAddress mem entry = gicPhysicalBaseAddress mem' entry) (t : GicInfoTable) :
    visitCpuif mem entry t = visitCpuif mem' entry t := by
  rw [visitCpuif, visitCpuif, h]

theorem visitGicd_congr (hType : entryType mem entry = entryType mem' entry)
    (hBytes : entryType mem entry = gicdType → ∀ a ∈ bytesAt (entry + 8) 8 ++ [entry + 20],
      mem a = mem' a) (t : GicInfoTable) :
    visitGicd mem entry t = visitGicd mem' entry t := by
  rw [visitGicd, visitGicd, ← hType]
  split
  · rename_i hGicd
    obtain ⟨hBase, hVersion⟩ := agree_append (hBytes hGicd)
    have hBase : gicdPhysicalBaseAddress mem entry = gicdPhysicalBaseAddress mem' entry :=
      read64_congr hBase
    have hVersion : gicVersion mem entry = gicVersion mem' entry :=
      hVersion (entry + 20) (by simp)
    rw [hBase, hVersion]
  · rfl

theorem visitIts_congr (hType : entryType mem entry = entryType mem' entry)
    (hBytes : entryType mem entry = gicItsType → ∀ a ∈ bytesAt (entry + 8) 8, mem a = mem' a)
    (t : GicInfoTable) : visitIts mem entry t = visitIts mem' entry t := by
  rw [visitIts, visitIts, ← hType]
  split
  · rename_i hIts
    have hBase : itsPhysicalBaseAddress mem entry = itsPhysicalBaseAddress mem' entry :=
      read64_congr (hBytes hIts)
    rw [hBase]
  · rfl

theorem gicdItsFields_congr (hType : entryType mem entry = entryType mem' entry) :
    gicdFields mem entry = gicdFields mem' entry ∧ itsFields mem entry = itsFields mem' entry := by
  rw [gicdFields, gicdFields, itsFields, itsFields, hType]
  exact ⟨rfl, rfl⟩

theorem agree_gicdIts (h : ∀ a ∈ gicdFields mem entry ++ itsFields mem entry, mem a = mem' a) :
    (entryType mem entry = gicdType → ∀ a ∈ bytesAt (entry + 8) 8 ++ [entry + 20],
      mem a = mem' a) ∧
    (entryType mem entry = gicItsType → ∀ a ∈ bytesAt (entry + 8) 8, mem a = mem' a) := by
  rw [gicdFields] at h
  obtain ⟨hGicd, hRest⟩ := agree_if h
  rw [itsFields, ← List.append_nil (ite ..)] at hRest
  exact ⟨hGicd, (agree_if hRest).1⟩

theorem mpam_gicFootprint : Footprint Mpam.gicVisit Mpam.gicFields Mpam.gicNeed where
  complete := by
    intro mem mem' entry h
    obtain ⟨hType, hFields⟩ := agree_entry h
    obtain ⟨hGic, hRest⟩ := agree_if hFields
    obtain ⟨hGicd, hIts⟩ := agree_gicdIts hRest
    constructor
    · intro t
      rw [Mpam.gicVisit, Mpam.gicVisit, ← hType]
      simp only [visitIts_congr hType hIts, visitGicd_congr hType hGicd]
      split
      · rename_i hc
        obtain ⟨hBase, hGicr⟩ := agree_append (hGic hc)
        have hGicr : gicrBaseAddress mem entry = gicrBaseAddress mem' entry := read64_congr hGicr
        rw [visitCpuif_congr (read64_congr hBase), hGicr]
      · rfl
    · obtain ⟨hGicd', hIts'⟩ := gicdItsFields_congr hType
      rw [Mpam.gicFields, Mpam.gicFields, hType, hGicd', hIts']
  bounds := by
    intro mem entry L
    unfold Mpam.gicNeed
    split_ifs with hGic hGicd hIts
    · have hFields : Mpam.gicFields mem entry =
          bytesAt (entry + 32) 8 ++ bytesAt (entry + 60) 8 := by
        simp +decide [Mpam.gicFields, gicdFields, itsFields, hGic]
      apply reads_lt_iff
      · simp [entryReads, hFields]
      · intro a ha
        rw [hFields, List.mem_append, mem_bytesAt, mem_bytesAt] at ha
        omega
      · omega
    · have hFields : Mpam.gicFields mem entry = bytesAt (entry + 8) 8 ++ [entry + 20] := by
        simp +decide [Mpam.gicFields, gicdFields, itsFields, hGicd]
      exact gicd_reads_lt_iff hFields
    · have hFields : Mpam.gicFields mem entry = bytesAt (entry + 8) 8 := by
        simp +decide [Mpam.gicFields, gicdFields, itsFields, hIts]
      exact bytes_reads_lt_iff hFields (by omega)
    · have hFields : Mpam.gicFields mem entry = [] := by
        simp [Mpam.gicFields, gicdFields, itsFields, hGic, hGicd, hIts]
      exact no_reads_lt_iff hFields

theorem sdei_gicFootprint : Footprint Sdei.gicVisit Sdei.gicFields Sdei.gicNeed where
  complete := by
    intro mem mem' entry h
    obtain ⟨hType, hFields⟩ := agree_entry h
    obtain ⟨hGic, hFields⟩ := agree_if hFields
    obtain ⟨hGicr, hRest⟩ := agree_if hFields
    obtain ⟨hGicd, hIts⟩ := agree_gicdIts hRest
    have hCpuif : ∀ t, (if entryType mem entry = gicType then visitCpuif mem entry t else t) =
        if entryType mem entry = gicType then visitCpuif mem' entry t else t := by
      intro t
      split
      · rename_i hc
        exact visitCpuif_congr (read64_congr (hGic hc)) t
      · rfl
    constructor
    · intro t
      rw [Sdei.gicVisit, Sdei.gicVisit, ← hType]
      simp only [visitIts_congr hType hIts, visitGicd_congr hType hGicd, hCpuif]
      split
      · rename_i hc
        have hBase : discoveryRangeBaseAddress mem entry = discoveryRangeBaseAddress mem' entry :=
          read64_congr (hGicr hc)
        rw [hBase]
      · rfl
    · obtain ⟨hGicd', hIts'⟩ := gicdItsFields_congr hType
      rw [Sdei.gicFields, Sdei.gicFields, hType, hGicd', hIts']
  bounds := by
    intro mem entry L
    unfold Sdei.gicNeed
    split_ifs with hGic hGicd hGicr hIts
    · have hFields : Sdei.gicFields mem entry = bytesAt (entry + 32) 8 := by
        simp +decide [Sdei.gicFields, gicdFields, itsFields, hGic]
      exact bytes_reads_lt_iff hFields (by omega)
    · have hFields : Sdei.gicFields mem entry = bytesAt (entry + 8) 8 ++ [entry + 20] := by
        simp +decide [Sdei.gicFields, gicdFields, itsFields, hGicd]
      exact gicd_reads_lt_iff hFields
    · have hFields : Sdei.gicFields mem entry = bytesAt (entry + 4) 8 := by
        simp +decide [Sdei.gicFields, gicdFields, itsFields, hGicr]
      exact bytes_reads_lt_iff hFields (by omega)
    · have hFields : Sdei.gicFields mem entry = bytesAt (entry + 8) 8 := by
        simp +decide [Sdei.gicFields, gicdFields, itsFields, hIts]
      exact bytes_reads_lt_iff hFields (by omega)
    · have hFields : Sdei.gicFields mem entry = [] := by
        simp [Sdei.gicFields, gicdFields, itsFields, hGic, hGicd, hGicr, hIts]
      exact no_reads_lt_iff hFields

end Footprints

/-! ## The four builders -/

/-- The builder returns, and no byte that its walk has read is at or beyond the end of the
table. -/
def Robust {τ : Type*} (mem : Memory) (builder : Nat → Option τ)
    (reads : Nat → Option (List Nat)) : Prop :=
  ∃ fuel table log, builder fuel = some table ∧ reads fuel = some log ∧
    ∀ a ∈ log, a < (madtLength mem).toNat

/-- All four builders. -/
structure WalksRobust (mem : Memory) : Prop where
  mpamPe : Robust mem (Mpam.palPeCreateInfoTable mem) (peReads mem)
  mpamGic : Robust mem (Mpam.palGicCreateInfoTable mem) (Mpam.gicReads mem)
  sdeiPe : Robust mem (Sdei.palPeCreateInfoTable mem) (peReads mem)
  sdeiGic : Robust mem (Sdei.palGicCreateInfoTable mem) (Sdei.gicReads mem)

/-- The bytes that an entry of this type must have before the end of the table: as far as the
last field that one of the builders reads. -/
def madtNeed (type : BitVec 8) : Nat :=
  if type = gicType then 76 else if type = gicdType then 21
  else if type = gicrType then 12 else if type = gicItsType then 16 else 2

theorem madtNeed_eq :
    madtNeed = fun type => max (peNeed type) (max (Mpam.gicNeed type) (Sdei.gicNeed type)) := by
  funext type
  unfold madtNeed peNeed Mpam.gicNeed Sdei.gicNeed
  split_ifs <;> simp_all +decide

section Builders

variable {σ τ : Type*} {mem : Memory} {visit : Memory → Nat → σ → σ}
  {fields : Memory → Nat → List Nat} {need : BitVec 8 → Nat} {s : σ} {finish : σ → τ}

/-- A builder that finishes the state in which a walk ends. -/
theorem robust_iff (h : Footprint visit fields need) :
    Robust mem (fun fuel => (madtScan mem (visit mem) fuel s).map finish)
        (fun fuel => (loggedScan mem (visit mem) (fields mem) fuel s).map Prod.snd) ↔
      EntryChain mem need madtHeaderSize := by
  rw [← walkInTable_iff (h.bounds mem) s]
  simp only [Robust]
  constructor
  · rintro ⟨fuel, -, log, -, hLog, hBound⟩
    obtain ⟨⟨t, log'⟩, hRun, hEq⟩ := Option.map_eq_some_iff.mp hLog
    cases hEq
    exact ⟨fuel, t, log', hRun, hBound⟩
  · rintro ⟨fuel, t, log, hRun, hBound⟩
    refine ⟨fuel, finish t, log, ?_, by rw [hRun]; rfl, hBound⟩
    rw [← loggedScan_fst, hRun]
    rfl

/-- On a chain the builder depends on the bytes of the table only. -/
theorem builder_congr (h : Footprint visit fields need) (s : σ) (finish : σ → τ)
    (hChain : EntryChain mem need madtHeaderSize) {mem' : Memory}
    (hAgree : ∀ a < (madtLength mem).toNat, mem a = mem' a) :
    ∃ fuel table, (madtScan mem (visit mem) fuel s).map finish = some table ∧
      (madtScan mem' (visit mem') fuel s).map finish = some table := by
  obtain ⟨fuel, t, log, hRun, hBound⟩ := (walkInTable_iff (h.bounds mem) s).mpr hChain
  have hRun' := h.loggedScan_congr hRun fun a ha => hAgree a (hBound a ha)
  refine ⟨fuel, finish t, ?_, ?_⟩
  · rw [← loggedScan_fst, hRun]
    rfl
  · rw [← loggedScan_fst, hRun']
    rfl

end Builders

theorem chain_madtNeed_iff (mem : Memory) :
    EntryChain mem madtNeed madtHeaderSize ↔
      EntryChain mem peNeed madtHeaderSize ∧ EntryChain mem Mpam.gicNeed madtHeaderSize ∧
        EntryChain mem Sdei.gicNeed madtHeaderSize := by
  rw [madtNeed_eq, EntryChain.max_iff, EntryChain.max_iff]

/-- **Robust walks.** On any memory, the PE and GIC table builders of both suites return and
read no byte at or beyond the end of the table exactly when the entries form a chain: each
one has the bytes of its fields before the end of the table, no length byte before the last
entry is zero, and the last entry reaches the end without wrapping the byte count. -/
theorem walks_robust_iff (mem : Memory) :
    WalksRobust mem ↔ EntryChain mem madtNeed madtHeaderSize := by
  rw [chain_madtNeed_iff]
  constructor
  · intro h
    exact ⟨(robust_iff peFootprint).mp h.mpamPe, (robust_iff mpam_gicFootprint).mp h.mpamGic,
      (robust_iff sdei_gicFootprint).mp h.sdeiGic⟩
  · rintro ⟨hPe, hMpam, hSdei⟩
    exact ⟨(robust_iff peFootprint).mpr hPe, (robust_iff mpam_gicFootprint).mpr hMpam,
      (robust_iff peFootprint).mpr hPe, (robust_iff sdei_gicFootprint).mpr hSdei⟩

/-- On such a memory the four tables are a function of the bytes of the MADT. -/
theorem tables_eq_of_agree {mem mem' : Memory} (h : EntryChain mem madtNeed madtHeaderSize)
    (hAgree : ∀ a < (madtLength mem).toNat, mem a = mem' a) :
    (∃ fuel setup, Mpam.palPeCreateInfoTable mem fuel = some setup ∧
      Mpam.palPeCreateInfoTable mem' fuel = some setup) ∧
    (∃ fuel table, Mpam.palGicCreateInfoTable mem fuel = some table ∧
      Mpam.palGicCreateInfoTable mem' fuel = some table) ∧
    (∃ fuel setup, Sdei.palPeCreateInfoTable mem fuel = some setup ∧
      Sdei.palPeCreateInfoTable mem' fuel = some setup) ∧
    ∃ fuel table, Sdei.palGicCreateInfoTable mem fuel = some table ∧
      Sdei.palGicCreateInfoTable mem' fuel = some table := by
  obtain ⟨hPe, hMpam, hSdei⟩ := (chain_madtNeed_iff mem).mp h
  exact ⟨builder_congr peFootprint _ _ hPe hAgree, builder_congr mpam_gicFootprint _ _ hMpam hAgree,
    builder_congr peFootprint _ _ hPe hAgree, builder_congr sdei_gicFootprint _ _ hSdei hAgree⟩

theorem madtNeed_le (type : BitVec 8) : madtNeed type ≤ minEntryLength type := by
  unfold madtNeed minEntryLength gicStructureSize
  split_ifs <;> omega

theorem entryChain_of_entriesAt {mem : Memory} {a : Nat} {entries : List Nat}
    (h : EntriesAt mem a entries (madtLength mem).toNat) (hne : entries ≠ []) :
    EntryChain mem madtNeed a := by
  generalize hb : (madtLength mem).toNat = b at h
  induction h with
  | nil => exact absurd rfl hne
  | @cons a b entries hMin hRest ih =>
    have hLe := hRest.le
    have hNeed := madtNeed_le (entryType mem a)
    have hTwo := two_le_minEntryLength (entryType mem a)
    have hTable := (madtLength mem).isLt
    cases hRest with
    | nil => exact .last (by omega) (by omega) (by omega)
    | cons hMin' hRest' =>
      have := two_le_minEntryLength (entryType mem (a + (entryLength mem a).toNat))
      have := hRest'.le
      exact .next (by omega) (by omega) (by omega) (ih (by simp) hb)

/-- A well-formed MADT is walked inside its bounds. -/
theorem madt_entryChain (madt : Madt) : EntryChain madt.mem madtNeed madtHeaderSize :=
  entryChain_of_entriesAt madt.layout madt.entries_ne_nil

/-! ## Tables that are no chain -/

/-- Nothing stops the walk at a zero length byte. -/
theorem madtWalk_zero {σ : Type*} {mem : Memory} {visit : Nat → σ → σ} {length : BitVec 32}
    {entry : Nat} (hZero : entryLength mem entry = 0) (hLt : length < madtLength mem)
    (fuel : Nat) (s : σ) : madtWalk mem visit fuel length entry s = none := by
  induction fuel generalizing s with
  | zero => rfl
  | succ fuel ih =>
    have hStay : length + (0 : BitVec 8).setWidth 32 = length := BitVec.add_zero length
    rw [madtWalk, hZero, hStay, if_pos hLt]
    exact ih _

/-- A MADT whose first entry has the length 0. -/
def zeroLengthMemory : Memory := fun addr => if addr = 45 then 0 else twoGiccMemory 0 1 addr

/-- A MADT that ends after its header. -/
def headerOnlyMemory : Memory := fun addr => if addr = 4 then 44 else 0

/-- No amount of fuel lets the builders return on a zero length byte, and on a MADT without
entries their first read is beyond its end. -/
theorem walks_leave_table :
    (∀ fuel, Mpam.palPeCreateInfoTable zeroLengthMemory fuel = none) ∧
      ¬ WalksRobust zeroLengthMemory ∧ ¬ WalksRobust headerOnlyMemory := by
  have hNone : ∀ fuel, Mpam.palPeCreateInfoTable zeroLengthMemory fuel = none := by
    intro fuel
    have hZero : entryLength zeroLengthMemory madtHeaderSize = 0 := rfl
    have hLt : BitVec.ofNat 32 madtHeaderSize < madtLength zeroLengthMemory := by decide
    rw [Mpam.palPeCreateInfoTable, peScan, madtScan, madtWalk_zero hZero hLt]
    rfl
  refine ⟨hNone, ?_, ?_⟩
  · intro h
    obtain ⟨fuel, setup, -, hSome, -⟩ := h.mpamPe
    rw [hNone fuel] at hSome
    cases hSome
  · intro h
    obtain ⟨fuel, -, log, -, hLog, hBound⟩ := h.mpamPe
    obtain ⟨⟨t, log'⟩, hRun, hEq⟩ := Option.map_eq_some_iff.mp hLog
    cases hEq
    cases fuel with
    | zero => cases hRun
    | succ fuel =>
      have hFirst := hBound 44 (mem_log hRun 44 (by decide))
      exact absurd hFirst (by decide)

end EnterpriseAcs.Suites
