import EnterpriseAcs.Acpi.Madt

/-!
# The GIC information table

`pal_gic_create_info_table` walks the MADT like the PE table builder and keeps one entry for
each interrupt-controller structure it recognises, a count of each kind in the header, and
an end marker. The suites differ in where they find a redistributor: the MPAM suite in the
GICC structure of a PE, the SDEI suite in a GICR structure of its own.

* `Holds`: what a partly filled table says about the entries it holds.
* `palGicCreateInfoTable_holds`: on a well-formed MADT the finished table holds what its
  structures stand for, in MADT order, and the marker after it.
-/

namespace EnterpriseAcs.Machine

open Acpi

/-! ## Fields of the MADT structures -/

def gicPhysicalBaseAddress (mem : Memory) (entry : Nat) : BitVec 64 := read64 mem (entry + 32)
def gicrBaseAddress (mem : Memory) (entry : Nat) : BitVec 64 := read64 mem (entry + 60)

/-- `PhysicalBaseAddress` of a distributor structure. -/
def gicdPhysicalBaseAddress (mem : Memory) (entry : Nat) : BitVec 64 := read64 mem (entry + 8)

/-- `GicVersion` of a distributor structure. -/
def gicVersion (mem : Memory) (entry : Nat) : BitVec 8 := mem (entry + 20)

/-- `DiscoveryRangeBaseAddress` of a redistributor structure. -/
def discoveryRangeBaseAddress (mem : Memory) (entry : Nat) : BitVec 64 := read64 mem (entry + 4)

/-- `PhysicalBaseAddress` of an ITS structure. -/
def itsPhysicalBaseAddress (mem : Memory) (entry : Nat) : BitVec 64 := read64 mem (entry + 8)

/-! ## The table -/

def entryTypeCpuif : BitVec 32 := 0x1000
def entryTypeGicd : BitVec 32 := 0x1001
def entryTypeGicrd : BitVec 32 := 0x1002
def entryTypeGicits : BitVec 32 := 0x1003

/-- The type of the entry that indicates the end of data. -/
def entryTypeEnd : BitVec 32 := 0xff

/-- `GIC_INFO_ENTRY`. Nothing writes the base address of the end marker. -/
structure GicInfoEntry where
  type : BitVec 32
  base : Option (BitVec 64)
  deriving DecidableEq, Repr

/-- `GIC_INFO_TABLE`: its header, and the entries below the pointer `GicEntry`. -/
structure GicInfoTable where
  gicVersion : BitVec 32 := 0
  numGicd : BitVec 32 := 0
  numGicrd : BitVec 32 := 0
  numIts : BitVec 32 := 0
  gicInfo : List GicInfoEntry := []
  deriving DecidableEq, Repr

/-- Write an entry and advance `GicEntry`. -/
def GicInfoTable.put (t : GicInfoTable) (type : BitVec 32) (base : Option (BitVec 64)) :
    GicInfoTable :=
  { t with gicInfo := t.gicInfo ++ [⟨type, base⟩] }

/-- The branches of `pal_gic_create_info_table` that both suites have. -/
def visitCpuif (mem : Memory) (entry : Nat) (t : GicInfoTable) : GicInfoTable :=
  if gicPhysicalBaseAddress mem entry ≠ 0 then
    t.put entryTypeCpuif (some (gicPhysicalBaseAddress mem entry))
  else t

def visitGicd (mem : Memory) (entry : Nat) (t : GicInfoTable) : GicInfoTable :=
  if entryType mem entry = gicdType then
    { t.put entryTypeGicd (some (gicdPhysicalBaseAddress mem entry)) with
      gicVersion := (gicVersion mem entry).setWidth 32
      numGicd := t.numGicd + 1 }
  else t

def visitIts (mem : Memory) (entry : Nat) (t : GicInfoTable) : GicInfoTable :=
  if entryType mem entry = gicItsType then
    { t.put entryTypeGicits (some (itsPhysicalBaseAddress mem entry)) with
      numIts := t.numIts + 1 }
  else t

/-- A redistributor at this base address. -/
def GicInfoTable.putGicrd (t : GicInfoTable) (base : BitVec 64) : GicInfoTable :=
  { t.put entryTypeGicrd (some base) with numGicrd := t.numGicrd + 1 }

/-- The walk with the body `visit`, and the end marker after it. -/
def gicInfoTable (mem : Memory) (visit : Nat → GicInfoTable → GicInfoTable) (fuel : Nat) :
    Option GicInfoTable :=
  (madtScan mem visit fuel {}).map fun t => t.put entryTypeEnd none

/-! ## What a table holds -/

/-- How many entries of a list have this type. -/
def countType (type : BitVec 32) (entries : List GicInfoEntry) : Nat :=
  entries.countP fun e => e.type = type

/-- The table holds exactly these entries, none of them an end marker, and its header counts
them. -/
structure Holds (t : GicInfoTable) (entries : List GicInfoEntry) : Prop where
  info : t.gicInfo = entries
  gicd : t.numGicd = BitVec.ofNat 32 (countType entryTypeGicd entries)
  gicrd : t.numGicrd = BitVec.ofNat 32 (countType entryTypeGicrd entries)
  its : t.numIts = BitVec.ofNat 32 (countType entryTypeGicits entries)
  noEnd : ∀ e ∈ entries, e.type ≠ entryTypeEnd

theorem holds_init : Holds {} [] := ⟨rfl, rfl, rfl, rfl, by simp⟩

theorem countType_append_singleton (type : BitVec 32) (entries : List GicInfoEntry)
    (e : GicInfoEntry) :
    BitVec.ofNat 32 (countType type (entries ++ [e])) =
      BitVec.ofNat 32 (countType type entries) + if e.type = type then 1 else 0 := by
  unfold countType
  rw [List.countP_append, List.countP_singleton, BitVec.ofNat_add]
  split <;> simp_all

section Visits

variable {mem : Memory} {entry : Nat} {t u : GicInfoTable} {entries : List GicInfoEntry}

/-- One more entry, and the header counts of its type raised. -/
theorem Holds.put (h : Holds t entries) {type : BitVec 32} {base : Option (BitVec 64)}
    (hInfo : u.gicInfo = t.gicInfo ++ [⟨type, base⟩])
    (hGicd : u.numGicd = t.numGicd + if type = entryTypeGicd then 1 else 0)
    (hGicrd : u.numGicrd = t.numGicrd + if type = entryTypeGicrd then 1 else 0)
    (hIts : u.numIts = t.numIts + if type = entryTypeGicits then 1 else 0)
    (hEnd : type ≠ entryTypeEnd) : Holds u (entries ++ [⟨type, base⟩]) where
  info := by rw [hInfo, h.info]
  gicd := by rw [hGicd, h.gicd, countType_append_singleton]
  gicrd := by rw [hGicrd, h.gicrd, countType_append_singleton]
  its := by rw [hIts, h.its, countType_append_singleton]
  noEnd := by
    intro e he
    rcases List.mem_append.mp he with he | he
    · exact h.noEnd e he
    · rw [List.mem_singleton.mp he]
      exact hEnd

/-- The entries for a structure that is recognised under a condition. -/
def entryIf (c : Prop) [Decidable c] (type : BitVec 32) (base : BitVec 64) : List GicInfoEntry :=
  if c then [⟨type, some base⟩] else []

theorem entryIf_pos {c : Prop} [Decidable c] (h : c) (type : BitVec 32) (base : BitVec 64) :
    entryIf c type base = [⟨type, some base⟩] := if_pos h

theorem entryIf_neg {c : Prop} [Decidable c] (h : ¬ c) (type : BitVec 32) (base : BitVec 64) :
    entryIf c type base = [] := if_neg h

theorem holds_visitCpuif (mem : Memory) (entry : Nat) (h : Holds t entries) :
    Holds (visitCpuif mem entry t) (entries ++ entryIf (gicPhysicalBaseAddress mem entry ≠ 0)
      entryTypeCpuif (gicPhysicalBaseAddress mem entry)) := by
  unfold visitCpuif
  split
  · rename_i hBase
    rw [entryIf_pos hBase]
    exact h.put rfl (BitVec.add_zero _).symm (BitVec.add_zero _).symm (BitVec.add_zero _).symm
      (by decide)
  · rename_i hBase
    rwa [entryIf_neg hBase, List.append_nil]

theorem holds_visitGicd (h : Holds t entries) :
    Holds (visitGicd mem entry t) (entries ++ entryIf (entryType mem entry = gicdType)
      entryTypeGicd (gicdPhysicalBaseAddress mem entry)) := by
  unfold visitGicd
  split
  · rename_i hType
    rw [entryIf_pos hType]
    exact h.put rfl rfl (BitVec.add_zero _).symm (BitVec.add_zero _).symm (by decide)
  · rename_i hType
    rwa [entryIf_neg hType, List.append_nil]

theorem holds_visitIts (h : Holds t entries) :
    Holds (visitIts mem entry t) (entries ++ entryIf (entryType mem entry = gicItsType)
      entryTypeGicits (itsPhysicalBaseAddress mem entry)) := by
  unfold visitIts
  split
  · rename_i hType
    rw [entryIf_pos hType]
    exact h.put rfl (BitVec.add_zero _).symm (BitVec.add_zero _).symm rfl (by decide)
  · rename_i hType
    rwa [entryIf_neg hType, List.append_nil]

theorem holds_putGicrd (h : Holds t entries) (base : BitVec 64) :
    Holds (t.putGicrd base) (entries ++ [⟨entryTypeGicrd, some base⟩]) :=
  h.put rfl (BitVec.add_zero _).symm rfl (BitVec.add_zero _).symm (by decide)

end Visits

/-- A visit that adds `entriesOf` of each structure leaves a table that holds those of all
structures, in their order. -/
theorem holds_foldl {visit : Nat → GicInfoTable → GicInfoTable}
    {entriesOf : Nat → List GicInfoEntry}
    (hVisit : ∀ t entries entry, Holds t entries →
      Holds (visit entry t) (entries ++ entriesOf entry))
    (structures : List Nat) {t : GicInfoTable} {entries : List GicInfoEntry}
    (h : Holds t entries) :
    Holds (structures.foldl (fun t entry => visit entry t) t)
      (entries ++ structures.flatMap entriesOf) := by
  induction structures generalizing t entries with
  | nil => simpa using h
  | cons entry structures ih =>
    rw [List.foldl_cons, List.flatMap_cons, ← List.append_assoc]
    exact ih (hVisit t entries entry h)

/-- The finished table: the entries of all structures in MADT order and one end marker after
them, counted in the header. -/
structure Finished (t : GicInfoTable) (entries : List GicInfoEntry) : Prop where
  info : t.gicInfo = entries ++ [⟨entryTypeEnd, none⟩]
  gicd : t.numGicd.toNat = countType entryTypeGicd t.gicInfo
  gicrd : t.numGicrd.toNat = countType entryTypeGicrd t.gicInfo
  its : t.numIts.toNat = countType entryTypeGicits t.gicInfo
  oneEnd : countType entryTypeEnd t.gicInfo = 1

theorem length_flatMap_le {entriesOf : Nat → List GicInfoEntry}
    (hTwo : ∀ entry, (entriesOf entry).length ≤ 2) (structures : List Nat) :
    (structures.flatMap entriesOf).length ≤ 2 * structures.length := by
  induction structures with
  | nil => simp
  | cons entry structures ih =>
    have := hTwo entry
    rw [List.flatMap_cons, List.length_append, List.length_cons]
    omega

theorem countType_end {type : BitVec 32} (h : type ≠ entryTypeEnd) (entries : List GicInfoEntry) :
    countType type (entries ++ [⟨entryTypeEnd, none⟩]) = countType type entries := by
  unfold countType
  rw [List.countP_append, List.countP_singleton]
  simp [Ne.symm h]

theorem gicInfoTable_finished (madt : Madt) {visit : Nat → GicInfoTable → GicInfoTable}
    {entriesOf : Nat → List GicInfoEntry}
    (hVisit : ∀ t entries entry, Holds t entries →
      Holds (visit entry t) (entries ++ entriesOf entry))
    (hTwo : ∀ entry, (entriesOf entry).length ≤ 2) :
    ∃ t, (∀ fuel, madt.entries.length ≤ fuel → gicInfoTable madt.mem visit fuel = some t) ∧
      Finished t (madt.entries.flatMap entriesOf) := by
  have hHolds := holds_foldl hVisit madt.entries holds_init
  have hShort : ∀ type, countType type (madt.entries.flatMap entriesOf) < 2 ^ 32 := by
    intro type
    have hLe : countType type (madt.entries.flatMap entriesOf) ≤ _ := List.countP_le_length
    have := length_flatMap_le hTwo madt.entries
    have := madt.layout.two_bytes
    have := (madtLength madt.mem).isLt
    omega
  have hCount : ∀ {type : BitVec 32} {n : BitVec 32}, type ≠ entryTypeEnd →
      n = BitVec.ofNat 32 (countType type (madt.entries.flatMap entriesOf)) →
      n.toNat = countType type (madt.entries.flatMap entriesOf ++ [⟨entryTypeEnd, none⟩]) := by
    rintro type n hType rfl
    rw [countType_end hType, BitVec.toNat_ofNat, Nat.mod_eq_of_lt (hShort type)]
  rw [List.nil_append] at hHolds
  refine ⟨_, fun fuel hFuel => by rw [gicInfoTable, madtScan_eq madt visit hFuel]; rfl, ?_⟩
  constructor
  · exact congrArg (· ++ [⟨entryTypeEnd, none⟩]) hHolds.info
  all_goals simp only [GicInfoTable.put, hHolds.info]
  · exact hCount (by decide) hHolds.gicd
  · exact hCount (by decide) hHolds.gicrd
  · exact hCount (by decide) hHolds.its
  · have hNone : countType entryTypeEnd (madt.entries.flatMap entriesOf) = 0 := by
      unfold countType
      rw [List.countP_eq_zero]
      intro e he
      simpa using hHolds.noEnd e he
    unfold countType at hNone ⊢
    rw [List.countP_append, hNone, List.countP_singleton]
    simp

end EnterpriseAcs.Machine

/-! ## The two suites -/

namespace EnterpriseAcs.Mpam

open Acpi Machine

/-- The loop body of `pal_gic_create_info_table`. -/
def gicVisit (mem : Memory) (entry : Nat) (t : GicInfoTable) : GicInfoTable :=
  let t :=
    if entryType mem entry = gicType then
      let t := visitCpuif mem entry t
      if gicrBaseAddress mem entry ≠ 0 then t.putGicrd (gicrBaseAddress mem entry) else t
    else t
  visitIts mem entry (visitGicd mem entry t)

def palGicCreateInfoTable (mem : Memory) (fuel : Nat) : Option GicInfoTable :=
  gicInfoTable mem (gicVisit mem) fuel

/-- What a structure of the MADT stands for: a PE has a CPU interface and a redistributor
where their addresses are given. -/
def gicEntriesOf (mem : Memory) (entry : Nat) : List GicInfoEntry :=
  if entryType mem entry = gicType then
    entryIf (gicPhysicalBaseAddress mem entry ≠ 0) entryTypeCpuif
        (gicPhysicalBaseAddress mem entry) ++
      entryIf (gicrBaseAddress mem entry ≠ 0) entryTypeGicrd (gicrBaseAddress mem entry)
  else
    entryIf (entryType mem entry = gicdType) entryTypeGicd (gicdPhysicalBaseAddress mem entry) ++
      entryIf (entryType mem entry = gicItsType) entryTypeGicits (itsPhysicalBaseAddress mem entry)

end EnterpriseAcs.Mpam

namespace EnterpriseAcs.Sdei

open Acpi Machine

/-- The loop body of `pal_gic_create_info_table`. -/
def gicVisit (mem : Memory) (entry : Nat) (t : GicInfoTable) : GicInfoTable :=
  let t := if entryType mem entry = gicType then visitCpuif mem entry t else t
  let t :=
    if entryType mem entry = gicrType then t.putGicrd (discoveryRangeBaseAddress mem entry) else t
  visitIts mem entry (visitGicd mem entry t)

def palGicCreateInfoTable (mem : Memory) (fuel : Nat) : Option GicInfoTable :=
  gicInfoTable mem (gicVisit mem) fuel

/-- What a structure of the MADT stands for: redistributors have structures of their own. -/
def gicEntriesOf (mem : Memory) (entry : Nat) : List GicInfoEntry :=
  if entryType mem entry = gicType then
    entryIf (gicPhysicalBaseAddress mem entry ≠ 0) entryTypeCpuif
      (gicPhysicalBaseAddress mem entry)
  else if entryType mem entry = gicrType then
    [⟨entryTypeGicrd, some (discoveryRangeBaseAddress mem entry)⟩]
  else
    entryIf (entryType mem entry = gicdType) entryTypeGicd (gicdPhysicalBaseAddress mem entry) ++
      entryIf (entryType mem entry = gicItsType) entryTypeGicits (itsPhysicalBaseAddress mem entry)

end EnterpriseAcs.Sdei
