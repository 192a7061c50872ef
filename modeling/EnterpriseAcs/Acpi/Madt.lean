import Mathlib.Data.BitVec
import Mathlib.Data.List.Basic
import Mathlib.Tactic.SplitIfs

/-!
# The MADT and the walk over its entries

The table is memory, read byte by byte: a 44-byte header whose `Length` field (offset 4)
is the length of the whole table, and after it the interrupt-controller structures, each
with its type in byte 0 and its own length in byte 1.

The PE and GIC table builders of both suites walk it with the same `do … while` loop,
which is `madtWalk`: one visit, then both the byte count and the entry pointer advance by
the length byte of the entry, until the 32-bit count reaches the table length. Nothing
stops the loop at a zero length byte, so it runs on fuel, and `none` says that the fuel
was used up.

`Madt` is a table that is well formed: its entries are laid out one after the other, each
one large enough for its type, and end exactly at the table length. On such a table the
walk visits exactly these entries, in order (`madtWalk_eq`).
-/

namespace EnterpriseAcs.Acpi

/-- Memory as bytes, addressed from the start of the table. -/
abbrev Memory := Nat → BitVec 8

/-- The little-endian number in `n` bytes. -/
def readLe (mem : Memory) (addr : Nat) : Nat → Nat
  | 0 => 0
  | n + 1 => (mem addr).toNat + 256 * readLe mem (addr + 1) n

def read32 (mem : Memory) (addr : Nat) : BitVec 32 := BitVec.ofNat 32 (readLe mem addr 4)
def read64 (mem : Memory) (addr : Nat) : BitVec 64 := BitVec.ofNat 64 (readLe mem addr 8)

/-! ## Fields -/

/-- `sizeof (EFI_ACPI_6_1_MULTIPLE_APIC_DESCRIPTION_TABLE_HEADER)`. -/
def madtHeaderSize : Nat := 44

/-- `gMadtHdr->Header.Length`. -/
def madtLength (mem : Memory) : BitVec 32 := read32 mem 4

def entryType (mem : Memory) (entry : Nat) : BitVec 8 := mem entry
def entryLength (mem : Memory) (entry : Nat) : BitVec 8 := mem (entry + 1)

/-- `EFI_ACPI_6_1_GIC`, the type of a GICC structure. -/
def gicType : BitVec 8 := 0x0B

/-- `EFI_ACPI_6_1_GICD`, `EFI_ACPI_6_1_GICR` and `EFI_ACPI_6_1_GIC_ITS`. -/
def gicdType : BitVec 8 := 0x0C
def gicrType : BitVec 8 := 0x0E
def gicItsType : BitVec 8 := 0x0F

/-- `sizeof (EFI_ACPI_6_1_GIC_STRUCTURE)`. -/
def gicStructureSize : Nat := 80

def gicPerformanceInterruptGsiv (mem : Memory) (entry : Nat) : BitVec 32 :=
  read32 mem (entry + 20)

def gicMpidr (mem : Memory) (entry : Nat) : BitVec 64 := read64 mem (entry + 68)

/-! ## The walk -/

/-- The loop of the table builders: `visit` is its body, `length` its byte count and
`entry` its entry pointer. -/
def madtWalk {σ : Type*} (mem : Memory) (visit : Nat → σ → σ) :
    Nat → BitVec 32 → Nat → σ → Option σ
  | 0, _, _, _ => none
  | fuel + 1, length, entry, s =>
    let s := visit entry s
    let length := length + (entryLength mem entry).setWidth 32
    let entry := entry + (entryLength mem entry).toNat
    if length < madtLength mem then madtWalk mem visit fuel length entry s else some s

/-- The walk from the first entry. -/
def madtScan {σ : Type*} (mem : Memory) (visit : Nat → σ → σ) (fuel : Nat) (s : σ) : Option σ :=
  madtWalk mem visit fuel (BitVec.ofNat 32 madtHeaderSize) madtHeaderSize s

/-! ## Well-formed tables -/

/-- The least length byte that a structure of this type may carry: the sizes of the GICC,
distributor, redistributor and ITS structures, and the two bytes that every entry has. -/
def minEntryLength (type : BitVec 8) : Nat :=
  if type = gicType then gicStructureSize
  else if type = gicdType then 24
  else if type = gicrType then 16
  else if type = gicItsType then 20
  else 2

/-- The entries from address `a` to address `b`: each one starts where the one before it
ends and is large enough for its type. -/
inductive EntriesAt (mem : Memory) : Nat → List Nat → Nat → Prop
  | nil (a : Nat) : EntriesAt mem a [] a
  | cons {a b : Nat} {entries : List Nat} :
      minEntryLength (entryType mem a) ≤ (entryLength mem a).toNat →
      EntriesAt mem (a + (entryLength mem a).toNat) entries b →
      EntriesAt mem a (a :: entries) b

/-- A well-formed MADT with the addresses of its entries. -/
structure Madt where
  mem : Memory
  entries : List Nat
  entries_ne_nil : entries ≠ []
  layout : EntriesAt mem madtHeaderSize entries (madtLength mem).toNat

theorem two_le_minEntryLength (type : BitVec 8) : 2 ≤ minEntryLength type := by
  unfold minEntryLength gicStructureSize
  split_ifs <;> omega

theorem minEntryLength_gic : minEntryLength gicType = 80 := rfl

theorem EntriesAt.le {mem : Memory} {a b : Nat} {entries : List Nat}
    (h : EntriesAt mem a entries b) : a ≤ b := by
  induction h with
  | nil => exact Nat.le_refl _
  | cons _ _ ih => omega

/-- Every entry takes at least two bytes. -/
theorem EntriesAt.two_bytes {mem : Memory} {a b : Nat} {entries : List Nat}
    (h : EntriesAt mem a entries b) : a + 2 * entries.length ≤ b := by
  induction h with
  | nil => simp
  | @cons a b entries hMin _ ih =>
    have := two_le_minEntryLength (entryType mem a)
    rw [List.length_cons]
    omega

/-- The GICC structures of a table take 80 bytes each. -/
theorem EntriesAt.gic_bytes {mem : Memory} {a b : Nat} {entries : List Nat}
    (h : EntriesAt mem a entries b) :
    a + gicStructureSize * entries.countP (fun e => entryType mem e = gicType) ≤ b := by
  induction h with
  | nil => simp
  | @cons a b entries hMin _ ih =>
    rw [List.countP_cons]
    by_cases hType : entryType mem a = gicType
    · rw [hType, minEntryLength_gic] at hMin
      simp only [hType, gicStructureSize, if_true, decide_true] at ih ⊢
      omega
    · simp only [hType, decide_false, Bool.false_eq_true, if_false, Nat.add_zero]
      omega

theorem madtWalk_of_entriesAt {σ : Type*} {mem : Memory} {visit : Nat → σ → σ}
    {a : Nat} {entries : List Nat}
    (h : EntriesAt mem a entries (madtLength mem).toNat) (hne : entries ≠ []) {fuel : Nat}
    (hFuel : entries.length ≤ fuel) (s : σ) :
    madtWalk mem visit fuel (BitVec.ofNat 32 a) a s =
      some (entries.foldl (fun s entry => visit entry s) s) := by
  generalize hb : (madtLength mem).toNat = b at h
  induction h generalizing fuel s with
  | nil => exact absurd rfl hne
  | @cons a b entries _ hRest ih =>
    obtain ⟨fuel, rfl⟩ : ∃ f, fuel = f + 1 := ⟨fuel - 1, by simp at hFuel; omega⟩
    have hLe := hRest.le
    have hLt : b < 2 ^ 32 := hb ▸ (madtLength mem).isLt
    have hNext : BitVec.ofNat 32 a + (entryLength mem a).setWidth 32 =
        BitVec.ofNat 32 (a + (entryLength mem a).toNat) := by
      apply BitVec.eq_of_toNat_eq
      simp
    have hCompare : BitVec.ofNat 32 (a + (entryLength mem a).toNat) < madtLength mem ↔
        a + (entryLength mem a).toNat < b := by
      rw [BitVec.lt_def, hb, BitVec.toNat_ofNat, Nat.mod_eq_of_lt (by omega)]
    simp only [madtWalk, hNext, hCompare]
    cases hRest with
    | nil => simp
    | cons hMin' hRest' =>
      have := two_le_minEntryLength (entryType mem (a + (entryLength mem a).toNat))
      have := hRest'.le
      rw [if_pos (by omega), ih (by simp) (by simpa using hFuel) _ hb]
      rfl

/-- On a well-formed table the walk terminates and visits the entries in order. -/
theorem madtScan_eq {σ : Type*} (madt : Madt) (visit : Nat → σ → σ) {fuel : Nat}
    (hFuel : madt.entries.length ≤ fuel) (s : σ) :
    madtScan madt.mem visit fuel s =
      some (madt.entries.foldl (fun s entry => visit entry s) s) :=
  madtWalk_of_entriesAt madt.layout madt.entries_ne_nil hFuel s

/-! ## GICC structures -/

/-- The GICC structures of a table, in table order. -/
def Madt.giccs (madt : Madt) : List Nat :=
  madt.entries.filter fun entry => entryType madt.mem entry = gicType

/-- Their MPIDRs. -/
def Madt.mpidrs (madt : Madt) : List (BitVec 64) := madt.giccs.map (gicMpidr madt.mem)

theorem Madt.giccs_bytes (madt : Madt) : 80 * madt.giccs.length < 2 ^ 32 := by
  have := madt.layout.gic_bytes
  have := (madtLength madt.mem).isLt
  rw [List.countP_eq_length_filter] at *
  unfold Madt.giccs
  simp only [gicStructureSize] at *
  omega

@[simp] theorem Madt.length_mpidrs (madt : Madt) : madt.mpidrs.length = madt.giccs.length := by
  simp [Madt.mpidrs]

/-! ## A small table -/

/-- A MADT with two GICC structures whose MPIDRs are the bytes `m0` and `m1`. -/
def twoGiccMemory (m0 m1 : BitVec 8) : Memory
  | 4 => 204
  | 44 => gicType
  | 45 => 80
  | 112 => m0
  | 124 => gicType
  | 125 => 80
  | 192 => m1
  | _ => 0

def twoGiccMadt (m0 m1 : BitVec 8) : Madt where
  mem := twoGiccMemory m0 m1
  entries := [44, 124]
  entries_ne_nil := by simp
  layout := .cons (Nat.le_refl 80) (.cons (Nat.le_refl 80) (.nil 204))

end EnterpriseAcs.Acpi
