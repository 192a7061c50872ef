import EnterpriseAcs.Acpi.Madt

/-!
# The GTDT and the HEST

These two tables give the number of their entries, and the loops over them are
`while (num_of_entries)` and `for (i = 0; i < ErrorSourceCount; i++)`: `countedWalk`, which
returns on every memory. They differ in how they get from one entry to the next. The GTDT
loops add the length field of the entry. The HEST loop adds the size of a structure, and for
version 2 structures the size is scaled once more by the pointer arithmetic.
-/

namespace EnterpriseAcs.Acpi

def read16 (mem : Memory) (addr : Nat) : BitVec 16 := BitVec.ofNat 16 (readLe mem addr 2)

/-! ## Walks over a given number of entries -/

/-- Visit `n` entries from `entry` on, each followed by the one at `next`. -/
def countedWalk {σ : Type*} (next : Nat → Nat) (visit : Nat → σ → σ) : Nat → Nat → σ → σ
  | 0, _, s => s
  | n + 1, entry, s => countedWalk next visit n (next entry) (visit entry s)

/-- The addresses of the entries visited. -/
def countedEntries (next : Nat → Nat) : Nat → Nat → List Nat
  | 0, _ => []
  | n + 1, entry => entry :: countedEntries next n (next entry)

theorem countedWalk_eq {σ : Type*} (next : Nat → Nat) (visit : Nat → σ → σ) (n entry : Nat)
    (s : σ) :
    countedWalk next visit n entry s =
      (countedEntries next n entry).foldl (fun s entry => visit entry s) s := by
  induction n generalizing entry s with
  | zero => rfl
  | succ n ih => rw [countedWalk, ih, countedEntries, List.foldl_cons]

theorem countedEntries_length (next : Nat → Nat) (n entry : Nat) :
    (countedEntries next n entry).length = n := by
  induction n generalizing entry with
  | zero => rfl
  | succ n ih => rw [countedEntries, List.length_cons, ih]

/-! ## The GTDT -/

def securePL1TimerGSIV (gtdt : Memory) : BitVec 32 := read32 gtdt 48
def securePL1TimerFlags (gtdt : Memory) : BitVec 32 := read32 gtdt 52
def nonSecurePL1TimerGSIV (gtdt : Memory) : BitVec 32 := read32 gtdt 56
def nonSecurePL1TimerFlags (gtdt : Memory) : BitVec 32 := read32 gtdt 60
def virtualTimerGSIV (gtdt : Memory) : BitVec 32 := read32 gtdt 64
def virtualTimerFlags (gtdt : Memory) : BitVec 32 := read32 gtdt 68
def nonSecurePL2TimerGSIV (gtdt : Memory) : BitVec 32 := read32 gtdt 72
def nonSecurePL2TimerFlags (gtdt : Memory) : BitVec 32 := read32 gtdt 76
def platformTimerCount (gtdt : Memory) : BitVec 32 := read32 gtdt 88
def platformTimerOffset (gtdt : Memory) : BitVec 32 := read32 gtdt 92

/-- `EFI_ACPI_6_1_GTDT_GT_BLOCK`. -/
def gtBlockType : BitVec 8 := 0

/-- `EFI_ACPI_6_1_GTDT_SBSA_GENERIC_WATCHDOG`. -/
def genericWatchdogType : BitVec 8 := 1

def timerType (gtdt : Memory) (entry : Nat) : BitVec 8 := gtdt entry
def timerLength (gtdt : Memory) (entry : Nat) : BitVec 16 := read16 gtdt (entry + 1)

/-- The fields of a GT block structure. -/
def cntCtlBase (gtdt : Memory) (entry : Nat) : BitVec 64 := read64 gtdt (entry + 4)
def gtBlockTimerCount (gtdt : Memory) (entry : Nat) : BitVec 32 := read32 gtdt (entry + 12)
def gtBlockTimerOffset (gtdt : Memory) (entry : Nat) : BitVec 32 := read32 gtdt (entry + 16)

/-- `sizeof (EFI_ACPI_6_1_GTDT_GT_BLOCK_TIMER_STRUCTURE)`. -/
def gtBlockTimerSize : Nat := 40

/-- The address of the `i`-th timer of a GT block. -/
def gtBlockTimer (gtdt : Memory) (entry i : Nat) : Nat :=
  entry + (gtBlockTimerOffset gtdt entry).toNat + i * gtBlockTimerSize

def cntBaseX (gtdt : Memory) (timer : Nat) : BitVec 64 := read64 gtdt (timer + 4)
def cntEL0BaseX (gtdt : Memory) (timer : Nat) : BitVec 64 := read64 gtdt (timer + 12)
def gtxPhysicalTimerGSIV (gtdt : Memory) (timer : Nat) : BitVec 32 := read32 gtdt (timer + 20)
def gtxPhysicalTimerFlags (gtdt : Memory) (timer : Nat) : BitVec 32 := read32 gtdt (timer + 24)
def gtxVirtualTimerGSIV (gtdt : Memory) (timer : Nat) : BitVec 32 := read32 gtdt (timer + 28)
def gtxVirtualTimerFlags (gtdt : Memory) (timer : Nat) : BitVec 32 := read32 gtdt (timer + 32)
def gtxCommonFlags (gtdt : Memory) (timer : Nat) : BitVec 32 := read32 gtdt (timer + 36)

/-- The fields of a watchdog structure. -/
def refreshFramePhysicalAddress (gtdt : Memory) (entry : Nat) : BitVec 64 :=
  read64 gtdt (entry + 4)
def watchdogControlFramePhysicalAddress (gtdt : Memory) (entry : Nat) : BitVec 64 :=
  read64 gtdt (entry + 12)
def watchdogTimerGSIV (gtdt : Memory) (entry : Nat) : BitVec 32 := read32 gtdt (entry + 20)
def watchdogTimerFlags (gtdt : Memory) (entry : Nat) : BitVec 32 := read32 gtdt (entry + 24)

/-- `Entry + Entry->Length`. -/
def nextTimer (gtdt : Memory) (entry : Nat) : Nat := entry + (timerLength gtdt entry).toNat

/-- The loop of the timer and the watchdog table builder. -/
def gtdtScan {σ : Type*} (gtdt : Memory) (visit : Nat → σ → σ) (s : σ) : σ :=
  countedWalk (nextTimer gtdt) visit (platformTimerCount gtdt).toNat
    (platformTimerOffset gtdt).toNat s

/-- The platform timer structures of a GTDT. -/
def platformTimers (gtdt : Memory) : List Nat :=
  countedEntries (nextTimer gtdt) (platformTimerCount gtdt).toNat (platformTimerOffset gtdt).toNat

/-- The GT block structures among them. -/
def gtBlocks (gtdt : Memory) : List Nat :=
  (platformTimers gtdt).filter fun entry => timerType gtdt entry = gtBlockType

/-- The watchdog structures among them. -/
def watchdogs (gtdt : Memory) : List Nat :=
  (platformTimers gtdt).filter fun entry => timerType gtdt entry = genericWatchdogType

/-! ## The HEST -/

/-- `sizeof (EFI_ACPI_6_1_HARDWARE_ERROR_SOURCE_TABLE_HEADER)`. -/
def hestHeaderSize : Nat := 40

def errorSourceCount (hest : Memory) : BitVec 32 := read32 hest 36

/-- The sizes of the generic hardware error source structure and of its version 2. -/
def ghesSize : Nat := 64
def ghesV2Size : Nat := 92

/-- `GHES_VERSION_2`. -/
def ghesVersion2 : BitVec 16 := 10

/-- `GHES_NOTIFY_TYPE_SDEI`. -/
def ghesNotifyTypeSdei : BitVec 8 := 0xb

def ghesType (hest : Memory) (ghes : Nat) : BitVec 16 := read16 hest ghes

/-- `NotificationStructure.Type` and `NotificationStructure.Vector`. -/
def notificationType (hest : Memory) (ghes : Nat) : BitVec 8 := hest (ghes + 32)
def notificationVector (hest : Memory) (ghes : Nat) : BitVec 32 := read32 hest (ghes + 40)

/-- The next error source. The cast to `UINT8*` of the version 2 branch binds to `Ghes`
alone, so the sum is one of a pointer to a structure of `ghesSize` bytes. -/
def nextGhes (hest : Memory) (ghes : Nat) : Nat :=
  if ghesType hest ghes = ghesVersion2 then ghes + ghesV2Size * ghesSize else ghes + ghesSize

/-- The loop over the error sources. -/
def hestScan {σ : Type*} (hest : Memory) (visit : Nat → σ → σ) (s : σ) : σ :=
  countedWalk (nextGhes hest) visit (errorSourceCount hest).toNat hestHeaderSize s

/-- The error sources that the loop visits. -/
def errorSources (hest : Memory) : List Nat :=
  countedEntries (nextGhes hest) (errorSourceCount hest).toNat hestHeaderSize

/-- Those with SDEI notification. -/
def sdeiSources (hest : Memory) : List Nat :=
  (errorSources hest).filter fun ghes => notificationType hest ghes = ghesNotifyTypeSdei

end EnterpriseAcs.Acpi
