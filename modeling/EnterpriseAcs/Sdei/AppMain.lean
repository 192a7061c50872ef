import EnterpriseAcs.Machine.GicInfo
import EnterpriseAcs.Sdei.SecondarySet
import EnterpriseAcs.Sdei.DeviceTables

/-!
# The start-up of the SDEI application

`ShellAppMain` initialises SDEI first and creates the information tables after it, each step
only if the one before it returned 0. The initialisation sends its calls to all PEs of the
PE table, and there is none yet: the number of PEs is 0, and the boot PE alone executes them.

* `executed_of_table`: with the PE table in place, the calls reach every PE.
* `startup_reaches_iff`: after a successful start-up, when they have reached every PE.
-/

namespace EnterpriseAcs.Sdei

open Acpi Machine

/-! ## The platform -/

/-- The SDEI calls of the initialisation, `SDEI_1_0_FN_SDEI_VERSION` and so on. -/
inductive SdeiFn
  | version
  | peUnmask
  | privateReset
  | sharedReset
  deriving DecidableEq, Repr

/-- The pools that the application allocates. -/
inductive InfoTable
  | pe
  | gic
  | event
  | watchdog
  | timer
  deriving DecidableEq, Repr

/-- What the application finds: the firmware tables, the status of each `AllocatePool`, the
value that `SDEI_VERSION` returns in `Arg0`, and the `MPIDR_EL1` of the boot PE. -/
structure Platform where
  madt : Madt
  gtdt : Option Memory
  hest : Option Memory
  sdeiTable : Bool
  sdeiVersion : BitVec 64
  allocatePool : InfoTable → BitVec 64
  mpidrEl1 : BitVec 64

/-- The global tables, null before they are created, and the SDEI calls executed so far with
the affinity of the PE that executed each. -/
structure AppState where
  peInfoTable : Option PeSetup := none
  gicInfoTable : Option GicInfoTable := none
  gicdBase : Option (BitVec 64) := none
  eventInfoTable : Option EventInfoTable := none
  wdInfoTable : Option WdInfoTable := none
  timerInfoTable : Option TimerInfoTable := none
  executed : List (List Nat × SdeiFn) := []

/-- A step of the start-up: the status that `ShellAppMain` tests and the state after it, or
none if a walk over the MADT needs more fuel. -/
abbrev Step := AppState → Option (BitVec 32 × AppState)

/-- `ACS_SUCCESS` and `ACS_ERROR`. -/
def acsSuccess : BitVec 32 := 0
def acsError : BitVec 32 := 1

/-! ## The initialisation of SDEI -/

/-- `g_pe_info_table`, with no entries while it is null. -/
def AppState.table (s : AppState) : PeInfoTable := (s.peInfoTable.map PeSetup.table).getD {}

/-- `val_pe_get_num`. -/
def valPeGetNum (s : AppState) : BitVec 32 := s.table.numOfPe

/-- An SDEI call on the boot PE. -/
def AppState.invoke (s : AppState) (p : Platform) (fn : SdeiFn) : AppState :=
  { s with executed := s.executed ++ [(affinity p.mpidrEl1, fn)] }

/-- The other PEs that `pal_pe_execute_on_all` posts to. -/
def AppState.targets (s : AppState) (p : Platform) : List (List Nat) :=
  (palPeExecuteOnAllTargets s.table (valPeGetNum s) (myMpidr p.mpidrEl1)).filterMap fun i =>
    s.table.peInfo[i]?.map fun e => affinity e.mpidr

/-- `val_pe_execute_on_all` with a payload that does one SDEI call: here first, then on each
other PE in turn. -/
def valPeExecuteOnAll (p : Platform) (fn : SdeiFn) (s : AppState) : AppState :=
  let s := s.invoke p fn
  { s with executed := s.executed ++ (s.targets p).map fun pe => (pe, fn) }

/-- `sdei_is_err`. -/
def sdeiIsErr (res : BitVec 64) : Bool :=
  res ∈ [-1, -2, -3, -5, -10]

/-- `pal_sdei_to_uefi_errno`. -/
def palSdeiToUefiErrno (res : BitVec 64) : BitVec 32 :=
  if res = -1 then 0x80000000
  else if res = -2 then 0x80000001
  else if res = -3 then 0x80000002
  else if res = -5 then 0x80000003
  else if res = -10 then 0x80000004
  else res.setWidth 32

/-- The error that `val_sdei_get_version` returns. -/
def versionErr (p : Platform) : BitVec 32 :=
  if sdeiIsErr p.sdeiVersion then palSdeiToUefiErrno p.sdeiVersion else 0

/-- `SDEI_VERSION_MAJOR`. -/
def sdeiVersionMajor (ver : BitVec 64) : BitVec 64 := ver >>> 48 &&& 0x7fff

/-- `val_sdei_initialization`. The conduit is always `CONDUIT_SMC`. -/
def valSdeiInitialization (p : Platform) : Step := fun s =>
  if !p.sdeiTable then some (-1, s)
  else
    let s := s.invoke p .version
    if versionErr p ≠ 0 then some (versionErr p, s)
    else if sdeiVersionMajor p.sdeiVersion ≠ 1 then some (0x80000001, s)
    else
      let s := valPeExecuteOnAll p .peUnmask s
      let s := valPeExecuteOnAll p .privateReset s
      some (0, s.invoke p .sharedReset)

/-! ## The tables -/

/-- `EFI_ERROR`. -/
def efiError (status : BitVec 64) : Bool := status.msb

/-- The step that allocates a table and, unless this fails, goes on with `create`. -/
def allocateThen (p : Platform) (table : InfoTable) (create : Step) : Step := fun s =>
  if efiError (p.allocatePool table) then some ((p.allocatePool table).setWidth 32, s)
  else create s

def createPeInfoTable (p : Platform) (fuel : Nat) : Step :=
  allocateThen p .pe fun s => do
    let setup ← palPeCreateInfoTable p.madt.mem fuel
    let s := { s with peInfoTable := some setup }
    some (if valPeGetNum s = 0 then acsError else acsSuccess, s)

/-- `set_gicd_base`: the base of the first distributor before the end marker. -/
def setGicdBase : List GicInfoEntry → Option (BitVec 64)
  | [] => none
  | entry :: entries =>
    if entry.type = entryTypeEnd then none
    else if entry.type = entryTypeGicd then entry.base
    else setGicdBase entries

def createGicInfoTable (p : Platform) (fuel : Nat) : Step :=
  allocateThen p .gic fun s => do
    let table ← palGicCreateInfoTable p.madt.mem fuel
    let s := { s with gicInfoTable := some table }
    if table.numGicd = 0 then some (acsError, s)
    else
      match setGicdBase table.gicInfo with
      | none => some (acsError, s)
      | some base => some (acsSuccess, { s with gicdBase := some base })

/-- The status of the platform layer is printed and not returned. -/
def createEventInfoTable (p : Platform) : Step :=
  allocateThen p .event fun s =>
    let table := (palSdeiCreateEventInfoTable p.hest).2.table
    some (acsSuccess, { s with eventInfoTable := some table })

def createWatchdogInfoTable (p : Platform) : Step :=
  allocateThen p .watchdog fun s =>
    let (status, filled) := palWdCreateInfoTable p.gtdt
    some (status, { s with wdInfoTable := some filled.table })

/-- This one returns the status of `AllocatePool`. -/
def createTimerInfoTable (p : Platform) : Step :=
  allocateThen p .timer fun s =>
    let table := (palTimerCreateInfoTable p.gtdt).table
    some ((p.allocatePool .timer).setWidth 32, { s with timerInfoTable := some table })

/-! ## The start-up -/

/-- One step after the other, as long as they return 0. -/
def runSteps : List Step → AppState → Option (BitVec 32 × AppState)
  | [], s => some (0, s)
  | step :: steps, s => do
    let (status, s) ← step s
    if status ≠ 0 then some (status, s) else runSteps steps s

/-- The steps of `ShellAppMain` before the tests, in the order of the source. -/
def startupSteps (p : Platform) (fuel : Nat) : List Step :=
  [valSdeiInitialization p, createPeInfoTable p fuel, createGicInfoTable p fuel,
    createEventInfoTable p, createWatchdogInfoTable p, createTimerInfoTable p]

/-- `ShellAppMain` up to `val_shared_mem_alloc`. -/
def shellAppMain (p : Platform) (fuel : Nat) : Option (BitVec 32 × AppState) :=
  runSteps (startupSteps p fuel) {}

/-- Every PE of the MADT has executed the two calls. -/
def AllInitialised (p : Platform) (s : AppState) : Prop :=
  ∀ m ∈ p.madt.mpidrs,
    (affinity m, SdeiFn.peUnmask) ∈ s.executed ∧ (affinity m, SdeiFn.privateReset) ∈ s.executed

/-! ## What the steps execute -/

/-- A step that does no SDEI call. -/
def Silent (step : Step) : Prop := ∀ s status t, step s = some (status, t) → t.executed = s.executed

theorem allocateThen_silent {p : Platform} {table : InfoTable} {create : Step}
    (h : Silent create) : Silent (allocateThen p table create) := by
  intro s status t hStep
  rw [allocateThen] at hStep
  split at hStep
  · cases hStep
    rfl
  · exact h s status t hStep

theorem createPeInfoTable_silent (p : Platform) (fuel : Nat) :
    Silent (createPeInfoTable p fuel) := by
  apply allocateThen_silent
  intro s status t hStep
  obtain ⟨setup, -, hEq⟩ := Option.bind_eq_some_iff.mp hStep
  cases hEq
  rfl

theorem createGicInfoTable_silent (p : Platform) (fuel : Nat) :
    Silent (createGicInfoTable p fuel) := by
  apply allocateThen_silent
  intro s status t hStep
  obtain ⟨table, -, hEq⟩ := Option.bind_eq_some_iff.mp hStep
  dsimp only at hEq
  split at hEq
  · cases hEq
    rfl
  · split at hEq <;> cases hEq <;> rfl

theorem createEventInfoTable_silent (p : Platform) : Silent (createEventInfoTable p) := by
  apply allocateThen_silent
  rintro s status t hStep
  cases hStep
  rfl

theorem createWatchdogInfoTable_silent (p : Platform) : Silent (createWatchdogInfoTable p) := by
  apply allocateThen_silent
  rintro s status t hStep
  cases hStep
  rfl

theorem createTimerInfoTable_silent (p : Platform) : Silent (createTimerInfoTable p) := by
  apply allocateThen_silent
  rintro s status t hStep
  cases hStep
  rfl

theorem runSteps_silent {steps : List Step} (h : ∀ step ∈ steps, Silent step) :
    Silent (runSteps steps) := by
  induction steps with
  | nil =>
    rintro s status t hStep
    cases hStep
    rfl
  | cons step steps ih =>
    intro s status t hStep
    obtain ⟨⟨first, u⟩, hFirst, hRest⟩ := Option.bind_eq_some_iff.mp hStep
    have hFirstSilent := h step List.mem_cons_self s first u hFirst
    dsimp only at hRest
    split at hRest
    · cases hRest
      exact hFirstSilent
    · rw [ih (fun step hs => h step (List.mem_cons_of_mem _ hs)) u status t hRest, hFirstSilent]

/-- What a successful initialisation has executed. -/
theorem valSdeiInitialization_executed {p : Platform} {s t : AppState}
    (h : valSdeiInitialization p s = some (0, t)) :
    t.executed = s.executed ++
      ((affinity p.mpidrEl1, SdeiFn.version) ::
        ((affinity p.mpidrEl1, SdeiFn.peUnmask) ::
          (s.targets p).map fun pe => (pe, SdeiFn.peUnmask)) ++
        ((affinity p.mpidrEl1, SdeiFn.privateReset) ::
          (s.targets p).map fun pe => (pe, SdeiFn.privateReset)) ++
        [(affinity p.mpidrEl1, SdeiFn.sharedReset)]) := by
  rw [valSdeiInitialization] at h
  split at h
  · cases h
  · dsimp only at h
    split at h
    · rename_i hErr
      exact absurd (Prod.ext_iff.mp (Option.some_inj.mp h)).1 hErr
    · split at h
      · cases h
      · have hEq := (Prod.ext_iff.mp (Option.some_inj.mp h)).2
        subst hEq
        simp [AppState.invoke, valPeExecuteOnAll, AppState.targets, valPeGetNum, AppState.table]

/-- The PEs that are sent to when the table of the MADT is in place: all but the boot PE. -/
theorem targets_of_table {p : Platform} {s : AppState}
    (hTable : s.peInfoTable = some (peSetup p.madt)) :
    ∀ m ∈ p.madt.mpidrs, m ≠ myMpidr p.mpidrEl1 → affinity m ∈ s.targets p := by
  intro m hm hne
  have hTable' : s.table = peTable p.madt := by rw [AppState.table, hTable]; rfl
  obtain ⟨i, hi⟩ := List.mem_iff_getElem?.mp hm
  have hAt := hi
  rw [← peTable_mpidr_at] at hAt
  obtain ⟨e, he, rfl⟩ := Option.map_eq_some_iff.mp hAt
  have hPosted : i ∈ postedTo (peSetup p.madt) (myMpidr p.mpidrEl1) := by
    rw [postedTo_eq]
    have hLt := (List.getElem?_eq_some_iff.mp hi).1
    rw [p.madt.length_mpidrs] at hLt
    exact ⟨hLt, fun h => hne (Option.some_inj.mp (hi.symm.trans h))⟩
  rw [AppState.targets, valPeGetNum, hTable']
  exact List.mem_filterMap.mpr ⟨i, hPosted, by rw [he]; rfl⟩

/-- With the PE table in place first, the initialisation would reach every PE. -/
theorem executed_of_table {p : Platform} {s t : AppState}
    (hTable : s.peInfoTable = some (peSetup p.madt))
    (hBoot : ∀ m ∈ p.madt.mpidrs, m = myMpidr p.mpidrEl1 → affinity m = affinity p.mpidrEl1)
    (h : valSdeiInitialization p s = some (0, t)) : AllInitialised p t := by
  intro m hm
  rw [valSdeiInitialization_executed h]
  by_cases hMy : m = myMpidr p.mpidrEl1
  · rw [hBoot m hm hMy]
    simp
  · have := targets_of_table hTable m hm hMy
    simp [this]

/-- While the table is null the calls stay on the boot PE. -/
theorem shellAppMain_executed {p : Platform} {fuel : Nat} {t : AppState}
    (h : shellAppMain p fuel = some (0, t)) :
    t.executed = [(affinity p.mpidrEl1, .version), (affinity p.mpidrEl1, .peUnmask),
      (affinity p.mpidrEl1, .privateReset), (affinity p.mpidrEl1, .sharedReset)] := by
  have hSilent : Silent (runSteps (startupSteps p fuel).tail) := by
    apply runSteps_silent
    intro step hStep
    simp only [startupSteps, List.tail_cons, List.mem_cons, List.not_mem_nil, or_false] at hStep
    rcases hStep with rfl | rfl | rfl | rfl | rfl
    · exact createPeInfoTable_silent p fuel
    · exact createGicInfoTable_silent p fuel
    · exact createEventInfoTable_silent p
    · exact createWatchdogInfoTable_silent p
    · exact createTimerInfoTable_silent p
  obtain ⟨⟨status, s⟩, hInit, hRest⟩ := Option.bind_eq_some_iff.mp h
  dsimp only at hRest
  split at hRest
  · rename_i hStatus
    exact absurd (Prod.ext_iff.mp (Option.some_inj.mp hRest)).1 hStatus
  · rename_i hStatus
    rw [not_not.mp hStatus] at hInit
    rw [hSilent s 0 t hRest, valSdeiInitialization_executed hInit]
    rfl

/-- **Initialisation of all PEs.** After a start-up that has succeeded, every PE of the MADT
has executed `PE_UNMASK` and `PRIVATE_RESET` exactly when the MADT describes no PE other than
the boot PE. -/
theorem startup_reaches_iff (p : Platform) (fuel : Nat) (t : AppState)
    (hStart : shellAppMain p fuel = some (0, t)) :
    AllInitialised p t ↔ ∀ m ∈ p.madt.mpidrs, affinity m = affinity p.mpidrEl1 := by
  rw [AllInitialised, shellAppMain_executed hStart]
  constructor
  · intro h m hm
    have hUnmask := (h m hm).1
    simpa using hUnmask
  · intro h m hm
    rw [h m hm]
    simp

/-! ## Two platforms -/

/-- A MADT with a GICC structure, a second structure of the given type and of 80 bytes, whose
field at the place of an MPIDR is 1, and a distributor. -/
def systemMemory (second : BitVec 8) : Memory
  | 4 => 228
  | 44 => gicType
  | 45 => 80
  | 124 => second
  | 125 => 80
  | 192 => 1
  | 204 => gicdType
  | 205 => 24
  | _ => 0

/-- A platform with SDEI 1.0 and without platform timers, booted on PE 0.0.0.0. -/
def systemPlatform (madt : Madt) : Platform where
  madt := madt
  gtdt := some fun _ => 0
  hest := none
  sdeiTable := true
  sdeiVersion := 0x0001000000000000
  allocatePool := fun _ => 0
  mpidrEl1 := 0x80000000

/-- The second structure is of a type that no table builder knows. -/
def onePeMadt : Madt where
  mem := systemMemory 0x80
  entries := [44, 124, 204]
  entries_ne_nil := by simp
  layout := .cons (Nat.le_refl 80) (.cons (by decide) (.cons (Nat.le_refl 24) (.nil 228)))

/-- The second structure is a GICC structure. -/
def twoPeMadt : Madt where
  mem := systemMemory gicType
  entries := [44, 124, 204]
  entries_ne_nil := by simp
  layout := .cons (Nat.le_refl 80) (.cons (Nat.le_refl 80) (.cons (Nat.le_refl 24) (.nil 228)))

/-- With one PE the start-up reaches all. -/
theorem startup_one_pe :
    ∃ t, shellAppMain (systemPlatform onePeMadt) 3 = some (0, t) ∧
      AllInitialised (systemPlatform onePeMadt) t := by
  have hStatus : (shellAppMain (systemPlatform onePeMadt) 3).map Prod.fst = some 0 := by decide
  obtain ⟨⟨status, t⟩, hStart, rfl⟩ := Option.map_eq_some_iff.mp hStatus
  have hMpidrs : (systemPlatform onePeMadt).madt.mpidrs = [0] := by decide
  refine ⟨t, hStart, (startup_reaches_iff _ 3 t hStart).mpr ?_⟩
  rw [hMpidrs]
  exact List.forall_mem_singleton.mpr rfl

/-- With two PEs the start-up succeeds, and PE 0.0.0.1 has executed nothing. -/
theorem startup_second_pe_masked :
    ∃ t, shellAppMain (systemPlatform twoPeMadt) 3 = some (0, t) ∧
      (∀ fn, (affinity 1, fn) ∉ t.executed) ∧ ¬ AllInitialised (systemPlatform twoPeMadt) t := by
  have hStatus : (shellAppMain (systemPlatform twoPeMadt) 3).map Prod.fst = some 0 := by decide
  obtain ⟨⟨status, t⟩, hStart, rfl⟩ := Option.map_eq_some_iff.mp hStatus
  have hNone : ∀ fn, (affinity 1, fn) ∉ t.executed := by
    intro fn
    rw [shellAppMain_executed hStart]
    cases fn <;> decide
  exact ⟨t, hStart, hNone, fun h => hNone .peUnmask (h 1 (by decide)).1⟩

end EnterpriseAcs.Sdei
