import EnterpriseAcs.Library.Restart
import EnterpriseAcs.Sbbr.ResetShutdown
import Mathlib.Data.Nat.Find

/-!
# The non-volatile variable test

The test sets a variable, writes a reset record and resets the machine; the run after the reboot
finds the record, reads the variable back and erases it. The write of the record is not checked:
without a record the next run starts over.

Which status a service returns, and what a reset makes of the variable, is a parameter, boot by
boot. What a service does when it returns no error is its documented behaviour, and is written as
a definition: a record is read with the bytes that were written last, a record or a variable that
is not there is not found, a buffer that is too small is refused, and a variable that is set or
deleted is so afterwards.

* `nonVolatile_interrupted`: when a run ends in a reboot.
* `nonVolatile_returned`: what the last run records.
* `nonVolatile_verdict`: the successive runs, from a machine without a reset record.
-/

namespace EnterpriseAcs.Sbbr.NonVolatile

open Restart

/-! ## The test -/

def efiBufferTooSmall : EfiStatus := 0x8000000000000005
def efiNotFound : EfiStatus := 0x800000000000000e
def efiAborted : EfiStatus := 0x8000000000000015

abbrev Byte := BitVec 8

/-- `SBBRRUNTIMESERVICES_NONVOLATILEVARIABLE_RESET_GUID`, as it lies in memory. -/
def resetGuid : List Byte :=
  [0x60, 0x56, 0xa9, 0xf3, 0x09, 0xce, 0x8b, 0x41, 0x93, 0xfe, 0xd3, 0xfa, 0x9d, 0xe3, 0x9b, 0x45]

/-- `UEFI_VARIABLE_TEST_VALUE`, as it lies in memory. -/
def testValue : List Byte := [0xef, 0xbe, 0xad, 0xde]

/-- The firmware in each boot: the statuses of its services, whether the reset reboots the machine,
what this reset makes of the variable, and what `Buffer` holds at first. A service that does not
return an error does what it is called for. -/
structure Firmware where
  standardLibrary : Nat → EfiStatus
  recoveryLibrary : Nat → EfiStatus
  readStatus : Nat → EfiStatus
  deleteStatus : Nat → EfiStatus
  setStatus : Nat → EfiStatus
  writeStatus : Nat → EfiStatus
  reboots : Nat → Bool
  retain : Nat → Option (List Byte) → Option (List Byte)
  getStatus : Nat → EfiStatus
  eraseStatus : Nat → EfiStatus
  stack : Nat → List Byte

/-- What `RecordAssertion` is called with: the assertion about the variable, or one of the generic
failures. -/
inductive Recorded
  | nonVolatileVariable (type : AssertionType)
  | handleRecoveryLibrary (status : EfiStatus)
  | setVariable (status : EfiStatus)
  | resetSystem
  | getVariable (status : EfiStatus)
  deriving DecidableEq, Repr

/-- The number of the boot, and what persists over a reboot. -/
structure World where
  boot : Nat
  var : Option (List Byte)
  record : Option (List Byte)
  assertions : List Recorded

def World.recordAssertion (w : World) (recorded : Recorded) : World :=
  { w with assertions := w.assertions ++ [recorded] }

/-- Bytes that are written to the start of a buffer. -/
def overlay (bytes buffer : List Byte) : List Byte := bytes ++ buffer.drop bytes.length

/-- What a service returns, with the size and the buffer after it. -/
structure Reply where
  status : EfiStatus
  size : Nat
  buffer : List Byte

section Test

variable (fw : Firmware)

/-- `ReadResetRecord`, as the recovery library documents it. -/
def readResetRecord (w : World) : Reply :=
  let buffer := fw.stack w.boot
  if efiError (fw.readStatus w.boot) then ⟨fw.readStatus w.boot, 0, buffer⟩
  else
    match w.record with
    | none => ⟨efiNotFound, 0, buffer⟩
    | some bytes => ⟨fw.readStatus w.boot, bytes.length, overlay bytes buffer⟩

/-- `GetVariable`, as the firmware documents it. -/
def getVariable (w : World) (size : Nat) (buffer : List Byte) : Reply :=
  if efiError (fw.getStatus w.boot) then ⟨fw.getStatus w.boot, size, buffer⟩
  else
    match w.var with
    | none => ⟨efiNotFound, size, buffer⟩
    | some data =>
      if size < data.length then ⟨efiBufferTooSmall, data.length, buffer⟩
      else ⟨fw.getStatus w.boot, data.length, overlay data buffer⟩

/-- `SetVariable` with no data, as the firmware documents it: the variable is deleted, or the
service returns an error. -/
def World.deleted (w : World) : World :=
  if efiError (fw.deleteStatus w.boot) then w else { w with var := none }

/-- The branch that writes, from the call that sets the variable on. -/
def setAndReset (w : World) : Outcome World EfiStatus :=
  if efiError (fw.setStatus w.boot) then
    .returned (fw.setStatus w.boot) (w.recordAssertion (.setVariable (fw.setStatus w.boot)))
  -- nothing looks at what the write of the record returns
  else if fw.reboots w.boot then
    .interrupted
      { boot := w.boot + 1
        var := fw.retain w.boot (some testValue)
        record := if efiError (fw.writeStatus w.boot) then w.record else some resetGuid
        assertions := w.assertions }
  else
    .returned efiAborted ({ w with
      var := some testValue
      record := if efiError (fw.writeStatus w.boot) then w.record else some resetGuid
      }.recordAssertion .resetSystem)

/-- The branch that writes the variable and resets the machine. -/
def writeBranch (w : World) : Outcome World EfiStatus :=
  let status := fw.deleteStatus w.boot
  if efiError status ∧ status ≠ efiNotFound then
    .returned status (w.recordAssertion (.setVariable status))
  else setAndReset fw (w.deleted fw)

/-- The branch that reads the variable back. -/
def readBranch (w : World) (size : Nat) (buffer : List Byte) : Outcome World EfiStatus :=
  let reply := getVariable fw w size buffer
  if efiError reply.status then
    .returned reply.status (w.recordAssertion (.getVariable reply.status))
  else
    let status := fw.eraseStatus w.boot
    if efiError status then .returned status (w.recordAssertion (.setVariable status))
    else
      let type := if reply.buffer.take 4 = testValue then .passed else .failed
      .returned efiSuccess ({ w with var := none }.recordAssertion (.nonVolatileVariable type))

/-- `BBTestNonVolatileVariable`. -/
def bbTestNonVolatileVariable (w : World) : Outcome World EfiStatus :=
  if efiError (fw.standardLibrary w.boot) then .returned (fw.standardLibrary w.boot) w
  else if efiError (fw.recoveryLibrary w.boot) then
    .returned (fw.recoveryLibrary w.boot)
      (w.recordAssertion (.handleRecoveryLibrary (fw.recoveryLibrary w.boot)))
  else
    let reply := readResetRecord fw w
    if efiError reply.status ∨ reply.buffer.take 16 ≠ resetGuid then writeBranch fw w
    else if reply.buffer.take 16 = resetGuid then readBranch fw w reply.size reply.buffer
    else .returned efiLoadError w

/-- The successive runs, one after each reboot. -/
def successiveRuns : Nat → World → Option (EfiStatus × World) :=
  restart (bbTestNonVolatileVariable fw)

/-! ## The boots -/

/-- Both libraries are there. -/
def Librarian (k : Nat) : Prop :=
  efiError (fw.standardLibrary k) = false ∧ efiError (fw.recoveryLibrary k) = false

/-- A boot before this one has written the record. -/
def RecordedBefore (k : Nat) : Prop := ∃ j < k, efiError (fw.writeStatus j) = false

/-- The run of this boot finds the record. -/
def Resumes (k : Nat) : Prop := efiError (fw.readStatus k) = false ∧ RecordedBefore fw k

/-- The run of this boot sets the variable and reboots the machine. -/
def Interrupts (k : Nat) : Prop :=
  Librarian fw k ∧ ¬ Resumes fw k ∧
    (efiError (fw.deleteStatus k) = true → fw.deleteStatus k = efiNotFound) ∧
    efiError (fw.setStatus k) = false ∧ fw.reboots k = true

instance (k : Nat) : Decidable (Librarian fw k) := inferInstanceAs (Decidable (_ ∧ _))
instance (k : Nat) : Decidable (RecordedBefore fw k) :=
  inferInstanceAs (Decidable (∃ j < k, efiError (fw.writeStatus j) = false))
instance (k : Nat) : Decidable (Resumes fw k) := inferInstanceAs (Decidable (_ ∧ _))
instance (k : Nat) : Decidable (Interrupts fw k) := inferInstanceAs (Decidable (_ ∧ _))

/-- The world in boot `k`, when all runs before it were interrupted. -/
def worldAt (var : Option (List Byte)) (k : Nat) : World where
  boot := k
  var :=
    match k with
    | 0 => var
    | k + 1 => fw.retain k (some testValue)
  record := if RecordedBefore fw k then some resetGuid else none
  assertions := []

/-- The variable that the last reset has left is read as the value that was written. -/
def ReadsBack (n : Nat) : Prop :=
  ∃ k data, n = k + 1 ∧ fw.retain k (some testValue) = some data ∧ data.length ≤ 16 ∧
    data.take 4 = testValue

/-- What the last run, in boot `n`, leaves behind. -/
structure Ended (n : Nat) (w : World) : Prop where
  once : w.assertions.length = if efiError (fw.standardLibrary n) then 0 else 1
  passed : .nonVolatileVariable .passed ∈ w.assertions ↔
    Librarian fw n ∧ Resumes fw n ∧ efiError (fw.getStatus n) = false ∧ ReadsBack fw n ∧
      efiError (fw.eraseStatus n) = false
  erased : .nonVolatileVariable .passed ∈ w.assertions → w.var = none

end Test

/-! ## One run -/

section Run

variable {fw : Firmware} {var : Option (List Byte)}

theorem recordedBefore_succ (k : Nat) :
    RecordedBefore fw (k + 1) ↔ RecordedBefore fw k ∨ efiError (fw.writeStatus k) = false := by
  constructor
  · rintro ⟨j, hj, hWrite⟩
    rcases Nat.lt_succ_iff_lt_or_eq.mp hj with hLess | hLast
    · exact Or.inl ⟨j, hLess, hWrite⟩
    · exact Or.inr (hLast ▸ hWrite)
  · rintro (⟨j, hj, hWrite⟩ | hWrite)
    · exact ⟨j, Nat.lt_succ_of_lt hj, hWrite⟩
    · exact ⟨k, Nat.lt_succ_self k, hWrite⟩

variable (fw var) in
/-- The record that the run of a boot finds. -/
theorem readResetRecord_worldAt (k : Nat) :
    (Resumes fw k ∧ readResetRecord fw (worldAt fw var k) =
        ⟨fw.readStatus k, 16, overlay resetGuid (fw.stack k)⟩) ∨
      (¬ Resumes fw k ∧ efiError (readResetRecord fw (worldAt fw var k)).status = true) := by
  by_cases hRead : efiError (fw.readStatus k) = true
  · have hReply : readResetRecord fw (worldAt fw var k) = ⟨fw.readStatus k, 0, fw.stack k⟩ :=
      if_pos hRead
    refine Or.inr ⟨fun hResumes => ?_, ?_⟩
    · rw [hResumes.1] at hRead
      cases hRead
    · rw [hReply]
      exact hRead
  · have hReply : readResetRecord fw (worldAt fw var k) =
        match (worldAt fw var k).record with
        | none => ⟨efiNotFound, 0, fw.stack k⟩
        | some bytes => ⟨fw.readStatus k, bytes.length, overlay bytes (fw.stack k)⟩ :=
      if_neg hRead
    rw [hReply]
    by_cases hBefore : RecordedBefore fw k
    · have hRecord : (worldAt fw var k).record = some resetGuid := if_pos hBefore
      rw [hRecord]
      exact Or.inl ⟨⟨eq_false_of_ne_true hRead, hBefore⟩, rfl⟩
    · have hRecord : (worldAt fw var k).record = none := if_neg hBefore
      rw [hRecord]
      refine Or.inr ⟨fun hResumes => hBefore hResumes.2, ?_⟩
      dsimp only
      decide

/-- With both libraries, the branch that a run takes. -/
theorem bbTest_worldAt {k : Nat} (h : Librarian fw k) :
    bbTestNonVolatileVariable fw (worldAt fw var k) =
      if Resumes fw k then
        readBranch fw (worldAt fw var k) 16 (overlay resetGuid (fw.stack k))
      else writeBranch fw (worldAt fw var k) := by
  have hGuid : (overlay resetGuid (fw.stack k)).take 16 = resetGuid := by
    rw [overlay, List.take_append_of_le_length (by decide)]
    rfl
  have hStandard : ¬ efiError (fw.standardLibrary (worldAt fw var k).boot) = true :=
    Bool.eq_false_iff.mp h.1
  have hRecovery : ¬ efiError (fw.recoveryLibrary (worldAt fw var k).boot) = true :=
    Bool.eq_false_iff.mp h.2
  rw [bbTestNonVolatileVariable, if_neg hStandard, if_neg hRecovery]
  rcases readResetRecord_worldAt fw var k with ⟨hResumes, hReply⟩ | ⟨hNot, hError⟩
  · have hRead : ¬ efiError (fw.readStatus k) = true := Bool.eq_false_iff.mp hResumes.1
    rw [hReply, if_pos hResumes]
    dsimp only
    rw [if_neg (not_or.mpr ⟨hRead, not_not.mpr hGuid⟩), if_pos hGuid]
  · rw [if_neg hNot]
    dsimp only
    rw [if_pos (Or.inl hError)]

/-- The variable can be deleted and set. -/
def Sets (fw : Firmware) (k : Nat) : Prop :=
  (efiError (fw.deleteStatus k) = true → fw.deleteStatus k = efiNotFound) ∧
    efiError (fw.setStatus k) = false

/-- A deletion leaves the rest alone. -/
theorem deleted_rest (fw : Firmware) (w : World) :
    (w.deleted fw).boot = w.boot ∧ (w.deleted fw).record = w.record ∧
      (w.deleted fw).assertions = w.assertions := by
  unfold World.deleted
  split
  · exact ⟨rfl, rfl, rfl⟩
  · exact ⟨rfl, rfl, rfl⟩

/-- The branch that writes, when the reset reboots the machine. -/
theorem writeBranch_interrupted {w : World} (hSets : Sets fw w.boot)
    (hReboots : fw.reboots w.boot = true) :
    writeBranch fw w = .interrupted
      { boot := w.boot + 1
        var := fw.retain w.boot (some testValue)
        record := if efiError (fw.writeStatus w.boot) then w.record else some resetGuid
        assertions := w.assertions } := by
  obtain ⟨hBoot, hRecord, hAssertions⟩ := deleted_rest fw w
  have hDelete : ¬ (efiError (fw.deleteStatus w.boot) = true ∧
      fw.deleteStatus w.boot ≠ efiNotFound) := fun h => h.2 (hSets.1 h.1)
  have hSet : ¬ efiError (fw.setStatus w.boot) = true := Bool.eq_false_iff.mp hSets.2
  rw [writeBranch, if_neg hDelete, setAndReset, hBoot, if_neg hSet, if_pos hReboots, hRecord,
    hAssertions]

/-- The branch that writes, when it comes to its end: it records a failure. -/
theorem writeBranch_returned {w : World} (h : ¬ (Sets fw w.boot ∧ fw.reboots w.boot = true)) :
    ∃ status w' recorded, writeBranch fw w = .returned status w' ∧
      w'.assertions = w.assertions ++ [recorded] ∧
      ∀ type, recorded ≠ .nonVolatileVariable type := by
  obtain ⟨hBoot, -, hAssertions⟩ := deleted_rest fw w
  by_cases hDelete : efiError (fw.deleteStatus w.boot) = true ∧
      fw.deleteStatus w.boot ≠ efiNotFound
  · exact ⟨_, _, .setVariable (fw.deleteStatus w.boot), if_pos hDelete, rfl,
      fun type hEq => (by cases hEq)⟩
  · have hDeleted : efiError (fw.deleteStatus w.boot) = true →
        fw.deleteStatus w.boot = efiNotFound := by
      intro hError
      by_contra hOther
      exact hDelete ⟨hError, hOther⟩
    rw [writeBranch, if_neg hDelete, setAndReset, hBoot, ← hAssertions]
    by_cases hSet : efiError (fw.setStatus w.boot) = true
    · rw [if_pos hSet]
      exact ⟨_, _, .setVariable (fw.setStatus w.boot), rfl, rfl, fun type hEq => (by cases hEq)⟩
    · have hNot : ¬ fw.reboots w.boot = true := fun hReboots =>
        h ⟨⟨hDeleted, eq_false_of_ne_true hSet⟩, hReboots⟩
      rw [if_neg hSet, if_neg hNot]
      exact ⟨_, _, .resetSystem, rfl, rfl, fun type hEq => (by cases hEq)⟩

variable (fw) in
/-- The branch that reads. -/
theorem readBranch_returned (w : World) (size : Nat) (buffer : List Byte) :
    ∃ status w' recorded, readBranch fw w size buffer = .returned status w' ∧
      w'.assertions = w.assertions ++ [recorded] ∧
      (recorded = .nonVolatileVariable .passed ↔
        efiError (getVariable fw w size buffer).status = false ∧
          (getVariable fw w size buffer).buffer.take 4 = testValue ∧
          efiError (fw.eraseStatus w.boot) = false) ∧
      (recorded = .nonVolatileVariable .passed → w'.var = none) := by
  by_cases hGet : efiError (getVariable fw w size buffer).status = true
  · refine ⟨_, _, .getVariable (getVariable fw w size buffer).status, if_pos hGet, rfl,
      ⟨fun hEq => (by cases hEq), fun hAll => ?_⟩, fun hEq => (by cases hEq)⟩
    rw [hAll.1] at hGet
    cases hGet
  · rw [readBranch, if_neg hGet]
    by_cases hErase : efiError (fw.eraseStatus w.boot) = true
    · refine ⟨_, _, .setVariable (fw.eraseStatus w.boot), if_pos hErase, rfl,
        ⟨fun hEq => (by cases hEq), fun hAll => ?_⟩, fun hEq => (by cases hEq)⟩
      rw [hAll.2.2] at hErase
      cases hErase
    · rw [if_neg hErase]
      refine ⟨_, _, _, rfl, rfl, ?_, fun _ => rfl⟩
      constructor
      · intro hEq
        have hType := Recorded.nonVolatileVariable.inj hEq
        split at hType
        · rename_i hSame
          exact ⟨eq_false_of_ne_true hGet, hSame, eq_false_of_ne_true hErase⟩
        · cases hType
      · intro hAll
        rw [if_pos hAll.2.1]

/-- Four bytes at the start of a buffer that held the record. -/
theorem take_overlay {data stack : List Byte} :
    (overlay data (overlay resetGuid stack)).take 4 = testValue ↔ data.take 4 = testValue := by
  by_cases hLength : 4 ≤ data.length
  · rw [overlay, List.take_append_of_le_length hLength]
  · -- the fourth byte is still the record's
    have hFour : (overlay data (overlay resetGuid stack))[3]? = some 0xf3 := by
      rw [overlay, List.getElem?_append_right (by omega), List.getElem?_drop]
      have hIndex : data.length + (3 - data.length) = 3 := by omega
      rw [hIndex]
      rfl
    constructor
    · intro hSame
      have hByte := congrArg (fun bytes => bytes[3]?) hSame
      simp only [List.getElem?_take_of_lt (show 3 < 4 by decide), hFour] at hByte
      exact absurd hByte (by decide)
    · intro hSame
      have hShort := congrArg List.length hSame
      rw [List.length_take] at hShort
      simp only [testValue, List.length_cons, List.length_nil] at hShort
      omega

variable (fw var) in
/-- What a run after a reboot reads back. -/
theorem getVariable_worldAt (k : Nat) :
    (efiError (getVariable fw (worldAt fw var (k + 1)) 16
          (overlay resetGuid (fw.stack (k + 1)))).status = false ∧
        (getVariable fw (worldAt fw var (k + 1)) 16
          (overlay resetGuid (fw.stack (k + 1)))).buffer.take 4 = testValue) ↔
      efiError (fw.getStatus (k + 1)) = false ∧ ReadsBack fw (k + 1) := by
  have hReads : ReadsBack fw (k + 1) ↔ ∃ data, fw.retain k (some testValue) = some data ∧
      data.length ≤ 16 ∧ data.take 4 = testValue := by
    constructor
    · rintro ⟨k', data, hEq, hData⟩
      obtain rfl : k = k' := Nat.succ.inj hEq
      exact ⟨data, hData⟩
    · rintro ⟨data, hData⟩
      exact ⟨k, data, rfl, hData⟩
  rw [hReads]
  by_cases hGet : efiError (fw.getStatus (k + 1)) = true
  · have hReply : getVariable fw (worldAt fw var (k + 1)) 16
        (overlay resetGuid (fw.stack (k + 1))) =
        ⟨fw.getStatus (k + 1), 16, overlay resetGuid (fw.stack (k + 1))⟩ := if_pos hGet
    rw [hReply]
    simp only [hGet, Bool.true_eq_false, false_and]
  · have hReply : getVariable fw (worldAt fw var (k + 1)) 16
        (overlay resetGuid (fw.stack (k + 1))) =
        match fw.retain k (some testValue) with
        | none => ⟨efiNotFound, 16, overlay resetGuid (fw.stack (k + 1))⟩
        | some data =>
          if 16 < data.length then
            ⟨efiBufferTooSmall, data.length, overlay resetGuid (fw.stack (k + 1))⟩
          else
            ⟨fw.getStatus (k + 1), data.length,
              overlay data (overlay resetGuid (fw.stack (k + 1)))⟩ := if_neg hGet
    rw [hReply]
    cases hData : fw.retain k (some testValue) with
    | none =>
      constructor
      · intro h
        have hNotFound : efiError efiNotFound = false := h.1
        exact absurd hNotFound (by decide)
      · rintro ⟨-, data, hSome, -⟩
        cases hSome
    | some data =>
      simp only [Option.some_inj, exists_eq_left']
      by_cases hLong : 16 < data.length
      · rw [if_pos hLong]
        constructor
        · intro h
          have hTooSmall : efiError efiBufferTooSmall = false := h.1
          exact absurd hTooSmall (by decide)
        · intro h
          exact absurd h.2.1 (Nat.not_le.mpr hLong)
      · rw [if_neg hLong]
        dsimp only
        rw [take_overlay]
        simp only [Nat.le_of_not_lt hLong, true_and]

/-- A run that is interrupted. -/
theorem nonVolatile_interrupted {k : Nat} (h : Interrupts fw k) :
    bbTestNonVolatileVariable fw (worldAt fw var k) = .interrupted (worldAt fw var (k + 1)) := by
  obtain ⟨hLibrarian, hNot, hDelete, hSet, hReboots⟩ := h
  have hRecord : (if efiError (fw.writeStatus k) then (worldAt fw var k).record
      else some resetGuid) = (worldAt fw var (k + 1)).record := by
    simp only [worldAt, recordedBefore_succ]
    by_cases hWrite : efiError (fw.writeStatus k) = true
    · simp only [hWrite, if_true, Bool.true_eq_false, or_false]
    · simp only [hWrite, or_true, if_true, Bool.false_eq_true, if_false]
  rw [bbTest_worldAt hLibrarian, if_neg hNot,
    writeBranch_interrupted (w := worldAt fw var k) ⟨hDelete, hSet⟩ hReboots]
  exact congrArg (fun record => Outcome.interrupted
    (World.mk (k + 1) (fw.retain k (some testValue)) record [])) hRecord

variable (var) in
/-- What a run that comes to its end leaves behind. -/
theorem nonVolatile_returned {n : Nat} (h : ¬ Interrupts fw n) :
    ∃ status w, bbTestNonVolatileVariable fw (worldAt fw var n) = .returned status w ∧
      Ended fw n w := by
  by_cases hStandard : efiError (fw.standardLibrary n) = true
  · refine ⟨_, _, if_pos hStandard, ?_, ?_, fun hMem => absurd hMem List.not_mem_nil⟩
    · rw [if_pos hStandard]
      rfl
    · constructor
      · intro hMem
        exact absurd hMem List.not_mem_nil
      · intro hAll
        rw [hAll.1.1] at hStandard
        cases hStandard
  · by_cases hRecovery : efiError (fw.recoveryLibrary n) = true
    · have hRun : bbTestNonVolatileVariable fw (worldAt fw var n) =
          .returned (fw.recoveryLibrary n) ((worldAt fw var n).recordAssertion
            (.handleRecoveryLibrary (fw.recoveryLibrary n))) :=
        (if_neg hStandard).trans (if_pos hRecovery)
      have hNone : .nonVolatileVariable .passed ∉
          [Recorded.handleRecoveryLibrary (fw.recoveryLibrary n)] := by
        rw [List.mem_singleton]
        exact fun hEq => (by cases hEq)
      refine ⟨_, _, hRun, ?_, ?_, fun hMem => absurd hMem hNone⟩
      · rw [if_neg hStandard]
        rfl
      · constructor
        · intro hMem
          exact absurd hMem hNone
        · intro hAll
          rw [hAll.1.2] at hRecovery
          cases hRecovery
    · have hLibrarian : Librarian fw n :=
        ⟨eq_false_of_ne_true hStandard, eq_false_of_ne_true hRecovery⟩
      rw [bbTest_worldAt hLibrarian]
      by_cases hResumes : Resumes fw n
      · rw [if_pos hResumes]
        obtain ⟨status, w', recorded, hRun, hAssertions, hPassed, hErased⟩ :=
          readBranch_returned fw (worldAt fw var n) 16 (overlay resetGuid (fw.stack n))
        have hOnly : w'.assertions = [recorded] := hAssertions
        obtain ⟨k, rfl⟩ : ∃ k, n = k + 1 := by
          obtain ⟨j, hj, -⟩ := hResumes.2
          exact Nat.exists_eq_succ_of_ne_zero (Nat.ne_of_gt (Nat.zero_lt_of_lt hj))
        have hBack := getVariable_worldAt fw var k
        refine ⟨status, w', hRun, ?_, ?_, ?_⟩
        · rw [hOnly, if_neg hStandard]
          rfl
        · rw [hOnly, List.mem_singleton, eq_comm, hPassed, ← and_assoc, hBack]
          constructor
          · intro hAll
            exact ⟨hLibrarian, hResumes, hAll.1.1, hAll.1.2, hAll.2⟩
          · intro hAll
            exact ⟨⟨hAll.2.2.1, hAll.2.2.2.1⟩, hAll.2.2.2.2⟩
        · intro hMem
          rw [hOnly, List.mem_singleton] at hMem
          exact hErased hMem.symm
      · rw [if_neg hResumes]
        have hNot : ¬ (Sets fw n ∧ fw.reboots n = true) := fun hBoth =>
          h ⟨hLibrarian, hResumes, hBoth.1.1, hBoth.1.2, hBoth.2⟩
        obtain ⟨status, w', recorded, hRun, hAssertions, hOther⟩ :=
          writeBranch_returned (w := worldAt fw var n) hNot
        have hOnly : w'.assertions = [recorded] := hAssertions
        have hNone : .nonVolatileVariable .passed ∉ w'.assertions := by
          rw [hOnly, List.mem_singleton]
          exact (hOther .passed).symm
        refine ⟨status, w', hRun, ?_, ?_, fun hMem => absurd hMem hNone⟩
        · rw [hOnly, if_neg hStandard]
          rfl
        · exact iff_of_false hNone fun hAll => hResumes hAll.2.1

end Run

/-! ## The successive runs -/

/-- On a machine that has no reset record at first, and whose services do what they document:
either each boot sets the variable and reboots, and no run comes to its end, or the first boot
that does not ends the test: with one assertion, which is a pass exactly if that boot found the
record, read the value that was written and erased the variable. -/
theorem nonVolatile_verdict (fw : Firmware) (var : Option (List Byte)) :
    ((∀ k, Interrupts fw k) ∧ ∀ fuel, successiveRuns fw fuel (worldAt fw var 0) = none) ∨
      ∃ n, (∀ k < n, Interrupts fw k) ∧ ¬ Interrupts fw n ∧
        ∃ status w,
          (∀ fuel, n < fuel → successiveRuns fw fuel (worldAt fw var 0) = some (status, w)) ∧
          Ended fw n w := by
  by_cases hAll : ∀ k, Interrupts fw k
  · exact Or.inl ⟨hAll, fun fuel =>
      restart_never (worldAt fw var) (fun k => nonVolatile_interrupted (hAll k)) fuel⟩
  · have hSome : ∃ n, ¬ Interrupts fw n := not_forall.mp hAll
    have hBefore : ∀ k < Nat.find hSome, Interrupts fw k := fun k hk =>
      not_not.mp (Nat.find_min hSome hk)
    obtain ⟨status, w, hRun, hEnded⟩ := nonVolatile_returned var (Nat.find_spec hSome)
    refine Or.inr ⟨Nat.find hSome, hBefore, Nat.find_spec hSome, status, w, ?_, hEnded⟩
    intro fuel hFuel
    obtain ⟨rest, rfl⟩ : ∃ rest, fuel = rest + 1 + Nat.find hSome :=
      ⟨fuel - Nat.find hSome - 1, by omega⟩
    have hChain := restart_chain (worldAt fw var)
      (fun k hk => nonVolatile_interrupted (hBefore k hk)) (rest + 1)
    rw [successiveRuns, hChain, restart, hRun]

end EnterpriseAcs.Sbbr.NonVolatile
