import EnterpriseAcs.Acpi.Madt
import EnterpriseAcs.Library.WhileLoop
import EnterpriseAcs.Sbbr.ResetShutdown
import Mathlib.Algebra.BigOperators.Group.List.Basic

/-!
# The ACPI table test

Each check records what it finds. After the first two, that the table is there and that its
signature is right, the test goes on in either case.

* `byteChecksum_eq_zero_iff`: the checksum as a sum.
* `bbTestAcpiTableTest_iff`: when the test records one assertion, and the right one.
-/

namespace EnterpriseAcs.Sbbr

open Acpi WhileLoop

/-! ## The checksum -/

/-- The body of the loop of `SbbrBootServicesByteChecksum`. -/
def checksumRound (bytes : Memory) (i : Nat) (sum : BitVec 8) : BitVec 8 := sum + bytes i

/-- `SbbrBootServicesByteChecksum`. -/
def byteChecksum (bytes : Memory) (length : BitVec 32) : BitVec 8 :=
  rounds (checksumRound bytes) length.toNat 0

/-- The loop ends for every length, with the checksum. -/
theorem checksumLoop_iff (bytes : Memory) (length : BitVec 32) (t : BitVec 32 × BitVec 8) :
    countTo 32 length.toNat (checksumRound bytes) 0 t ↔
      t = (length, byteChecksum bytes length) := by
  rw [countTo_iff, and_iff_right length.isLt, byteChecksum, BitVec.ofNat_toNat, BitVec.setWidth_eq]

/-- The sum of the first bytes. -/
def byteSum (bytes : Memory) (n : Nat) : Nat :=
  ((List.range n).map fun i => (bytes i).toNat).sum

theorem byteSum_succ (bytes : Memory) (n : Nat) :
    byteSum bytes (n + 1) = byteSum bytes n + (bytes n).toNat := by
  rw [byteSum, List.range_succ, List.map_append, List.sum_append, ← byteSum, List.map_singleton,
    List.sum_singleton]

theorem checksum_toNat (bytes : Memory) (n : Nat) :
    (rounds (checksumRound bytes) n 0).toNat = byteSum bytes n % 2 ^ 8 := by
  induction n with
  | zero => rfl
  | succ n ih =>
    rw [rounds_succ, checksumRound, BitVec.toNat_add, ih, byteSum_succ, Nat.mod_add_mod]

/-- The checksum is zero when the sum of the bytes is a multiple of 256. -/
theorem byteChecksum_eq_zero_iff (bytes : Memory) (length : BitVec 32) :
    byteChecksum bytes length = 0 ↔ 2 ^ 8 ∣ byteSum bytes length.toNat := by
  rw [← BitVec.toNat_inj, byteChecksum, checksum_toNat, Nat.dvd_iff_mod_eq_zero]
  rfl

/-! ## The test -/

/-- `RSDP_SIGNATURE_STRING`, `ACPI_TABLE_CHECKSUM_LENGTH` and `ACPI_TABLE_EXPECTED_LENGTH`. -/
def rsdpSignature : List (BitVec 8) := [0x52, 0x53, 0x44, 0x20, 0x50, 0x54, 0x52, 0x20]
def acpiTableChecksumLength : BitVec 32 := 20
def acpiTableExpectedLength : BitVec 32 := 36

/-- What `RecordAssertion` is called with: each text stands for one check. -/
inductive AcpiRecorded
  | tableNotFound
  | invalidSignature
  | invalidChecksum
  | invalidExtendedChecksum
  | invalidLength
  | invalidXsdtPointer
  | passed
  deriving DecidableEq, Repr

/-- What the two calls return, and the bytes that `AcpiTable` points to after the second. -/
structure AcpiEnv where
  handleProtocol : EfiStatus
  configurationTable : EfiStatus
  acpiTable : Memory

/-- What the test returns and records, and whether it has read from `AcpiTable`. -/
structure AcpiOutcome where
  status : EfiStatus
  recorded : List AcpiRecorded
  dereferenced : Bool
  deriving DecidableEq, Repr

namespace AcpiEnv

variable (env : AcpiEnv)

def length : BitVec 32 := read32 env.acpiTable 20
def xsdtAddress : BitVec 64 := read64 env.acpiTable 24

def signatureRight : Bool := (List.range 8).map env.acpiTable == rsdpSignature

/-- The checks that end the test with what they record. -/
def lastChecks : AcpiRecorded :=
  if byteChecksum env.acpiTable acpiTableChecksumLength ≠ 0 then .invalidChecksum
  else if byteChecksum env.acpiTable env.length ≠ 0 then .invalidExtendedChecksum
  else if env.length ≠ acpiTableExpectedLength then .invalidLength
  else if env.xsdtAddress = 0 then .invalidXsdtPointer
  else .passed

/-- The two checks before. -/
def firstChecks : List AcpiRecorded :=
  (if efiError env.configurationTable then [.tableNotFound] else []) ++
    (if env.signatureRight then [] else [.invalidSignature])

end AcpiEnv

/-- `BBTestAcpiTableTest`. -/
def bbTestAcpiTableTest (env : AcpiEnv) : AcpiOutcome :=
  if efiError env.handleProtocol then
    { status := env.handleProtocol, recorded := [], dereferenced := false }
  else
    { status := efiSuccess, recorded := env.firstChecks ++ [env.lastChecks], dereferenced := true }

/-! ## The verdict -/

/-- The table is found. -/
def AcpiEnv.Found (env : AcpiEnv) : Prop := ¬ efiError env.configurationTable = true

/-- What a root table is to be. -/
structure GoodRoot (env : AcpiEnv) : Prop where
  found : env.Found
  signature : env.signatureRight = true
  checksum : 2 ^ 8 ∣ byteSum env.acpiTable acpiTableChecksumLength.toNat
  extended : 2 ^ 8 ∣ byteSum env.acpiTable env.length.toNat
  length : env.length = acpiTableExpectedLength
  xsdt : env.xsdtAddress ≠ 0

/-- The test records one assertion, passes for a good root table only, and does not read from a
table that is not there. -/
structure RightlyRecorded (env : AcpiEnv) (outcome : AcpiOutcome) : Prop where
  once : outcome.recorded.length = 1
  passed : .passed ∈ outcome.recorded ↔ GoodRoot env
  untouched : ¬ env.Found → outcome.dereferenced = false

section Verdict

variable {env : AcpiEnv}

theorem lastChecks_passed_iff (hFound : env.Found) (hSignature : env.signatureRight = true) :
    env.lastChecks = .passed ↔ GoodRoot env := by
  have hGood : GoodRoot env ↔ byteChecksum env.acpiTable acpiTableChecksumLength = 0 ∧
      byteChecksum env.acpiTable env.length = 0 ∧ env.length = acpiTableExpectedLength ∧
        env.xsdtAddress ≠ 0 := by
    rw [byteChecksum_eq_zero_iff, byteChecksum_eq_zero_iff]
    exact ⟨fun h => ⟨h.checksum, h.extended, h.length, h.xsdt⟩,
      fun h => ⟨hFound, hSignature, h.1, h.2.1, h.2.2.1, h.2.2.2⟩⟩
  rw [hGood, AcpiEnv.lastChecks]
  split
  · rename_i hChecksum
    exact iff_of_false nofun fun h => hChecksum h.1
  rename_i hChecksum
  rw [and_iff_right (not_not.mp hChecksum)]
  split
  · rename_i hExtended
    exact iff_of_false nofun fun h => hExtended h.1
  rename_i hExtended
  rw [and_iff_right (not_not.mp hExtended)]
  split
  · rename_i hLength
    exact iff_of_false nofun fun h => hLength h.1
  rename_i hLength
  rw [and_iff_right (not_not.mp hLength)]
  split
  · rename_i hXsdt
    exact iff_of_false nofun fun h => h hXsdt
  · rename_i hXsdt
    exact iff_of_true rfl hXsdt

/-- With the table and its signature there is nothing before the last check. -/
theorem firstChecks_eq_nil_iff :
    env.firstChecks = [] ↔ env.Found ∧ env.signatureRight = true := by
  rw [AcpiEnv.firstChecks, List.append_eq_nil_iff, AcpiEnv.Found]
  refine and_congr ?_ ?_
  · split
    · rename_i hError
      exact iff_of_false nofun fun h => h hError
    · rename_i hFound
      exact iff_of_true rfl hFound
  · split
    · rename_i hRight
      exact iff_of_true rfl hRight
    · rename_i hWrong
      exact iff_of_false nofun hWrong

end Verdict

/-- Without the test library nothing is recorded. -/
theorem not_rightlyRecorded_of_noLibrary {env : AcpiEnv} (h : efiError env.handleProtocol = true) :
    ¬ RightlyRecorded env (bbTestAcpiTableTest env) := by
  intro hRecorded
  have hOnce := hRecorded.once
  rw [bbTestAcpiTableTest, if_pos h] at hOnce
  cases hOnce

/-- The test records what it should exactly when there is the test library, the table is there
and its signature is right. -/
theorem bbTestAcpiTableTest_iff (env : AcpiEnv) :
    RightlyRecorded env (bbTestAcpiTableTest env) ↔
      ¬ efiError env.handleProtocol = true ∧ env.Found ∧ env.signatureRight = true := by
  by_cases h : efiError env.handleProtocol = true
  case pos => exact iff_of_false (not_rightlyRecorded_of_noLibrary h) fun hAll => hAll.1 h
  case neg =>
    rw [and_iff_right h, bbTestAcpiTableTest, if_neg h]
    constructor
    · intro hRecorded
      have hOnce := hRecorded.once
      rw [List.length_append, List.length_singleton, Nat.add_eq_right,
        List.length_eq_zero_iff] at hOnce
      exact firstChecks_eq_nil_iff.mp hOnce
    · rintro ⟨hFound, hSignature⟩
      rw [firstChecks_eq_nil_iff.mpr ⟨hFound, hSignature⟩]
      refine ⟨rfl, ?_, fun hNot => absurd hFound hNot⟩
      rw [List.nil_append, List.mem_singleton, ← lastChecks_passed_iff hFound hSignature]
      exact eq_comm

/-- A root table of 36 bytes with the signature `signature`. Its checksums are right if the bytes of
the signature add up to zero with `checksum`. -/
def rootTable (signature : List (BitVec 8)) (checksum : BitVec 8) : Memory := fun i =>
  if i < 8 then signature.getD i 0
  else if i = 8 then checksum
  else if i = 20 then 36
  else if i = 24 then 0xDC
  else 0

/-- With the right signature the test does as it should. -/
theorem rightTable_recorded :
    RightlyRecorded ⟨efiSuccess, efiSuccess, rootTable rsdpSignature 0xE1⟩
      (bbTestAcpiTableTest ⟨efiSuccess, efiSuccess, rootTable rsdpSignature 0xE1⟩) :=
  (bbTestAcpiTableTest_iff _).mpr
    ⟨by decide, (by decide : ¬ efiError efiSuccess = true), by decide⟩

/-- A table of zeros with right checksums fails for its signature and passes. -/
theorem wrong_signature_passes :
    ¬ ∀ env : AcpiEnv, ¬ efiError env.handleProtocol = true →
      RightlyRecorded env (bbTestAcpiTableTest env) := by
  intro h
  have hOnce := (h ⟨efiSuccess, efiSuccess, rootTable [] 0⟩ (by decide)).once
  have hBoth : (bbTestAcpiTableTest ⟨efiSuccess, efiSuccess, rootTable [] 0⟩).recorded =
      [.invalidSignature, .passed] := by decide
  rw [hBoth] at hOnce
  exact absurd hOnce (by decide)

end EnterpriseAcs.Sbbr
