import Mathlib.Data.BitVec

/-!
# Status words of the MPAM suite

A PE reports its status as a 32-bit word: the state in bits 31:28, the test number from bit
16 on, and an error value in the low bits. The predicates of the suite look at the state
only, so a word has at most one of them.
-/

namespace EnterpriseAcs.Mpam

def testPassVal : BitVec 32 := 0x4
def testFailVal : BitVec 32 := 0x8
def testSkipVal : BitVec 32 := 0x9
def testPendingVal : BitVec 32 := 0xa

/-- `((value) << STATE_BIT) | ((test_num) << TEST_NUM_BIT) | (status)`. -/
def resultWord (value testNum status : BitVec 32) : BitVec 32 :=
  value <<< 28 ||| testNum <<< 16 ||| status

def resultPass (testNum status : BitVec 32) : BitVec 32 := resultWord testPassVal testNum status
def resultFail (testNum status : BitVec 32) : BitVec 32 := resultWord testFailVal testNum status
def resultSkip (testNum status : BitVec 32) : BitVec 32 := resultWord testSkipVal testNum status
def resultPending (testNum : BitVec 32) : BitVec 32 := resultWord testPendingVal testNum 0

/-- `(value >> STATE_BIT) & (STATE_MASK)`. -/
def stateOf (value : BitVec 32) : BitVec 32 := value >>> 28 &&& 0xf

def isResultPending (value : BitVec 32) : Bool := stateOf value == testPendingVal
def isTestPass (value : BitVec 32) : Bool := stateOf value == testPassVal
def isTestFail (value : BitVec 32) : Bool := stateOf value == testFailVal
def isTestSkip (value : BitVec 32) : Bool := stateOf value == testSkipVal
def isTestFailSkip (value : BitVec 32) : Bool := isTestFail value || isTestSkip value

/-- A word whose state is PASS, FAIL, SKIP or PENDING. -/
def IsVerdict (value : BitVec 32) : Prop :=
  isTestPass value ∨ isTestFail value ∨ isTestSkip value ∨ isResultPending value

instance (value : BitVec 32) : Decidable (IsVerdict value) :=
  inferInstanceAs (Decidable (_ ∨ _ ∨ _ ∨ _))

/-! ## One state a word -/

@[simp] theorem isTestPass_iff {v : BitVec 32} : isTestPass v = true ↔ stateOf v = 0x4 := by
  simp [isTestPass, testPassVal]

@[simp] theorem isTestFail_iff {v : BitVec 32} : isTestFail v = true ↔ stateOf v = 0x8 := by
  simp [isTestFail, testFailVal]

@[simp] theorem isTestSkip_iff {v : BitVec 32} : isTestSkip v = true ↔ stateOf v = 0x9 := by
  simp [isTestSkip, testSkipVal]

@[simp] theorem isResultPending_iff {v : BitVec 32} :
    isResultPending v = true ↔ stateOf v = 0xa := by
  simp [isResultPending, testPendingVal]

@[simp] theorem isTestFailSkip_iff {v : BitVec 32} :
    isTestFailSkip v = true ↔ stateOf v = 0x8 ∨ stateOf v = 0x9 := by
  simp [isTestFailSkip]

/-- A test number of at most 12 bits and an error value of at most 16 bits stay out of the
state. -/
theorem stateOf_resultWord {value testNum status : BitVec 32} (hValue : value.toNat < 16)
    (hNum : testNum.toNat < 2 ^ 12) (hStatus : status.toNat < 2 ^ 16) :
    stateOf (resultWord value testNum status) = value := by
  have hOr : resultWord value testNum status >>> 28 =
      value <<< 28 >>> 28 ||| testNum <<< 16 >>> 28 ||| status >>> 28 := by
    simp only [resultWord, BitVec.ushiftRight_or_distrib]
  have hHigh : value <<< 28 >>> 28 = value := by
    apply BitVec.eq_of_toNat_eq
    simp only [BitVec.toNat_ushiftRight, BitVec.toNat_shiftLeft, Nat.shiftLeft_eq,
      Nat.shiftRight_eq_div_pow]
    omega
  have hNumOut : testNum <<< 16 >>> 28 = 0#32 := by
    apply BitVec.eq_of_toNat_eq
    simp only [BitVec.toNat_ushiftRight, BitVec.toNat_shiftLeft, Nat.shiftLeft_eq,
      Nat.shiftRight_eq_div_pow, BitVec.toNat_ofNat]
    omega
  have hStatusOut : status >>> 28 = 0#32 := by
    apply BitVec.eq_of_toNat_eq
    simp only [BitVec.toNat_ushiftRight, Nat.shiftRight_eq_div_pow, BitVec.toNat_ofNat]
    omega
  have hMask : value &&& 0xf = value := by
    apply BitVec.eq_of_toNat_eq
    rw [BitVec.toNat_and]
    exact (Nat.and_two_pow_sub_one_eq_mod value.toNat 4).trans (Nat.mod_eq_of_lt hValue)
  rw [stateOf, hOr, hHigh, hNumOut, hStatusOut]
  simpa using hMask

theorem isTestFail_resultFail {testNum status : BitVec 32} (hNum : testNum.toNat < 2 ^ 12)
    (hStatus : status.toNat < 2 ^ 16) : isTestFail (resultFail testNum status) = true := by
  rw [isTestFail_iff, resultFail, stateOf_resultWord (by decide) hNum hStatus, testFailVal]

end EnterpriseAcs.Mpam
