import EnterpriseAcs.Sdei.TestInfra
import EnterpriseAcs.Library.BitSet
import EnterpriseAcs.Machine.CommandLine

/-!
# The `-skip` and `-run` options of the SDEI application

Each test has an enable flag, at its index in the test table. `ShellAppMain` searches the
arguments for the first `-skip` or `-run`, and goes over the list after it: it disables the tests
of the list, or enables those of the list alone. The counter of these loops also says which option
was found, by 0 and by 100.

* `disableIds_flags`, `runIds_flags`: what a list of ids does to the flags.
* `processArgs_skip`, `processArgs_run`, `processArgs_none`: the flags that an argument vector leads
  to.
* `processArgs_iff`: they are the flags asked for, unless a loop of the other option's branch runs.
-/

namespace EnterpriseAcs.Sdei

open Machine WhileLoop

/-! ## The flags -/

/-- `SDEI_NUM_TESTS` of the UEFI application. -/
def sdeiNumTests : Nat := 49

/-- `sdei_test`, as `val_test_init` fills it: the ids go up from 1. -/
structure TestTable where
  tests : List SdeiTestDesc
  ids : tests.map SdeiTestDesc.id = (List.range sdeiNumTests).map fun i => BitVec.ofNat 32 (i + 1)

/-- The index of the first test with this id; without one, the number of tests. -/
def TestTable.search (table : TestTable) (testId : BitVec 32) : Nat :=
  table.tests.findIdx fun test => test.id == testId

def enableTest (control : SdeiTestControl) (i : Nat) : SdeiTestControl :=
  { control with flags := BitSet.setWord control.flags (i / 64) (BitSet.mask 64 i) }

def disableTest (control : SdeiTestControl) (i : Nat) : SdeiTestControl :=
  { control with flags := BitSet.clearWord control.flags (i / 64) (BitSet.mask 64 i) }

/-- Both words of `flags` get the same value. -/
def setFlags (control : SdeiTestControl) (value : BitVec 64) : SdeiTestControl :=
  { control with flags := Function.update (Function.update control.flags 0 value) 1 value }

/-- What `val_test_init` does to the flags. -/
def valTestInit (control : SdeiTestControl) : SdeiTestControl :=
  setFlags control (BitVec.allOnes 64)

def valTestRunSpecific (table : TestTable) (control : SdeiTestControl) (testId : BitVec 32)
    (init : Bool) : SdeiTestControl :=
  let control := if init then setFlags control 0 else control
  if table.search testId < sdeiNumTests then enableTest control (table.search testId) else control

def valTestDisable (table : TestTable) (control : SdeiTestControl) (testId : BitVec 32) :
    SdeiTestControl :=
  if table.search testId < sdeiNumTests then disableTest control (table.search testId) else control

theorem TestTable.length_eq (table : TestTable) : table.tests.length = sdeiNumTests := by
  have h := congrArg List.length table.ids
  rwa [List.length_map, List.length_map, List.length_range] at h

theorem TestTable.id_eq (table : TestTable) {i : Nat} (hi : i < table.tests.length) :
    (table.tests[i]).id = BitVec.ofNat 32 (i + 1) := by
  have hRange : i < sdeiNumTests := by rwa [table.length_eq] at hi
  have h : (table.tests.map SdeiTestDesc.id)[i]? =
      ((List.range sdeiNumTests).map fun i => BitVec.ofNat 32 (i + 1))[i]? := by rw [table.ids]
  rw [List.getElem?_map, List.getElem?_eq_getElem hi, List.getElem?_map,
    List.getElem?_range hRange] at h
  exact Option.some_inj.mp h

theorem TestTable.id_eq_iff (table : TestTable) {i : Nat} (hi : i < table.tests.length)
    (testId : BitVec 32) : (table.tests[i]).id = testId ↔ testId.toNat = i + 1 := by
  have hSmall : i < 49 := by rwa [table.length_eq] at hi
  rw [table.id_eq hi, ← BitVec.toNat_inj, BitVec.toNat_ofNat, Nat.mod_eq_of_lt (by omega)]
  exact eq_comm

theorem TestTable.search_eq (table : TestTable) (testId : BitVec 32) {i : Nat}
    (hi : i < sdeiNumTests) : table.search testId = i ↔ testId.toNat = i + 1 := by
  rw [← table.length_eq] at hi
  rw [TestTable.search, List.findIdx_eq hi]
  constructor
  · intro h
    exact (table.id_eq_iff hi testId).mp (eq_of_beq h.1)
  · intro h
    refine ⟨beq_of_eq ((table.id_eq_iff hi testId).mpr h), fun j hj => ?_⟩
    apply beq_false_of_ne
    intro hOther
    have := (table.id_eq_iff (Nat.lt_trans hj hi) testId).mp hOther
    omega

/-- The indices below `n` that a list of ids names. -/
def named (n : Nat) (ids : List (BitVec 32)) : Set Nat :=
  {j | j < n ∧ j + 1 ∈ ids.map BitVec.toNat}

theorem named_nil (n : Nat) : named n [] = ∅ := by
  ext j
  simp [named]

theorem named_cons (n : Nat) (testId : BitVec 32) (ids : List (BitVec 32)) :
    named n (testId :: ids) = named n [testId] ∪ named n ids := by
  ext j
  simp only [named, List.map_cons, List.map_nil, List.mem_cons, List.not_mem_nil, or_false,
    Set.mem_union, Set.mem_ofPred_eq]
  tauto

theorem named_of_lt {n i : Nat} {testId : BitVec 32} (hi : i < n) (hId : testId.toNat = i + 1) :
    named n [testId] = {i} := by
  ext j
  rw [named, Set.mem_ofPred_eq, List.map_singleton, List.mem_singleton, hId,
    Set.mem_singleton_iff]
  omega

theorem named_of_forall_ne {n : Nat} {testId : BitVec 32} (h : ∀ i < n, testId.toNat ≠ i + 1) :
    named n [testId] = ∅ := by
  ext j
  rw [named, Set.mem_ofPred_eq, List.map_singleton, List.mem_singleton, Set.mem_empty_iff_false,
    iff_false]
  rintro ⟨hj, hId⟩
  exact h j hj hId.symm

/-- The search stops at the index that the id names, if there is one. -/
theorem TestTable.search_named (table : TestTable) (testId : BitVec 32) :
    named sdeiNumTests [testId] =
      if table.search testId < sdeiNumTests then {table.search testId} else ∅ := by
  by_cases hFound : table.search testId < sdeiNumTests
  · rw [if_pos hFound]
    exact named_of_lt hFound ((table.search_eq testId hFound).mp rfl)
  · rw [if_neg hFound]
    apply named_of_forall_ne
    intro i hi hId
    rw [(table.search_eq testId hi).mpr hId] at hFound
    exact hFound hi

theorem enableTest_flags (control : SdeiTestControl) (i : Nat) :
    BitSet.toSet (enableTest control i).flags = BitSet.toSet control.flags ∪ {i} := by
  rw [Set.union_singleton]
  exact BitSet.toSet_setWord (Nat.zero_lt_succ 63) control.flags i

theorem disableTest_flags (control : SdeiTestControl) (i : Nat) :
    BitSet.toSet (disableTest control i).flags = BitSet.toSet control.flags \ {i} :=
  BitSet.toSet_clearWord (Nat.zero_lt_succ 63) control.flags i

theorem valTestDisable_flags (table : TestTable) (control : SdeiTestControl)
    (testId : BitVec 32) :
    BitSet.toSet (valTestDisable table control testId).flags =
      BitSet.toSet control.flags \ named sdeiNumTests [testId] := by
  unfold valTestDisable
  rw [table.search_named]
  by_cases hFound : table.search testId < sdeiNumTests
  · rw [if_pos hFound, if_pos hFound, disableTest_flags]
  · rw [if_neg hFound, if_neg hFound, Set.sdiff_empty]

theorem valTestRunSpecific_flags (table : TestTable) (control : SdeiTestControl)
    (testId : BitVec 32) (init : Bool) :
    BitSet.toSet (valTestRunSpecific table control testId init).flags =
      BitSet.toSet (if init then setFlags control 0 else control).flags ∪
        named sdeiNumTests [testId] := by
  unfold valTestRunSpecific
  rw [table.search_named]
  by_cases hFound : table.search testId < sdeiNumTests
  · rw [if_pos hFound, if_pos hFound, enableTest_flags]
  · rw [if_neg hFound, if_neg hFound, Set.union_empty]

/-! ## Lists of ids -/

/-- `val_test_disable` for each id. -/
def disableIds (table : TestTable) (control : SdeiTestControl) (ids : List (BitVec 32)) :
    SdeiTestControl :=
  ids.foldl (valTestDisable table) control

/-- `val_test_run_specific` for each id; the first call clears the flags. It is made for an empty
list as well, whose text reads as the id 0. -/
def runIds (table : TestTable) (control : SdeiTestControl) : List (BitVec 32) → SdeiTestControl
  | [] => valTestRunSpecific table control 0 true
  | testId :: ids =>
    ids.foldl (fun c testId => valTestRunSpecific table c testId false)
      (valTestRunSpecific table control testId true)

theorem disableIds_flags (table : TestTable) (control : SdeiTestControl)
    (ids : List (BitVec 32)) :
    BitSet.toSet (disableIds table control ids).flags =
      BitSet.toSet control.flags \ named sdeiNumTests ids := by
  induction ids generalizing control with
  | nil => rw [named_nil sdeiNumTests, Set.sdiff_empty]; rfl
  | cons testId ids ih =>
    show BitSet.toSet (disableIds table (valTestDisable table control testId) ids).flags = _
    rw [ih, valTestDisable_flags, Set.sdiff_sdiff, named_cons sdeiNumTests testId ids]

theorem runIds_flags (table : TestTable) (control : SdeiTestControl)
    (ids : List (BitVec 32)) :
    BitSet.toSet (runIds table control ids).flags =
      BitSet.toSet (setFlags control 0).flags ∪ named sdeiNumTests ids := by
  have hRest : ∀ (ids : List (BitVec 32)) (c : SdeiTestControl),
      BitSet.toSet (ids.foldl (fun c testId => valTestRunSpecific table c testId false) c).flags =
        BitSet.toSet c.flags ∪ named sdeiNumTests ids := by
    intro ids
    induction ids with
    | nil => intro c; rw [named_nil sdeiNumTests, Set.union_empty]; rfl
    | cons testId ids ih =>
      intro c
      rw [List.foldl_cons, ih, valTestRunSpecific_flags, named_cons sdeiNumTests testId ids,
        if_neg Bool.false_ne_true, Set.union_assoc]
  cases ids with
  | nil =>
    have hNone : named sdeiNumTests [0] = ∅ :=
      named_of_forall_ne fun i _ h => Nat.succ_ne_zero i h.symm
    rw [runIds, valTestRunSpecific_flags, if_pos rfl, hNone, named_nil]
  | cons testId ids =>
    rw [runIds, hRest, valTestRunSpecific_flags, if_pos rfl, named_cons sdeiNumTests testId ids,
      Set.union_assoc]

/-! ## The arguments -/

def runOption : List Char16 := ascii ['-', 'r', 'u', 'n']

/-- The options of the search, with the values that it sets `i` to. -/
def selectionOptions : List (List Char16 × BitVec 32) := [(skipOption, 0), (runOption, 100)]

/-- `test_id`, read from the start of a string. -/
def testIdOf (text : List Char16) : BitVec 32 := (strDecimalToUintn text).setWidth 32

/-- The statements for `-skip`. -/
def SkipLoop (table : TestTable) (arg : List Char16) (control : SdeiTestControl)
    (last : BitVec 32 × SdeiTestControl) : Prop :=
  countTo 32 (strLen arg)
    (fun i c =>
      if arg.getD i 0 = comma then valTestDisable table c (testIdOf (arg.drop (i + 1))) else c)
    (valTestDisable table control (testIdOf arg)) last

/-- The statements for `-run`. -/
def RunLoop (table : TestTable) (arg : List Char16) (control : SdeiTestControl)
    (last : BitVec 32 × SdeiTestControl) : Prop :=
  countTo 32 (strLen arg)
    (fun i c =>
      if arg.getD i 0 = comma then
        valTestRunSpecific table c (testIdOf (arg.drop (i + 1))) false
      else c)
    (valTestRunSpecific table control (testIdOf arg) true) last

/-- `ShellAppMain` comes from `control` to `result` by the part that processes the two options.
`CmdLineArg` has no value when the search has found none of them. -/
def ProcessArgs (table : TestTable) (v : ArgVector) (control result : SdeiTestControl) : Prop :=
  ∃ mid : BitVec 32 × SdeiTestControl,
    (if (scan selectionOptions 1 v.args).1 = 0 then
        ∃ arg, (scan selectionOptions 1 v.args).2 = some arg ∧
          SkipLoop table arg.chars control mid
      else mid = ((scan selectionOptions 1 v.args).1, control)) ∧
    if mid.1 = 100 then
      ∃ arg, (scan selectionOptions 1 v.args).2 = some arg ∧
        ∃ i, RunLoop table arg.chars mid.2 (i, result)
    else result = mid.2

/-- The ids that the statements for an option read. -/
def listIds (arg : List Char16) : List (BitVec 32) := (numberTexts arg arg.length).map testIdOf

theorem skipLoop_iff (table : TestTable) (arg : String16) (control : SdeiTestControl)
    (last : BitVec 32 × SdeiTestControl) :
    SkipLoop table arg.chars control last ↔ arg.chars.length < 2 ^ 32 ∧
      last = (BitVec.ofNat 32 arg.chars.length,
        disableIds table control (listIds arg.chars)) := by
  rw [SkipLoop, arg.strLen_eq, countTo_iff,
    rounds_commas arg.chars fun i c => valTestDisable table c (testIdOf (arg.chars.drop (i + 1))),
    disableIds, listIds, numberTexts, List.map_cons, List.foldl_cons, List.map_map,
    List.foldl_map]
  rfl

theorem runLoop_iff (table : TestTable) (arg : String16) (control result : SdeiTestControl) :
    (∃ i, RunLoop table arg.chars control (i, result)) ↔ arg.chars.length < 2 ^ 32 ∧
      result = runIds table control (listIds arg.chars) := by
  have hLoop : ∀ last, RunLoop table arg.chars control last ↔ arg.chars.length < 2 ^ 32 ∧
      last = (BitVec.ofNat 32 arg.chars.length, runIds table control (listIds arg.chars)) := by
    intro last
    rw [RunLoop, arg.strLen_eq, countTo_iff,
      rounds_commas arg.chars fun i c =>
        valTestRunSpecific table c (testIdOf (arg.chars.drop (i + 1))) false,
      listIds, numberTexts, List.map_cons, runIds, List.map_map, List.foldl_map]
    rfl
  constructor
  · rintro ⟨i, hRun⟩
    obtain ⟨hLength, hLast⟩ := (hLoop _).mp hRun
    exact ⟨hLength, (Prod.mk.inj hLast).2⟩
  · rintro ⟨hLength, rfl⟩
    exact ⟨_, (hLoop _).mpr ⟨hLength, rfl⟩⟩

/-- The counter has run to the length of the list, which says `-run` when it is 100. -/
theorem processArgs_skip (table : TestTable) {v : ArgVector} {arg : String16}
    (hGives : v.Gives selectionOptions skipOption arg) (control result : SdeiTestControl) :
    ProcessArgs table v control result ↔ arg.chars.length < 2 ^ 32 ∧
      result = if arg.chars.length = 100 then
          runIds table (disableIds table control (listIds arg.chars)) (listIds arg.chars)
        else disableIds table control (listIds arg.chars) := by
  have hScan : scan selectionOptions 1 v.args = (0, some arg) := scan_given hGives rfl 1
  have hMark : arg.chars.length < 2 ^ 32 →
      (BitVec.ofNat 32 arg.chars.length = 100 ↔ arg.chars.length = 100) := by
    intro hLength
    rw [← BitVec.toNat_inj, BitVec.toNat_ofNat, Nat.mod_eq_of_lt hLength]
    rfl
  simp only [ProcessArgs, hScan, if_true, Option.some_inj, exists_eq_left', skipLoop_iff,
    runLoop_iff]
  constructor
  · rintro ⟨mid, ⟨hLength, rfl⟩, hRun⟩
    simp only [hMark hLength] at hRun
    refine ⟨hLength, ?_⟩
    by_cases hLong : arg.chars.length = 100
    · rw [if_pos hLong] at hRun ⊢
      exact hRun.2
    · rwa [if_neg hLong] at hRun ⊢
  · rintro ⟨hLength, hResult⟩
    refine ⟨_, ⟨hLength, rfl⟩, ?_⟩
    simp only [hMark hLength]
    by_cases hLong : arg.chars.length = 100
    · rw [if_pos hLong] at hResult ⊢
      exact ⟨hLength, hResult⟩
    · rwa [if_neg hLong] at hResult ⊢

theorem processArgs_run (table : TestTable) {v : ArgVector} {arg : String16}
    (hGives : v.Gives selectionOptions runOption arg) (control result : SdeiTestControl) :
    ProcessArgs table v control result ↔ arg.chars.length < 2 ^ 32 ∧
      result = runIds table control (listIds arg.chars) := by
  have hScan : scan selectionOptions 1 v.args = (100, some arg) := scan_given hGives rfl 1
  have hMark : ¬ (100 : BitVec 32) = 0 := by decide
  simp only [ProcessArgs, hScan, if_neg hMark, exists_eq_left, if_true, Option.some_inj,
    exists_eq_left', runLoop_iff]

/-- Without an option the counter is `Argc`, and the string for `-run` has no value. -/
theorem processArgs_none (table : TestTable) {v : ArgVector}
    (hNone : ∀ x ∈ v.args, selectionOptions.lookup x.chars = none)
    (control result : SdeiTestControl) :
    ProcessArgs table v control result ↔ v.args.length + 1 ≠ 100 ∧ result = control := by
  have hScan := scan_none hNone 1
  have hArgc : (1 + BitVec.ofNat 32 v.args.length : BitVec 32).toNat = v.args.length + 1 := by
    have hLess := v.argc_lt
    have hOne : (1 : BitVec 32).toNat = 1 := by rfl
    rw [BitVec.toNat_add, BitVec.toNat_ofNat, hOne]
    omega
  have hZero : ¬ (1 + BitVec.ofNat 32 v.args.length : BitVec 32) = 0 := by
    intro h
    rw [h] at hArgc
    exact absurd hArgc (Nat.succ_ne_zero _).symm
  have hMark : (1 + BitVec.ofNat 32 v.args.length : BitVec 32) = 100 ↔
      v.args.length + 1 = 100 := by
    rw [← BitVec.toNat_inj, hArgc]
    rfl
  simp only [ProcessArgs, hScan, if_neg hZero, exists_eq_left, hMark]
  by_cases hLong : v.args.length + 1 = 100
  · simp [hLong]
  · simp [hLong]

/-! ## The tests that are selected -/

/-- What an argument vector asks for. -/
inductive Request where
  | skip (list : String16)
  | run (list : String16)
  | all

/-- The first of the two options in the vector is that of the request. -/
def Request.MadeBy (v : ArgVector) : Request → Prop
  | .skip list => v.Gives selectionOptions skipOption list
  | .run list => v.Gives selectionOptions runOption list
  | .all => ∀ x ∈ v.args, selectionOptions.lookup x.chars = none

/-- The numbers of the list; ids of tests are numbers of 32 bits. -/
def Request.numbers : Request → List Nat
  | .skip list => listNumbers list.chars
  | .run list => listNumbers list.chars
  | .all => []

/-- The request selects the test with this id. -/
def Request.Selects : Request → BitVec 32 → Prop
  | .skip list, testId => testId.toNat ∉ listNumbers list.chars
  | .run list, testId => testId.toNat ∈ listNumbers list.chars
  | .all, _ => True

/-- The counter of `ShellAppMain` neither wraps nor ends with the value of the other option. -/
def Request.CounterFits (v : ArgVector) : Request → Prop
  | .skip list => list.chars.length < 2 ^ 32 ∧ list.chars.length ≠ 100
  | .run list => list.chars.length < 2 ^ 32
  | .all => v.args.length + 1 ≠ 100

/-- The flags of the tests are those asked for. -/
def FlagsAsAsked (table : TestTable) (r : Request) (control : SdeiTestControl) : Prop :=
  ∀ i (hi : i < table.tests.length),
    flagSet control i = true ↔ r.Selects (table.tests[i]).id

theorem flagSet_iff (control : SdeiTestControl) (i : Nat) :
    flagSet control i = true ↔ i ∈ BitSet.toSet control.flags := by
  have hMask := BitSet.mask_and_eq_zero (Nat.zero_lt_succ 63) control.flags i
  rw [BitVec.and_comm] at hMask
  rw [BitSet.mem_toSet, ← not_iff_not, ← hMask, flagSet, bne_iff_ne, not_not]
  rfl

theorem mem_named_listIds {arg : List Char16} (hIds : ∀ n ∈ listNumbers arg, n < 2 ^ 32)
    {i : Nat} (hi : i < sdeiNumTests) :
    i ∈ named sdeiNumTests (listIds arg) ↔ i + 1 ∈ listNumbers arg := by
  rw [named, Set.mem_ofPred_eq, and_iff_right hi]
  by_cases hArg : arg = []
  · -- the id read from the empty string is 0
    subst hArg
    have hRead : (listIds []).map BitVec.toNat = [0] := by decide
    rw [hRead, List.mem_singleton, listNumbers, if_pos rfl]
    simp
  · rw [listNumbers_eq hArg] at hIds ⊢
    have hRead : (listIds arg).map BitVec.toNat =
        (numberTexts arg arg.length).map decimalNumber := by
      rw [listIds, List.map_map]
      apply List.map_congr_left
      intro text hText
      exact (strDecimalToUintn_word text).mpr (hIds _ (List.mem_map_of_mem hText))
    rw [hRead]

theorem mem_setFlags (control : SdeiTestControl) (value : BitVec 64) {i : Nat}
    (hi : i < 64) :
    i ∈ BitSet.toSet (setFlags control value).flags ↔ value.getLsbD i = true := by
  rw [BitSet.mem_toSet, BitSet.Mem, Nat.div_eq_of_lt hi, Nat.mod_eq_of_lt hi]
  rfl

theorem valTestInit_flags (control : SdeiTestControl) {i : Nat} (hi : i < 64) :
    i ∈ BitSet.toSet (valTestInit control).flags := by
  rw [valTestInit, mem_setFlags control _ hi, BitVec.getLsbD_allOnes]
  exact decide_eq_true hi

theorem setFlags_zero_flags (control : SdeiTestControl) {i : Nat} (hi : i < 64) :
    i ∉ BitSet.toSet (setFlags control 0).flags := by
  rw [mem_setFlags control 0 hi, BitVec.ofNat_eq_ofNat, BitVec.getLsbD_zero]
  exact Bool.false_ne_true

theorem flagsAsAsked_iff (table : TestTable) (r : Request) (control : SdeiTestControl) :
    FlagsAsAsked table r control ↔ ∀ i < sdeiNumTests,
      i ∈ BitSet.toSet control.flags ↔ r.Selects (BitVec.ofNat 32 (i + 1)) := by
  constructor
  · intro h i hi
    rw [← table.length_eq] at hi
    rw [← flagSet_iff, h i hi, table.id_eq hi]
  · intro h i hi
    rw [flagSet_iff, h i (by rwa [← table.length_eq]), table.id_eq hi]

theorem testId_toNat {i : Nat} (hi : i < sdeiNumTests) :
    (BitVec.ofNat 32 (i + 1)).toNat = i + 1 := by
  have hSmall : i < 49 := hi
  rw [BitVec.toNat_ofNat, Nat.mod_eq_of_lt (by omega)]

/-- All tests but those of the list. -/
theorem disableIds_asAsked (table : TestTable) (control : SdeiTestControl) (list : String16)
    (hIds : ∀ n ∈ listNumbers list.chars, n < 2 ^ 32) :
    FlagsAsAsked table (.skip list)
      (disableIds table (valTestInit control) (listIds list.chars)) := by
  rw [flagsAsAsked_iff]
  intro i hi
  have hOn := valTestInit_flags control (Nat.lt_trans hi (by decide))
  rw [disableIds_flags, Set.mem_sdiff, and_iff_right hOn, mem_named_listIds hIds hi,
    Request.Selects, testId_toNat hi]

/-- Those of the list alone. -/
theorem runIds_asAsked (table : TestTable) (control : SdeiTestControl) (list : String16)
    (hIds : ∀ n ∈ listNumbers list.chars, n < 2 ^ 32) :
    FlagsAsAsked table (.run list) (runIds table control (listIds list.chars)) := by
  rw [flagsAsAsked_iff]
  intro i hi
  have hOff := setFlags_zero_flags control (Nat.lt_trans hi (by decide))
  rw [runIds_flags table control, Set.mem_union, or_iff_right hOff,
    mem_named_listIds hIds hi, Request.Selects, testId_toNat hi]

/-- What one of the two options selects, the other does not. -/
theorem not_asAsked_of_run {table : TestTable} {control : SdeiTestControl} {list : String16}
    (h : FlagsAsAsked table (.run list) control) : ¬ FlagsAsAsked table (.skip list) control := by
  intro hSkip
  have hFirst : 0 < sdeiNumTests := Nat.zero_lt_succ 48
  have hIn := (flagsAsAsked_iff table _ control).mp h 0 hFirst
  have hOut := (flagsAsAsked_iff table _ control).mp hSkip 0 hFirst
  exact iff_not_self (hIn.symm.trans hOut)

/-- The flags are those asked for exactly when the counter of the option's loop neither wraps nor
ends with the value that stands for the other option. -/
theorem processArgs_iff (table : TestTable) {v : ArgVector} {r : Request} (hMade : r.MadeBy v)
    (hIds : ∀ n ∈ r.numbers, n < 2 ^ 32) (control : SdeiTestControl) :
    (∃ result, ProcessArgs table v (valTestInit control) result ∧ FlagsAsAsked table r result) ↔
      r.CounterFits v := by
  cases r with
  | skip list =>
    simp only [processArgs_skip table hMade, Request.CounterFits]
    constructor
    · rintro ⟨result, ⟨hLength, rfl⟩, hFlags⟩
      refine ⟨hLength, fun hLong => ?_⟩
      rw [if_pos hLong] at hFlags
      exact not_asAsked_of_run (runIds_asAsked table _ list hIds) hFlags
    · rintro ⟨hLength, hLong⟩
      refine ⟨_, ⟨hLength, rfl⟩, ?_⟩
      rw [if_neg hLong]
      exact disableIds_asAsked table control list hIds
  | run list =>
    simp only [processArgs_run table hMade, Request.CounterFits]
    constructor
    · rintro ⟨result, ⟨hLength, rfl⟩, hFlags⟩
      exact hLength
    · intro hLength
      exact ⟨_, ⟨hLength, rfl⟩, runIds_asAsked table _ list hIds⟩
  | all =>
    simp only [processArgs_none table hMade, Request.CounterFits]
    constructor
    · rintro ⟨result, ⟨hArgc, -⟩, hFlags⟩
      exact hArgc
    · intro hArgc
      refine ⟨_, ⟨hArgc, rfl⟩, ?_⟩
      rw [flagsAsAsked_iff]
      intro i hi
      exact iff_of_true (valTestInit_flags control (Nat.lt_trans hi (by decide))) trivial

theorem plainTable_ids :
    ((List.range sdeiNumTests).map fun i =>
        (⟨BitVec.ofNat 32 (i + 1), [0], 0, false, noDeps_terminated⟩ : SdeiTestDesc)).map
      SdeiTestDesc.id = (List.range sdeiNumTests).map fun i => BitVec.ofNat 32 (i + 1) := by
  rw [List.map_map]
  rfl

/-- A table whose tests depend on no others. -/
def plainTable : TestTable where
  tests := (List.range sdeiNumTests).map fun i =>
    ⟨BitVec.ofNat 32 (i + 1), [0], 0, false, noDeps_terminated⟩
  ids := plainTable_ids

/-- The list `3,5`. -/
def shortList : List Char16 := ascii ['3', ',', '5']

theorem shortList_noNul : 0 ∉ shortList := by decide

theorem processArgs_shortList :
    ∃ result, ProcessArgs plainTable (skipVector ⟨shortList, shortList_noNul⟩)
        (valTestInit { flags := fun _ => 0 }) result ∧
      FlagsAsAsked plainTable (.skip ⟨shortList, shortList_noNul⟩) result :=
  (processArgs_iff plainTable (r := .skip ⟨shortList, shortList_noNul⟩)
    (skipVector_gives selectionOptions _) (by decide) { flags := fun _ => 0 }).mpr
    ⟨by decide, by decide⟩

/-- The list `1,10,11,12,…,42`, of a hundred characters. -/
def hundredChars : List Char16 :=
  0x31 :: (List.range 33).flatMap fun k =>
    [comma, BitVec.ofNat 16 (0x31 + k / 10), BitVec.ofNat 16 (0x30 + k % 10)]

theorem hundredChars_noNul : 0 ∉ hundredChars := by decide

theorem hundredChars_ids : ∀ n ∈ listNumbers hundredChars, n < 2 ^ 32 := by decide +kernel

/-- With `-skip` and this list the tests of the list are run, and no others. -/
theorem hundredChars_run :
    ¬ ∃ result, ProcessArgs plainTable (skipVector ⟨hundredChars, hundredChars_noNul⟩)
        (valTestInit { flags := fun _ => 0 }) result ∧
      FlagsAsAsked plainTable (.skip ⟨hundredChars, hundredChars_noNul⟩) result := by
  rintro ⟨result, hProcess, hFlags⟩
  obtain ⟨-, rfl⟩ :=
    (processArgs_skip plainTable (skipVector_gives selectionOptions _) _ result).mp hProcess
  have hRun := runIds_asAsked plainTable
    (disableIds plainTable (valTestInit { flags := fun _ => 0 }) (listIds hundredChars))
    ⟨hundredChars, hundredChars_noNul⟩ hundredChars_ids
  rw [if_pos (by decide)] at hFlags
  exact not_asAsked_of_run hRun hFlags

end EnterpriseAcs.Sdei
