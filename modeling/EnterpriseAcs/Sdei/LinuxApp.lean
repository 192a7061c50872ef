import EnterpriseAcs.Sdei.TestSelection

/-!
# Test selection in the Linux application of the SDEI suite

`parse_cmdline` passes each id of a list, less 1, to `testlib_disable_test` or to
`testlib_run_specific`. These do not search the test table: they take the id for the index of a
flag, after a comparison with their own number of tests. A step that C leaves undefined has no
result here.

* `linuxSkip_spec`, `linuxRun_spec`: when a list has a result, and which flags it leads to.
* `selection_agrees_iff`: the flags are those of the UEFI application exactly for lists of positive
  ids without the one or two ids just past the last test, and for `--run` lists that are not empty.
-/

namespace EnterpriseAcs.Sdei

/-- `SDEI_NUM_TESTS` of the Linux application. -/
def linuxNumTests : Int := 50

/-- The flag `i`: a negative shift and a word outside `flags[2]` are undefined. -/
def flagIndex (i : Int) : Option Nat :=
  if 0 ≤ i.tmod 64 ∧ 0 ≤ i.tdiv 64 ∧ i.tdiv 64 < 2 then
    some (64 * (i.tdiv 64).toNat + (i.tmod 64).toNat)
  else none

def testlibRunSpecific (control : SdeiTestControl) (testId count : Int) :
    Option SdeiTestControl :=
  let control := if count = 1 then setFlags control 0 else control
  if testId ≤ linuxNumTests then (flagIndex testId).map (enableTest control) else some control

def testlibDisableTest (control : SdeiTestControl) (testId : Int) : Option SdeiTestControl :=
  if testId < linuxNumTests then (flagIndex testId).map (disableTest control) else some control

/-- A value of `int`; an overflow is undefined. -/
def checkInt (x : Int) : Option Int := if -2 ^ 31 ≤ x ∧ x < 2 ^ 31 then some x else none

/-- The loop of `parse_cmdline` for `--skip`. -/
def linuxSkip (control : SdeiTestControl) : List (BitVec 32) → Option SdeiTestControl
  | [] => some control
  | testId :: ids => do
    let i ← checkInt (testId.toInt - 1)
    let control ← testlibDisableTest control i
    linuxSkip control ids

/-- The loop of `parse_cmdline` for `--run`; `count` is 0 before it. -/
def linuxRun (control : SdeiTestControl) (count : Int) :
    List (BitVec 32) → Option SdeiTestControl
  | [] => some control
  | testId :: ids => do
    let count ← checkInt (count + 1)
    let i ← checkInt (testId.toInt - 1)
    let control ← testlibRunSpecific control i count
    linuxRun control count ids

/-- The Linux application has a result, and its flags are those of the UEFI application. -/
def Agrees (linux : Option SdeiTestControl) (uefi : SdeiTestControl) : Prop :=
  ∃ control, linux = some control ∧ ∀ k < 2, control.flags k = uefi.flags k

/-! ## One id -/

theorem flagIndex_of_neg {i : Int} (hi : i < 0) : flagIndex i = none := by
  rw [flagIndex, if_neg]
  rintro ⟨hBit, hWord, -⟩
  -- both are 0 or less, and one of them is not 0
  have hSplit := Int.tmod_add_tdiv_mul i 64
  omega

theorem flagIndex_of_lt {i : Int} (h : 0 ≤ i) (hi : i < 128) : flagIndex i = some i.toNat := by
  have hDiv : i.tdiv 64 = i / 64 := Int.tdiv_eq_ediv_of_nonneg h
  have hMod : i.tmod 64 = i % 64 := Int.tmod_eq_emod_of_nonneg h
  rw [flagIndex, hDiv, hMod, if_pos (by omega)]
  apply congrArg some
  omega

theorem toInt_eq_toNat {testId : BitVec 32} (h : 1 ≤ testId.toInt) :
    testId.toInt = testId.toNat := by
  have hLess := testId.isLt
  rw [BitVec.toInt_eq_toNat_cond] at h ⊢
  split at h
  · rw [if_pos ‹_›]
  · omega

/-- The flag that an id below the bound stands for. -/
theorem named_singleton {n : Nat} {testId : BitVec 32} (h : 1 ≤ testId.toInt) :
    named n [testId] = if testId.toInt - 1 < n then {(testId.toInt - 1).toNat} else ∅ := by
  have hNat := toInt_eq_toNat h
  by_cases hLess : testId.toInt - 1 < n
  · rw [if_pos hLess]
    exact named_of_lt (by omega) (by omega)
  · rw [if_neg hLess]
    exact named_of_forall_ne (by omega)

theorem checkInt_pred {testId : BitVec 32} (h : 1 ≤ testId.toInt) :
    checkInt (testId.toInt - 1) = some (testId.toInt - 1) := by
  have hLess := BitVec.toInt_lt (x := testId)
  exact if_pos (by omega)

theorem checkInt_eq_some {x y : Int} :
    checkInt x = some y ↔ (-2 ^ 31 ≤ x ∧ x < 2 ^ 31) ∧ x = y := by
  rw [checkInt, Option.ite_none_right_eq_some, Option.some_inj]

theorem testlibDisableTest_of_neg (control : SdeiTestControl) {testId : Int} (h : testId < 0) :
    testlibDisableTest control testId = none := by
  have hLess : testId < linuxNumTests := Int.lt_trans h (by decide)
  rw [testlibDisableTest, if_pos hLess, flagIndex_of_neg h, Option.map_none]

theorem testlibRunSpecific_of_neg (control : SdeiTestControl) (count : Int) {testId : Int}
    (h : testId < 0) : testlibRunSpecific control testId count = none := by
  have hLess : testId ≤ linuxNumTests := Int.le_of_lt (Int.lt_trans h (by decide))
  rw [testlibRunSpecific, if_pos hLess, flagIndex_of_neg h, Option.map_none]

theorem testlibDisableTest_spec (control : SdeiTestControl) {testId : BitVec 32}
    (h : 1 ≤ testId.toInt) :
    ∃ control', testlibDisableTest control (testId.toInt - 1) = some control' ∧
      BitSet.toSet control'.flags = BitSet.toSet control.flags \ named 50 [testId] := by
  rw [testlibDisableTest, named_singleton h]
  by_cases hLess : testId.toInt - 1 < linuxNumTests
  · have hIndex : flagIndex (testId.toInt - 1) = some (testId.toInt - 1).toNat :=
      flagIndex_of_lt (by omega) (Int.lt_trans hLess (by decide))
    rw [if_pos hLess, if_pos (show _ < ((50 : Nat) : Int) from hLess), hIndex]
    exact ⟨_, rfl, disableTest_flags control _⟩
  · rw [if_neg hLess, if_neg (show ¬ _ < ((50 : Nat) : Int) from hLess)]
    exact ⟨control, rfl, (Set.sdiff_empty).symm⟩

theorem testlibRunSpecific_spec (control : SdeiTestControl) (count : Int) {testId : BitVec 32}
    (h : 1 ≤ testId.toInt) :
    ∃ control', testlibRunSpecific control (testId.toInt - 1) count = some control' ∧
      BitSet.toSet control'.flags =
        BitSet.toSet (if count = 1 then setFlags control 0 else control).flags ∪
          named 51 [testId] := by
  rw [testlibRunSpecific, named_singleton h]
  by_cases hLess : testId.toInt - 1 ≤ linuxNumTests
  · have hIndex : flagIndex (testId.toInt - 1) = some (testId.toInt - 1).toNat :=
      flagIndex_of_lt (by omega) (Int.lt_of_le_of_lt hLess (by decide))
    rw [if_pos hLess, if_pos (show _ < ((51 : Nat) : Int) from Int.lt_add_one_of_le hLess),
      hIndex]
    exact ⟨_, rfl, enableTest_flags _ _⟩
  · rw [if_neg hLess, if_neg (show ¬ _ < ((51 : Nat) : Int) from fun h =>
      hLess (Int.le_of_lt_add_one h))]
    exact ⟨_, rfl, (Set.union_empty _).symm⟩

/-! ## Lists of ids -/

theorem linuxSkip_spec (control : SdeiTestControl) {ids : List (BitVec 32)}
    (hIds : ∀ testId ∈ ids, 1 ≤ testId.toInt) :
    ∃ result, linuxSkip control ids = some result ∧
      BitSet.toSet result.flags = BitSet.toSet control.flags \ named 50 ids := by
  induction ids generalizing control with
  | nil => exact ⟨control, rfl, by rw [named_nil, Set.sdiff_empty]⟩
  | cons testId ids ih =>
    obtain ⟨hId, hRest⟩ := List.forall_mem_cons.mp hIds
    obtain ⟨next, hStep, hNext⟩ := testlibDisableTest_spec control hId
    obtain ⟨result, hResult, hFlags⟩ := ih next hRest
    refine ⟨result, ?_, ?_⟩
    · simp only [linuxSkip, checkInt_pred hId, Option.bind_eq_bind, Option.bind_some, hStep]
      exact hResult
    · rw [hFlags, hNext, Set.sdiff_sdiff, ← named_cons]

/-- A list with a result has positive ids only. -/
theorem linuxSkip_pos {control result : SdeiTestControl} {ids : List (BitVec 32)}
    (h : linuxSkip control ids = some result) : ∀ testId ∈ ids, 1 ≤ testId.toInt := by
  induction ids generalizing control with
  | nil => exact List.forall_mem_nil _
  | cons testId ids ih =>
    simp only [linuxSkip, Option.bind_eq_bind, Option.bind_eq_some_iff] at h
    obtain ⟨i, hCheck, next, hStep, hRest⟩ := h
    obtain rfl := (checkInt_eq_some.mp hCheck).2
    refine List.forall_mem_cons.mpr ⟨?_, ih hRest⟩
    by_contra hId
    rw [testlibDisableTest_of_neg control (by omega)] at hStep
    cases hStep

theorem linuxRun_spec (control : SdeiTestControl) {count : Int} (hCount : 0 ≤ count)
    {ids : List (BitVec 32)} (hLength : count + ids.length < 2 ^ 31)
    (hIds : ∀ testId ∈ ids, 1 ≤ testId.toInt) :
    ∃ result, linuxRun control count ids = some result ∧
      BitSet.toSet result.flags =
        BitSet.toSet (if count = 0 ∧ ids ≠ [] then setFlags control 0 else control).flags ∪
          named 51 ids := by
  induction ids generalizing control count with
  | nil => exact ⟨control, rfl, by rw [named_nil, Set.union_empty, if_neg (by simp)]⟩
  | cons testId ids ih =>
    obtain ⟨hId, hRest⟩ := List.forall_mem_cons.mp hIds
    rw [List.length_cons] at hLength
    obtain ⟨next, hStep, hNext⟩ := testlibRunSpecific_spec control (count + 1) hId
    obtain ⟨result, hResult, hFlags⟩ :=
      ih next (Int.add_nonneg hCount Int.one_nonneg) (by omega) hRest
    have hCheck : checkInt (count + 1) = some (count + 1) := if_pos (by omega)
    refine ⟨result, ?_, ?_⟩
    · simp only [linuxRun, hCheck, checkInt_pred hId, Option.bind_eq_bind, Option.bind_some,
        hStep]
      exact hResult
    · have hFirst : count + 1 = 1 ↔ count = 0 ∧ testId :: ids ≠ [] := by
        simp
      rw [hFlags, if_neg (fun h => absurd h.1 (by omega)), hNext, Set.union_assoc, ← named_cons]
      simp only [hFirst]

theorem linuxRun_pos {control result : SdeiTestControl} {count : Int} (hCount : count < 2 ^ 31)
    {ids : List (BitVec 32)} (h : linuxRun control count ids = some result) :
    count + ids.length < 2 ^ 31 ∧ ∀ testId ∈ ids, 1 ≤ testId.toInt := by
  induction ids generalizing control count with
  | nil => exact ⟨by simpa using hCount, List.forall_mem_nil _⟩
  | cons testId ids ih =>
    simp only [linuxRun, Option.bind_eq_bind, Option.bind_eq_some_iff] at h
    obtain ⟨next, hNext, i, hCheck, control', hStep, hRest⟩ := h
    obtain ⟨⟨-, hNextLess⟩, rfl⟩ := checkInt_eq_some.mp hNext
    obtain rfl := (checkInt_eq_some.mp hCheck).2
    obtain ⟨hLength, hIds⟩ := ih hNextLess hRest
    refine ⟨by rw [List.length_cons]; omega, List.forall_mem_cons.mpr ⟨?_, hIds⟩⟩
    by_contra hId
    rw [testlibRunSpecific_of_neg control _ (by omega)] at hStep
    cases hStep

/-! ## Both applications -/

/-- Ids that are not `n + 1` name the same indices below `n + 1` as below `n`. -/
theorem named_succ {n : Nat} {ids : List (BitVec 32)}
    (h : ∀ testId ∈ ids, testId.toNat ≠ n + 1) : named (n + 1) ids = named n ids := by
  ext j
  simp only [named, Set.mem_ofPred_eq, List.mem_map]
  constructor
  · rintro ⟨hj, testId, hMem, hId⟩
    have hOther := h testId hMem
    exact ⟨by omega, testId, hMem, hId⟩
  · rintro ⟨hj, hMem⟩
    exact ⟨Nat.lt_succ_of_lt hj, hMem⟩

/-- The flags agree at the bits of the first word. -/
theorem mem_iff_of_agrees {control uefi : SdeiTestControl}
    (h : ∀ k < 2, control.flags k = uefi.flags k) {j : Nat} (hj : j < 64) :
    j ∈ BitSet.toSet control.flags ↔ j ∈ BitSet.toSet uefi.flags := by
  rw [BitSet.mem_toSet, BitSet.mem_toSet, BitSet.Mem, BitSet.Mem, Nat.div_eq_of_lt hj,
    h 0 Nat.two_pos]

theorem agrees_of_toSet {result uefi : SdeiTestControl}
    (h : BitSet.toSet result.flags = BitSet.toSet uefi.flags) : Agrees (some result) uefi := by
  have hFlags : result.flags = uefi.flags := BitSet.toSet_injective (Nat.zero_lt_succ 63) h
  exact ⟨result, rfl, fun k _ => by rw [hFlags]⟩

/-- Positive ids other than `n`, as numbers. -/
theorem toNat_ne_of_toInt {testId : BitVec 32} (h : 1 ≤ testId.toInt) {n : Nat}
    (hId : testId.toInt ≠ n) : testId.toNat ≠ n := by
  rw [toInt_eq_toNat h] at hId
  exact fun hEq => hId (by rw [hEq])

theorem mem_named {n j : Nat} {ids : List (BitVec 32)} {testId : BitVec 32}
    (hMem : testId ∈ ids) (hj : j < n) (hId : testId.toInt = j + 1) : j ∈ named n ids := by
  have hNat : testId.toInt = testId.toNat := toInt_eq_toNat (by omega)
  refine ⟨hj, List.mem_map.mpr ⟨testId, hMem, ?_⟩⟩
  omega

theorem skip_agrees_iff (table : TestTable) (control : SdeiTestControl)
    (ids : List (BitVec 32)) :
    Agrees (linuxSkip (valTestInit control) ids) (disableIds table (valTestInit control) ids) ↔
      ∀ testId ∈ ids, 1 ≤ testId.toInt ∧ testId.toInt ≠ 50 := by
  constructor
  · rintro ⟨result, hResult, hAgree⟩ testId hMem
    have hPos := linuxSkip_pos hResult
    refine ⟨hPos testId hMem, fun hId => ?_⟩
    -- the flag behind the last test is cleared by the Linux application only
    obtain ⟨result', hResult', hFlags⟩ := linuxSkip_spec (valTestInit control) hPos
    obtain rfl : result = result' := Option.some_inj.mp (hResult.symm.trans hResult')
    have hBit := mem_iff_of_agrees hAgree (show 49 < 64 by omega)
    rw [hFlags, disableIds_flags] at hBit
    have hLinux : 49 ∈ named 50 ids := mem_named hMem (by omega) hId
    have hUefi : 49 ∉ named sdeiNumTests ids := fun h => absurd h.1 (by decide)
    exact (hBit.mpr ⟨valTestInit_flags control (by omega), hUefi⟩).2 hLinux
  · intro hIds
    obtain ⟨result, hResult, hFlags⟩ :=
      linuxSkip_spec (valTestInit control) fun testId hMem => (hIds testId hMem).1
    have hNamed : named 50 ids = named 49 ids :=
      named_succ fun testId hMem => toNat_ne_of_toInt (hIds testId hMem).1 (hIds testId hMem).2
    rw [hResult]
    apply agrees_of_toSet
    rw [hFlags, disableIds_flags, hNamed]
    rfl

/-- For an empty list only the UEFI application clears the flags. -/
theorem run_nil_disagrees (table : TestTable) (control : SdeiTestControl) :
    ¬ Agrees (linuxRun (valTestInit control) 0 []) (runIds table (valTestInit control) []) := by
  rintro ⟨result, hResult, hAgree⟩
  cases hResult
  have hBit := mem_iff_of_agrees hAgree (show 0 < 64 by omega)
  rw [runIds_flags, named_nil, Set.union_empty] at hBit
  exact setFlags_zero_flags _ (by omega) (hBit.mp (valTestInit_flags control (by omega)))

theorem run_agrees_iff (table : TestTable) (control : SdeiTestControl)
    (ids : List (BitVec 32)) :
    Agrees (linuxRun (valTestInit control) 0 ids) (runIds table (valTestInit control) ids) ↔
      ids ≠ [] ∧ ids.length < 2 ^ 31 ∧
        ∀ testId ∈ ids, 1 ≤ testId.toInt ∧ testId.toInt ≠ 50 ∧ testId.toInt ≠ 51 := by
  by_cases hSome : ids = []
  · subst hSome
    exact iff_of_false (run_nil_disagrees table control) fun h => h.1 rfl
  have hFirst : (0 : Int) = 0 ∧ ids ≠ [] := ⟨rfl, hSome⟩
  rw [and_iff_right hSome]
  constructor
  · rintro ⟨result, hResult, hAgree⟩
    obtain ⟨hLength, hPos⟩ := linuxRun_pos (by decide) hResult
    obtain ⟨result', hResult', hFlags⟩ :=
      linuxRun_spec (valTestInit control) (Int.le_refl 0) hLength hPos
    obtain rfl : result = result' := Option.some_inj.mp (hResult.symm.trans hResult')
    rw [if_pos hFirst] at hFlags
    -- the flags behind the last test are set by the Linux application only
    have hStray : ∀ j < 64, sdeiNumTests ≤ j → j ∉ named 51 ids := by
      intro j hj hBehind hNamed
      have hBit := mem_iff_of_agrees hAgree hj
      rw [hFlags, runIds_flags] at hBit
      have hUefi : j ∉ named sdeiNumTests ids := fun h => absurd h.1 (Nat.not_lt.mpr hBehind)
      exact (hBit.mp (Or.inr hNamed)).elim (setFlags_zero_flags _ hj) hUefi
    refine ⟨by omega, fun testId hMem => ⟨hPos testId hMem, fun hId => ?_, fun hId => ?_⟩⟩
    · exact hStray 49 (by omega) (Nat.le_refl _) (mem_named hMem (by omega) hId)
    · exact hStray 50 (by omega) (Nat.le_succ _) (mem_named hMem (by omega) hId)
  · rintro ⟨hLength, hIds⟩
    have hCount : (0 : Int) + ids.length < 2 ^ 31 := by omega
    obtain ⟨result, hResult, hFlags⟩ :=
      linuxRun_spec (valTestInit control) (Int.le_refl 0) hCount
        fun testId hMem => (hIds testId hMem).1
    have hNamed51 : named 51 ids = named 50 ids :=
      named_succ fun testId hMem => toNat_ne_of_toInt (hIds testId hMem).1 (hIds testId hMem).2.2
    have hNamed50 : named 50 ids = named 49 ids :=
      named_succ fun testId hMem => toNat_ne_of_toInt (hIds testId hMem).1 (hIds testId hMem).2.1
    rw [hResult]
    apply agrees_of_toSet
    rw [hFlags, if_pos hFirst, runIds_flags, hNamed51, hNamed50]
    rfl

/-- The two applications select the same tests exactly for these lists. -/
theorem selection_agrees_iff (table : TestTable) (control : SdeiTestControl)
    (ids : List (BitVec 32)) :
    (Agrees (linuxSkip (valTestInit control) ids) (disableIds table (valTestInit control) ids) ↔
      ∀ testId ∈ ids, 1 ≤ testId.toInt ∧ testId.toInt ≠ 50) ∧
    (Agrees (linuxRun (valTestInit control) 0 ids) (runIds table (valTestInit control) ids) ↔
      ids ≠ [] ∧ ids.length < 2 ^ 31 ∧
        ∀ testId ∈ ids, 1 ≤ testId.toInt ∧ testId.toInt ≠ 50 ∧ testId.toInt ≠ 51) :=
  ⟨skip_agrees_iff table control ids, run_agrees_iff table control ids⟩

/-- A list with the id 50, which no test has. -/
theorem selection_fifty_disagrees :
    ¬ (Agrees (linuxSkip (valTestInit { flags := fun _ => 0 }) [50])
        (disableIds plainTable (valTestInit { flags := fun _ => 0 }) [50]) ∧
      Agrees (linuxRun (valTestInit { flags := fun _ => 0 }) 0 [50])
        (runIds plainTable (valTestInit { flags := fun _ => 0 }) [50])) := by
  rintro ⟨hSkip, -⟩
  have hIds := (skip_agrees_iff plainTable _ [50]).mp hSkip 50 (List.mem_singleton_self _)
  exact hIds.2 (by decide)

end EnterpriseAcs.Sdei
