import EnterpriseAcs.Machine.CommandLine
import Mathlib.Data.List.GetD

/-!
# The `-skip` option of the MPAM application

`ShellAppMain` stores the numbers of the list after `-skip` in `g_skip_test_num`, an array of
three words. The index of a number goes up with each comma, and nothing compares it with the size
of the array.

* `roundStores`: what one round of the loop over the characters stores.
* `parse_stored`: after the loop the words hold the numbers read, one for each field.
* `skipParse_iff`: the numbers are stored, and nothing else is written, exactly for the lists of
  at most three numbers of 32 bits that the counter of the loop gets to the end of.
* `userOverride_iff`: then `val_initialize_test` skips the tests of the list.
-/

namespace EnterpriseAcs.Mpam

open Machine WhileLoop

/-- `MAX_TEST_SKIP_NUM`, and the size of `g_skip_test_num`. -/
def maxTestSkipNum : Nat := 3

/-- The one option that the search of `ShellAppMain` looks for; it sets `i` to 0. -/
def skipOptions : List (List Char16 × BitVec 32) := [(skipOption, 0)]

/-- `nums` is the memory from `g_skip_test_num` on, as words of 32 bits; `written` is the history
of the indices written. -/
structure SkipState where
  j : BitVec 32 := 0
  nums : Nat → BitVec 32
  written : List Nat := []

/-- The initial values of the array, with any memory behind it. -/
def skipInit (beyond : Nat → BitVec 32) : SkipState where
  nums k := if k < maxTestSkipNum then 10000 else beyond k

/-- `g_skip_test_num[index] = value`. -/
def SkipState.store (s : SkipState) (index : Nat) (value : BitVec 64) : SkipState :=
  { s with
    nums := Function.update s.nums index (value.setWidth 32)
    written := s.written ++ [index] }

/-- One round of the loop over the characters of `arg`. -/
def skipRound (arg : List Char16) (i : Nat) (s : SkipState) : SkipState :=
  let s := s.store 0 (strDecimalToUintn arg)
  if arg.getD i 0 = comma then
    { s with j := s.j + 1 }.store (s.j + 1).toNat (strDecimalToUintn (arg.drop (i + 1)))
  else s

/-- `ShellAppMain` comes from `s` to `t` by the part that processes `-skip`. -/
def SkipParse (v : ArgVector) (s t : SkipState) : Prop :=
  if (scan skipOptions 1 v.args).1 = 0 then
    ∃ arg i, (scan skipOptions 1 v.args).2 = some arg ∧
      countTo 32 (strLen arg.chars) (skipRound arg.chars) s (i, t)
  else t = s

/-- The loop of `val_initialize_test` over the skipped numbers. -/
def userOverride (nums : Nat → BitVec 32) (testNum : BitVec 32) : Bool :=
  (List.range maxTestSkipNum).any fun i => nums i == testNum

/-- Nothing outside the array is written, and its words are the numbers in order, as far as it
has room for them; the words that no number is for keep their initial value. -/
structure Faithful (numbers : List Nat) (t : SkipState) : Prop where
  inside : ∀ k ∈ t.written, k < maxTestSkipNum
  stored : ∀ k < maxTestSkipNum, (t.nums k).toNat = numbers.getD k 10000

/-! ## What is stored -/

/-- The values `l` are stored in order, and nothing else is written. -/
structure Stores (init : SkipState) (l : List (BitVec 64)) (s : SkipState) : Prop where
  nums : ∀ k, s.nums k = (l.map (BitVec.setWidth 32)).getD k (init.nums k)
  written : ∀ k, k ∈ s.written ↔ k < l.length

theorem Stores.append {init s : SkipState} {l : List (BitVec 64)} (h : Stores init l s)
    (value : BitVec 64) : Stores init (l ++ [value]) (s.store l.length value) where
  nums k := by
    show Function.update s.nums l.length (value.setWidth 32) k = _
    rw [List.map_append, List.map_singleton]
    rcases Nat.lt_trichotomy k l.length with hLess | rfl | hMore
    · rw [Function.update_of_ne (by omega), h.nums,
        List.getD_append _ _ _ _ (by rwa [List.length_map])]
    · rw [Function.update_self,
        List.getD_append_right _ _ _ _ (by rw [List.length_map]), List.length_map, Nat.sub_self]
      rfl
    · rw [Function.update_of_ne (by omega), h.nums,
        List.getD_eq_default _ _ (by rw [List.length_map]; omega),
        List.getD_eq_default _ _ (by simp; omega)]
  written k := by
    show k ∈ s.written ++ [l.length] ↔ _
    rw [List.mem_append, List.mem_singleton, h.written, List.length_append, List.length_singleton]
    omega

/-- The first value is stored again in each round. -/
theorem Stores.again {init s : SkipState} {value : BitVec 64} {l : List (BitVec 64)}
    (h : Stores init (value :: l) s) : Stores init (value :: l) (s.store 0 value) where
  nums k := by
    show Function.update s.nums 0 (value.setWidth 32) k = _
    cases k with
    | zero => rw [Function.update_self]; rfl
    | succ k => rw [Function.update_of_ne (Nat.succ_ne_zero k), h.nums]
  written k := by
    show k ∈ s.written ++ [0] ↔ _
    rw [List.mem_append, List.mem_singleton, h.written, List.length_cons]
    omega

/-- What the rounds below `k` read. -/
def readings (arg : List Char16) (k : Nat) : List (BitVec 64) :=
  (if k = 0 then [] else numberTexts arg k).map strDecimalToUintn

theorem readings_succ (arg : List Char16) (k : Nat) :
    readings arg (k + 1) = (numberTexts arg k).map strDecimalToUintn ++
      if arg.getD k 0 = comma then [strDecimalToUintn (arg.drop (k + 1))] else [] := by
  rw [readings, if_neg (Nat.succ_ne_zero k), numberTexts_succ, List.map_append]
  by_cases h : arg.getD k 0 = comma
  · rw [if_pos h, if_pos h, List.map_singleton]
  · rw [if_neg h, if_neg h, List.map_nil]

/-- The state after the rounds below `k`: `j` is the number of commas seen. -/
structure AfterRounds (arg : List Char16) (init : SkipState) (k : Nat) (s : SkipState) : Prop where
  stores : Stores init (readings arg k) s
  index : s.j.toNat = (commas arg k).length

/-- One round. -/
theorem roundStores {arg : List Char16} {init s : SkipState} {k : Nat}
    (hk : k + 1 < 2 ^ 32) (h : AfterRounds arg init k s) :
    AfterRounds arg init (k + 1) (skipRound arg k s) := by
  -- the first statement of the body
  have hFirst : Stores init ((numberTexts arg k).map strDecimalToUintn)
      (s.store 0 (strDecimalToUintn arg)) := by
    cases k with
    | zero => exact h.stores.append _
    | succ k => exact h.stores.again
  have hFew : (commas arg k).length ≤ k := commas_length_le arg k
  have hIndex : (s.j + 1).toNat = (commas arg k).length + 1 := by
    rw [toNat_next (by rw [h.index]; omega), h.index]
  by_cases hComma : arg.getD k 0 = comma
  · have hRound : skipRound arg k s =
        { s.store 0 (strDecimalToUintn arg) with j := s.j + 1 }.store (s.j + 1).toNat
          (strDecimalToUintn (arg.drop (k + 1))) := if_pos hComma
    constructor
    · have hNext := hFirst.append (strDecimalToUintn (arg.drop (k + 1)))
      rw [List.length_map, numberTexts_length, ← hIndex] at hNext
      rw [readings_succ, if_pos hComma, hRound]
      exact ⟨hNext.nums, hNext.written⟩
    · rw [hRound, commas_succ, if_pos hComma, List.length_append, List.length_singleton]
      exact hIndex
  · have hRound : skipRound arg k s = s.store 0 (strDecimalToUintn arg) := if_neg hComma
    constructor
    · rw [readings_succ, if_neg hComma, List.append_nil, hRound]
      exact hFirst
    · rw [hRound, commas_succ, if_neg hComma, List.append_nil]
      exact h.index

/-- The whole loop. -/
theorem rounds_stores {arg : List Char16} (hLength : arg.length < 2 ^ 32)
    (beyond : Nat → BitVec 32) :
    Stores (skipInit beyond) (readings arg arg.length)
      (rounds (skipRound arg) arg.length (skipInit beyond)) := by
  have hStart : AfterRounds arg (skipInit beyond) 0 (skipInit beyond) :=
    ⟨⟨fun _ => rfl, fun k => by simp [skipInit, readings]⟩, rfl⟩
  exact (rounds_induction (I := AfterRounds arg (skipInit beyond)) hStart
    (fun k s hk h => roundStores (by omega) h) (Nat.le_refl _)).stores

/-- The loop ends exactly when its counter gets to the end of the string. -/
theorem skipParse_ends {v : ArgVector} {arg : String16}
    (hGives : v.Gives skipOptions skipOption arg) (s t : SkipState) :
    SkipParse v s t ↔ arg.chars.length < 2 ^ 32 ∧
      t = rounds (skipRound arg.chars) arg.chars.length s := by
  have hScan : scan skipOptions 1 v.args = (0, some arg) := scan_given hGives rfl 1
  rw [SkipParse, hScan, if_pos rfl]
  constructor
  · rintro ⟨value, i, hValue, hLoop⟩
    obtain rfl : arg = value := Option.some_inj.mp hValue
    rw [arg.strLen_eq, countTo_iff, Prod.mk.injEq] at hLoop
    exact ⟨hLoop.1, hLoop.2.2⟩
  · rintro ⟨hLength, rfl⟩
    refine ⟨arg, BitVec.ofNat 32 arg.chars.length, rfl, ?_⟩
    rw [arg.strLen_eq]
    exact countTo_endsIn hLength _ _

/-! ## The list -/

/-- A word stored for each field, in order. -/
theorem stores_faithful {texts : List (List Char16)} {beyond : Nat → BitVec 32} {t : SkipState}
    (h : Stores (skipInit beyond) (texts.map strDecimalToUintn) t) :
    Faithful (texts.map decimalNumber) t ↔
      texts.length ≤ maxTestSkipNum ∧ ∀ text ∈ texts, decimalNumber text < 2 ^ 32 := by
  have hWord : ∀ k (hk : k < texts.length), (t.nums k).toNat = (texts.map decimalNumber).getD k
      10000 ↔ decimalNumber texts[k] < 2 ^ 32 := by
    intro k hk
    rw [h.nums, List.map_map, List.getD_eq_getElem _ _ (by simpa using hk),
      List.getD_eq_getElem _ _ (by simpa using hk), List.getElem_map, List.getElem_map]
    exact strDecimalToUintn_word _
  constructor
  · intro hFaithful
    have hFew : texts.length ≤ maxTestSkipNum := by
      by_contra hMany
      have hWritten := (h.written maxTestSkipNum).mpr (by rw [List.length_map]; omega)
      exact absurd (hFaithful.inside _ hWritten) (Nat.lt_irrefl _)
    refine ⟨hFew, fun text hText => ?_⟩
    obtain ⟨k, hk, rfl⟩ := List.getElem_of_mem hText
    exact (hWord k hk).mp (hFaithful.stored k (by omega))
  · rintro ⟨hFew, hSmall⟩
    constructor
    · intro k hk
      rw [h.written, List.length_map] at hk
      omega
    · intro k hk
      by_cases hText : k < texts.length
      · exact (hWord k hText).mpr (hSmall _ (List.getElem_mem hText))
      · rw [h.nums, List.getD_eq_default _ _ (by simp; omega),
          List.getD_eq_default _ _ (by simp; omega)]
        show (if k < maxTestSkipNum then (10000 : BitVec 32) else beyond k).toNat = 10000
        rw [if_pos hk]
        rfl

theorem readings_texts (arg : List Char16) :
    ∃ texts : List (List Char16), readings arg arg.length = texts.map strDecimalToUintn ∧
      listNumbers arg = texts.map decimalNumber := by
  by_cases hArg : arg = []
  · exact ⟨[], by simp [hArg, readings], by simp [hArg, listNumbers]⟩
  · have hSome : arg.length ≠ 0 := List.length_eq_zero_iff.not.mpr hArg
    exact ⟨numberTexts arg arg.length, by rw [readings, if_neg hSome], listNumbers_eq hArg⟩

/-- The state that the loop leaves for a list, against the list. -/
theorem rounds_faithful {arg : List Char16} (hLength : arg.length < 2 ^ 32)
    (beyond : Nat → BitVec 32) :
    Faithful (listNumbers arg) (rounds (skipRound arg) arg.length (skipInit beyond)) ↔
      (listNumbers arg).length ≤ maxTestSkipNum ∧ ∀ n ∈ listNumbers arg, n < 2 ^ 32 := by
  obtain ⟨texts, hRead, hNumbers⟩ := readings_texts arg
  have hStores := rounds_stores hLength beyond
  rw [hRead] at hStores
  rw [hNumbers, stores_faithful hStores, List.length_map, List.forall_mem_map]

/-- The parser is safe and faithful for the lists of at most three numbers of 32 bits that its
counter gets to the end of, and for no others. -/
theorem skipParse_iff {v : ArgVector} {arg : String16}
    (hGives : v.Gives skipOptions skipOption arg) (beyond : Nat → BitVec 32) :
    (∃ t, SkipParse v (skipInit beyond) t ∧ Faithful (listNumbers arg.chars) t) ↔
      arg.chars.length < 2 ^ 32 ∧ (listNumbers arg.chars).length ≤ maxTestSkipNum ∧
        ∀ n ∈ listNumbers arg.chars, n < 2 ^ 32 := by
  constructor
  · rintro ⟨t, hParse, hFaithful⟩
    obtain ⟨hLength, rfl⟩ := (skipParse_ends hGives _ t).mp hParse
    exact ⟨hLength, (rounds_faithful hLength beyond).mp hFaithful⟩
  · rintro ⟨hLength, hList⟩
    exact ⟨_, (skipParse_ends hGives _ _).mpr ⟨hLength, rfl⟩,
      (rounds_faithful hLength beyond).mpr hList⟩

/-- Three tests are as many as the array holds. -/
def threeTests : List Char16 := ascii ['3', '0', '1', ',', '3', '0', '2', ',', '4', '0', '1']

theorem threeTests_noNul : 0 ∉ threeTests := by decide

theorem skipParse_threeTests :
    ∃ t, SkipParse (skipVector ⟨threeTests, threeTests_noNul⟩) (skipInit fun _ => 0) t ∧
      Faithful [301, 302, 401] t :=
  (skipParse_iff (skipVector_gives skipOptions ⟨threeTests, threeTests_noNul⟩) fun _ => 0).mpr
    ⟨by decide, by decide, by decide⟩

/-- The fourth number goes behind the array. -/
def fourTests : List Char16 := ascii ['1', ',', '2', ',', '3', ',', '4']

theorem fourTests_noNul : 0 ∉ fourTests := by decide

theorem fourTests_not_faithful :
    ¬ ∃ t, SkipParse (skipVector ⟨fourTests, fourTests_noNul⟩) (skipInit fun _ => 0) t ∧
      Faithful (listNumbers fourTests) t := by
  rintro ⟨t, hParse, hFaithful⟩
  obtain ⟨hLength, rfl⟩ := (skipParse_ends (skipVector_gives skipOptions _) _ t).mp hParse
  have hFew := ((rounds_faithful hLength _).mp hFaithful).1
  exact absurd hFew (by decide)

/-! ## The tests that are skipped -/

/-- With the list stored faithfully, the tests skipped are those of the list. -/
theorem userOverride_iff {numbers : List Nat} {t : SkipState} (h : Faithful numbers t)
    (hFew : numbers.length ≤ maxTestSkipNum) {testNum : BitVec 32}
    (hTest : testNum.toNat ≠ 10000) :
    userOverride t.nums testNum = true ↔ testNum.toNat ∈ numbers := by
  rw [userOverride, List.any_eq_true]
  constructor
  · rintro ⟨k, hk, hEq⟩
    have hStored := h.stored k (List.mem_range.mp hk)
    rw [eq_of_beq hEq] at hStored
    by_cases hLess : k < numbers.length
    · rw [hStored, List.getD_eq_getElem _ _ hLess]
      exact List.getElem_mem hLess
    · rw [List.getD_eq_default _ _ (by omega)] at hStored
      exact absurd hStored hTest
  · intro hMem
    obtain ⟨k, hk, hEq⟩ := List.getElem_of_mem hMem
    refine ⟨k, List.mem_range.mpr (by omega), ?_⟩
    apply beq_of_eq
    apply BitVec.eq_of_toNat_eq
    rw [h.stored k (by omega), List.getD_eq_getElem _ _ hk, hEq]

end EnterpriseAcs.Mpam
