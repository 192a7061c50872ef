import EnterpriseAcs.Library.WhileLoop

/-!
# Command lines

The applications of both suites take their options from the argument vector of the shell, and
read a list of test numbers out of the string after the option: once at the start of the string,
and once after each comma, with a counter of 32 bits that goes over the characters.

* `listNumbers_eq`: these readings are the numbers of the list, field by field.
* `rounds_commas`: the loop acts once at each comma.
* `scan_given`, `scan_none`: what the search for an option leaves.
-/

namespace EnterpriseAcs.Machine

/-- A `CHAR16`. -/
abbrev Char16 := BitVec 16

/-- The characters of an ASCII literal. -/
def ascii (text : List Char) : List Char16 := text.map fun c => BitVec.ofNat 16 c.toNat

def comma : Char16 := 0x2C

/-- A terminated string: the characters before its terminator. -/
structure String16 where
  chars : List Char16
  noNul : 0 ∉ chars
  deriving DecidableEq

/-- `StrLen`, for the characters that are followed by a terminator. -/
def strLen : List Char16 → Nat
  | [] => 0
  | c :: rest => if c = 0 then 0 else strLen rest + 1

theorem String16.strLen_eq (s : String16) : strLen s.chars = s.chars.length := by
  obtain ⟨chars, hNul⟩ := s
  show strLen chars = chars.length
  induction chars with
  | nil => rfl
  | cons c rest ih =>
    rw [List.mem_cons, not_or] at hNul
    rw [strLen, if_neg (Ne.symm hNul.1), ih hNul.2, List.length_cons]

/-! ## Numbers -/

/-- The padding that `StrDecimalToUintn` skips. -/
def isBlank (c : Char16) : Bool := c == 0x20 || c == 0x09

def isDigit (c : Char16) : Bool := decide (0x30 ≤ c.toNat) && decide (c.toNat ≤ 0x39)

/-- The number that a string begins with, after the padding; without digits it is 0. -/
def decimalNumber (s : List Char16) : Nat :=
  ((s.dropWhile isBlank).takeWhile isDigit).foldl (fun n c => 10 * n + (c.toNat - 0x30)) 0

/-- `StrDecimalToUintn` gives `MAX_UINTN` for a number that does not fit. -/
def strDecimalToUintn (s : List Char16) : BitVec 64 :=
  BitVec.ofNat 64 (min (decimalNumber s) (2 ^ 64 - 1))

/-- The numbers of a comma-separated list. The empty string is the empty list. -/
def listNumbers (s : List Char16) : List Nat :=
  if s = [] then [] else (s.splitOn comma).map decimalNumber

theorem strDecimalToUintn_toNat (s : List Char16) :
    (strDecimalToUintn s).toNat = min (decimalNumber s) (2 ^ 64 - 1) := by
  rw [strDecimalToUintn, BitVec.toNat_ofNat, Nat.mod_eq_of_lt (by omega)]

/-- Reading into 32 bits keeps exactly the numbers that fit. -/
theorem strDecimalToUintn_word (s : List Char16) :
    ((strDecimalToUintn s).setWidth 32).toNat = decimalNumber s ↔ decimalNumber s < 2 ^ 32 := by
  rw [BitVec.toNat_setWidth, strDecimalToUintn_toNat]
  omega

/-! ## Fields -/

theorem not_isBlank_comma : isBlank comma = false := rfl

theorem not_isDigit_comma : isDigit comma = false := rfl

/-- A comma ends a number. -/
theorem decimalNumber_takeWhile (s : List Char16) :
    decimalNumber (s.takeWhile (· != comma)) = decimalNumber s := by
  have hDigits : ∀ t : List Char16,
      (t.takeWhile (· != comma)).takeWhile isDigit = t.takeWhile isDigit := by
    intro t
    induction t with
    | nil => rfl
    | cons c t ih =>
      by_cases hc : c = comma
      · rw [hc, List.takeWhile_cons_of_neg (by simp), List.takeWhile_nil,
          List.takeWhile_cons_of_neg (by simp [not_isDigit_comma])]
      · rw [List.takeWhile_cons_of_pos (by simpa using hc), List.takeWhile_cons,
          List.takeWhile_cons, ih]
  unfold decimalNumber
  congr 1
  induction s with
  | nil => rfl
  | cons c rest ih =>
    cases hBlank : isBlank c with
    | true =>
      have hc : c ≠ comma := by
        rintro rfl
        rw [not_isBlank_comma] at hBlank
        exact Bool.false_ne_true hBlank
      rw [List.takeWhile_cons_of_pos (by simpa using hc), List.dropWhile_cons_of_pos hBlank,
        List.dropWhile_cons_of_pos hBlank, ih]
    | false =>
      rw [List.dropWhile_cons_of_neg (by simp [hBlank]), ← hDigits (c :: rest)]
      by_cases hc : c = comma
      · rw [List.takeWhile_cons_of_neg (by simp [hc]), List.dropWhile_nil]
      · rw [List.takeWhile_cons_of_pos (by simpa using hc),
          List.dropWhile_cons_of_neg (by simp [hBlank])]

/-- The positions of the commas among the first `k` characters. -/
def commas (s : List Char16) (k : Nat) : List Nat :=
  (List.range k).filter fun i => s.getD i 0 == comma

theorem commas_succ (s : List Char16) (k : Nat) :
    commas s (k + 1) = commas s k ++ if s.getD k 0 = comma then [k] else [] := by
  rw [commas, List.range_succ, List.filter_append, ← commas]
  by_cases h : s.getD k 0 = comma
  · rw [if_pos h, List.filter_cons_of_pos (by simpa using h), List.filter_nil]
  · rw [if_neg h, List.filter_cons_of_neg (by simpa using h), List.filter_nil]

theorem commas_cons (c : Char16) (rest : List Char16) (k : Nat) :
    commas (c :: rest) (k + 1) =
      (if c = comma then [0] else []) ++ (commas rest k).map (· + 1) := by
  induction k with
  | zero => rw [commas_succ]; simp [commas]
  | succ k ih =>
    rw [commas_succ, ih, commas_succ rest, List.map_append, List.append_assoc,
      List.getD_cons_succ]
    by_cases h : rest.getD k 0 = comma
    · rw [if_pos h, if_pos h, List.map_singleton]
    · rw [if_neg h, if_neg h, List.map_nil]

theorem commas_length_le (s : List Char16) (k : Nat) : (commas s k).length ≤ k := by
  have h := List.length_filter_le (fun i => s.getD i 0 == comma) (List.range k)
  rwa [List.length_range] at h

/-- The field after a comma is read from the characters after it. -/
theorem splitOn_numbers (s : List Char16) :
    ∃ first others, s.splitOn comma = first :: others ∧ first = s.takeWhile (· != comma) ∧
      others.map decimalNumber =
        (commas s s.length).map fun i => decimalNumber (s.drop (i + 1)) := by
  induction s with
  | nil => exact ⟨[], [], rfl, rfl, rfl⟩
  | cons c rest ih =>
    obtain ⟨first, others, hSplit, hFirst, hOthers⟩ := ih
    rw [List.splitOn_cons_eq_if_modifyHead, hSplit, List.length_cons, commas_cons]
    by_cases hc : c = comma
    · refine ⟨[], first :: others, by simp [hc], by simp [hc], ?_⟩
      rw [if_pos hc, List.map_cons, hFirst, decimalNumber_takeWhile, hOthers]
      simp [Function.comp_def]
    · refine ⟨c :: first, others, by simp [hc], by simp [hc, hFirst], ?_⟩
      rw [if_neg hc, hOthers]
      simp [Function.comp_def]

/-- The strings that numbers are read from, when the loop has seen the first `k` characters: the
whole string, and what follows a comma. -/
def numberTexts (s : List Char16) (k : Nat) : List (List Char16) :=
  s :: (commas s k).map fun i => s.drop (i + 1)

theorem numberTexts_length (s : List Char16) (k : Nat) :
    (numberTexts s k).length = (commas s k).length + 1 := by
  rw [numberTexts, List.length_cons, List.length_map]

theorem numberTexts_succ (s : List Char16) (k : Nat) :
    numberTexts s (k + 1) =
      numberTexts s k ++ if s.getD k 0 = comma then [s.drop (k + 1)] else [] := by
  rw [numberTexts, commas_succ, List.map_append, ← List.cons_append, ← numberTexts]
  by_cases h : s.getD k 0 = comma
  · rw [if_pos h, if_pos h, List.map_singleton]
  · rw [if_neg h, if_neg h, List.map_nil]

/-- The numbers of a list are those read at its start and after each comma. -/
theorem listNumbers_eq {s : List Char16} (hs : s ≠ []) :
    listNumbers s = (numberTexts s s.length).map decimalNumber := by
  obtain ⟨first, others, hSplit, hFirst, hOthers⟩ := splitOn_numbers s
  rw [listNumbers, if_neg hs, hSplit, List.map_cons, hOthers, hFirst, decimalNumber_takeWhile,
    numberTexts, List.map_cons, List.map_map]
  rfl

/-- A loop over the characters that acts at each comma. -/
theorem rounds_commas {σ : Type*} (s : List Char16) (act : Nat → σ → σ) (k : Nat) (x : σ) :
    WhileLoop.rounds (fun i x => if s.getD i 0 = comma then act i x else x) k x =
      (commas s k).foldl (fun x i => act i x) x := by
  induction k with
  | zero => rfl
  | succ k ih =>
    rw [WhileLoop.rounds_succ, ih, commas_succ, List.foldl_append]
    by_cases h : s.getD k 0 = comma
    · rw [if_pos h, if_pos h, List.foldl_cons, List.foldl_nil]
    · rw [if_neg h, if_neg h, List.foldl_nil]

/-! ## Options -/

/-- `Argv`, and `Argc`, which the applications count to with 32 bits. -/
structure ArgVector where
  program : String16
  args : List String16
  argc_lt : args.length + 1 < 2 ^ 32

/-- The search for the first of the options, from the argument at index `i` on. It sets `i` to
the mark of the option, and gives the string after it. -/
def scan (options : List (List Char16 × BitVec 32)) :
    BitVec 32 → List String16 → BitVec 32 × Option String16
  | i, [] => (i, none)
  | i, arg :: rest =>
    match options.lookup arg.chars with
    | some mark => (mark, rest.head?)
    | none => scan options (i + 1) rest

/-- The first of the options in the vector is `option`, followed by `value`. -/
def ArgVector.Gives (v : ArgVector) (options : List (List Char16 × BitVec 32))
    (option : List Char16) (value : String16) : Prop :=
  ∃ before given after, v.args = before ++ given :: value :: after ∧ given.chars = option ∧
    ∀ x ∈ before, options.lookup x.chars = none

def skipOption : List Char16 := ascii ['-', 's', 'k', 'i', 'p']

theorem skipOption_noNul : 0 ∉ skipOption := by decide

theorem emptyString_noNul : (0 : Char16) ∉ ([] : List Char16) := List.not_mem_nil

theorem twoArguments_lt (option value : String16) : [option, value].length + 1 < 2 ^ 32 := by
  show 3 < 2 ^ 32
  omega

/-- A command line with `-skip` and its value only. -/
def skipVector (value : String16) : ArgVector where
  program := ⟨[], emptyString_noNul⟩
  args := [⟨skipOption, skipOption_noNul⟩, value]
  argc_lt := twoArguments_lt _ value

theorem skipVector_gives (options : List (List Char16 × BitVec 32)) (value : String16) :
    (skipVector value).Gives options skipOption value :=
  ⟨[], ⟨skipOption, skipOption_noNul⟩, [], rfl, rfl, List.forall_mem_nil _⟩

theorem scan_given {v : ArgVector} {options : List (List Char16 × BitVec 32)}
    {option : List Char16} {value : String16} {mark : BitVec 32}
    (hGives : v.Gives options option value) (hMark : options.lookup option = some mark)
    (i : BitVec 32) : scan options i v.args = (mark, some value) := by
  obtain ⟨before, given, after, hArgs, hGiven, hBefore⟩ := hGives
  rw [hArgs]
  clear hArgs
  induction before generalizing i with
  | nil => rw [List.nil_append, scan, hGiven, hMark]; rfl
  | cons arg before ih =>
    obtain ⟨hArg, hRest⟩ := List.forall_mem_cons.mp hBefore
    rw [List.cons_append, scan, hArg]
    exact ih (i + 1) hRest

theorem scan_none {options : List (List Char16 × BitVec 32)} {args : List String16}
    (hNone : ∀ x ∈ args, options.lookup x.chars = none) (i : BitVec 32) :
    scan options i args = (i + BitVec.ofNat 32 args.length, none) := by
  induction args generalizing i with
  | nil => simp [scan]
  | cons arg args ih =>
    obtain ⟨hArg, hRest⟩ := List.forall_mem_cons.mp hNone
    have hCount : i + 1 + BitVec.ofNat 32 args.length = i + BitVec.ofNat 32 (args.length + 1) := by
      rw [BitVec.ofNat_add, BitVec.add_assoc, BitVec.add_comm (BitVec.ofNat 32 args.length)]
      rfl
    rw [scan, hArg, List.length_cons, ← hCount]
    exact ih hRest (i + 1)

end EnterpriseAcs.Machine
