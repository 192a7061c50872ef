import EnterpriseAcs.Luvos.SctLogs
import Mathlib.Algebra.Ring.Int.Defs

/-!
# Reading the SCT logs

`log_sbbr` writes a row for each log below the results, and a row of totals at the end. What it
reads from a log goes to variables of the whole function, which a line of the log overwrites if
it is there.

* `readLog_eq_ok`: what a log changes in the variables, and when it can be read.
* `visitFolders_eq`: the loops over folders and files as one over the logs.
* `visitLogs_eq_ok`, `logSbbr_eq_written`: when the script comes to the end, and what it has
  written there.
-/

namespace EnterpriseAcs.Luvos

/-! ## The script -/

def passesMark : Text := "Passes...........".toList

def warningsMark : Text := "Warnings.........".toList

def errorsMark : Text := "Errors...........".toList

/-- The variables that a log is read into. -/
@[ext]
structure SbbrFields where
  testCase : Text := []
  testDescription : Text := []
  testPasses : Int := 0
  testWarnings : Int := 0
  testErrors : Int := 0
  deriving DecidableEq, Repr

/-- A row of the table. -/
structure SbbrRow where
  testCategory : Text
  testName : Text
  fields : SbbrFields
  deriving DecidableEq, Repr

structure SbbrTotals where
  totalPasses : Int := 0
  totalWarnings : Int := 0
  totalErrors : Int := 0
  deriving DecidableEq, Repr

/-- What is written: the header of the table, its rows, and the totals. -/
inductive SbbrLine where
  | heading
  | row (row : SbbrRow)
  | total (totals : SbbrTotals)
  deriving DecidableEq, Repr

structure SbbrState where
  fields : SbbrFields := {}
  totals : SbbrTotals := {}
  outFile : List SbbrLine := [.heading]
  deriving DecidableEq, Repr

/-- An error that ends the script, and what has been written before. -/
structure Abort where
  error : PyError
  outFile : List SbbrLine
  deriving DecidableEq, Repr

inductive Summary where
  | notFound
  | written (outFile : List SbbrLine)
  | raised (abort : Abort)
  deriving DecidableEq, Repr

section Script

variable (decimal : Char → Option Nat)

/-- `int(line.split()[1])`. -/
def countOf (line : Text) : Except PyError Int :=
  match (split line)[1]? with
  | none => .error .indexError
  | some word =>
    match pyInt decimal word with
    | none => .error .valueError
    | some n => .ok n

/-- `if mark in line`. -/
def readCount (mark line : Text) (count : Int) : Except PyError Int :=
  if mark <:+: line then countOf decimal line else .ok count

/-- Line `i` of a log, counted from 1. -/
def readLine (i : Nat) (line : Text) (f : SbbrFields) : Except PyError SbbrFields := do
  let testCase := if i = 2 then rstrip line else f.testCase
  let testDescription := if i = 11 then rstrip line else f.testDescription
  let testPasses ← readCount decimal passesMark line f.testPasses
  let testWarnings ← readCount decimal warningsMark line f.testWarnings
  let testErrors ← readCount decimal errorsMark line f.testErrors
  return ⟨testCase, testDescription, testPasses, testWarnings, testErrors⟩

/-- `while True`, from line `i` on. -/
def readLines : Nat → List Text → SbbrFields → Except PyError SbbrFields
  | _, [], f => return f
  | i, line :: lines, f => do readLines (i + 1) lines (← readLine decimal i line f)

def readLog (log : SctLog) (f : SbbrFields) : Except PyError SbbrFields := do
  let f ← readLines decimal 1 (splitLines log.text) f
  match log.failure with
  | none => return f
  | some error => throw error

/-- The folder of a log has the name of the test, up to the first zero, and that above it has the
category. -/
def rowOf (log : SctLog) (f : SbbrFields) : SbbrRow where
  testCategory := (pathSplit (pathSplit log.dirpath).1).2
  testName := (pathSplit log.dirpath).2.takeWhile (· ≠ '0')
  fields := f

/-- The output file can take the row. -/
def SbbrRow.latin1 (row : SbbrRow) : Bool :=
  Luvos.latin1 row.testCategory && Luvos.latin1 row.testName &&
    Luvos.latin1 row.fields.testCase && Luvos.latin1 row.fields.testDescription

def SbbrTotals.add (t : SbbrTotals) (f : SbbrFields) : SbbrTotals where
  totalPasses := t.totalPasses + f.testPasses
  totalWarnings := t.totalWarnings + f.testWarnings
  totalErrors := t.totalErrors + f.testErrors

/-- `outFile.write` of a row, and the totals. The variables keep what they have. -/
def SbbrState.put (s : SbbrState) (row : SbbrRow) : SbbrState where
  fields := row.fields
  totals := s.totals.add row.fields
  outFile := s.outFile ++ [.row row]

def visitLog (s : SbbrState) (log : SctLog) : Except Abort SbbrState :=
  match readLog decimal log s.fields with
  | .error error => .error ⟨error, s.outFile⟩
  | .ok f =>
    if (rowOf log f).latin1 then .ok (s.put (rowOf log f)) else .error ⟨.unicodeError, s.outFile⟩

/-- `for entry in filenames`. -/
def visitFolder (s : SbbrState) (visit : Visit) : Except Abort SbbrState :=
  visit.filenames.foldlM (fun s file =>
    if isLog file then visitLog decimal s ⟨visit.dirpath, file.text, file.failure⟩ else pure s) s

/-- `for dirpath, dirnames, filenames in os.walk(sbbrDir)`. -/
def visitFolders (s : SbbrState) (visits : List Visit) : Except Abort SbbrState :=
  visits.foldlM (visitFolder decimal) s

def sbbrDir (d : Text) : Text := pathJoin (pathJoin d "SCT".toList) "Log".toList

/-- `log_sbbr`, given what the walk through `sbbrDir` yields if there is such a folder. -/
def logSbbr (walk : Option (List Visit)) : Summary :=
  match walk with
  | none => .notFound
  | some visits =>
    match visitFolders decimal {} visits with
    | .error abort => .raised abort
    | .ok s => .written (s.outFile ++ [.total s.totals])

end Script

/-! ## What a log has -/

/-- What a log has for the variables. -/
structure LogFields where
  testCase : Option Text
  testDescription : Option Text
  testPasses : Option Int
  testWarnings : Option Int
  testErrors : Option Int

/-- The variables after the log. -/
def LogFields.over (g : LogFields) (f : SbbrFields) : SbbrFields where
  testCase := g.testCase.getD f.testCase
  testDescription := g.testDescription.getD f.testDescription
  testPasses := g.testPasses.getD f.testPasses
  testWarnings := g.testWarnings.getD f.testWarnings
  testErrors := g.testErrors.getD f.testErrors

/-- The last value that a line has, from line `i` on. -/
def lastOf {β : Type} (value : Nat → Text → Option β) : Nat → List Text → Option β
  | _, [] => none
  | i, line :: lines => (lastOf value (i + 1) lines).or (value i line)

/-- Line `k` without the spaces at its end. -/
def lineAt (k i : Nat) (line : Text) : Option Text := if i = k then some (rstrip line) else none

theorem lastOf_lineAt_of_lt {k i : Nat} (lines : List Text) (h : k < i) :
    lastOf (lineAt k) i lines = none := by
  induction lines generalizing i with
  | nil => rfl
  | cons line lines ih => rw [lastOf, ih (by omega), lineAt, if_neg (by omega), Option.none_or]

theorem lastOf_lineAt {k i : Nat} (lines : List Text) (h : i ≤ k) :
    lastOf (lineAt k) i lines = lines[k - i]?.map rstrip := by
  induction lines generalizing i with
  | nil => rfl
  | cons line lines ih =>
    rw [lastOf, lineAt]
    rcases Nat.eq_or_lt_of_le h with rfl | hLt
    · rw [lastOf_lineAt_of_lt lines (by omega), if_pos rfl, Nat.sub_self]
      rfl
    · rw [ih hLt, if_neg (by omega), Option.or_none, show k - i = k - (i + 1) + 1 by omega,
        List.getElem?_cons_succ]

theorem lastOf_filterMap {β : Type} (value : Text → Option β) (i : Nat) (lines : List Text) :
    lastOf (fun _ => value) i lines = (lines.filterMap value).getLast? := by
  induction lines generalizing i with
  | nil => rfl
  | cons line lines ih =>
    rw [lastOf, ih, List.filterMap_cons]
    cases value line with
    | none => exact Option.or_none
    | some b => rw [List.getLast?_cons, Option.or_some]

section Own

variable (decimal : Char → Option Nat)

/-- The count of a line with a mark. -/
def markedCount (mark line : Text) : Option Int :=
  if mark <:+: line then (countOf decimal line).toOption else none

/-- The second and the eleventh line, and of each count the last one. -/
def logFields (lines : List Text) : LogFields where
  testCase := lines[1]?.map rstrip
  testDescription := lines[10]?.map rstrip
  testPasses := (lines.filterMap (markedCount decimal passesMark)).getLast?
  testWarnings := (lines.filterMap (markedCount decimal warningsMark)).getLast?
  testErrors := (lines.filterMap (markedCount decimal errorsMark)).getLast?

/-- A line with a mark has a number. -/
def Numbered (line : Text) : Prop :=
  ∀ mark ∈ [passesMark, warningsMark, errorsMark], mark <:+: line →
    ∃ n, countOf decimal line = .ok n

def SctLog.own (log : SctLog) : LogFields := logFields decimal (splitLines log.text)

/-- The log can be read to its end. -/
structure SctLog.Readable (log : SctLog) : Prop where
  opens : log.failure = none
  numbered : ∀ line ∈ splitLines log.text, Numbered decimal line

end Own

/-! ## Reading one -/

section Reading

variable {decimal : Char → Option Nat}

theorem bind_eq_ok {ε α β : Type} {x : Except ε α} {f : α → Except ε β} {b : β} :
    (x >>= f) = .ok b ↔ ∃ a, x = .ok a ∧ f a = .ok b := by
  cases x with
  | error e => exact ⟨nofun, nofun⟩
  | ok a =>
    refine ⟨fun h => ⟨a, rfl, h⟩, ?_⟩
    rintro ⟨_, ⟨⟩, h⟩
    exact h

theorem ok_eq_ok {ε α : Type} {a b : α} : (.ok a : Except ε α) = .ok b ↔ b = a := by
  rw [Except.ok.injEq, eq_comm]

theorem readCount_eq_ok {mark line : Text} {count n : Int} :
    readCount decimal mark line count = .ok n ↔
      (mark <:+: line → ∃ m, countOf decimal line = .ok m) ∧
        n = (markedCount decimal mark line).getD count := by
  rw [readCount, markedCount]
  split
  · next hMark =>
    rw [imp_iff_right hMark]
    cases countOf decimal line with
    | error e => exact ⟨nofun, nofun⟩
    | ok m =>
      rw [ok_eq_ok, and_iff_right ⟨m, rfl⟩]
      rfl
  · next hMark =>
    rw [ok_eq_ok, and_iff_right fun h => absurd h hMark]
    rfl

/-- What a line has for the variables. -/
def lineFields (decimal : Char → Option Nat) (i : Nat) (line : Text) : LogFields where
  testCase := lineAt 2 i line
  testDescription := lineAt 11 i line
  testPasses := markedCount decimal passesMark line
  testWarnings := markedCount decimal warningsMark line
  testErrors := markedCount decimal errorsMark line

theorem lineAt_getD (k i : Nat) (line text : Text) :
    (lineAt k i line).getD text = if i = k then rstrip line else text := by
  rw [lineAt]
  split <;> rfl

theorem readLine_eq_ok {i : Nat} {line : Text} {f f' : SbbrFields} :
    readLine decimal i line f = .ok f' ↔
      Numbered decimal line ∧ f' = (lineFields decimal i line).over f := by
  simp only [readLine, bind_eq_ok, readCount_eq_ok]
  constructor
  · rintro ⟨_, ⟨hPasses, rfl⟩, _, ⟨hWarnings, rfl⟩, _, ⟨hErrors, rfl⟩, hEq⟩
    refine ⟨?_, ?_⟩
    · simp only [Numbered, List.forall_mem_cons]
      exact ⟨hPasses, hWarnings, hErrors, nofun⟩
    · rw [← Except.ok.inj hEq, LogFields.over, lineFields, lineAt_getD, lineAt_getD]
  · rintro ⟨hNumbered, rfl⟩
    simp only [Numbered, List.forall_mem_cons] at hNumbered
    obtain ⟨hPasses, hWarnings, hErrors, -⟩ := hNumbered
    refine ⟨_, ⟨hPasses, rfl⟩, _, ⟨hWarnings, rfl⟩, _, ⟨hErrors, rfl⟩, ?_⟩
    rw [LogFields.over, lineFields, lineAt_getD, lineAt_getD]
    rfl

/-- What the lines from line `i` on have for the variables. -/
def fieldsFrom (decimal : Char → Option Nat) (i : Nat) (lines : List Text) : LogFields where
  testCase := lastOf (lineAt 2) i lines
  testDescription := lastOf (lineAt 11) i lines
  testPasses := lastOf (fun _ => markedCount decimal passesMark) i lines
  testWarnings := lastOf (fun _ => markedCount decimal warningsMark) i lines
  testErrors := lastOf (fun _ => markedCount decimal errorsMark) i lines

/-- A later line overwrites an earlier one. -/
theorem fieldsFrom_cons_over (i : Nat) (line : Text) (lines : List Text) (f : SbbrFields) :
    (fieldsFrom decimal i (line :: lines)).over f =
      (fieldsFrom decimal (i + 1) lines).over ((lineFields decimal i line).over f) := by
  simp only [fieldsFrom, lineFields, LogFields.over, lastOf, Option.getD_or]

theorem fieldsFrom_one (lines : List Text) :
    fieldsFrom decimal 1 lines = logFields decimal lines := by
  simp only [fieldsFrom, logFields, lastOf_filterMap, lastOf_lineAt _ (show 1 ≤ 2 by omega),
    lastOf_lineAt _ (show 1 ≤ 11 by omega)]

theorem readLines_eq_ok {i : Nat} {lines : List Text} {f f' : SbbrFields} :
    readLines decimal i lines f = .ok f' ↔
      (∀ line ∈ lines, Numbered decimal line) ∧ f' = (fieldsFrom decimal i lines).over f := by
  induction lines generalizing i f with
  | nil =>
    rw [and_iff_right (List.forall_mem_nil _)]
    exact ok_eq_ok
  | cons line lines ih =>
    rw [readLines, bind_eq_ok, List.forall_mem_cons, fieldsFrom_cons_over]
    constructor
    · rintro ⟨g, hLine, hRest⟩
      obtain ⟨hNumbered, rfl⟩ := readLine_eq_ok.mp hLine
      obtain ⟨hAll, rfl⟩ := ih.mp hRest
      exact ⟨⟨hNumbered, hAll⟩, rfl⟩
    · rintro ⟨⟨hNumbered, hAll⟩, rfl⟩
      exact ⟨_, readLine_eq_ok.mpr ⟨hNumbered, rfl⟩, ih.mpr ⟨hAll, rfl⟩⟩

/-- A log that can be read leaves what it does not have. -/
theorem readLog_eq_ok {log : SctLog} {f f' : SbbrFields} :
    readLog decimal log f = .ok f' ↔ log.Readable decimal ∧ f' = (log.own decimal).over f := by
  rw [readLog, bind_eq_ok, SctLog.own, ← fieldsFrom_one]
  constructor
  · rintro ⟨g, hLines, hEnd⟩
    obtain ⟨hNumbered, rfl⟩ := readLines_eq_ok.mp hLines
    cases hFailure : log.failure with
    | none =>
      rw [hFailure] at hEnd
      exact ⟨⟨hFailure, hNumbered⟩, (Except.ok.inj hEnd).symm⟩
    | some error =>
      rw [hFailure] at hEnd
      cases hEnd
  · rintro ⟨⟨hOpens, hNumbered⟩, rfl⟩
    refine ⟨_, readLines_eq_ok.mpr ⟨hNumbered, rfl⟩, ?_⟩
    rw [hOpens]
    rfl

end Reading

/-! ## The whole run -/

section Run

variable {decimal : Char → Option Nat}

/-- The rows that the logs lead to, with what is in the variables before. -/
def rowsFrom (decimal : Char → Option Nat) : SbbrFields → List SctLog → List SbbrRow
  | _, [] => []
  | f, log :: logs =>
    rowOf log ((log.own decimal).over f) :: rowsFrom decimal ((log.own decimal).over f) logs

theorem visitFolder_eq (s : SbbrState) (visit : Visit) :
    visitFolder decimal s visit =
      (logsIn visit.dirpath visit.filenames).foldlM (visitLog decimal) s := by
  rw [visitFolder, logsIn, List.foldlM_map, List.foldlM_filter]

/-- The loops over folders and files as one over the logs. -/
theorem visitFolders_eq (s : SbbrState) (visits : List Visit) :
    visitFolders decimal s visits = (logsOf visits).foldlM (visitLog decimal) s := by
  rw [visitFolders]
  induction visits generalizing s with
  | nil => rfl
  | cons visit visits ih =>
    rw [List.foldlM_cons, logsOf, List.flatMap_cons, List.foldlM_append, visitFolder_eq]
    exact congrArg _ (funext ih)

theorem visitLog_eq_ok {log : SctLog} {s s' : SbbrState} :
    visitLog decimal s log = .ok s' ↔
      log.Readable decimal ∧ (rowOf log ((log.own decimal).over s.fields)).latin1 ∧
        s' = s.put (rowOf log ((log.own decimal).over s.fields)) := by
  rw [visitLog]
  split
  · next error hRead =>
    refine ⟨nofun, fun h => ?_⟩
    rw [readLog_eq_ok.mpr ⟨h.1, rfl⟩] at hRead
    cases hRead
  · next f hRead =>
    obtain ⟨hReadable, rfl⟩ := readLog_eq_ok.mp hRead
    rw [and_iff_right hReadable]
    split
    · next hLatin =>
      rw [and_iff_right hLatin]
      exact ok_eq_ok
    · next hLatin => exact ⟨nofun, fun h => absurd h.1 hLatin⟩

/-- The script comes through the logs exactly when each can be read and each row can be written. -/
theorem visitLogs_eq_ok {logs : List SctLog} {s s' : SbbrState} :
    logs.foldlM (visitLog decimal) s = .ok s' ↔
      (∀ log ∈ logs, log.Readable decimal) ∧
        (∀ row ∈ rowsFrom decimal s.fields logs, row.latin1) ∧
          s' = (rowsFrom decimal s.fields logs).foldl .put s := by
  induction logs generalizing s with
  | nil =>
    rw [rowsFrom, and_iff_right (List.forall_mem_nil _), and_iff_right (List.forall_mem_nil _)]
    exact ok_eq_ok
  | cons log logs ih =>
    rw [List.foldlM_cons, bind_eq_ok, List.forall_mem_cons, rowsFrom, List.forall_mem_cons,
      List.foldl_cons]
    constructor
    · rintro ⟨t, hLog, hRest⟩
      obtain ⟨hReadable, hLatin, rfl⟩ := visitLog_eq_ok.mp hLog
      obtain ⟨hAll, hRows, hEq⟩ := ih.mp hRest
      exact ⟨⟨hReadable, hAll⟩, ⟨hLatin, hRows⟩, hEq⟩
    · rintro ⟨⟨hReadable, hAll⟩, ⟨hLatin, hRows⟩, hEq⟩
      exact ⟨_, visitLog_eq_ok.mpr ⟨hReadable, hLatin, rfl⟩, ih.mpr ⟨hAll, hRows, hEq⟩⟩

/-- The sums of the rows. -/
def totalsOf (rows : List SbbrRow) : SbbrTotals where
  totalPasses := (rows.map fun row => row.fields.testPasses).sum
  totalWarnings := (rows.map fun row => row.fields.testWarnings).sum
  totalErrors := (rows.map fun row => row.fields.testErrors).sum

/-- The table of some rows. -/
def tableOf (rows : List SbbrRow) : List SbbrLine :=
  .heading :: rows.map .row ++ [.total (totalsOf rows)]

theorem foldl_put_outFile (rows : List SbbrRow) (s : SbbrState) :
    (rows.foldl .put s).outFile = s.outFile ++ rows.map .row := by
  induction rows generalizing s with
  | nil => exact (List.append_nil _).symm
  | cons row rows ih =>
    rw [List.foldl_cons, ih, SbbrState.put, List.append_assoc]
    rfl

theorem foldl_put_totals (rows : List SbbrRow) (s : SbbrState) :
    (rows.foldl .put s).totals =
      ⟨s.totals.totalPasses + (totalsOf rows).totalPasses,
        s.totals.totalWarnings + (totalsOf rows).totalWarnings,
        s.totals.totalErrors + (totalsOf rows).totalErrors⟩ := by
  induction rows generalizing s with
  | nil => simp only [totalsOf, List.foldl_nil, List.map_nil, List.sum_nil, Int.add_zero]
  | cons row rows ih =>
    rw [List.foldl_cons, ih]
    simp only [SbbrState.put, SbbrTotals.add, totalsOf, List.map_cons, List.sum_cons, Int.add_assoc]

/-- What is written in the end is the table of the rows. -/
theorem logSbbr_eq_written {visits : List Visit} {outFile : List SbbrLine} :
    logSbbr decimal (some visits) = .written outFile ↔
      (∀ log ∈ logsOf visits, log.Readable decimal) ∧
        (∀ row ∈ rowsFrom decimal {} (logsOf visits), row.latin1) ∧
          outFile = tableOf (rowsFrom decimal {} (logsOf visits)) := by
  rw [logSbbr, visitFolders_eq]
  cases hRun : (logsOf visits).foldlM (visitLog decimal) {} with
  | error abort =>
    refine ⟨nofun, fun h => ?_⟩
    rw [visitLogs_eq_ok.mpr ⟨h.1, h.2.1, rfl⟩] at hRun
    cases hRun
  | ok s =>
    obtain ⟨hReadable, hLatin, rfl⟩ := visitLogs_eq_ok.mp hRun
    rw [and_iff_right hReadable, and_iff_right hLatin]
    simp only [foldl_put_outFile, foldl_put_totals, Int.zero_add, Summary.written.injEq]
    exact eq_comm

end Run

end EnterpriseAcs.Luvos
