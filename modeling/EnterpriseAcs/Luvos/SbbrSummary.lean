import EnterpriseAcs.Library.Latch
import EnterpriseAcs.Luvos.LogSbbr

/-!
# The summary of the SCT logs

A row should show what its log has. The script does not set its variables back between two logs,
so that a log without a count shows that of the log before it, and which one that is depends on
the order in which the file system lists the folders.

* `rowsFrom_eq_own_iff`: the rows show what the logs have exactly when nothing is carried over.
* `summaryRight_iff`: the summary over all walks through the folders.
* `summaryRight_of_complete`: logs of runs that came to their end.
-/

namespace EnterpriseAcs.Luvos

section Summary

variable (decimal : Char → Option Nat)

/-- The row of a log with what it has itself, 0 for a count that it does not have. -/
def ownRow (log : SctLog) : SbbrRow := rowOf log ((log.own decimal).over {})

/-- The rows of what is written. -/
def Summary.rows : Summary → List SbbrRow
  | .notFound => []
  | .written outFile => outFile.filterMap fun
    | .row row => some row
    | _ => none
  | .raised _ => []

/-- In every walk through the results the table has the own row of each log and the sums of these
rows, and the walks agree on the rows. -/
structure SummaryRight (d : Text) (top : Folder) : Prop where
  table : ∀ visits, Walk (sbbrDir d) top visits →
    logSbbr decimal (some visits) = .written (tableOf ((logsOf visits).map (ownRow decimal)))
  stable : ∀ visits visits', Walk (sbbrDir d) top visits → Walk (sbbrDir d) top visits' →
    (logSbbr decimal (some visits)).rows.Perm (logSbbr decimal (some visits')).rows

/-- The log can be read, and what it has can be written. -/
structure SctLog.Sound (log : SctLog) : Prop where
  readable : log.Readable decimal
  latin1 : (ownRow decimal log).latin1

/-- No log with another value than that at the start is followed by one without. -/
structure NothingCarried (logs : List SctLog) : Prop where
  testCase : Latch.Renewed [] (logs.map fun log => (log.own decimal).testCase)
  testDescription : Latch.Renewed [] (logs.map fun log => (log.own decimal).testDescription)
  testPasses : Latch.Renewed 0 (logs.map fun log => (log.own decimal).testPasses)
  testWarnings : Latch.Renewed 0 (logs.map fun log => (log.own decimal).testWarnings)
  testErrors : Latch.Renewed 0 (logs.map fun log => (log.own decimal).testErrors)

end Summary

variable {decimal : Char → Option Nat}

/-! ## One walk -/

theorem rowOf_inj {log : SctLog} {f f' : SbbrFields} : rowOf log f = rowOf log f' ↔ f = f' :=
  ⟨congrArg SbbrRow.fields, congrArg (rowOf log)⟩

/-- A column of the table, with `v` in its variable before, has what the logs have. -/
def ColumnOwn {β : Type} (decimal : Char → Option Nat) (value : LogFields → Option β) (init v : β)
    (logs : List SctLog) : Prop :=
  Latch.latch v (logs.map fun log => value (log.own decimal)) =
    Latch.each init (logs.map fun log => value (log.own decimal))

theorem columnOwn_cons {β : Type} {value : LogFields → Option β} {init v : β} {log : SctLog}
    {logs : List SctLog} :
    ColumnOwn decimal value init v (log :: logs) ↔
      (value (log.own decimal)).getD v = (value (log.own decimal)).getD init ∧
        ColumnOwn decimal value init ((value (log.own decimal)).getD v) logs := by
  rw [ColumnOwn, List.map_cons, Latch.latch_cons, Latch.each_cons, List.cons_eq_cons, ColumnOwn]

/-- The rows are right when each column is. -/
theorem rowsFrom_eq_own_from (f : SbbrFields) (logs : List SctLog) :
    rowsFrom decimal f logs = logs.map (ownRow decimal) ↔
      ColumnOwn decimal LogFields.testCase [] f.testCase logs ∧
        ColumnOwn decimal LogFields.testDescription [] f.testDescription logs ∧
        ColumnOwn decimal LogFields.testPasses 0 f.testPasses logs ∧
        ColumnOwn decimal LogFields.testWarnings 0 f.testWarnings logs ∧
        ColumnOwn decimal LogFields.testErrors 0 f.testErrors logs := by
  induction logs generalizing f with
  | nil => exact iff_of_true rfl ⟨rfl, rfl, rfl, rfl, rfl⟩
  | cons log logs ih =>
    rw [rowsFrom, List.map_cons, List.cons_eq_cons, ownRow, rowOf_inj, SbbrFields.ext_iff, ih]
    simp only [columnOwn_cons, LogFields.over]
    constructor
    · rintro ⟨⟨hCase, hDescription, hPasses, hWarnings, hErrors⟩,
        hCases, hDescriptions, hAllPasses, hAllWarnings, hAllErrors⟩
      exact ⟨⟨hCase, hCases⟩, ⟨hDescription, hDescriptions⟩, ⟨hPasses, hAllPasses⟩,
        ⟨hWarnings, hAllWarnings⟩, hErrors, hAllErrors⟩
    · rintro ⟨⟨hCase, hCases⟩, ⟨hDescription, hDescriptions⟩, ⟨hPasses, hAllPasses⟩,
        ⟨hWarnings, hAllWarnings⟩, hErrors, hAllErrors⟩
      exact ⟨⟨hCase, hDescription, hPasses, hWarnings, hErrors⟩,
        hCases, hDescriptions, hAllPasses, hAllWarnings, hAllErrors⟩

theorem rowsFrom_eq_own_iff {logs : List SctLog} :
    rowsFrom decimal {} logs = logs.map (ownRow decimal) ↔ NothingCarried decimal logs := by
  rw [rowsFrom_eq_own_from]
  constructor
  · rintro ⟨hCase, hDescription, hPasses, hWarnings, hErrors⟩
    exact ⟨Latch.latch_eq_each_iff.mp hCase, Latch.latch_eq_each_iff.mp hDescription,
      Latch.latch_eq_each_iff.mp hPasses, Latch.latch_eq_each_iff.mp hWarnings,
      Latch.latch_eq_each_iff.mp hErrors⟩
  · rintro ⟨hCase, hDescription, hPasses, hWarnings, hErrors⟩
    exact ⟨Latch.latch_eq_each_iff.mpr hCase, Latch.latch_eq_each_iff.mpr hDescription,
      Latch.latch_eq_each_iff.mpr hPasses, Latch.latch_eq_each_iff.mpr hWarnings,
      Latch.latch_eq_each_iff.mpr hErrors⟩

theorem filterMap_tableOf (rows : List SbbrRow) : (Summary.written (tableOf rows)).rows = rows := by
  rw [Summary.rows, tableOf, List.cons_append, List.filterMap_cons_none rfl, List.filterMap_append,
    List.filterMap_map]
  exact (List.append_nil _).trans (List.filterMap_some ..)

theorem tableOf_inj {rows rows' : List SbbrRow} (h : tableOf rows = tableOf rows') :
    rows = rows' := by
  have hRows := congrArg (fun outFile => (Summary.written outFile).rows) h
  rwa [filterMap_tableOf, filterMap_tableOf] at hRows

/-- The table of one walk. -/
theorem logSbbr_eq_own_iff {visits : List Visit} :
    logSbbr decimal (some visits) = .written (tableOf ((logsOf visits).map (ownRow decimal))) ↔
      (∀ log ∈ logsOf visits, log.Sound decimal) ∧ NothingCarried decimal (logsOf visits) := by
  rw [logSbbr_eq_written, ← rowsFrom_eq_own_iff]
  constructor
  · rintro ⟨hReadable, hLatin, hTable⟩
    have hOwn := (tableOf_inj hTable).symm
    rw [hOwn, List.forall_mem_map] at hLatin
    exact ⟨fun log hLog => ⟨hReadable log hLog, hLatin log hLog⟩, hOwn⟩
  · rintro ⟨hSound, hOwn⟩
    rw [hOwn, List.forall_mem_map]
    exact ⟨fun log hLog => (hSound log hLog).readable,
      fun log hLog => (hSound log hLog).latin1, rfl⟩

/-! ## All walks -/

theorem mem_logsOf_iff {path : Text} {top : Folder} {visits : List Visit} {log : SctLog}
    (hWalk : Walk path top visits) : log ∈ logsOf visits ↔ log ∈ top.logs path :=
  (walk_perm hWalk).mem_iff

/-- The own rows of the logs do not depend on the order. -/
theorem ownRows_perm {path : Text} {top : Folder} {visits visits' : List Visit}
    (hWalk : Walk path top visits) (hWalk' : Walk path top visits') :
    ((logsOf visits).map (ownRow decimal)).Perm ((logsOf visits').map (ownRow decimal)) :=
  ((walk_perm hWalk).trans (walk_perm hWalk').symm).map _

theorem summaryRight_of {d : Text} {top : Folder}
    (hSound : ∀ log ∈ top.logs (sbbrDir d), log.Sound decimal)
    (hCarried : ∀ visits, Walk (sbbrDir d) top visits → NothingCarried decimal (logsOf visits)) :
    SummaryRight decimal d top := by
  have hTable : ∀ visits, Walk (sbbrDir d) top visits →
      logSbbr decimal (some visits) =
        .written (tableOf ((logsOf visits).map (ownRow decimal))) := by
    intro visits hWalk
    refine logSbbr_eq_own_iff.mpr ⟨fun log hLog => ?_, hCarried visits hWalk⟩
    exact hSound log ((mem_logsOf_iff hWalk).mp hLog)
  refine ⟨hTable, fun visits visits' hWalk hWalk' => ?_⟩
  rw [hTable visits hWalk, hTable visits' hWalk', filterMap_tableOf, filterMap_tableOf]
  exact ownRows_perm hWalk hWalk'

/-- The summary is right exactly when each log can be read and written and in no order of the
folders and files a value is carried from a log to the next. -/
theorem summaryRight_iff (decimal : Char → Option Nat) (d : Text) (top : Folder) :
    SummaryRight decimal d top ↔
      (∀ log ∈ top.logs (sbbrDir d), log.Sound decimal) ∧
        ∀ visits, Walk (sbbrDir d) top visits → NothingCarried decimal (logsOf visits) := by
  refine ⟨fun h => ⟨fun log hLog => ?_, fun visits hWalk => ?_⟩,
    fun h => summaryRight_of h.1 h.2⟩
  · obtain ⟨visits, hWalk⟩ := exists_walk (sbbrDir d) top
    have hAll := (logSbbr_eq_own_iff.mp (h.table visits hWalk)).1
    exact hAll log ((mem_logsOf_iff hWalk).mpr hLog)
  · exact (logSbbr_eq_own_iff.mp (h.table visits hWalk)).2

/-- The second log of the test is cut off before its counts. -/
def truncatedResults : Folder :=
  .mk [] [("EventServicesTest".toList, .mk [] [("CreateEvent0".toList,
    .mk [⟨"a.log".toList, "\nCase\nPasses........... 5\n".toList, none⟩,
      ⟨"b.log".toList, "\nCase\n".toList, none⟩] [])])]

theorem summaryRight_fails_on_truncated :
    ¬ SummaryRight asciiDecimal "/mnt".toList truncatedResults := by
  intro h
  obtain ⟨visits, hWalk, hVisits⟩ : ∃ visits, Walk (sbbrDir "/mnt".toList) truncatedResults visits ∧
      logSbbr asciiDecimal (some visits) ≠
        .written (tableOf ((logsOf visits).map (ownRow asciiDecimal))) := by
    refine ⟨_, .mk (.refl _) (.refl _) (.cons (.mk (.refl _) (.refl _)
      (.cons (.mk (.refl _) (.refl _) .nil) .nil)) .nil), ?_⟩
    decide +kernel
  exact hVisits (h.table visits hWalk)

/-! ## Logs of complete runs -/

/-- The log has both texts and all counts. -/
structure SctLog.Complete (decimal : Char → Option Nat) (log : SctLog) : Prop where
  testCase : (log.own decimal).testCase ≠ none
  testDescription : (log.own decimal).testDescription ≠ none
  testPasses : (log.own decimal).testPasses ≠ none
  testWarnings : (log.own decimal).testWarnings ≠ none
  testErrors : (log.own decimal).testErrors ≠ none

theorem renewed_map_of_ne_none {α β : Type} {init : β} {value : α → Option β} {xs : List α}
    (h : ∀ x ∈ xs, value x ≠ none) : Latch.Renewed init (xs.map value) := by
  refine Latch.renewed_of_uniform (Or.inl fun hMem => ?_)
  obtain ⟨x, hx, hNone⟩ := List.mem_map.mp hMem
  exact h x hx hNone

theorem nothingCarried_of_complete {logs : List SctLog}
    (h : ∀ log ∈ logs, log.Complete decimal) : NothingCarried decimal logs where
  testCase := renewed_map_of_ne_none fun log hLog => (h log hLog).testCase
  testDescription := renewed_map_of_ne_none fun log hLog => (h log hLog).testDescription
  testPasses := renewed_map_of_ne_none fun log hLog => (h log hLog).testPasses
  testWarnings := renewed_map_of_ne_none fun log hLog => (h log hLog).testWarnings
  testErrors := renewed_map_of_ne_none fun log hLog => (h log hLog).testErrors

/-- Of complete logs the summary is right. -/
theorem summaryRight_of_complete {d : Text} {top : Folder}
    (hSound : ∀ log ∈ top.logs (sbbrDir d), log.Sound decimal)
    (hComplete : ∀ log ∈ top.logs (sbbrDir d), log.Complete decimal) :
    SummaryRight decimal d top := by
  refine summaryRight_of hSound fun visits hWalk => nothingCarried_of_complete fun log hLog => ?_
  exact hComplete log ((mem_logsOf_iff hWalk).mp hLog)

end EnterpriseAcs.Luvos
