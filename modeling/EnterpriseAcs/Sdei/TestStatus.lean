import Mathlib.Data.BitVec
import Mathlib.Data.List.Basic

/-!
# Polling the status of a test

`val_test_get_status` polls the status of every PE until its timeout is over. For a test on
one PE it returns the first status other than PENDING. For a test on all PEs it merges the
statuses with a bitwise or, and returns as soon as the merged word has the bit of FAIL, or
after a poll in which it stayed PASS.

* `mergePoll_cases`: what one poll over all PEs can do.
* `pollLoop_cases`: the first poll that returns, or the timeout.
-/

namespace EnterpriseAcs.Sdei

def sdeiTestPass : BitVec 32 := 0x0
def sdeiTestFail : BitVec 32 := 0x1
def sdeiTestPending : BitVec 32 := 0x2
def sdeiTestError : BitVec 32 := 0x3
def sdeiTestTimeout : BitVec 32 := 0x4
def sdeiTestAbort : BitVec 32 := 0x5
def sdeiTestSkip : BitVec 32 := 0x7

/-- `TEST_TIMEOUT`. -/
def testTimeout : Nat := 0x10000

/-- `status & SDEI_TEST_FAIL`. -/
def hasFailBit (status : BitVec 32) : Bool := status &&& sdeiTestFail != 0

/-- One pass of the inner loop: the status it ends with, whether it returned from within,
and the statuses it has read. -/
structure Sweep where
  status : BitVec 32
  returned : Bool
  reads : List (BitVec 32)
  deriving DecidableEq, Repr

/-- The inner loop over the statuses that the PEs hold when they are read. -/
def sweep (merge : BitVec 32 → BitVec 32 → BitVec 32) (stop : BitVec 32 → Bool) :
    List (BitVec 32) → BitVec 32 → Sweep
  | [], status => ⟨status, false, []⟩
  | v :: vs, status =>
    if stop (merge status v) then ⟨merge status v, true, [v]⟩
    else
      let rest := sweep merge stop vs (merge status v)
      { rest with reads := v :: rest.reads }

/-- What one poll returns, if it does. -/
structure Poll where
  returned : Option (BitVec 32)
  reads : List (BitVec 32)
  deriving DecidableEq, Repr

/-- A poll for a test on one PE. -/
def singlePoll (vs : List (BitVec 32)) : Poll :=
  let s := sweep (fun _ v => v) (fun status => status != sdeiTestPending) vs sdeiTestPass
  ⟨if s.returned then some s.status else none, s.reads⟩

/-- A poll for a test on all PEs. -/
def mergePoll (vs : List (BitVec 32)) : Poll :=
  let s := sweep (fun status v => status ||| v) hasFailBit vs sdeiTestPass
  ⟨if s.returned || s.status == sdeiTestPass then some s.status else none, s.reads⟩

/-- The returned status, and what was read, poll by poll. -/
structure GetStatus where
  status : BitVec 32
  polls : List (List (BitVec 32))
  deriving DecidableEq, Repr

/-- `while (timeout--)`, from the `k`-th poll on. -/
def pollLoop (poll : Nat → Poll) : Nat → Nat → GetStatus
  | 0, _ => ⟨sdeiTestTimeout, []⟩
  | timeout + 1, k =>
    match (poll k).returned with
    | some status => ⟨status, [(poll k).reads]⟩
    | none =>
      let rest := pollLoop poll timeout (k + 1)
      { rest with polls := (poll k).reads :: rest.polls }

/-- `seen k i` is the status that PE `i` holds when the `k`-th poll reads it. -/
def statusVector (seen : Nat → Nat → BitVec 32) (numPe k : Nat) : List (BitVec 32) :=
  (List.range numPe).map (seen k)

/-- `peCount` is `val_pe_get_num()`: a test on one PE may run on any of them. -/
def valTestGetStatus (peCount : Nat) (seen : Nat → Nat → BitVec 32) (numPe timeout : Nat) :
    GetStatus :=
  if numPe = 1 then pollLoop (fun k => singlePoll (statusVector seen peCount k)) timeout 0
  else pollLoop (fun k => mergePoll (statusVector seen numPe k)) timeout 0

/-! ## Merging -/

@[simp] theorem hasFailBit_iff {v : BitVec 32} : hasFailBit v = true ↔ v.getLsbD 0 = true := by
  have hOne : sdeiTestFail = 1#32 := rfl
  rw [hasFailBit, hOne, bne_iff_ne, ne_eq]
  constructor
  · intro h
    by_contra hNot
    apply h
    apply BitVec.eq_of_getLsbD_eq
    intro i hi
    rw [BitVec.getLsbD_and, BitVec.getLsbD_one]
    by_cases hZero : i = 0
    · subst i
      simpa using hNot
    · simp [hZero]
  · intro h hZero
    have hBit : (v &&& 1#32).getLsbD 0 = true := by
      rw [BitVec.getLsbD_and, BitVec.getLsbD_one, h]
      rfl
    rw [hZero] at hBit
    simp at hBit

theorem hasFailBit_or {v w : BitVec 32} :
    hasFailBit (v ||| w) = true ↔ hasFailBit v = true ∨ hasFailBit w = true := by
  simp only [hasFailBit_iff, BitVec.getLsbD_or, Bool.or_eq_true]

/-- The bitwise or of some statuses. -/
def mergeAll : List (BitVec 32) → BitVec 32
  | [] => 0
  | v :: vs => v ||| mergeAll vs

theorem mergeAll_append (vs ws : List (BitVec 32)) :
    mergeAll (vs ++ ws) = mergeAll vs ||| mergeAll ws := by
  induction vs with
  | nil => exact BitVec.zero_or.symm
  | cons v vs ih => rw [List.cons_append, mergeAll, mergeAll, ih, BitVec.or_assoc]

/-- A word contains the merge of some statuses exactly when it contains each of them. -/
theorem mergeAll_or_eq_iff {vs : List (BitVec 32)} {w : BitVec 32} :
    mergeAll vs ||| w = w ↔ ∀ v ∈ vs, v ||| w = w := by
  induction vs with
  | nil => simp [mergeAll]
  | cons v vs ih =>
    rw [mergeAll, BitVec.or_assoc, List.forall_mem_cons]
    constructor
    · intro h
      have hRest : mergeAll vs ||| w = w := by
        rw [← h, BitVec.or_comm v, ← BitVec.or_assoc, ← BitVec.or_assoc, BitVec.or_self]
      rw [hRest] at h
      exact ⟨h, ih.mp hRest⟩
    · rintro ⟨hFirst, hRest⟩
      rw [ih.mpr hRest, hFirst]

theorem mergeAll_eq_zero_iff {vs : List (BitVec 32)} :
    mergeAll vs = 0 ↔ ∀ v ∈ vs, v = 0 := by
  have h : mergeAll vs ||| 0 = 0 ↔ ∀ v ∈ vs, v ||| 0 = 0 := mergeAll_or_eq_iff
  simpa using h

/-- No status of the list has the bit of FAIL. -/
def NoFailBit (vs : List (BitVec 32)) : Prop := ∀ v ∈ vs, ¬ hasFailBit v

/-- The inner loop returns at the first status with the bit of FAIL. -/
theorem sweep_merge (vs : List (BitVec 32)) (status : BitVec 32) (hStatus : ¬ hasFailBit status) :
    (∃ pre v post, vs = pre ++ v :: post ∧ NoFailBit pre ∧ hasFailBit v ∧
        sweep (fun status v => status ||| v) hasFailBit vs status =
          ⟨status ||| mergeAll (pre ++ [v]), true, pre ++ [v]⟩) ∨
      (NoFailBit vs ∧
        sweep (fun status v => status ||| v) hasFailBit vs status =
          ⟨status ||| mergeAll vs, false, vs⟩) := by
  induction vs generalizing status with
  | nil => exact Or.inr ⟨fun _ hv => by simp at hv, by simp [sweep, mergeAll]⟩
  | cons v vs ih =>
    by_cases hv : hasFailBit v = true
    · refine Or.inl ⟨[], v, vs, rfl, fun _ hw => by simp at hw, hv, ?_⟩
      rw [sweep, if_pos (hasFailBit_or.mpr (Or.inr hv))]
      simp [mergeAll]
    · have hGo : ¬ hasFailBit (status ||| v) = true := by
        rw [hasFailBit_or]
        exact fun h => h.elim hStatus hv
      rcases ih (status ||| v) hGo with ⟨pre, w, post, rfl, hPre, hw, hSweep⟩ | ⟨hAll, hSweep⟩
      · refine Or.inl ⟨v :: pre, w, post, rfl, List.forall_mem_cons.mpr ⟨hv, hPre⟩, hw, ?_⟩
        rw [sweep, if_neg hGo, hSweep]
        simp only [List.cons_append, mergeAll, BitVec.or_assoc]
      · refine Or.inr ⟨List.forall_mem_cons.mpr ⟨hv, hAll⟩, ?_⟩
        rw [sweep, if_neg hGo, hSweep]
        simp only [mergeAll, BitVec.or_assoc]

/-- A poll over all PEs returns at the first status with the bit of FAIL, or at its end when
every PE passed. -/
theorem mergePoll_cases (vs : List (BitVec 32)) :
    (∃ pre v post, vs = pre ++ v :: post ∧ NoFailBit pre ∧ hasFailBit v ∧
        mergePoll vs = ⟨some (mergeAll (pre ++ [v])), pre ++ [v]⟩) ∨
      (NoFailBit vs ∧ (∀ v ∈ vs, v = sdeiTestPass) ∧ mergePoll vs = ⟨some sdeiTestPass, vs⟩) ∨
      (NoFailBit vs ∧ ¬ (∀ v ∈ vs, v = sdeiTestPass) ∧ mergePoll vs = ⟨none, vs⟩) := by
  have hStart : ∀ w, sdeiTestPass ||| w = w := fun w => BitVec.zero_or
  rcases sweep_merge vs sdeiTestPass (by decide) with
    ⟨pre, v, post, hVs, hPre, hv, hSweep⟩ | ⟨hAll, hSweep⟩
  · rw [hStart] at hSweep
    refine Or.inl ⟨pre, v, post, hVs, hPre, hv, ?_⟩
    simp only [mergePoll, hSweep, Bool.true_or, if_true]
  · rw [hStart] at hSweep
    by_cases hZero : mergeAll vs = sdeiTestPass
    · refine Or.inr (Or.inl ⟨hAll, mergeAll_eq_zero_iff.mp hZero, ?_⟩)
      simp only [mergePoll, hSweep, hZero, beq_self_eq_true, Bool.or_true, if_true]
    · refine Or.inr (Or.inr ⟨hAll, fun hPass => hZero (mergeAll_eq_zero_iff.mpr hPass), ?_⟩)
      simp only [mergePoll, hSweep, Bool.false_or, beq_iff_eq, if_neg hZero]

/-! ## The polls -/

/-- Either all polls go on, or the first one that returns ends the loop. -/
theorem pollLoop_cases (poll : Nat → Poll) (timeout k : Nat) :
    ((∀ j < timeout, (poll (k + j)).returned = none) ∧
        pollLoop poll timeout k =
          ⟨sdeiTestTimeout, (List.range' k timeout).map fun j => (poll j).reads⟩) ∨
      ∃ j status, j < timeout ∧ (∀ i < j, (poll (k + i)).returned = none) ∧
        (poll (k + j)).returned = some status ∧
        pollLoop poll timeout k =
          ⟨status, (List.range' k (j + 1)).map fun j => (poll j).reads⟩ := by
  induction timeout generalizing k with
  | zero => exact Or.inl ⟨fun j hj => absurd hj (Nat.not_lt_zero j), rfl⟩
  | succ timeout ih =>
    cases hFirst : (poll k).returned with
    | some status =>
      refine Or.inr ⟨0, status, Nat.succ_pos _, fun i hi => absurd hi (Nat.not_lt_zero i),
        hFirst, ?_⟩
      simp only [pollLoop, hFirst]
      rfl
    | none =>
      have hShift : ∀ {m : Nat}, (∀ j < m, (poll (k + 1 + j)).returned = none) →
          ∀ j < m + 1, (poll (k + j)).returned = none := by
        intro m h j hj
        cases j with
        | zero => exact hFirst
        | succ j =>
          rw [show k + (j + 1) = k + 1 + j by omega]
          exact h j (by omega)
      rcases ih (k + 1) with ⟨hNone, hLoop⟩ | ⟨j, status, hj, hNone, hSome, hLoop⟩
      · refine Or.inl ⟨hShift hNone, ?_⟩
        simp only [pollLoop, hFirst, hLoop]
        rfl
      · refine Or.inr ⟨j + 1, status, by omega, hShift hNone, ?_, ?_⟩
        · rwa [show k + (j + 1) = k + 1 + j by omega]
        · simp only [pollLoop, hFirst, hLoop]
          rfl

end EnterpriseAcs.Sdei
