import EnterpriseAcs.Mpam.InterruptTests

/-!
# The arrival of an interrupt

A test sets its status to pending once the interrupt of a node is armed, and waits for the handler
to change it. So the first interrupt that is taken from then on decides how the wait ends, and when.

* `poll_armed`: the wait.
* `raiseIntr_armed`: the accesses that raise the interrupt, the wait and the restore.
-/

namespace EnterpriseAcs.Mpam

variable {test : IntrTest} {env : IntrEnv} {start : Nat} {c : Cpu}

/-- The first access at or after `start` before which an interrupt is taken. -/
structure FirstTaken (env : IntrEnv) (start t : Nat) : Prop where
  le : start ≤ t
  taken : env.taken t = true
  before : ∀ k, start ≤ k → k < t → env.taken k = false

theorem FirstTaken.le_of_taken {t k : Nat} (h : FirstTaken env start t) (hLe : start ≤ k)
    (hTaken : env.taken k = true) : t ≤ k := by
  by_contra hLt
  have hNot := h.before k hLe (Nat.lt_of_not_le hLt)
  rw [hTaken] at hNot
  cases hNot

theorem FirstTaken.unique {t t' : Nat} (h : FirstTaken env start t)
    (h' : FirstTaken env start t') : t = t' :=
  Nat.le_antisymm (h.le_of_taken h'.le h'.taken) (h'.le_of_taken h.le h.taken)

/-- In a stretch in which an interrupt is taken, one is the first. -/
theorem exists_firstTaken {k : Nat} (hLe : start ≤ k) (hTaken : env.taken k = true) :
    ∃ t, t ≤ k ∧ FirstTaken env start t := by
  induction k using Nat.strong_induction_on with
  | _ k ih =>
    by_cases hEarlier : ∃ m, start ≤ m ∧ m < k ∧ env.taken m = true
    · obtain ⟨m, hm, hmk, hmTaken⟩ := hEarlier
      obtain ⟨t, htm, hFirst⟩ := ih m hmk hm hmTaken
      exact ⟨t, Nat.le_trans htm (Nat.le_of_lt hmk), hFirst⟩
    · refine ⟨k, Nat.le_refl k, hLe, hTaken, fun m hm hmk => ?_⟩
      rw [← Bool.not_eq_true]
      exact fun hmTaken => hEarlier ⟨m, hm, hmk, hmTaken⟩

/-- The handler is installed, and the status is pending as long as no interrupt has been taken
since `start`. -/
structure Armed (env : IntrEnv) (start : Nat) (c : Cpu) : Prop where
  installed : c.installed = true
  le : start ≤ c.time
  pending_iff : isResultPending c.status = true ↔
    ∀ k, start ≤ k → k < c.time → env.taken k = false

theorem Armed.tick (hPass : isResultPending (resultPass test.num 1) = false)
    (h : Armed env start c) :
    Armed env start (c.tick test env) ∧ (c.tick test env).time = c.time + 1 := by
  have hLast : (∀ k, start ≤ k → k < c.time + 1 → env.taken k = false) ↔
      (∀ k, start ≤ k → k < c.time → env.taken k = false) ∧ env.taken c.time = false := by
    constructor
    · intro hAll
      exact ⟨fun k hk hLt => hAll k hk (Nat.lt_succ_of_lt hLt),
        hAll c.time h.le (Nat.lt_succ_self _)⟩
    · rintro ⟨hBefore, hNow⟩ k hk hLt
      rcases Nat.lt_succ_iff_lt_or_eq.mp hLt with hEarlier | rfl
      · exact hBefore k hk hEarlier
      · exact hNow
  cases hTaken : env.taken c.time with
  | true =>
    have hTick : c.tick test env = { intrHandler test c with time := c.time + 1 } := by
      simp only [Cpu.tick, h.installed, hTaken, and_self, if_true]
      rfl
    rw [hTick]
    refine ⟨⟨h.installed, Nat.le_succ_of_le h.le, ?_⟩, rfl⟩
    dsimp only [intrHandler]
    rw [hLast, hPass, hTaken]
    simp
  | false =>
    have hTick : c.tick test env = { c with time := c.time + 1 } := by
      simp only [Cpu.tick, hTaken, Bool.false_eq_true, and_false, if_false]
    rw [hTick]
    refine ⟨⟨h.installed, Nat.le_succ_of_le h.le, ?_⟩, rfl⟩
    rw [hLast, and_iff_left hTaken]
    exact h.pending_iff

theorem Armed.access (hPass : isResultPending (resultPass test.num 1) = false)
    (h : Armed env start c) (access : Access) :
    Armed env start (c.access test env access) ∧
      (c.access test env access).time = c.time + 1 := by
  obtain ⟨hTick, hTime⟩ := h.tick hPass
  exact ⟨⟨hTick.installed, hTick.le, hTick.pending_iff⟩, hTime⟩

theorem Armed.accesses (hPass : isResultPending (resultPass test.num 1) = false)
    (h : Armed env start c) (accesses : List Access) :
    Armed env start (c.accesses test env accesses) ∧
      (c.accesses test env accesses).time = c.time + accesses.length := by
  induction accesses generalizing c with
  | nil => exact ⟨h, rfl⟩
  | cons access accesses ih =>
    obtain ⟨hHead, hTime⟩ := h.access hPass access
    obtain ⟨hTail, hEnd⟩ := ih hHead
    refine ⟨hTail, hEnd.trans ?_⟩
    rw [hTime, List.length_cons]
    omega

/-- Once the status is not pending, an interrupt has been taken. -/
theorem Armed.arrived (h : Armed env start c) (hPassed : ¬ isResultPending c.status = true) :
    ∃ t, FirstTaken env start t ∧ t < c.time := by
  by_contra hNone
  apply hPassed
  apply h.pending_iff.mpr
  intro k hk hLt
  rw [← Bool.not_eq_true]
  intro hTaken
  obtain ⟨t, htk, hFirst⟩ := exists_firstTaken hk hTaken
  exact hNone ⟨t, hFirst, Nat.lt_of_le_of_lt htk hLt⟩

/-- The wait ends with the first interrupt, at once if that was taken before, or runs out. -/
theorem poll_armed (hPass : isResultPending (resultPass test.num 1) = false)
    (h : Armed env start c) (timeout : Nat) :
    ((poll test env (timeout + 2) c).1 = 0 ∧
        ∀ k, start ≤ k → k < c.time + timeout + 1 → env.taken k = false) ∨
      ((poll test env (timeout + 2) c).1 ≠ 0 ∧
        ∃ t, FirstTaken env start t ∧ t < c.time + timeout + 1 ∧
          (poll test env (timeout + 2) c).2.time = max t c.time + 1) := by
  induction timeout generalizing c with
  | zero =>
    obtain ⟨hTick, hTime⟩ := h.tick hPass
    rw [poll, if_neg (Nat.succ_ne_zero _)]
    dsimp only
    split
    · rename_i hPending
      have hNone := hTick.pending_iff.mp hPending
      rw [hTime] at hNone
      exact Or.inl ⟨rfl, hNone⟩
    · rename_i hPassed
      obtain ⟨t, hFirst, hLt⟩ := hTick.arrived hPassed
      rw [hTime] at hLt ⊢
      exact Or.inr ⟨Nat.succ_ne_zero _, t, hFirst, hLt, by omega⟩
  | succ timeout ih =>
    obtain ⟨hTick, hTime⟩ := h.tick hPass
    rw [poll, if_neg (Nat.succ_ne_zero _)]
    dsimp only
    split
    · rename_i hPending
      have hNone := hTick.pending_iff.mp hPending
      have hWait := ih hTick
      rw [hTime] at hNone hWait
      obtain ⟨hOut, hAll⟩ | ⟨hIn, t, hFirst, hLt, hEnd⟩ := hWait
      · exact Or.inl ⟨hOut, fun k hk hkLt => hAll k hk (by omega)⟩
      · have hLate : c.time + 1 ≤ t := by
          by_contra hEarly
          have hNot := hNone t hFirst.le (Nat.lt_of_not_le hEarly)
          rw [hFirst.taken] at hNot
          cases hNot
        exact Or.inr ⟨hIn, t, hFirst, by omega, hEnd.trans (by omega)⟩
    · rename_i hPassed
      obtain ⟨t, hFirst, hLt⟩ := hTick.arrived hPassed
      rw [hTime] at hLt ⊢
      exact Or.inr ⟨Nat.succ_ne_zero _, t, hFirst, by omega, by omega⟩

theorem Cpu.tick_time (c : Cpu) : (c.tick test env).time = c.time + 1 := by
  unfold Cpu.tick
  dsimp only
  split
  · rfl
  · rfl

/-- A node is armed by the access that stores the pending status, one after the start. -/
theorem saved_armed (env : IntrEnv) (hPass : isResultPending (resultPass test.num 1) = false)
    (hPending : isResultPending (resultPending test.num) = true) (base : BitVec 64) (c : Cpu) :
    Armed env (c.time + 1) (saved test env base c) ∧
      (saved test env base c).time = c.time + 2 := by
  have hTime : (armIntr test env c).time = c.time + 1 := Cpu.tick_time _
  have hArmed : Armed env (c.time + 1) (armIntr test env c) := by
    refine ⟨?_, Nat.le_of_eq hTime.symm, ?_⟩
    · simp only [armIntr, Cpu.tick]
      split
      · rfl
      · rfl
    · refine iff_of_true hPending fun k hk hLt => ?_
      rw [hTime] at hLt
      exact absurd hLt (Nat.not_lt_of_le hk)
  obtain ⟨hSaved, hEnd⟩ := hArmed.access hPass (saveEcr base)
  exact ⟨hSaved, hEnd.trans (by rw [hTime])⟩

/-- The timeout is left or not as the first interrupt comes before its end or not. -/
theorem raiseIntr_armed (hPass : isResultPending (resultPass test.num 1) = false)
    (h : Armed env start c) (base : BitVec 64) (g : Generator) :
    ((raiseIntr test env base g c).1 = 0 ∧ ∀ k, start ≤ k →
        k < c.time + g.accesses.length + (timeoutLarge - 1) → env.taken k = false) ∨
      ((raiseIntr test env base g c).1 ≠ 0 ∧
        ∃ t, FirstTaken env start t ∧ t < c.time + g.accesses.length + (timeoutLarge - 1) ∧
          (raiseIntr test env base g c).2.time = max t (c.time + g.accesses.length) + 2) := by
  obtain ⟨hRaised, hTime⟩ := h.accesses hPass g.accesses
  have hWait := poll_armed hPass hRaised (timeoutLarge - 2)
  rw [hTime] at hWait
  have hEnd : (raiseIntr test env base g c).2.time =
      (poll test env timeoutLarge (c.accesses test env g.accesses)).2.time + 1 := Cpu.tick_time _
  rw [hEnd]
  obtain ⟨hOut, hAll⟩ | ⟨hIn, t, hFirst, hLt, hLast⟩ := hWait
  · exact Or.inl ⟨hOut, hAll⟩
  · exact Or.inr ⟨hIn, t, hFirst, hLt, congrArg (· + 1) hLast⟩

end EnterpriseAcs.Mpam
