import Mathlib.Data.BitVec
import Mathlib.Data.List.Basic

/-!
# Loops that may not end

A `while` loop tests a state and changes it. It runs on fuel, and `none` says that the fuel was
used up: the loop ends in a state when some fuel is enough.

* `endsIn_of_measure`: a loop whose measure falls ends, with its invariant and its test false.
* `EndsIn.invariant`: what the body keeps holds at the end, if there is one.
* `not_endsIn_of_invariant`: a loop whose test an invariant keeps true does not end.
* `doWhile_of_false`: a `do while` loop whose test is false runs once.
* `countTo_endsIn`: a counter of `w` bits that goes up to a bound below `2 ^ w` gives a fold over
  the numbers below the bound; `countTo_not_endsIn`: with a larger bound it never gets there.
-/

namespace WhileLoop

variable {σ : Type*}

/-- At most `fuel` tests of a loop. -/
def loop (test : σ → Bool) (body : σ → σ) : Nat → σ → Option σ
  | 0, _ => none
  | fuel + 1, s => if test s then loop test body fuel (body s) else some s

/-- Some fuel is enough, and leads to `t`. -/
def EndsIn (test : σ → Bool) (body : σ → σ) (s t : σ) : Prop :=
  ∃ fuel, loop test body fuel s = some t

section Rules

variable {test : σ → Bool} {body : σ → σ} {s t : σ}

theorem loop_of_false (h : test s = false) (fuel : Nat) :
    loop test body (fuel + 1) s = some s := by
  rw [loop, if_neg (Bool.eq_false_iff.mp h)]

theorem loop_of_true (h : test s = true) (fuel : Nat) :
    loop test body (fuel + 1) s = loop test body fuel (body s) := by
  rw [loop, if_pos h]

/-- More fuel does not change the result. -/
theorem loop_add {fuel : Nat} (h : loop test body fuel s = some t) (more : Nat) :
    loop test body (fuel + more) s = some t := by
  induction fuel generalizing s with
  | zero => cases h
  | succ fuel ih =>
    rw [Nat.succ_add]
    cases hTest : test s with
    | false =>
      rw [loop_of_false hTest] at h ⊢
      exact h
    | true =>
      rw [loop_of_true hTest] at h ⊢
      exact ih h

/-- A loop ends in one state only. -/
theorem EndsIn.unique {t' : σ} (h : EndsIn test body s t) (h' : EndsIn test body s t') :
    t = t' := by
  obtain ⟨fuel, hRun⟩ := h
  obtain ⟨fuel', hRun'⟩ := h'
  have hMore := loop_add hRun fuel'
  rw [Nat.add_comm, loop_add hRun' fuel] at hMore
  exact (Option.some_inj.mp hMore).symm

theorem endsIn_of_false (h : test s = false) : EndsIn test body s t ↔ t = s := by
  constructor
  · intro hEnds
    exact hEnds.unique ⟨1, loop_of_false h 0⟩
  · rintro rfl
    exact ⟨1, loop_of_false h 0⟩

/-- The first round. -/
theorem endsIn_of_true (h : test s = true) :
    EndsIn test body s t ↔ EndsIn test body (body s) t := by
  constructor
  · rintro ⟨fuel, hRun⟩
    cases fuel with
    | zero => cases hRun
    | succ fuel => exact ⟨fuel, by rwa [loop_of_true h] at hRun⟩
  · rintro ⟨fuel, hRun⟩
    exact ⟨fuel + 1, by rwa [loop_of_true h]⟩

/-- What the body keeps as long as the test is true holds at the end, with the test false. -/
theorem EndsIn.invariant {I : σ → Prop} (h : EndsIn test body s t)
    (hBody : ∀ s, I s → test s = true → I (body s)) (hI : I s) : I t ∧ test t = false := by
  obtain ⟨fuel, hRun⟩ := h
  induction fuel generalizing s with
  | zero => cases hRun
  | succ fuel ih =>
    cases hTest : test s with
    | false =>
      rw [loop_of_false hTest] at hRun
      obtain rfl := Option.some_inj.mp hRun
      exact ⟨hI, hTest⟩
    | true =>
      rw [loop_of_true hTest] at hRun
      exact ih (hBody s hI hTest) hRun

/-- The rule with a measure. -/
theorem loop_of_measure {I : σ → Prop} (measure : σ → Nat)
    (hBody : ∀ s, I s → test s = true → I (body s) ∧ measure (body s) < measure s) (hI : I s)
    {fuel : Nat} (hFuel : measure s < fuel) :
    ∃ t, loop test body fuel s = some t ∧ I t ∧ test t = false := by
  induction fuel generalizing s with
  | zero => exact absurd hFuel (Nat.not_lt_zero _)
  | succ fuel ih =>
    cases hTest : test s with
    | false => exact ⟨s, loop_of_false hTest fuel, hI, hTest⟩
    | true =>
      obtain ⟨hNext, hLess⟩ := hBody s hI hTest
      rw [loop_of_true hTest]
      exact ih hNext (Nat.lt_of_lt_of_le hLess (Nat.le_of_lt_succ hFuel))

theorem endsIn_of_measure {I : σ → Prop} (measure : σ → Nat)
    (hBody : ∀ s, I s → test s = true → I (body s) ∧ measure (body s) < measure s) (hI : I s) :
    ∃ t, EndsIn test body s t ∧ I t ∧ test t = false := by
  obtain ⟨t, hRun, hEnd⟩ := loop_of_measure measure hBody hI (Nat.lt_succ_self (measure s))
  exact ⟨t, ⟨_, hRun⟩, hEnd⟩

theorem not_endsIn_of_invariant {I : σ → Prop}
    (hBody : ∀ s, I s → test s = true ∧ I (body s)) (hI : I s) : ¬ EndsIn test body s t := by
  intro h
  obtain ⟨hEnd, hTest⟩ := h.invariant (fun s hI _ => (hBody s hI).2) hI
  rw [(hBody t hEnd).1] at hTest
  exact absurd hTest.symm Bool.false_ne_true

/-- `do body while (test)`: a `continue` in the body goes on to the test. -/
def doWhile (test : σ → Bool) (body : σ → σ) (fuel : Nat) (s : σ) : Option σ :=
  loop test body fuel (body s)

/-- With a test that is false the body runs once, whatever it does. -/
theorem doWhile_of_false (h : test (body s) = false) (fuel : Nat) :
    doWhile test body (fuel + 1) s = some (body s) := loop_of_false h fuel

end Rules

/-! ## Counters -/

section Counters

variable {w n : Nat} {body : Nat → σ → σ}

/-- `for (i = 0; i < n; i++)` with a counter of `w` bits. -/
def countTo (w n : Nat) (body : Nat → σ → σ) (s : σ) (t : BitVec w × σ) : Prop :=
  EndsIn (fun c : BitVec w × σ => decide (c.1.toNat < n))
    (fun c => (c.1 + 1, body c.1.toNat c.2)) (0, s) t

/-- What the rounds below `k` leave. -/
def rounds (body : Nat → σ → σ) (k : Nat) (s : σ) : σ :=
  (List.range k).foldl (fun s i => body i s) s

theorem rounds_succ (body : Nat → σ → σ) (k : Nat) (s : σ) :
    rounds body (k + 1) s = body k (rounds body k s) := by
  rw [rounds, List.range_succ, List.foldl_append, List.foldl_cons, List.foldl_nil, rounds]

/-- A property that each round keeps. -/
theorem rounds_induction {body : Nat → σ → σ} {s : σ} {I : Nat → σ → Prop} (hStart : I 0 s)
    (hStep : ∀ k s, k < n → I k s → I (k + 1) (body k s)) {k : Nat} (hk : k ≤ n) :
    I k (rounds body k s) := by
  induction k with
  | zero => exact hStart
  | succ k ih =>
    rw [rounds_succ]
    exact hStep k _ hk (ih (Nat.le_of_succ_le hk))

theorem toNat_next {c : BitVec w} (hc : c.toNat + 1 < 2 ^ w) : (c + 1).toNat = c.toNat + 1 := by
  have hOne : (1 : BitVec w).toNat = 1 := by
    rw [BitVec.ofNat_eq_ofNat, BitVec.toNat_ofNat,
      Nat.mod_eq_of_lt (Nat.lt_of_le_of_lt (Nat.le_add_left 1 c.toNat) hc)]
  rw [BitVec.toNat_add_of_lt (by rw [hOne]; exact hc), hOne]

theorem countTo_endsIn (hn : n < 2 ^ w) (body : Nat → σ → σ) (s : σ) :
    countTo w n body s (BitVec.ofNat w n, rounds body n s) := by
  -- the counter is the number of rounds done
  have hRun : ∃ t : BitVec w × σ, countTo w n body s t ∧
      (t.1.toNat ≤ n ∧ t.2 = rounds body t.1.toNat s) ∧ decide (t.1.toNat < n) = false := by
    refine endsIn_of_measure
      (I := fun c : BitVec w × σ => c.1.toNat ≤ n ∧ c.2 = rounds body c.1.toNat s)
      (fun c : BitVec w × σ => n - c.1.toNat) ?_ ⟨by simp, by simp [rounds]⟩
    intro c hI hTest
    have hLess : c.1.toNat < n := of_decide_eq_true hTest
    have hNext : (c.1 + 1).toNat = c.1.toNat + 1 := toNat_next (by omega)
    simp only [hNext]
    refine ⟨⟨hLess, ?_⟩, by omega⟩
    rw [rounds_succ, hI.2]
  obtain ⟨t, hEnds, ⟨hLe, hState⟩, hTest⟩ := hRun
  have hEnd : t.1.toNat = n := by
    have hNot := of_decide_eq_false hTest
    omega
  have hCounter : t.1 = BitVec.ofNat w n := by
    apply BitVec.eq_of_toNat_eq
    rw [hEnd, BitVec.toNat_ofNat, Nat.mod_eq_of_lt hn]
  rw [hEnd] at hState
  rw [← hCounter, ← hState]
  exact hEnds

theorem countTo_not_endsIn (hn : 2 ^ w ≤ n) (body : Nat → σ → σ) (s : σ) (t : BitVec w × σ) :
    ¬ countTo w n body s t := by
  refine not_endsIn_of_invariant (I := fun _ => True) (fun c _ => ⟨?_, trivial⟩) trivial
  exact decide_eq_true (Nat.lt_of_lt_of_le c.1.isLt hn)

/-- A counted loop ends exactly when its bound fits the counter, and in one way only. -/
theorem countTo_iff {s : σ} {t : BitVec w × σ} :
    countTo w n body s t ↔ n < 2 ^ w ∧ t = (BitVec.ofNat w n, rounds body n s) := by
  constructor
  · intro h
    have hn : n < 2 ^ w := Nat.lt_of_not_le fun hn => countTo_not_endsIn hn body s t h
    exact ⟨hn, h.unique (countTo_endsIn hn body s)⟩
  · rintro ⟨hn, rfl⟩
    exact countTo_endsIn hn body s

end Counters

end WhileLoop
