import EnterpriseAcs.Library.WhileLoop

/-!
# Code with early returns and loops that may not end

Code goes on with a value, returns early or does not end. It runs on fuel: `none` says that the
fuel was used up, and more fuel does not change a result. In a sequence an early return leaves
out the rest; in a loop it leaves the loop and what is around it.

* `ends_bind_iff`: how a sequence ends.
* `Total`: the code ends, with early returns and values as the two conditions say.
* `Total.loop`: a loop whose measure falls in each round.
* `Ends.loop`: what the rounds of a loop keep, if it ends.
* `not_ends_loop`: a loop that an invariant keeps from ending.
* `search_error_iff`: a search with a counter of `w` bits returns at the first hit below `2 ^ w`.
-/

namespace EarlyReturn

/-- An early return with `r` is `error r`. -/
structure Code (ρ α : Type) where
  run : Nat → Option (Except ρ α)
  run_succ : ∀ {fuel x}, run fuel = some x → run (fuel + 1) = some x

variable {ρ α β σ : Type}

namespace Code

/-- More fuel does not change the result. -/
theorem run_of_le (p : Code ρ α) {fuel fuel' : Nat} {x : Except ρ α} (h : p.run fuel = some x)
    (hLe : fuel ≤ fuel') : p.run fuel' = some x := by
  induction hLe with
  | refl => exact h
  | step _ ih => exact p.run_succ ih

/-- What needs no fuel. -/
def done (x : Except ρ α) : Code ρ α where
  run := fun _ => some x
  run_succ := id

/-- The fuel is given to both parts. -/
def bindRun (p : Code ρ α) (f : α → Code ρ β) (fuel : Nat) : Option (Except ρ β) :=
  match p.run fuel with
  | none => none
  | some (.error r) => some (.error r)
  | some (.ok a) => (f a).run fuel

theorem bindRun_succ (p : Code ρ α) (f : α → Code ρ β) {fuel : Nat} {x : Except ρ β}
    (h : p.bindRun f fuel = some x) : p.bindRun f (fuel + 1) = some x := by
  rw [bindRun] at h ⊢
  match hRun : p.run fuel with
  | none =>
    rw [hRun] at h
    cases h
  | some (.error r) =>
    rw [hRun] at h
    rw [p.run_succ hRun]
    exact h
  | some (.ok a) =>
    rw [hRun] at h
    rw [p.run_succ hRun]
    exact (f a).run_succ h

def bind (p : Code ρ α) (f : α → Code ρ β) : Code ρ β where
  run := p.bindRun f
  run_succ := p.bindRun_succ f

instance : Monad (Code ρ) where
  pure := fun a => done (.ok a)
  bind := bind

end Code

/-- An early return. -/
def ret (r : ρ) : Code ρ α := .done (.error r)

/-- At most `fuel` tests of a loop. -/
def loopRun (test : σ → Bool) (body : σ → Code ρ σ) : Nat → σ → Option (Except ρ σ)
  | 0, _ => none
  | fuel + 1, s =>
    if test s then
      match (body s).run fuel with
      | none => none
      | some (.error r) => some (.error r)
      | some (.ok t) => loopRun test body fuel t
    else some (.ok s)

theorem loopRun_succ (test : σ → Bool) (body : σ → Code ρ σ) {fuel : Nat} {s : σ}
    {x : Except ρ σ} (h : loopRun test body fuel s = some x) :
    loopRun test body (fuel + 1) s = some x := by
  induction fuel generalizing s with
  | zero => cases h
  | succ fuel ih =>
    rw [loopRun] at h ⊢
    by_cases hTest : test s = true
    · rw [if_pos hTest] at h ⊢
      match hRun : (body s).run fuel with
      | none =>
        rw [hRun] at h
        cases h
      | some (.error r) =>
        rw [hRun] at h
        rw [(body s).run_succ hRun]
        exact h
      | some (.ok t) =>
        rw [hRun] at h
        rw [(body s).run_succ hRun]
        exact ih h
    · rw [if_neg hTest] at h ⊢
      exact h

/-- `while (test) body`. -/
def loop (test : σ → Bool) (body : σ → Code ρ σ) (s : σ) : Code ρ σ where
  run := fun fuel => loopRun test body fuel s
  run_succ := loopRun_succ test body

/-! ## How code ends -/

/-- Some fuel is enough, and gives `x`. -/
def Ends (p : Code ρ α) (x : Except ρ α) : Prop := ∃ fuel, p.run fuel = some x

theorem Ends.unique {p : Code ρ α} {x y : Except ρ α} (hx : Ends p x) (hy : Ends p y) :
    x = y := by
  obtain ⟨fuel, hx⟩ := hx
  obtain ⟨fuel', hy⟩ := hy
  have hRun := p.run_of_le hx (Nat.le_max_left fuel fuel')
  rw [p.run_of_le hy (Nat.le_max_right fuel fuel')] at hRun
  exact (Option.some_inj.mp hRun).symm

theorem ends_pure_iff {a : α} {x : Except ρ α} : Ends (pure a) x ↔ x = .ok a := by
  constructor
  · rintro ⟨fuel, h⟩
    exact (Option.some_inj.mp h).symm
  · rintro rfl
    exact ⟨0, rfl⟩

theorem ends_ret_iff {r : ρ} {x : Except ρ α} : Ends (ret r) x ↔ x = .error r := by
  constructor
  · rintro ⟨fuel, h⟩
    exact (Option.some_inj.mp h).symm
  · rintro rfl
    exact ⟨0, rfl⟩

theorem ends_bind_iff {p : Code ρ α} {f : α → Code ρ β} {x : Except ρ β} :
    Ends (p >>= f) x ↔
      (∃ r, Ends p (.error r) ∧ x = .error r) ∨ ∃ a, Ends p (.ok a) ∧ Ends (f a) x := by
  constructor
  · rintro ⟨fuel, h⟩
    change p.bindRun f fuel = some x at h
    rw [Code.bindRun] at h
    match hRun : p.run fuel with
    | none =>
      rw [hRun] at h
      cases h
    | some (.error r) =>
      rw [hRun] at h
      exact Or.inl ⟨r, ⟨fuel, hRun⟩, (Option.some_inj.mp h).symm⟩
    | some (.ok a) =>
      rw [hRun] at h
      exact Or.inr ⟨a, ⟨fuel, hRun⟩, fuel, h⟩
  · rintro (⟨r, ⟨fuel, hRun⟩, rfl⟩ | ⟨a, ⟨fuel, hRun⟩, fuel', h⟩)
    · refine ⟨fuel, ?_⟩
      change p.bindRun f fuel = _
      rw [Code.bindRun, hRun]
    · refine ⟨max fuel fuel', ?_⟩
      change p.bindRun f _ = _
      rw [Code.bindRun, p.run_of_le hRun (Nat.le_max_left fuel fuel')]
      exact (f a).run_of_le h (Nat.le_max_right fuel fuel')

section Loops

variable {test : σ → Bool} {body : σ → Code ρ σ} {s t : σ} {x : Except ρ σ}

theorem ends_loop_of_false (h : test s = false) : Ends (loop test body s) x ↔ x = .ok s := by
  have hRun (fuel : Nat) : (loop test body s).run (fuel + 1) = some (.ok s) :=
    if_neg (Bool.eq_false_iff.mp h)
  constructor
  · intro hEnds
    exact hEnds.unique ⟨1, hRun 0⟩
  · rintro rfl
    exact ⟨1, hRun 0⟩

/-- The first round and the rest. -/
theorem ends_loop_of_true (h : test s = true) :
    Ends (loop test body s) x ↔ Ends (body s >>= loop test body) x := by
  have hRun (fuel : Nat) : (loop test body s).run (fuel + 1) =
      (body s).bindRun (loop test body) fuel := by
    change loopRun test body (fuel + 1) s = _
    rw [loopRun, if_pos h, Code.bindRun]
    rfl
  constructor
  · rintro ⟨fuel, hEnds⟩
    refine ⟨fuel, ?_⟩
    have hMore := (loop test body s).run_succ hEnds
    rwa [hRun] at hMore
  · rintro ⟨fuel, hEnds⟩
    exact ⟨fuel + 1, (hRun fuel).trans hEnds⟩

theorem ends_loop_of_ret {r : ρ} (h : test s = true) (hBody : Ends (body s) (.error r)) :
    Ends (loop test body s) x ↔ x = .error r := by
  rw [ends_loop_of_true h, ends_bind_iff]
  constructor
  · rintro (⟨r', hRet, rfl⟩ | ⟨t, hNext, -⟩)
    · exact hRet.unique hBody
    · cases hNext.unique hBody
  · rintro rfl
    exact Or.inl ⟨r, hBody, rfl⟩

theorem ends_loop_of_next (h : test s = true) (hBody : Ends (body s) (.ok t)) :
    Ends (loop test body s) x ↔ Ends (loop test body t) x := by
  rw [ends_loop_of_true h, ends_bind_iff]
  constructor
  · rintro (⟨r, hRet, -⟩ | ⟨t', hNext, hRest⟩)
    · cases hRet.unique hBody
    · cases hNext.unique hBody
      exact hRest
  · intro hRest
    exact Or.inr ⟨t, hBody, hRest⟩

/-- In each round the test is true, and the body does not end or goes on. -/
theorem not_ends_loop {I : σ → Prop}
    (hBody : ∀ s, I s → test s = true ∧ ((∀ x, ¬ Ends (body s) x) ∨
      ∃ t, Ends (body s) (.ok t) ∧ I t)) (hI : I s) : ¬ Ends (loop test body s) x := by
  rintro ⟨fuel, hRun⟩
  induction fuel generalizing s with
  | zero => cases hRun
  | succ fuel ih =>
    obtain ⟨hTest, hRound⟩ := hBody s hI
    change loopRun test body (fuel + 1) s = some x at hRun
    rw [loopRun, if_pos hTest] at hRun
    match hFirst : (body s).run fuel with
    | none =>
      rw [hFirst] at hRun
      cases hRun
    | some y =>
      rcases hRound with hNever | ⟨t, hNext, ht⟩
      · exact hNever y ⟨fuel, hFirst⟩
      · obtain rfl := hNext.unique ⟨fuel, hFirst⟩
        rw [hFirst] at hRun
        exact ih ht hRun

end Loops

/-! ## Total correctness -/

/-- An early return meets `R`, a value meets `Q`. -/
def Meets (R : ρ → Prop) (Q : α → Prop) : Except ρ α → Prop
  | .error r => R r
  | .ok a => Q a

/-- The code ends, with early returns as `R` and values as `Q` says. -/
def Total (p : Code ρ α) (R : ρ → Prop) (Q : α → Prop) : Prop :=
  ∃ x, Ends p x ∧ Meets R Q x

section Rules

variable {p : Code ρ α} {R : ρ → Prop} {Q : α → Prop}

theorem Total.pure {a : α} (h : Q a) : Total (pure a) R Q := ⟨.ok a, ends_pure_iff.mpr rfl, h⟩

theorem Total.ret {r : ρ} (h : R r) : Total (ret r) R Q := ⟨.error r, ends_ret_iff.mpr rfl, h⟩

theorem Total.bind {f : α → Code ρ β} {Q' : β → Prop} (hp : Total p R Q)
    (hf : ∀ a, Q a → Total (f a) R Q') : Total (p >>= f) R Q' := by
  obtain ⟨x, hEnds, hx⟩ := hp
  cases x with
  | error r => exact ⟨.error r, ends_bind_iff.mpr (Or.inl ⟨r, hEnds, rfl⟩), hx⟩
  | ok a =>
    obtain ⟨y, hRest, hy⟩ := hf a hx
    exact ⟨y, ends_bind_iff.mpr (Or.inr ⟨a, hEnds, hRest⟩), hy⟩

/-- A loop with an invariant and a measure. -/
theorem Total.loop {I : σ → Prop} {test : σ → Bool} {body : σ → Code ρ σ} (measure : σ → Nat)
    (hBody : ∀ s, I s → test s = true →
      Total (body s) R fun t => I t ∧ measure t < measure s) {s : σ} (hI : I s) :
    Total (loop test body s) R fun t => I t ∧ test t = false := by
  induction hn : measure s using Nat.strongRecOn generalizing s with
  | ind n ih =>
    cases hTest : test s with
    | false => exact ⟨.ok s, (ends_loop_of_false hTest).mpr rfl, hI, hTest⟩
    | true =>
      obtain ⟨x, hEnds, hx⟩ := hBody s hI hTest
      cases x with
      | error r => exact ⟨.error r, (ends_loop_of_ret hTest hEnds).mpr rfl, hx⟩
      | ok t =>
        obtain ⟨y, hRest, hy⟩ := ih (measure t) (hn ▸ hx.2) hx.1 rfl
        exact ⟨y, (ends_loop_of_next hTest hEnds).mpr hRest, hy⟩

theorem total_loop_of_true {test : σ → Bool} {body : σ → Code ρ σ} {s : σ} {Q : σ → Prop}
    (h : test s = true) :
    Total (loop test body s) R Q ↔ Total (body s >>= loop test body) R Q :=
  exists_congr fun _ => and_congr_left' (ends_loop_of_true h)

theorem total_loop_of_false {test : σ → Bool} {body : σ → Code ρ σ} {s : σ} {Q : σ → Prop}
    (h : test s = false) : Total (loop test body s) R Q ↔ Q s := by
  constructor
  · rintro ⟨x, hEnds, hx⟩
    obtain rfl := (ends_loop_of_false h).mp hEnds
    exact hx
  · exact fun hQ => ⟨.ok s, (ends_loop_of_false h).mpr rfl, hQ⟩

/-- What each round keeps, if it ends. -/
theorem Ends.loop {I : σ → Prop} {test : σ → Bool} {body : σ → Code ρ σ} {s : σ}
    {x : Except ρ σ} (h : Ends (loop test body s) x)
    (hBody : ∀ s, I s → test s = true → ∀ x, Ends (body s) x → Meets R I x) (hI : I s) :
    Meets R (fun t => I t ∧ test t = false) x := by
  obtain ⟨fuel, hRun⟩ := h
  induction fuel generalizing s with
  | zero => cases hRun
  | succ fuel ih =>
    cases hTest : test s with
    | false =>
      obtain rfl := (ends_loop_of_false hTest).mp ⟨fuel + 1, hRun⟩
      exact ⟨hI, hTest⟩
    | true =>
      change loopRun test body (fuel + 1) s = some x at hRun
      rw [loopRun, if_pos hTest] at hRun
      match hFirst : (body s).run fuel with
      | none =>
        rw [hFirst] at hRun
        cases hRun
      | some (.error r) =>
        rw [hFirst] at hRun
        obtain rfl := Option.some_inj.mp hRun
        exact hBody s hI hTest _ ⟨fuel, hFirst⟩
      | some (.ok t) =>
        rw [hFirst] at hRun
        exact ih (hBody s hI hTest _ ⟨fuel, hFirst⟩) hRun

end Rules

/-! ## Searches -/

section Search

variable {w n : Nat} {hit : Nat → Bool} {found : Nat → ρ}

/-- The test and the body of `search`. -/
def searchTest (n : Nat) (i : BitVec w) : Bool := decide (i.toNat < n)

def searchRound (hit : Nat → Bool) (found : Nat → ρ) (i : BitVec w) : Code ρ (BitVec w) :=
  if hit i.toNat then ret (found i.toNat) else pure (i + 1)

/-- `for (i = 0; i < n; i++) if (hit) return found;` with a counter of `w` bits. -/
def search (w n : Nat) (hit : Nat → Bool) (found : Nat → ρ) : Code ρ (BitVec w) :=
  loop (searchTest n) (searchRound hit found) 0

/-- From a counter on, up to the first hit. -/
theorem search_from {i : Nat} (hLess : i < n) (hWidth : i < 2 ^ w) (hHit : hit i = true)
    (hFirst : ∀ k < i, hit k = false) (c : BitVec w) (hc : c.toNat ≤ i) :
    Ends (loop (searchTest n) (searchRound hit found) c) (.error (found i)) := by
  have hTest : searchTest n c = true := decide_eq_true (Nat.lt_of_le_of_lt hc hLess)
  rcases Nat.lt_or_eq_of_le hc with hBefore | rfl
  · have hNext : (c + 1).toNat = c.toNat + 1 :=
      WhileLoop.toNat_next (Nat.lt_of_le_of_lt hBefore hWidth)
    have hRound : Ends (searchRound hit found c) (.ok (c + 1)) := by
      rw [searchRound, hFirst c.toNat hBefore, if_neg Bool.false_ne_true]
      exact ends_pure_iff.mpr rfl
    refine (ends_loop_of_next hTest hRound).mpr ?_
    exact search_from hLess hWidth hHit hFirst (c + 1) (by rw [hNext]; exact hBefore)
  · have hRound : Ends (searchRound hit found c) (.error (found c.toNat)) := by
      rw [searchRound, if_pos hHit]
      exact ends_ret_iff.mpr rfl
    exact (ends_loop_of_ret hTest hRound).mpr rfl
  termination_by i - c.toNat
  decreasing_by
    rw [hNext]
    omega

/-- The search returns at the first hit that the counter comes to. -/
theorem search_error_iff {r : ρ} :
    Ends (search w n hit found) (.error r) ↔
      ∃ i, i < n ∧ i < 2 ^ w ∧ hit i = true ∧ (∀ k < i, hit k = false) ∧ r = found i := by
  constructor
  · intro h
    refine h.loop (I := fun c : BitVec w => ∀ k < c.toNat, hit k = false)
      (R := fun r => ∃ i, i < n ∧ i < 2 ^ w ∧ hit i = true ∧ (∀ k < i, hit k = false) ∧
        r = found i) ?_ fun k hk => absurd hk (Nat.not_lt_zero k)
    intro c hc hTest x hx
    rw [searchRound] at hx
    split at hx
    · rename_i hHit
      obtain rfl := ends_ret_iff.mp hx
      exact ⟨c.toNat, of_decide_eq_true hTest, c.isLt, hHit, hc, rfl⟩
    · rename_i hMiss
      obtain rfl := ends_pure_iff.mp hx
      intro k hk
      -- the counter may have wrapped to zero
      have hLe : (c + 1).toNat ≤ c.toNat + 1 := by
        rw [BitVec.toNat_add]
        refine Nat.le_trans (Nat.mod_le _ _) (Nat.add_le_add_left ?_ _)
        exact Nat.le_trans (Nat.mod_le 1 _) (Nat.le_refl 1)
      rcases Nat.lt_succ_iff_lt_or_eq.mp (Nat.lt_of_lt_of_le hk hLe) with hBefore | rfl
      · exact hc k hBefore
      · exact Bool.eq_false_of_not_eq_true hMiss
  · rintro ⟨i, hLess, hWidth, hHit, hFirst, rfl⟩
    exact search_from hLess hWidth hHit hFirst 0 (Nat.zero_le i)

end Search

end EarlyReturn
