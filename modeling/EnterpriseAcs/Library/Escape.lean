/-!
# Code that jumps away

Code on a state goes on with a value, or jumps away with a label and leaves out what follows. Its
triples have one condition for each.

* `meets_bind`: a sequence.
* `meets_foldlM`: a loop over a list, with an invariant over the items that it has passed.
-/

namespace Escape

variable {ε σ α β ι : Type}

/-- From the states in `P` the code ends in `Q`, or jumps away in `E`. -/
def Meets (P : σ → Prop) (code : EStateM ε σ α) (Q : α → σ → Prop) (E : ε → σ → Prop) : Prop :=
  ∀ s, P s →
    match code.run s with
    | .ok a s' => Q a s'
    | .error e s' => E e s'

variable {P : σ → Prop} {Q : α → σ → Prop} {R : β → σ → Prop} {E : ε → σ → Prop}

theorem meets_pure {a : α} (h : ∀ s, P s → Q a s) : Meets P (pure a : EStateM ε σ α) Q E := by
  intro s hs
  exact h s hs

theorem meets_throw {e : ε} (h : ∀ s, P s → E e s) :
    Meets P (throw e : EStateM ε σ α) Q E := by
  intro s hs
  exact h s hs

theorem meets_modify {f : σ → σ} {Q : PUnit → σ → Prop} (h : ∀ s, P s → Q ⟨⟩ (f s)) :
    Meets P (modify f : EStateM ε σ PUnit) Q E := by
  intro s hs
  exact h s hs

theorem meets_bind {code : EStateM ε σ α} {rest : α → EStateM ε σ β} (hCode : Meets P code Q E)
    (hRest : ∀ a, Meets (Q a) (rest a) R E) : Meets P (code >>= rest) R E := by
  intro s hs
  have hFirst := hCode s hs
  have hRun : (code >>= rest).run s =
      match code.run s with
      | .ok a s' => (rest a).run s'
      | .error e s' => .error e s' := rfl
  rw [hRun]
  cases hEnd : code.run s with
  | ok a s' =>
    rw [hEnd] at hFirst
    exact hRest a s' hFirst
  | error e s' =>
    rw [hEnd] at hFirst
    exact hFirst

theorem Meets.mono {code : EStateM ε σ α} {P' : σ → Prop} {Q' : α → σ → Prop}
    {E' : ε → σ → Prop} (h : Meets P code Q E) (hP : ∀ s, P' s → P s)
    (hQ : ∀ a s, Q a s → Q' a s) (hE : ∀ e s, E e s → E' e s) : Meets P' code Q' E' := by
  intro s hs
  have hOnce := h s (hP s hs)
  cases hEnd : code.run s with
  | ok a s' =>
    rw [hEnd] at hOnce
    exact hQ a s' hOnce
  | error e s' =>
    rw [hEnd] at hOnce
    exact hE e s' hOnce

theorem meets_ite {c : Prop} [Decidable c] {yes no : EStateM ε σ α}
    (hYes : c → Meets P yes Q E) (hNo : ¬ c → Meets P no Q E) :
    Meets P (if c then yes else no) Q E := by
  split
  · rename_i h
    exact hYes h
  · rename_i h
    exact hNo h

/-- A loop over a list. The invariant speaks of the items that are done and the value so far. -/
theorem meets_foldlM {I : List ι → α → σ → Prop} {body : α → ι → EStateM ε σ α}
    (done items : List ι) (a : α)
    (hBody : ∀ before item after a, done ++ items = before ++ item :: after →
      Meets (I before a) (body a item) (I (before ++ [item])) E) :
    Meets (I done a) (items.foldlM body a) (I (done ++ items)) E := by
  induction items generalizing done a with
  | nil =>
    rw [List.append_nil]
    exact meets_pure fun s hs => hs
  | cons item items ih =>
    rw [List.foldlM_cons]
    refine meets_bind (hBody done item items a rfl) fun a' => ?_
    have hAssoc : done ++ item :: items = (done ++ [item]) ++ items := by
      rw [List.append_assoc, List.singleton_append]
    rw [hAssoc]
    apply ih (done ++ [item]) a'
    intro before item' after a hEq
    exact hBody before item' after a (hAssoc.trans hEq)

end Escape
