import EnterpriseAcs.Acpi.MadtReads

/-!
# Stores into the table buffers

The table builders fill structures that lie in buffers of a fixed size. A `Store` is one
member assignment: where it starts in its buffer, how many bytes it writes, and for the
element of an array its index and the number of elements. Members are placed as the C
compiler places them, each at the next multiple of its alignment.

* `forall_stores`: the stores of a walk that fills one record for each entry of a kind.
-/

namespace EnterpriseAcs.Machine

open Acpi

/-! ## Layout -/

/-- A C type: its size in bytes and its alignment. -/
structure CType where
  size : Nat
  align : Nat
  deriving DecidableEq, Repr

def uint8 : CType := ⟨1, 1⟩
def uint32 : CType := ⟨4, 4⟩
def uint64 : CType := ⟨8, 8⟩

def CType.array (t : CType) (n : Nat) : CType := ⟨t.size * n, t.align⟩

/-- The least multiple of `a` that is at least `n`. -/
def alignUp (n a : Nat) : Nat := (n + a - 1) / a * a

/-- Where the `i`-th member starts, when the first may start at `pos`; for `i` the number of
members, where the last one ends. -/
def memberOffset : Nat → List CType → Nat → Nat
  | pos, [], _ => pos
  | pos, t :: _, 0 => alignUp pos t.align
  | pos, t :: members, i + 1 => memberOffset (alignUp pos t.align + t.size) members i

/-- The structure with these members. -/
def cStruct (members : List CType) : CType :=
  let align := (members.map CType.align).foldr max 1
  ⟨alignUp (memberOffset 0 members members.length) align, align⟩

/-! ## Stores -/

structure Store where
  offset : Nat
  width : Nat
  index : Nat := 0
  elements : Nat := 1
  deriving DecidableEq, Repr

/-- An assignment to the `i`-th member of a structure at `base`. -/
def memberStore (base : Nat) (members : List CType) (i : Nat) : Store where
  offset := base + memberOffset 0 members i
  width := (members.getD i uint8).size

/-- An assignment to the element `index` of the `i`-th member, an array of `elements` values
of type `t`. -/
def elementStore (base : Nat) (members : List CType) (i : Nat) (t : CType) (elements index : Nat) :
    Store where
  offset := base + memberOffset 0 members i + t.size * index
  width := t.size
  index := index
  elements := elements

/-- A store inside a buffer of `size` bytes and inside the array that it writes to. -/
def Store.Inside (size : Nat) (x : Store) : Prop :=
  x.offset + x.width ≤ size ∧ x.index < x.elements

/-! ## One record for each entry of a kind -/

/-- The log does not change what a walk computes. -/
theorem foldl_withLog_fst {σ : Type*} (visit : Nat → σ → σ) (stores : Nat → σ → List Store)
    (entries : List Nat) (s : σ) (log : List Store) :
    (entries.foldl (fun s entry => withLog visit stores entry s) (s, log)).1 =
      entries.foldl (fun s entry => visit entry s) s := by
  induction entries generalizing s log with
  | nil => rfl
  | cons e entries ih => rw [List.foldl_cons, withLog, ih, List.foldl_cons]

/-- The stores of a walk that fills the next record for each entry of the kind `p`, and
stores nothing for the others. -/
theorem forall_stores {σ : Type*} {visit : Nat → σ → σ} {stores : Nat → σ → List Store}
    (p : Nat → Prop) [DecidablePred p] (count : σ → Nat) (record : Nat → Nat → List Store)
    (hHit : ∀ entry s, p entry →
      count (visit entry s) = count s + 1 ∧ stores entry s = record entry (count s))
    (hMiss : ∀ entry s, ¬ p entry → visit entry s = s ∧ stores entry s = [])
    (Q : Store → Prop) (entries : List Nat) (s : σ) (log : List Store) :
    (∀ x ∈ (entries.foldl (fun s entry => withLog visit stores entry s) (s, log)).2, Q x) ↔
      (∀ x ∈ log, Q x) ∧ ∀ k entry, (entries.filter fun entry => p entry)[k]? = some entry →
        ∀ x ∈ record entry (count s + k), Q x := by
  induction entries generalizing s log with
  | nil => simp
  | cons e entries ih =>
    rw [List.foldl_cons, withLog, ih]
    by_cases hp : p e
    · obtain ⟨hCount, hStores⟩ := hHit e s hp
      rw [List.filter_cons_of_pos (by simpa using hp), hCount, hStores, List.forall_mem_append,
        and_assoc]
      refine and_congr_right fun _ => ?_
      constructor
      · rintro ⟨hFirst, hRest⟩ k entry hk
        cases k with
        | zero =>
          cases hk
          exact hFirst
        | succ k =>
          rw [List.getElem?_cons_succ] at hk
          have := hRest k entry hk
          rwa [Nat.add_right_comm] at this
      · intro h
        refine ⟨h 0 e rfl, fun k entry hk => ?_⟩
        have := h (k + 1) entry (by rwa [List.getElem?_cons_succ])
        rwa [Nat.add_right_comm]
    · obtain ⟨hVisit, hStores⟩ := hMiss e s hp
      rw [List.filter_cons_of_neg (by simpa using hp), hVisit, hStores, List.append_nil]

/-- At most one record for the first entry, and those for the others. -/
theorem filterMap_cons_toList {α β : Type*} (f : α → Option β) (a : α) (l : List α) :
    (a :: l).filterMap f = (f a).toList ++ l.filterMap f := by
  cases h : f a with
  | none => exact List.filterMap_cons_none h
  | some b => exact List.filterMap_cons_some h

/-- Records that do not depend on their entries. -/
theorem forall_getElem?_const {α : Type*} (l : List α) (P : Nat → Prop) :
    (∀ k a, l[k]? = some a → P k) ↔ ∀ k < l.length, P k := by
  constructor
  · intro h k hk
    exact h k _ (List.getElem?_eq_getElem hk)
  · intro h k a hk
    exact h k (List.getElem?_eq_some_iff.mp hk).1

/-- Room for a number of records. -/
theorem forall_lt_iff_le {P : Nat → Prop} {room n : Nat} (hRoom : ∀ k, P k ↔ k < room) :
    (∀ k < n, P k) ↔ n ≤ room := by
  constructor
  · intro h
    by_contra hLong
    exact absurd ((hRoom room).mp (h room (by omega))) (by omega)
  · intro h k hk
    exact (hRoom k).mpr (by omega)

end EnterpriseAcs.Machine
