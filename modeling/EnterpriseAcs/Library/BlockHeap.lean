import Mathlib.Data.List.Infix
import Mathlib.Logic.Function.Basic

/-!
# A heap of blocks

A heap is a set of live blocks, each an array of cells; a pointer is null or names a cell. What
C leaves undefined has no result: reading or writing through a null or dangling pointer or past
the end of a block, freeing what is not the start of a live block. Blocks are numbered in the
order of their allocation and no number is used twice, so that a pointer to a freed block stays
dangling.

* `load_set_self`, `load_set_of_ne`: what is read after a write.
* `Chain`: the cells of a linked list. `Chain.frame`: it only depends on its own cells.
* `foldLoop_chain`: a loop that follows the links is a fold over the list.
* `freeLoop_chain`: a loop that frees each node after reading its link frees exactly the list.
* `Begins.store_iff`: filling a block from its start on goes well up to its length.
* `GoesWell`: the condition under which a computation has a result, and what holds of it.
  `GoesWell.bind`, `GoesWell.foldlM_range`: the rules for sequences and loops.
-/

namespace BlockHeap

/-- A cell of a block. -/
structure Ptr where
  block : Nat
  index : Nat
  deriving DecidableEq, Repr

/-- A pointer, which may be null. -/
abbrev Pointer := Option Ptr

/-- Pointer arithmetic. -/
def Pointer.add (p : Pointer) (k : Nat) : Pointer := p.map fun q => ⟨q.block, q.index + k⟩

/-- The live blocks, all of them below the number of the next one. -/
structure Heap (α : Type*) where
  cells : Nat → Option (List α)
  next : Nat
  next_free : ∀ b, next ≤ b → cells b = none

variable {α : Type*}

namespace Heap

/-! ## The operations -/

def load (h : Heap α) (p : Pointer) : Option α :=
  p.bind fun q => (h.cells q.block).bind (·[q.index]?)

/-- The heap with another value in a cell. -/
def set (h : Heap α) (q : Ptr) (a : α) : Heap α where
  cells := Function.update h.cells q.block ((h.cells q.block).map (·.set q.index a))
  next := h.next
  next_free := by
    intro b hb
    by_cases hBlock : b = q.block
    · subst hBlock
      rw [Function.update_self, h.next_free _ hb, Option.map_none]
    · rw [Function.update_of_ne hBlock, h.next_free b hb]

def store (h : Heap α) (p : Pointer) (a : α) : Option (Heap α) :=
  p.bind fun q => if (h.load (some q)).isSome then some (h.set q a) else none

/-- An assignment to a member of a cell. -/
def modify (h : Heap α) (p : Pointer) (f : α → α) : Option (Heap α) :=
  (h.load p).bind fun a => h.store p (f a)

/-- The heap without a block. -/
def drop (h : Heap α) (b : Nat) : Heap α where
  cells := Function.update h.cells b none
  next := h.next
  next_free := by
    intro c hc
    by_cases hBlock : c = b
    · rw [hBlock, Function.update_self]
    · rw [Function.update_of_ne hBlock, h.next_free c hc]

/-- A null pointer is refused without an effect. -/
def free (h : Heap α) : Pointer → Option (Heap α)
  | none => some h
  | some q => if q.index = 0 ∧ (h.cells q.block).isSome then some (h.drop q.block) else none

/-- The heap with a new block. -/
def push (h : Heap α) (contents : List α) : Heap α where
  cells := Function.update h.cells h.next (some contents)
  next := h.next + 1
  next_free := by
    intro b hb
    rw [Function.update_of_ne (by omega), h.next_free b (by omega)]

end Heap

/-- An allocator: which requests it grants, and what it leaves in the cells. -/
structure Arena (α : Type*) where
  grants : Heap α → Nat → Bool
  garbage : Nat → Nat → α

/-- What the cells of a new block hold. -/
def Arena.contents (arena : Arena α) (b n : Nat) : List α := (List.range n).map (arena.garbage b)

/-- A request for `n` cells. -/
def Arena.alloc (arena : Arena α) (h : Heap α) (n : Nat) : Pointer × Heap α :=
  if arena.grants h n then (some ⟨h.next, 0⟩, h.push (arena.contents h.next n)) else (none, h)

/-- Every request is granted. -/
def Arena.Plenty (arena : Arena α) : Prop := ∀ h n, arena.grants h n = true

theorem Arena.Plenty.alloc {arena : Arena α} (hPlenty : arena.Plenty) (h : Heap α) (n : Nat) :
    arena.alloc h n = (some ⟨h.next, 0⟩, h.push (arena.contents h.next n)) := by
  rw [Arena.alloc, if_pos (hPlenty h n)]

@[simp] theorem Arena.length_contents (arena : Arena α) (b n : Nat) :
    (arena.contents b n).length = n := by
  rw [Arena.contents, List.length_map, List.length_range]

@[simp] theorem Pointer.add_some (q : Ptr) (k : Nat) :
    Pointer.add (some q) k = some ⟨q.block, q.index + k⟩ := rfl

namespace Heap

/-! ## What an operation changes -/

variable {h : Heap α} {q : Ptr} {a : α} {b : Nat}

@[simp] theorem load_some (h : Heap α) (q : Ptr) :
    h.load (some q) = (h.cells q.block).bind (·[q.index]?) := rfl

theorem load_of_cells {cells : List α} (hCells : h.cells q.block = some cells) :
    h.load (some q) = cells[q.index]? := by
  rw [load_some, hCells, Option.bind_some]

/-- Cells of the same block contents read the same. -/
theorem load_congr {h' : Heap α} (hCells : h'.cells q.block = h.cells q.block) :
    h'.load (some q) = h.load (some q) := by
  rw [load_some, load_some, hCells]

theorem set_cells (h : Heap α) (q : Ptr) (a : α) :
    (h.set q a).cells =
      Function.update h.cells q.block ((h.cells q.block).map (·.set q.index a)) := rfl

@[simp] theorem set_next (h : Heap α) (q : Ptr) (a : α) : (h.set q a).next = h.next := rfl

@[simp] theorem drop_next (h : Heap α) (b : Nat) : (h.drop b).next = h.next := rfl

@[simp] theorem push_next (h : Heap α) (contents : List α) : (h.push contents).next = h.next + 1 :=
  rfl

theorem set_cells_self {cells : List α} (hCells : h.cells q.block = some cells) :
    (h.set q a).cells q.block = some (cells.set q.index a) := by
  rw [set_cells, Function.update_self, hCells, Option.map_some]

theorem set_cells_of_ne (hb : b ≠ q.block) : (h.set q a).cells b = h.cells b :=
  Function.update_of_ne hb _ _

theorem push_cells_self (h : Heap α) (contents : List α) :
    (h.push contents).cells h.next = some contents :=
  Function.update_self ..

theorem push_cells_of_ne {contents : List α} (hb : b ≠ h.next) :
    (h.push contents).cells b = h.cells b :=
  Function.update_of_ne hb _ _

theorem drop_cells_self (h : Heap α) (b : Nat) : (h.drop b).cells b = none :=
  Function.update_self ..

theorem drop_cells_of_ne {c : Nat} (hc : c ≠ b) : (h.drop b).cells c = h.cells c :=
  Function.update_of_ne hc _ _

theorem load_set_self (hLoad : (h.load (some q)).isSome) :
    (h.set q a).load (some q) = some a := by
  obtain ⟨old, hOld⟩ := Option.isSome_iff_exists.mp hLoad
  rw [load_some, Option.bind_eq_some_iff] at hOld
  obtain ⟨cells, hCells, hIndex⟩ := hOld
  have hLt := (List.getElem?_eq_some_iff.mp hIndex).1
  rw [load_of_cells (set_cells_self hCells), List.getElem?_set_self hLt]

theorem load_set_of_ne {r : Ptr} (hr : r ≠ q) :
    (h.set q a).load (some r) = h.load (some r) := by
  by_cases hBlock : r.block = q.block
  · cases hCells : h.cells q.block with
    | none =>
      refine load_congr ?_
      rw [hBlock, set_cells, Function.update_self, hCells, Option.map_none]
    | some cells =>
      have hIndex : q.index ≠ r.index := fun hEq => hr (by cases r; cases q; simp_all)
      rw [load_of_cells (hBlock ▸ set_cells_self hCells), load_of_cells (hBlock ▸ hCells),
        List.getElem?_set_ne hIndex]
  · exact load_congr (set_cells_of_ne hBlock)

theorem store_of_load (hLoad : h.load (some q) = some a) (new : α) :
    h.store (some q) new = some (h.set q new) := by
  rw [store, Option.bind_some, if_pos (Option.isSome_of_eq_some hLoad)]

theorem modify_of_load (hLoad : h.load (some q) = some a) (f : α → α) :
    h.modify (some q) f = some (h.set q (f a)) := by
  rw [modify, hLoad, Option.bind_some, store_of_load hLoad]

theorem free_of_live (hIndex : q.index = 0) (hLive : h.cells q.block ≠ none) :
    h.free (some q) = some (h.drop q.block) := by
  rw [free, if_pos ⟨hIndex, Option.isSome_iff_ne_none.mpr hLive⟩]

/-! ## Several blocks -/

/-- The heap without these blocks. -/
def dropAll (h : Heap α) (blocks : List Nat) : Heap α := blocks.foldl drop h

theorem dropAll_cells_of_notMem {blocks : List Nat} (hb : b ∉ blocks) :
    (h.dropAll blocks).cells b = h.cells b := by
  induction blocks generalizing h with
  | nil => rfl
  | cons c blocks ih =>
    obtain ⟨hc, hRest⟩ := List.ne_and_not_mem_of_not_mem_cons hb
    rw [dropAll, List.foldl_cons]
    exact (ih hRest).trans (drop_cells_of_ne hc)

theorem dropAll_cells_of_none {blocks : List Nat} (hb : h.cells b = none) :
    (h.dropAll blocks).cells b = none := by
  induction blocks generalizing h with
  | nil => exact hb
  | cons c blocks ih =>
    refine ih (h := h.drop c) ?_
    by_cases hc : b = c
    · rw [hc, drop_cells_self]
    · rw [drop_cells_of_ne hc, hb]

theorem dropAll_cells_of_mem {blocks : List Nat} (hb : b ∈ blocks) :
    (h.dropAll blocks).cells b = none := by
  induction blocks generalizing h with
  | nil => exact absurd hb List.not_mem_nil
  | cons c blocks ih =>
    by_cases hc : b = c
    · exact dropAll_cells_of_none (h := h.drop c) (hc ▸ drop_cells_self h c)
    · exact ih (List.mem_of_ne_of_mem hc hb)

end Heap

/-! ## Linked lists -/

/-- From the pointer on, the links lead through these cells and then to null. -/
def Chain (h : Heap α) (link : α → Pointer) : Pointer → List (Ptr × α) → Prop
  | p, [] => p = none
  | p, (q, a) :: nodes => p = some q ∧ h.load p = some a ∧ Chain h link (link a) nodes

namespace Chain

variable {h h' : Heap α} {link : α → Pointer} {p : Pointer} {nodes : List (Ptr × α)}

theorem load (hChain : Chain h link p nodes) {q : Ptr} {a : α} (hMem : (q, a) ∈ nodes) :
    h.load (some q) = some a := by
  induction nodes generalizing p with
  | nil => exact absurd hMem List.not_mem_nil
  | cons node nodes ih =>
    obtain ⟨r, c⟩ := node
    obtain ⟨rfl, hLoad, hRest⟩ := hChain
    rcases List.mem_cons.mp hMem with hEq | hTail
    · cases hEq
      exact hLoad
    · exact ih hRest hTail

theorem frame (hChain : Chain h link p nodes)
    (hSame : ∀ q a, (q, a) ∈ nodes → h'.load (some q) = h.load (some q)) :
    Chain h' link p nodes := by
  induction nodes generalizing p with
  | nil => exact hChain
  | cons node nodes ih =>
    obtain ⟨q, a⟩ := node
    obtain ⟨rfl, hLoad, hRest⟩ := hChain
    refine ⟨rfl, ?_, ih hRest fun r c hMem => hSame r c (List.mem_cons_of_mem _ hMem)⟩
    rw [hSame q a List.mem_cons_self, hLoad]

/-- The list from a pointer is unique. -/
theorem unique {nodes' : List (Ptr × α)} (hChain : Chain h link p nodes)
    (hChain' : Chain h link p nodes') : nodes = nodes' := by
  induction nodes generalizing p nodes' with
  | nil =>
    cases hChain
    cases nodes' with
    | nil => rfl
    | cons node' nodes' => exact absurd hChain'.1 nofun
  | cons node nodes ih =>
    obtain ⟨q, a⟩ := node
    obtain ⟨rfl, hLoad, hRest⟩ := hChain
    cases nodes' with
    | nil => exact absurd hChain' nofun
    | cons node' nodes' =>
      obtain ⟨q', a'⟩ := node'
      obtain ⟨hq, hLoad', hRest'⟩ := hChain'
      cases hq
      have ha : a = a' := Option.some_inj.mp (hLoad.symm.trans hLoad')
      subst ha
      rw [ih hRest hRest']

/-- The list goes on from each of its cells. -/
theorem suffix (front : List (Ptr × α)) {back : List (Ptr × α)} {q : Ptr} {a : α}
    (hChain : Chain h link p (front ++ (q, a) :: back)) :
    Chain h link (some q) ((q, a) :: back) := by
  induction front generalizing p with
  | nil =>
    obtain ⟨rfl, hLoad, hRest⟩ := hChain
    exact ⟨rfl, hLoad, hRest⟩
  | cons node front ih => exact ih hChain.2.2

/-- A list that ends never comes back to a cell. -/
theorem nodup (hChain : Chain h link p nodes) : (nodes.map Prod.fst).Nodup := by
  induction nodes generalizing p with
  | nil => exact List.nodup_nil
  | cons node nodes ih =>
    obtain ⟨q, a⟩ := node
    refine List.nodup_cons.mpr ⟨fun hMem => ?_, ih hChain.2.2⟩
    obtain ⟨⟨r, c⟩, hNode, rfl⟩ := List.mem_map.mp hMem
    obtain ⟨front, back, rfl⟩ := List.append_of_mem hNode
    have hFirst : Chain h link (some r) ((r, a) :: (front ++ (r, c) :: back)) :=
      suffix [] hChain
    have hAgain : Chain h link (some r) ((r, c) :: back) := suffix ((r, a) :: front) hChain
    -- the rest of the list would be as long as the list
    have hLength := congrArg List.length (hFirst.unique hAgain)
    simp only [List.length_cons, List.length_append] at hLength
    omega

end Chain

/-! ## Loops along a list -/

/-- `while (p != NULL)` with a body that reads the cell at `p` and follows its link. -/
def foldLoop {β : Type*} (h : Heap α) (link : α → Pointer) (f : β → α → β) :
    Nat → β → Pointer → Option β
  | _, acc, none => some acc
  | 0, _, some _ => none
  | fuel + 1, acc, some q =>
    (h.load (some q)).bind fun a => foldLoop h link f fuel (f acc a) (link a)

theorem foldLoop_chain {β : Type*} {h : Heap α} {link : α → Pointer} {p : Pointer}
    {nodes : List (Ptr × α)} (hChain : Chain h link p nodes) (f : β → α → β) {fuel : Nat}
    (hFuel : nodes.length ≤ fuel) (acc : β) :
    foldLoop h link f fuel acc p = some (nodes.foldl (fun acc node => f acc node.2) acc) := by
  induction nodes generalizing p fuel acc with
  | nil =>
    cases hChain
    cases fuel <;> rfl
  | cons node nodes ih =>
    obtain ⟨q, a⟩ := node
    obtain ⟨rfl, hLoad, hRest⟩ := hChain
    cases fuel with
    | zero => exact absurd hFuel (Nat.not_succ_le_zero _)
    | succ fuel =>
      rw [foldLoop, hLoad, Option.bind_some, ih hRest (Nat.le_of_succ_le_succ hFuel),
        List.foldl_cons]

/-- `while (p != NULL)` with a body that frees the cell at `p` after reading its link. -/
def freeLoop (link : α → Pointer) : Nat → Heap α → Pointer → Option (Heap α)
  | _, h, none => some h
  | 0, _, some _ => none
  | fuel + 1, h, some q =>
    (h.load (some q)).bind fun a => (h.free (some q)).bind fun h => freeLoop link fuel h (link a)

/-- The blocks of the nodes of a list. -/
def blocksOf (nodes : List (Ptr × α)) : List Nat := nodes.map fun node => node.1.block

theorem mem_blocksOf {nodes : List (Ptr × α)} {q : Ptr} {a : α} (hMem : (q, a) ∈ nodes) :
    q.block ∈ blocksOf nodes :=
  List.mem_map.mpr ⟨(q, a), hMem, rfl⟩

theorem freeLoop_chain {h : Heap α} {link : α → Pointer} {p : Pointer}
    {nodes : List (Ptr × α)} (hChain : Chain h link p nodes)
    (hStart : ∀ q a, (q, a) ∈ nodes → q.index = 0) {fuel : Nat} (hFuel : nodes.length ≤ fuel) :
    freeLoop link fuel h p = some (h.dropAll (blocksOf nodes)) := by
  induction nodes generalizing h p fuel with
  | nil =>
    cases hChain
    cases fuel <;> rfl
  | cons node nodes ih =>
    obtain ⟨q, a⟩ := node
    have hNodup := List.nodup_cons.mp hChain.nodup
    obtain ⟨rfl, hLoad, hRest⟩ := hChain
    have hZero : q.index = 0 := hStart q a List.mem_cons_self
    have hTail : ∀ r c, (r, c) ∈ nodes → r.index = 0 := fun r c hMem =>
      hStart r c (List.mem_cons_of_mem _ hMem)
    have hLive : h.cells q.block ≠ none := by
      intro hNone
      rw [Heap.load_some, hNone] at hLoad
      cases hLoad
    -- the nodes start blocks of their own, so the others are still there
    have hOther : Chain (h.drop q.block) link (link a) nodes := by
      refine hRest.frame fun r c hMem => Heap.load_congr (Heap.drop_cells_of_ne fun hBlock => ?_)
      refine hNodup.1 (List.mem_map.mpr ⟨(r, c), hMem, ?_⟩)
      obtain ⟨block, index⟩ := r
      obtain ⟨block', index'⟩ := q
      exact Ptr.mk.injEq .. |>.mpr ⟨hBlock, (hTail _ _ hMem).trans hZero.symm⟩
    cases fuel with
    | zero => exact absurd hFuel (Nat.not_succ_le_zero _)
    | succ fuel =>
      rw [freeLoop, hLoad, Option.bind_some, Heap.free_of_live hZero hLive, Option.bind_some,
        ih hOther hTail (Nat.le_of_succ_le_succ hFuel)]
      rfl

/-! ## Filling a block -/

/-- The block has `size` cells, and the first ones are these. -/
def Begins (h : Heap α) (b size : Nat) (front : List α) : Prop :=
  ∃ cells, h.cells b = some cells ∧ cells.length = size ∧ front <+: cells

namespace Begins

variable {h : Heap α} {b size : Nat} {front : List α}

theorem of_push (h : Heap α) (contents : List α) :
    Begins (h.push contents) h.next contents.length [] :=
  ⟨contents, Heap.push_cells_self h contents, rfl, List.nil_prefix⟩

theorem live (hBegins : Begins h b size front) : h.cells b ≠ none := by
  obtain ⟨cells, hCells, -, -⟩ := hBegins
  rw [hCells]
  nofun

theorem frame {h' : Heap α} (hBegins : Begins h b size front) (hSame : h'.cells b = h.cells b) :
    Begins h' b size front := by
  obtain ⟨cells, hCells, hRest⟩ := hBegins
  exact ⟨cells, hSame.trans hCells, hRest⟩

theorem load (hBegins : Begins h b size front) {k : Nat} (hk : k < front.length) :
    h.load (some ⟨b, k⟩) = front[k]? := by
  obtain ⟨cells, hCells, -, ⟨rest, rfl⟩⟩ := hBegins
  rw [Heap.load_of_cells hCells, List.getElem?_append_left hk]

theorem length_le (hBegins : Begins h b size front) : front.length ≤ size := by
  obtain ⟨cells, -, hLength, hPrefix⟩ := hBegins
  exact hLength ▸ hPrefix.length_le

/-- A block that is filled to its end holds exactly these cells. -/
theorem cells_eq (hBegins : Begins h b front.length front) : h.cells b = some front := by
  obtain ⟨cells, hCells, hLength, hPrefix⟩ := hBegins
  rw [hCells, hPrefix.eq_of_length hLength.symm]

/-- The next cell can be written as long as the block has one. -/
theorem store_iff (hBegins : Begins h b size front) (a : α) {h' : Heap α} :
    h.store (some ⟨b, front.length⟩) a = some h' ↔
      front.length < size ∧ h' = h.set ⟨b, front.length⟩ a := by
  obtain ⟨cells, hCells, rfl, hPrefix⟩ := hBegins
  have hLoad : h.load (some ⟨b, front.length⟩) = cells[front.length]? :=
    Heap.load_of_cells hCells
  rw [Heap.store, Option.bind_some, hLoad]
  by_cases hlt : front.length < cells.length
  · rw [if_pos (by simpa using hlt), Option.some_inj, and_iff_right hlt, eq_comm]
  · rw [if_neg (by simpa using hlt)]
    exact iff_of_false nofun fun hAnd => hlt hAnd.1

theorem set (hBegins : Begins h b size front) (hlt : front.length < size) (a : α) :
    Begins (h.set ⟨b, front.length⟩ a) b size (front ++ [a]) := by
  obtain ⟨cells, hCells, rfl, ⟨rest, rfl⟩⟩ := hBegins
  refine ⟨_, Heap.set_cells_self (q := ⟨b, front.length⟩) hCells, List.length_set, ?_⟩
  cases rest with
  | nil => exact absurd hlt (by simp)
  | cons c rest =>
    refine ⟨rest, ?_⟩
    rw [List.set_append_right _ _ (Nat.le_refl _), Nat.sub_self, List.set_cons_zero,
      List.append_assoc, List.singleton_append]

end Begins

/-! ## When a computation has a result -/

/-- There is a result exactly under the condition, and then it satisfies `post`. -/
def GoesWell {σ : Type*} (x : Option σ) (condition : Prop) (post : σ → Prop) : Prop :=
  (condition → ∃ s, x = some s ∧ post s) ∧ (¬ condition → x = none)

namespace GoesWell

variable {σ τ : Type*} {x : Option σ} {c d : Prop} {post : σ → Prop}

theorem of_eq {s : σ} (hx : x = some s) (hPost : post s) : GoesWell x True post :=
  ⟨fun _ => ⟨s, hx, hPost⟩, fun hFalse => absurd trivial hFalse⟩

theorem of_none (hx : x = none) (hc : ¬ c) : GoesWell x c post :=
  ⟨fun h => absurd h hc, fun _ => hx⟩

theorem iff (h : GoesWell x c post) : (∃ s, x = some s) ↔ c := by
  constructor
  · rintro ⟨s, hx⟩
    by_contra hc
    rw [h.2 hc] at hx
    cases hx
  · intro hc
    obtain ⟨s, hx, -⟩ := h.1 hc
    exact ⟨s, hx⟩

theorem congr (h : GoesWell x c post) (hcd : c ↔ d) : GoesWell x d post := by
  rwa [← propext hcd]

/-- The condition holds of every result. -/
theorem and_condition (h : GoesWell x c post) : GoesWell x c fun s => c ∧ post s := by
  refine ⟨fun hc => ?_, h.2⟩
  obtain ⟨s, hx, hs⟩ := h.1 hc
  exact ⟨s, hx, hc, hs⟩

theorem bind {f : σ → Option τ} {post' : τ → Prop} (h : GoesWell x c post)
    (hf : ∀ s, post s → GoesWell (f s) d post') : GoesWell (x.bind f) (c ∧ d) post' := by
  by_cases hc : c
  · obtain ⟨s, hx, hs⟩ := h.1 hc
    rw [hx, Option.bind_some]
    exact (hf s hs).congr (and_iff_right hc).symm
  · rw [h.2 hc, Option.bind_none]
    exact of_none rfl fun hBoth => hc hBoth.1

theorem foldlM_range_succ (f : σ → Nat → Option σ) (s : σ) (k : Nat) :
    (List.range (k + 1)).foldlM f s = ((List.range k).foldlM f s).bind fun t => f t k := by
  rw [List.range_succ, List.foldlM_append]
  simp

/-- A loop goes well when each of its rounds does. -/
theorem foldlM_range {f : σ → Nat → Option σ} {condition : Nat → Prop} {n : Nat} {s : σ}
    (inv : Nat → σ → Prop) (hStart : inv 0 s)
    (hStep : ∀ k < n, ∀ s, inv k s → GoesWell (f s k) (condition k) (inv (k + 1))) :
    GoesWell ((List.range n).foldlM f s) (∀ k < n, condition k) (inv n) := by
  induction n with
  | zero => exact (of_eq rfl hStart).congr (iff_of_true trivial nofun)
  | succ n ih =>
    have hRun := ih fun k hk => hStep k (Nat.lt_succ_of_lt hk)
    have hBoth := hRun.bind (hStep n (Nat.lt_succ_self n))
    rw [foldlM_range_succ]
    refine hBoth.congr ⟨fun hAnd k hk => ?_, fun hAll =>
      ⟨fun k hk => hAll k (Nat.lt_succ_of_lt hk), hAll n (Nat.lt_succ_self n)⟩⟩
    rcases Nat.lt_succ_iff_lt_or_eq.mp hk with hLt | rfl
    · exact hAnd.1 k hLt
    · exact hAnd.2

/-- A loop whose rounds keep an invariant and always have a result. -/
theorem foldlM_of_inv {f : σ → Nat → Option σ} {n : Nat} {s : σ} (inv : Nat → σ → Prop)
    (hStart : inv 0 s) (hStep : ∀ k < n, ∀ s, inv k s → ∃ t, f s k = some t ∧ inv (k + 1) t) :
    ∃ t, (List.range n).foldlM f s = some t ∧ inv n t :=
  have hRun : GoesWell ((List.range n).foldlM f s) (∀ k < n, True) (inv n) :=
    foldlM_range inv hStart fun k hk s hs =>
      ⟨fun _ => hStep k hk s hs, fun hFalse => absurd trivial hFalse⟩
  hRun.1 fun _ _ => trivial

end GoesWell

end BlockHeap
