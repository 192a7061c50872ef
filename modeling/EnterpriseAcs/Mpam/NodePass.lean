import EnterpriseAcs.Mpam.NodeHeap

/-!
# The lists of caches in memory

The pass over the configuration builds, in the array `PrivateCaches` and the nodes behind it,
the lists that `cachesOf` describes, and `FreePrivateCaches` gives back all of it.

* `PeList`: the list of a PE, as head and nodes in memory.
* `Lists.first`, `Lists.behind`: what one more private cache does to the lists.
* `pass_spec`: the pass from the fresh arrays on.
* `freePrivateCaches_spec`: afterwards the same blocks are live as before the first allocation.
-/

namespace EnterpriseAcs.Mpam.InMemory

open Machine BlockHeap

/-! ## Allocating -/

section Allocate

variable {α : Type*} {arena : Arena α}

theorem palMemAllocate_eq (hPlenty : arena.Plenty) (h : Heap α) (num : BitVec 32) (type : CType)
    (hSize : 0 < type.size) (hFits : num.toNat * type.size < 2 ^ 32) :
    palMemAllocate arena h num type =
      (some ⟨h.next, 0⟩, h.push (arena.contents h.next num.toNat)) := by
  have hCells : (num * BitVec.ofNat 32 type.size).toNat / type.size = num.toNat := by
    rw [BitVec.toNat_mul, BitVec.toNat_ofNat, Nat.mul_mod_mod,
      Nat.mod_eq_of_lt hFits, Nat.mul_div_cancel _ hSize]
  rw [palMemAllocate, hCells, hPlenty.alloc]

end Allocate

/-! ## The list of a PE -/

/-- The pointer names this cache of the configuration, or is null if there is none. -/
def Names (cfg : PlatformMpamCfg) (p : Option Nat) (c : Option MpamCacheNodeCfg) : Prop :=
  p.map (cfg.cnode[·]?) = c.map some

theorem Names.cacheAt {cfg : PlatformMpamCfg} {p : Option Nat} {c : Option MpamCacheNodeCfg}
    (h : Names cfg p c) : InMemory.cacheAt cfg p = c := by
  cases p with
  | none =>
    cases c with
    | none => rfl
    | some c => cases h
  | some k =>
    cases c with
    | none => cases h
    | some c => exact Option.some_inj.mp h

/-- A node and the pointer to it. -/
abbrev Node := Ptr × PrivatePeCaches

/-- The list of PE `i`, whose head lies in the array, holds these caches in the order of the
pass. -/
structure PeList (cfg : PlatformMpamCfg) (h : Heap PrivatePeCaches) (array i : Nat)
    (nodes : List Node) (caches : List MpamCacheNodeCfg) : Prop where
  head : ∃ a, h.load (some ⟨array, i⟩) = some a ∧ Names cfg a.cache caches.head? ∧
    (caches ≠ [] → Chain h PrivatePeCaches.next a.next nodes)
  behind : nodes.map (fun node => cacheAt cfg node.2.cache) = caches.tail.reverse.map some

section PeList

variable {cfg : PlatformMpamCfg} {h h' : Heap PrivatePeCaches} {array i k : Nat}
  {nodes : List Node} {caches : List MpamCacheNodeCfg} {c : MpamCacheNodeCfg}

theorem PeList.frame (hList : PeList cfg h array i nodes caches)
    (hHead : h'.load (some ⟨array, i⟩) = h.load (some ⟨array, i⟩))
    (hNodes : ∀ q a, (q, a) ∈ nodes → h'.load (some q) = h.load (some q)) :
    PeList cfg h' array i nodes caches := by
  obtain ⟨a, hLoad, hNames, hChain⟩ := hList.head
  exact ⟨⟨a, hHead.trans hLoad, hNames, fun hne => (hChain hne).frame hNodes⟩, hList.behind⟩

theorem PeList.length (hList : PeList cfg h array i nodes caches) :
    nodes.length = caches.length - 1 := by
  have hLength := congrArg List.length hList.behind
  simpa using hLength

theorem PeList.nil_of_empty (hList : PeList cfg h array i nodes []) : nodes = [] := by
  have hLength := hList.length
  exact List.length_eq_zero_iff.mp (by simpa using hLength)

/-- The head and the nodes are one linked list. -/
theorem PeList.chain (hList : PeList cfg h array i nodes caches) (hne : caches ≠ []) :
    ∃ a, Chain h PrivatePeCaches.next (some ⟨array, i⟩) ((⟨array, i⟩, a) :: nodes) ∧
      Names cfg a.cache caches.head? := by
  obtain ⟨a, hLoad, hNames, hChain⟩ := hList.head
  exact ⟨a, ⟨rfl, hLoad, hChain hne⟩, hNames⟩

end PeList

/-! ## The lists of all PEs -/

/-- The private caches among `l` that the pass gives to PE `i`. -/
def privatesIn (table : PeInfoTable) (l : List MpamCacheNodeCfg) (i : Nat) :
    List MpamCacheNodeCfg :=
  l.filter fun c => c.isPrivate && (peGetIndexMpid table c.mpidr).toNat == i

/-- The lists of `n` PEs; each node is a block of its own that was allocated after the array,
and apart from these blocks the heap is `start`. -/
structure Lists (cfg : PlatformMpamCfg) (start : Heap PrivatePeCaches) (array n : Nat)
    (caches : Nat → List MpamCacheNodeCfg) (h : Heap PrivatePeCaches) (nodes : Nat → List Node) :
    Prop where
  list : ∀ i < n, PeList cfg h array i (nodes i) (caches i)
  beyond : ∀ i, n ≤ i → nodes i = []
  own : ∀ i q a, (q, a) ∈ nodes i → q.index = 0 ∧ array < q.block ∧ q.block < h.next
  apart : ∀ i j q r a b, (q, a) ∈ nodes i → (r, b) ∈ nodes j → q.block = r.block → i = j
  live : array < h.next
  rest : ∀ b, b ≠ array → (∀ i, b ∉ blocksOf (nodes i)) → h.cells b = start.cells b

namespace Lists

variable {cfg : PlatformMpamCfg} {start h : Heap PrivatePeCaches} {array n i k : Nat}
  {caches : Nat → List MpamCacheNodeCfg} {nodes : Nat → List Node} {c : MpamCacheNodeCfg}

/-- The first cache of a PE is stored in its head. -/
theorem first (hLists : Lists cfg start array n caches h nodes) (hi : i < n)
    (hEmpty : caches i = []) (hk : cfg.cnode[k]? = some c) :
    Lists cfg start array n (Function.update caches i [c])
      (h.set ⟨array, i⟩ { cache := some k, next := none }) nodes where
  list := by
    intro j hj
    have hNodes : ∀ q a, (q, a) ∈ nodes j →
        (h.set ⟨array, i⟩ { cache := some k, next := none }).load (some q) = h.load (some q) :=
      fun q a hMem => Heap.load_congr
        (Heap.set_cells_of_ne (Nat.ne_of_gt (hLists.own j q a hMem).2.1))
    by_cases hji : j = i
    · subst hji
      have hOld := hLists.list j hj
      rw [hEmpty] at hOld
      obtain ⟨a, hLoad, -, -⟩ := hOld.head
      rw [Function.update_self, hOld.nil_of_empty]
      refine ⟨⟨_, Heap.load_set_self (Option.isSome_of_eq_some hLoad), ?_, fun _ => rfl⟩, rfl⟩
      rw [Names, Option.map_some, hk, List.head?_cons, Option.map_some]
    · rw [Function.update_of_ne hji]
      refine (hLists.list j hj).frame (Heap.load_set_of_ne fun hEq => hji ?_) hNodes
      exact (Ptr.mk.inj hEq).2
  beyond := hLists.beyond
  own := hLists.own
  apart := hLists.apart
  live := hLists.live
  rest := fun b hb hOut => (Heap.set_cells_of_ne hb).trans (hLists.rest b hb hOut)

/-- A further cache gets a node of its own right behind the head. -/
theorem behind (hLists : Lists cfg start array n caches h nodes) (hi : i < n)
    (hCaches : caches i ≠ []) (hk : cfg.cnode[k]? = some c) {head : PrivatePeCaches}
    (hHead : h.load (some ⟨array, i⟩) = some head) (contents : PrivatePeCaches) :
    Lists cfg start array n (Function.update caches i (caches i ++ [c]))
      (((h.push [contents]).set ⟨h.next, 0⟩ { cache := some k, next := head.next }).set
        ⟨array, i⟩ { head with next := some ⟨h.next, 0⟩ })
      (Function.update nodes i
        ((⟨h.next, 0⟩, { cache := some k, next := head.next }) :: nodes i)) := by
  have hArray : array ≠ h.next := Nat.ne_of_lt hLists.live
  have hOld : ∀ j q a, (q, a) ∈ nodes j → q.block ≠ h.next ∧ q.block ≠ array := fun j q a hMem =>
    ⟨Nat.ne_of_lt (hLists.own j q a hMem).2.2, Nat.ne_of_gt (hLists.own j q a hMem).2.1⟩
  -- the new heap
  generalize hNode : ({ cache := some k, next := head.next } : PrivatePeCaches) = node
  generalize hNew : ((h.push [contents]).set ⟨h.next, 0⟩ node).set ⟨array, i⟩
    { head with next := some ⟨h.next, 0⟩ } = new
  have hOther : ∀ b, b ≠ array → b ≠ h.next → new.cells b = h.cells b := by
    intro b hb hbNew
    rw [← hNew, Heap.set_cells_of_ne hb, Heap.set_cells_of_ne hbNew, Heap.push_cells_of_ne hbNew]
  have hNodes : ∀ j q a, (q, a) ∈ nodes j → new.load (some q) = h.load (some q) :=
    fun j q a hMem => Heap.load_congr (hOther _ (hOld j q a hMem).2 (hOld j q a hMem).1)
  have hFresh : new.load (some ⟨h.next, 0⟩) = some node := by
    have hPushed : ((h.push [contents]).load (some ⟨h.next, 0⟩)).isSome := by
      rw [Heap.load_of_cells (Heap.push_cells_self h [contents])]
      rfl
    rw [← hNew, Heap.load_set_of_ne fun hEq => hArray (Ptr.mk.inj hEq).1.symm]
    exact Heap.load_set_self hPushed
  have hBefore : ∀ j, ((h.push [contents]).set ⟨h.next, 0⟩ node).load (some ⟨array, j⟩) =
      h.load (some ⟨array, j⟩) := fun j =>
    (Heap.load_congr (Heap.set_cells_of_ne hArray)).trans
      (Heap.load_congr (Heap.push_cells_of_ne hArray))
  have hHeads : ∀ j, j ≠ i → new.load (some ⟨array, j⟩) = h.load (some ⟨array, j⟩) := by
    intro j hj
    rw [← hNew, Heap.load_set_of_ne fun hEq => hj (Ptr.mk.inj hEq).2, hBefore]
  have hNewHead : new.load (some ⟨array, i⟩) = some { head with next := some ⟨h.next, 0⟩ } := by
    rw [← hNew]
    exact Heap.load_set_self (Option.isSome_of_eq_some ((hBefore i).trans hHead))
  have hNext : new.next = h.next + 1 := by
    rw [← hNew]
    rfl
  have hMemNew : ∀ j q a, (q, a) ∈ Function.update nodes i ((⟨h.next, 0⟩, node) :: nodes i) j →
      (j = i ∧ q = ⟨h.next, 0⟩) ∨ (q, a) ∈ nodes j := by
    intro j q a hMem
    by_cases hji : j = i
    · subst hji
      rw [Function.update_self] at hMem
      rcases List.mem_cons.mp hMem with hEq | hTail
      · exact .inl ⟨rfl, (Prod.mk.inj hEq).1⟩
      · exact .inr hTail
    · rw [Function.update_of_ne hji] at hMem
      exact .inr hMem
  constructor
  · intro j hj
    by_cases hji : j = i
    · subst hji
      have hList := hLists.list j hj
      obtain ⟨a, hLoad, hNames, hChain⟩ := hList.head
      cases hHead.symm.trans hLoad
      have hTail : Chain new PrivatePeCaches.next head.next (nodes j) :=
        (hChain hCaches).frame (hNodes j)
      rw [Function.update_self, Function.update_self]
      refine ⟨⟨_, hNewHead, ?_, fun _ => ⟨rfl, hFresh, ?_⟩⟩, ?_⟩
      · rw [List.head?_append_of_ne_nil _ hCaches]
        exact hNames
      · rw [← hNode]
        exact hTail
      · have hCache : cacheAt cfg node.cache = some c := by
          rw [← hNode]
          exact hk
        rw [List.map_cons, hList.behind, hCache, List.tail_append_of_ne_nil hCaches,
          List.reverse_append, List.map_append]
        rfl
    · rw [Function.update_of_ne hji, Function.update_of_ne hji]
      exact (hLists.list j hj).frame (hHeads j hji) (hNodes j)
  · intro j hj
    rw [Function.update_of_ne (by omega), hLists.beyond j hj]
  · intro j q a hMem
    rw [hNext]
    rcases hMemNew j q a hMem with ⟨-, rfl⟩ | hIn
    · exact ⟨rfl, hLists.live, Nat.lt_succ_self _⟩
    · obtain ⟨hIndex, hAfter, hLt⟩ := hLists.own j q a hIn
      exact ⟨hIndex, hAfter, Nat.lt_succ_of_lt hLt⟩
  · intro j l q r a b hq hr hBlock
    rcases hMemNew j q a hq with ⟨rfl, rfl⟩ | hIn <;>
      rcases hMemNew l r b hr with ⟨rfl, rfl⟩ | hIn'
    · rfl
    · exact absurd hBlock.symm (hOld l r b hIn').1
    · exact absurd hBlock (hOld j q a hIn).1
    · exact hLists.apart j l q r a b hIn hIn' hBlock
  · rw [hNext]
    exact Nat.lt_succ_of_lt hLists.live
  · intro b hb hOut
    have hbNew : b ≠ h.next := by
      intro hEq
      refine hOut i ?_
      rw [Function.update_self, hEq]
      exact List.mem_cons_self
    refine (hOther b hb hbNew).trans (hLists.rest b hb fun j hMem => hOut j ?_)
    by_cases hji : j = i
    · subst hji
      rw [Function.update_self]
      exact List.mem_cons_of_mem _ hMem
    · rwa [Function.update_of_ne hji]

end Lists

/-! ## Before the pass -/

/-- The fresh array, once its heads are null. -/
theorem setPeInfoNull_spec (cfg : PlatformMpamCfg) (start : Heap PrivatePeCaches)
    (contents : List PrivatePeCaches) {peCnt : BitVec 32}
    (hLength : contents.length = peCnt.toNat) :
    ∃ h, setPeInfoNull (start.push contents) (some ⟨start.next, 0⟩) peCnt = some h ∧
      Lists cfg start start.next peCnt.toNat (fun _ => []) h fun _ => [] := by
  obtain ⟨h, hRun, hNext, hRest, hHeads⟩ := GoesWell.foldlM_of_inv
    (f := fun (h : Heap PrivatePeCaches) peIndex =>
      h.modify (Pointer.add (some ⟨start.next, 0⟩) peIndex) fun a => { a with cache := none })
    (n := peCnt.toNat) (s := start.push contents)
    (fun k h => h.next = start.next + 1 ∧ (∀ b, b ≠ start.next → h.cells b = start.cells b) ∧
      ∀ i < peCnt.toNat, ∃ a, h.load (some ⟨start.next, i⟩) = some a ∧
        (i < k → a.cache = none))
    (by
      refine ⟨rfl, fun b hb => Heap.push_cells_of_ne hb, fun i hi => ?_⟩
      rw [Heap.load_of_cells (Heap.push_cells_self start contents)]
      exact ⟨_, List.getElem?_eq_getElem (hLength ▸ hi), nofun⟩)
    (by
      intro k hk h hInv
      obtain ⟨hNext, hRest, hHeads⟩ := hInv
      obtain ⟨a, hLoad, -⟩ := hHeads k hk
      refine ⟨h.set ⟨start.next, k⟩ { a with cache := none }, ?_, hNext, fun b hb => ?_,
        fun i hi => ?_⟩
      · rw [Pointer.add_some, Nat.zero_add, Heap.modify_of_load hLoad]
      · exact (Heap.set_cells_of_ne hb).trans (hRest b hb)
      · by_cases hik : i = k
        · subst hik
          exact ⟨_, Heap.load_set_self (Option.isSome_of_eq_some hLoad), fun _ => rfl⟩
        · obtain ⟨c, hOther, hNull⟩ := hHeads i hi
          refine ⟨c, ?_, fun hLt => hNull (by omega)⟩
          rw [Heap.load_set_of_ne fun hEq => hik (Ptr.mk.inj hEq).2, hOther])
  refine ⟨h, hRun, fun i hi => ?_, fun _ _ => rfl, nofun, nofun, ?_, fun b hb _ => hRest b hb⟩
  · obtain ⟨a, hLoad, hNull⟩ := hHeads i hi
    refine ⟨⟨a, hLoad, ?_, fun hne => absurd rfl hne⟩, rfl⟩
    rw [Names, hNull hi]
    rfl
  · rw [hNext]
    exact Nat.lt_succ_self _

/-! ## After the pass -/

section Free

variable {cfg : PlatformMpamCfg} {start h : Heap PrivatePeCaches} {array n fuel : Nat}
  {caches : Nat → List MpamCacheNodeCfg} {nodes : Nat → List Node}

/-- Of the nodes those of the first `k` PEs are free, and everything else is as in `h`. -/
structure Freed (h : Heap PrivatePeCaches) (nodes : Nat → List Node) (k : Nat)
    (h' : Heap PrivatePeCaches) : Prop where
  gone : ∀ b, (∃ j < k, b ∈ blocksOf (nodes j)) → h'.cells b = none
  kept : ∀ b, (∀ j < k, b ∉ blocksOf (nodes j)) → h'.cells b = h.cells b

theorem Lists.notMem_blocksOf (hLists : Lists cfg start array n caches h nodes) {b i : Nat}
    (hb : b ≤ array) : b ∉ blocksOf (nodes i) := by
  intro hMem
  obtain ⟨⟨q, a⟩, hNode, rfl⟩ := List.mem_map.mp hMem
  exact absurd (hLists.own i q a hNode).2.1 (Nat.not_lt_of_le hb)

theorem Lists.disjoint (hLists : Lists cfg start array n caches h nodes) {b i j : Nat}
    (hi : b ∈ blocksOf (nodes i)) (hj : b ∈ blocksOf (nodes j)) : i = j := by
  obtain ⟨⟨q, a⟩, hNode, rfl⟩ := List.mem_map.mp hi
  obtain ⟨⟨r, c⟩, hNode', hBlock⟩ := List.mem_map.mp hj
  exact hLists.apart i j q r a c hNode hNode' hBlock.symm

theorem Freed.step (hLists : Lists cfg start array n caches h nodes) {k : Nat} (hk : k < n)
    (hCaches : caches k ≠ []) (hFuel : (nodes k).length ≤ fuel) {h' : Heap PrivatePeCaches}
    (hFreed : Freed h nodes k h') :
    ∃ h'', freePe fuel (some ⟨array, 0⟩) h' k = some h'' ∧ Freed h nodes (k + 1) h'' := by
  have hHeadKept : h'.cells array = h.cells array :=
    hFreed.kept array fun j _ => hLists.notMem_blocksOf (Nat.le_refl _)
  have hNodesKept : ∀ q a, (q, a) ∈ nodes k → h'.load (some q) = h.load (some q) := by
    intro q a hMem
    refine Heap.load_congr (hFreed.kept _ fun j hj hIn => ?_)
    exact absurd (hLists.disjoint hIn (mem_blocksOf hMem)) (Nat.ne_of_lt hj)
  obtain ⟨a, hLoad, -, hChain⟩ :=
    ((hLists.list k hk).frame (Heap.load_congr hHeadKept) hNodesKept).head
  have hFree := freeLoop_chain (hChain hCaches) (fun q a hMem => (hLists.own k q a hMem).1) hFuel
  refine ⟨h'.dropAll (blocksOf (nodes k)), ?_, fun b hb => ?_, fun b hb => ?_⟩
  · simp only [freePe, Pointer.add_some, Nat.zero_add, hLoad, Option.bind_eq_bind,
      Option.bind_some, hFree]
  · obtain ⟨j, hj, hMem⟩ := hb
    by_cases hjk : j = k
    · subst hjk
      exact Heap.dropAll_cells_of_mem hMem
    · exact Heap.dropAll_cells_of_none (hFreed.gone b ⟨j, by omega, hMem⟩)
  · rw [Heap.dropAll_cells_of_notMem (hb k (Nat.lt_succ_self k))]
    exact hFreed.kept b fun j hj => hb j (Nat.lt_succ_of_lt hj)

/-- The nodes of all PEs and the array are given back, each once, and nothing else. -/
theorem freePrivateCaches_spec (fuel : Nat) {numOfPe : BitVec 32}
    (hLists : Lists cfg start start.next numOfPe.toNat caches h nodes) (hPes : 0 < numOfPe.toNat)
    (hCaches : ∀ i < numOfPe.toNat, caches i ≠ [])
    (hFuel : ∀ i < numOfPe.toNat, (nodes i).length ≤ fuel) :
    ∃ h', freePrivateCaches numOfPe fuel h (some ⟨start.next, 0⟩) = some h' ∧
      h'.cells = start.cells := by
  obtain ⟨h', hRun, hFreed⟩ := GoesWell.foldlM_of_inv
    (f := freePe fuel (some ⟨start.next, 0⟩)) (n := numOfPe.toNat) (s := h) (Freed h nodes)
    ⟨fun b hb => absurd hb.choose_spec.1 (Nat.not_lt_zero _), fun b _ => rfl⟩
    fun k hk h' hFreed => hFreed.step hLists hk (hCaches k hk) (hFuel k hk)
  have hArray : h'.cells start.next = h.cells start.next :=
    hFreed.kept _ fun j _ => hLists.notMem_blocksOf (Nat.le_refl _)
  have hLive : h'.cells start.next ≠ none := by
    obtain ⟨a, hLoad, -⟩ := (hLists.list 0 hPes).head
    intro hNone
    rw [Heap.load_some, ← hArray, hNone] at hLoad
    cases hLoad
  refine ⟨h'.drop start.next, ?_, funext fun b => ?_⟩
  · simp only [freePrivateCaches, hRun, Option.bind_eq_bind, Option.bind_some]
    exact Heap.free_of_live (q := ⟨start.next, 0⟩) rfl hLive
  · by_cases hb : b = start.next
    · rw [hb, Heap.drop_cells_self, start.next_free _ (Nat.le_refl _)]
    · rw [Heap.drop_cells_of_ne hb]
      by_cases hNode : ∃ j < numOfPe.toNat, b ∈ blocksOf (nodes j)
      · have hAfter : start.next < b := by
          by_contra hLe
          obtain ⟨j, -, hMem⟩ := hNode
          exact hLists.notMem_blocksOf (Nat.le_of_not_lt hLe) hMem
        rw [hFreed.gone b hNode, start.next_free b (Nat.le_of_lt hAfter)]
      · have hOut : ∀ j, b ∉ blocksOf (nodes j) := by
          intro j hMem
          by_cases hj : j < numOfPe.toNat
          · exact hNode ⟨j, hj, hMem⟩
          · rw [hLists.beyond j (Nat.le_of_not_lt hj)] at hMem
            exact absurd hMem List.not_mem_nil
        rw [hFreed.kept b fun j _ => hOut j, hLists.rest b hb hOut]

end Free

/-! ## The pass -/

section Pass

variable {cfg : PlatformMpamCfg} {table : PeInfoTable} {l : List MpamCacheNodeCfg}
  {c : MpamCacheNodeCfg}

theorem privatesIn_append_of_private (hPrivate : c.isPrivate = true) :
    privatesIn table (l ++ [c]) = Function.update (privatesIn table l)
      (peGetIndexMpid table c.mpidr).toNat
        (privatesIn table l (peGetIndexMpid table c.mpidr).toNat ++ [c]) := by
  funext i
  by_cases hi : i = (peGetIndexMpid table c.mpidr).toNat
  · subst hi
    simp [privatesIn, List.filter_append, hPrivate]
  · rw [Function.update_of_ne hi]
    simp [privatesIn, List.filter_append, hPrivate, Ne.symm hi]

theorem privatesIn_append_of_not_private (table : PeInfoTable) (l : List MpamCacheNodeCfg)
    (hPrivate : ¬ c.isPrivate = true) :
    privatesIn table (l ++ [c]) = privatesIn table l := by
  funext i
  simp [privatesIn, List.filter_append, hPrivate]

/-- The two arrays, and the heaps that they were allocated in. -/
structure Arrays where
  nodes : Heap PrivatePeCaches
  clusters : Heap (Option Nat)

/-- What the pass has done with the caches `l`, on `n` PEs and with room for `size` cluster
caches. The arrays are the next blocks of their heaps. -/
structure PassInv (cfg : PlatformMpamCfg) (table : PeInfoTable) (start : Arrays) (n size : Nat)
    (l : List MpamCacheNodeCfg) (s : Pass) : Prop where
  lists : ∃ nodes, Lists cfg start.nodes start.nodes.next n (privatesIn table l)
    s.privateCaches nodes
  clusters : ∃ refs, Begins s.clusterCaches start.clusters.next size refs ∧
    refs.length = s.clusterIndex ∧
      refs.map (cacheAt cfg) = (l.filter MpamCacheNodeCfg.isCluster).map some
  clustersRest : ∀ b, b ≠ start.clusters.next → s.clusterCaches.cells b = start.clusters.cells b
  system : cacheAt cfg s.systemCache = (l.filter MpamCacheNodeCfg.isSystem).getLast?

variable {start : Arrays} {n size k : Nat} {s : Pass} {arena : Arena PrivatePeCaches}

theorem PassInv.step (hInv : PassInv cfg table start n size l s) (hPlenty : arena.Plenty)
    (hk : cfg.cnode[k]? = some c) (hIndex : (peGetIndexMpid table c.mpidr).toNat < n)
    (hRoom : c.isCluster = true → (l.filter MpamCacheNodeCfg.isCluster).length < size) :
    ∃ s', passStep cfg table arena (some ⟨start.nodes.next, 0⟩) (some ⟨start.clusters.next, 0⟩)
      s k = some s' ∧ PassInv cfg table start n size (l ++ [c]) s' := by
  obtain ⟨nodes, hLists⟩ := hInv.lists
  obtain ⟨refs, hBegins, hCount, hRefs⟩ := hInv.clusters
  simp only [passStep, hk, Option.bind_eq_bind, Option.bind_some, Pointer.add_some, Nat.zero_add]
  by_cases hPrivate : c.isPrivate = true
  · have hCluster : c.isCluster = false := isCluster_of_isPrivate hPrivate
    have hSystem : c.isSystem = false := by simp [MpamCacheNodeCfg.isSystem, hPrivate]
    have hKeep : ∀ h nodes', Lists cfg start.nodes start.nodes.next n
        (privatesIn table (l ++ [c])) h nodes' →
          PassInv cfg table start n size (l ++ [c]) { s with privateCaches := h } := by
      intro h nodes' hNew
      refine ⟨⟨nodes', hNew⟩, ⟨refs, hBegins, hCount, ?_⟩, hInv.clustersRest, ?_⟩
      · rw [hRefs, List.filter_append]
        simp [hCluster]
      · rw [hInv.system, List.filter_append]
        simp [hSystem]
    rw [if_pos hPrivate]
    rw [privatesIn_append_of_private hPrivate] at hKeep
    obtain ⟨head, hHead, hNames, -⟩ := (hLists.list _ hIndex).head
    rw [hHead, Option.bind_some]
    by_cases hEmpty : privatesIn table l (peGetIndexMpid table c.mpidr).toNat = []
    · have hNull : head.cache = none := by
        rw [hEmpty] at hNames
        exact Option.map_eq_none_iff.mp hNames
      rw [if_pos hNull, Heap.store_of_load hHead, Option.bind_some]
      refine ⟨_, rfl, hKeep _ nodes ?_⟩
      rw [hEmpty]
      exact hLists.first hIndex hEmpty hk
    · have hNotNull : head.cache ≠ none := by
        intro hNull
        rw [hNull] at hNames
        exact hEmpty (List.head?_eq_none_iff.mp (Option.map_eq_none_iff.mp hNames.symm))
      have hFits : (1 : BitVec 32).toNat * privatePeCachesType.size < 2 ^ 32 := by decide
      have hContents : arena.contents s.privateCaches.next (1 : BitVec 32).toNat =
          [arena.garbage s.privateCaches.next 0] := rfl
      have hPushed : (s.privateCaches.push [arena.garbage s.privateCaches.next 0]).load
          (some ⟨s.privateCaches.next, 0⟩) = some (arena.garbage s.privateCaches.next 0) := by
        rw [Heap.load_of_cells (Heap.push_cells_self _ _)]
        rfl
      have hArray : start.nodes.next ≠ s.privateCaches.next := Nat.ne_of_lt hLists.live
      have hStill : ((s.privateCaches.push [arena.garbage s.privateCaches.next 0]).set
          ⟨s.privateCaches.next, 0⟩ { cache := some k, next := head.next }).load
            (some ⟨start.nodes.next, (peGetIndexMpid table c.mpidr).toNat⟩) = some head :=
        ((Heap.load_congr (Heap.set_cells_of_ne hArray)).trans
          (Heap.load_congr (Heap.push_cells_of_ne hArray))).trans hHead
      rw [if_neg hNotNull, palMemAllocate_eq hPlenty _ 1 _ (by decide) hFits, hContents]
      simp only [Heap.store_of_load hPushed, Option.bind_some, Heap.modify_of_load hStill]
      exact ⟨_, rfl, hKeep _ _ (hLists.behind hIndex hEmpty hk hHead _)⟩
  · have hSame := privatesIn_append_of_not_private table l hPrivate
    rw [if_neg hPrivate]
    by_cases hCluster : c.isCluster = true
    · have hSystem : c.isSystem = false := by simp [MpamCacheNodeCfg.isSystem, hCluster]
      have hlt : refs.length < size := by
        have hLength := congrArg List.length hRefs
        rw [List.length_map, List.length_map] at hLength
        exact hLength ▸ hRoom hCluster
      have hStore := (hBegins.store_iff (some k)).mpr ⟨hlt, rfl⟩
      rw [if_pos hCluster, ← hCount, hStore, Option.bind_some]
      refine ⟨_, rfl, ⟨nodes, hSame.symm ▸ hLists⟩, ⟨refs ++ [some k], hBegins.set hlt _, ?_, ?_⟩,
        fun b hb => (Heap.set_cells_of_ne hb).trans (hInv.clustersRest b hb), ?_⟩
      · rw [List.length_append, List.length_singleton]
      · rw [List.map_append, hRefs, List.filter_append, List.map_append]
        simp [hCluster, cacheAt, hk]
      · rw [hInv.system, List.filter_append]
        simp [hSystem]
    · have hSystem : c.isSystem = true := by simp [MpamCacheNodeCfg.isSystem, hPrivate, hCluster]
      rw [if_neg hCluster]
      refine ⟨_, rfl, ⟨nodes, hSame.symm ▸ hLists⟩, ⟨refs, hBegins, hCount, ?_⟩,
        hInv.clustersRest, ?_⟩
      · rw [hRefs, List.filter_append]
        simp [hCluster]
      · rw [List.filter_append]
        simp [hSystem, cacheAt, hk]

theorem clusters_lt {cfg : PlatformMpamCfg} {k : Nat} (hk : cfg.cnode[k]? = some c)
    (hCluster : c.isCluster = true) :
    ((cfg.cnode.take k).filter MpamCacheNodeCfg.isCluster).length <
      (cfg.cnode.filter MpamCacheNodeCfg.isCluster).length := by
  have hTake : cfg.cnode.take (k + 1) = cfg.cnode.take k ++ [c] := by
    rw [List.take_add_one, hk, Option.toList_some]
  have hLe := ((List.take_sublist (k + 1) cfg.cnode).filter MpamCacheNodeCfg.isCluster).length_le
  rw [hTake, List.filter_append, List.length_append] at hLe
  simp only [List.filter_cons_of_pos hCluster, List.filter_nil, List.length_singleton] at hLe
  exact hLe

/-- The pass over the whole configuration. -/
theorem pass_spec (cfg : PlatformMpamCfg) (table : PeInfoTable) (start : Arrays) {s : Pass}
    (hPlenty : arena.Plenty)
    (hIndex : ∀ mpid, (peGetIndexMpid table mpid).toNat < n)
    (hStart : PassInv cfg table start n
      (cfg.cnode.filter MpamCacheNodeCfg.isCluster).length [] s) :
    ∃ s', (List.range cfg.cnode.length).foldlM (passStep cfg table arena
        (some ⟨start.nodes.next, 0⟩) (some ⟨start.clusters.next, 0⟩)) s = some s' ∧
      PassInv cfg table start n (cfg.cnode.filter MpamCacheNodeCfg.isCluster).length
        cfg.cnode s' := by
  obtain ⟨s', hRun, hInv⟩ := GoesWell.foldlM_of_inv
    (f := passStep cfg table arena (some ⟨start.nodes.next, 0⟩) (some ⟨start.clusters.next, 0⟩))
    (n := cfg.cnode.length) (s := s)
    (fun k => PassInv cfg table start n
      (cfg.cnode.filter MpamCacheNodeCfg.isCluster).length (cfg.cnode.take k))
    hStart
    (by
      intro k hk s hInv
      have hAt : cfg.cnode[k]? = some cfg.cnode[k] := List.getElem?_eq_getElem hk
      have hNext := hInv.step hPlenty hAt (hIndex _) (clusters_lt hAt)
      rwa [List.take_add_one, hAt, Option.toList_some])
  rw [List.take_length] at hInv
  exact ⟨s', hRun, hInv⟩

end Pass

end EnterpriseAcs.Mpam.InMemory
