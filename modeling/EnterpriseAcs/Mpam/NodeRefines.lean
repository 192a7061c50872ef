import EnterpriseAcs.Mpam.NodeFilling

/-!
# The information table in memory

`FillMpamInfoTable` from its first allocation to its last `FreePool`, on a MADT and a platform
configuration. Memory that is never refused is assumed; the heaps hold what they like before.

* `copyMemoryNodes_spec`: the memory nodes of the running PE.
* `fill_safe_iff`: every pointer that the function follows is valid exactly when there is a PE
  and each PE is served.
* `fill_refines`: then the table in memory agrees with the one computed on values, and of the
  blocks that were allocated only those of the table are still live.
-/

namespace EnterpriseAcs.Mpam.InMemory

open Machine BlockHeap

/-! ## The memory nodes -/

theorem copyMemoryNodes_spec (cfg : PlatformMpamCfg) {arena : Arena MemoryNodeEntry}
    (hPlenty : arena.Plenty) {tables : Heap MpamInfoTable} (memory : Heap MemoryNodeEntry)
    {q : Ptr} {t : MpamInfoTable} (hEntry : tables.load (some q) = some t) :
    ∃ h, copyMemoryNodes cfg arena tables memory (some q) =
        some (tables.set q
          { t with
            numMemoryNodes := BitVec.ofNat 32 cfg.mnode.length
            memoryNode := some ⟨memory.next, 0⟩ }, h) ∧
      h.cells memory.next = some cfg.mnode ∧
      ∀ b, b ≠ memory.next → h.cells b = memory.cells b := by
  have hLe := cfg.mnode_le
  have hNum : (BitVec.ofNat 32 cfg.mnode.length).toNat = cfg.mnode.length := by
    rw [BitVec.toNat_ofNat]
    simp only [maxDdrNodes] at hLe
    omega
  have hSize : memoryNodeEntryType.size = 64 := by decide
  have hAlloc := palMemAllocate_eq hPlenty memory (BitVec.ofNat 32 cfg.mnode.length)
    memoryNodeEntryType (by rw [hSize]; omega)
    (by rw [hSize, hNum]; simp only [maxDdrNodes] at hLe; omega)
  rw [hNum] at hAlloc
  have hFresh := Begins.of_push memory (arena.contents memory.next cfg.mnode.length)
  rw [Arena.length_contents] at hFresh
  obtain ⟨h, hRun, hBegins, hRest⟩ := GoesWell.foldlM_of_inv
    (f := fun (h : Heap MemoryNodeEntry) i =>
      cfg.mnode[i]?.bind (h.store (Pointer.add (some ⟨memory.next, 0⟩) i)))
    (n := cfg.mnode.length) (s := memory.push (arena.contents memory.next cfg.mnode.length))
    (fun k h => Begins h memory.next cfg.mnode.length (cfg.mnode.take k) ∧
      ∀ b, b ≠ memory.next → h.cells b = memory.cells b)
    ⟨hFresh, fun b hb => Heap.push_cells_of_ne hb⟩
    (by
      intro k hk h hInv
      obtain ⟨hBegins, hRest⟩ := hInv
      have hTake : (cfg.mnode.take k).length = k := List.length_take_of_le (Nat.le_of_lt hk)
      have hlt : (cfg.mnode.take k).length < cfg.mnode.length := by rwa [hTake]
      have hStore := (hBegins.store_iff cfg.mnode[k]).mpr ⟨hlt, rfl⟩
      have hNext := hBegins.set hlt cfg.mnode[k]
      rw [hTake] at hStore hNext
      rw [List.take_concat_get' _ _ hk] at hNext
      refine ⟨_, ?_, hNext, fun b hb => (Heap.set_cells_of_ne hb).trans (hRest b hb)⟩
      rw [List.getElem?_eq_getElem hk, Option.bind_some, Pointer.add_some, Nat.zero_add, hStore])
  rw [List.take_length] at hBegins
  refine ⟨h, ?_, hBegins.cells_eq, hRest⟩
  simp only [copyMemoryNodes, hAlloc, Heap.modify_of_load hEntry, hRun, Option.bind_eq_bind,
    Option.bind_some]

/-! ## The table computed on values -/

section Values

variable (pools : PoolAnswers) (cfg : PlatformMpamCfg) (table : PeInfoTable)
  (mpidrEl1 : BitVec 64)

omit pools cfg table mpidrEl1 in
theorem copyPrivateLoop_memory (n index : Nat) (nodes : List MpamCacheNodeCfg)
    (t : Mpam.MpamInfoTable) :
    (Mpam.copyPrivateLoop n index nodes t).numMemoryNodes = t.numMemoryNodes ∧
      (Mpam.copyPrivateLoop n index nodes t).memoryNode = t.memoryNode := by
  induction n generalizing index nodes t with
  | zero => exact ⟨rfl, rfl⟩
  | succ n ih => exact ih (index + 1) nodes.tail (t.copy index nodes.head?)

theorem fillPe_memory (caches : Caches) (mpamTable : Nat → Mpam.MpamInfoTable) (i : Nat)
    (hNone : (mpamTable i).memoryNode = []) :
    (Mpam.fillPe pools cfg caches mpidrEl1 mpamTable i i).numMemoryNodes = 0 ∧
      (Mpam.fillPe pools cfg caches mpidrEl1 mpamTable i i).memoryNode = [] := by
  simp only [Mpam.fillPe, Function.update_self, Mpam.copyClusterCacheNodes,
    Mpam.copySystemCacheNode, Mpam.copyPrivateCacheNodes, Mpam.MpamInfoTable.copy]
  split <;> simp [copyPrivateLoop_memory, hNone]

theorem foldl_fillPe_memory (caches : Caches) (k i : Nat) :
    ((List.range k).foldl (Mpam.fillPe pools cfg caches mpidrEl1) (fun _ => {}) i).numMemoryNodes =
        0 ∧
      ((List.range k).foldl (Mpam.fillPe pools cfg caches mpidrEl1) (fun _ => {}) i).memoryNode =
        [] := by
  induction k with
  | zero => exact ⟨rfl, rfl⟩
  | succ k ih =>
    rw [List.range_succ, List.foldl_append, List.foldl_cons, List.foldl_nil]
    by_cases hik : i = k
    · subst hik
      exact fillPe_memory pools cfg mpidrEl1 caches _ i ih.2
    · rwa [fillPe_of_ne _ _ hik]

/-- Only the running PE has memory nodes. -/
theorem fillFrom_memory (caches : Caches) (i : Nat) :
    (fillFrom pools cfg table mpidrEl1 caches i).numMemoryNodes =
        (if i = (peGetIndexMpid table (currentMpidr mpidrEl1)).toNat then
          BitVec.ofNat 32 cfg.mnode.length else 0) ∧
      (fillFrom pools cfg table mpidrEl1 caches i).memoryNode =
        (if i = (peGetIndexMpid table (currentMpidr mpidrEl1)).toNat then
          (if pools.memoryNode then cfg.mnode else []) else []) := by
  rw [fillFrom]
  by_cases hi : i = (peGetIndexMpid table (currentMpidr mpidrEl1)).toNat
  · subst hi
    rw [Function.update_self, if_pos rfl, if_pos rfl]
    exact ⟨rfl, rfl⟩
  · rw [Function.update_of_ne hi, if_neg hi, if_neg hi]
    exact foldl_fillPe_memory pools cfg mpidrEl1 _ _ i

end Values

/-! ## The whole function -/

/-- The table at `p` reads as the one computed on values, and every element that its counts
announce is there. -/
structure Refines (values : Nat → Mpam.MpamInfoTable) (n : Nat) (p : Pointer) (mem : Memory) :
    Prop where
  counts : ∀ i < n, ∃ t, tableAt mem p i = some t ∧
    t.numCacheNodes = (values i).numCacheNodes ∧ t.numMemoryNodes = (values i).numMemoryNodes
  cacheNode : ∀ i < n, ∀ k < (values i).numCacheNodes.toNat,
    ∃ e, cacheNodeAt mem p i k = some e ∧ (values i).cacheNode k = some e
  memoryNode : ∀ i < n, ∀ k < (values i).numMemoryNodes.toNat,
    ∃ e, memoryNodeAt mem p i k = some e ∧ (values i).memoryNode[k]? = some e

/-- Of what was allocated since `mem` only the table with its pools, one for each PE, and the
memory nodes are still live. -/
structure OnlyTable (mem : Memory) (n : Nat) (p : Pointer) (mem' : Memory) : Prop where
  privateCaches : mem'.privateCaches.cells = mem.privateCaches.cells
  clusterCaches : mem'.clusterCaches.cells = mem.clusterCaches.cells
  table : p = some ⟨mem.mpamTable.next, 0⟩
  mpamTable : ∀ b, b ≠ mem.mpamTable.next → mem'.mpamTable.cells b = mem.mpamTable.cells b
  pools : mem'.cacheNode.next = mem.cacheNode.next + n
  cacheNode : ∀ b, b < mem.cacheNode.next → mem'.cacheNode.cells b = mem.cacheNode.cells b
  memoryNode : ∀ b, b ≠ mem.memoryNode.next → mem'.memoryNode.cells b = mem.memoryNode.cells b

section Result

variable {cfg : PlatformMpamCfg} {table : PeInfoTable} {mpidrEl1 : BitVec 64}
  {tables : Heap MpamInfoTable} {pools : Heap CacheNodeEntry} {n i : Nat} {s : Filling}

/-- The pool of a PE holds what its element of the table on values has been copied. -/
theorem FillInv.cacheNode (hInv : FillInv cfg table mpidrEl1 tables pools n n s)
    (hServed : Served cfg table mpidrEl1 i) (hi : i < n) {values : Mpam.MpamInfoTable}
    (hFilled : FilledAt .granting cfg table mpidrEl1 i values) {k : Nat}
    (hk : k < values.numCacheNodes.toNat) :
    ∃ e, s.cacheNode.load (some ⟨pools.next + i, k⟩) = some e ∧ values.cacheNode k = some e := by
  obtain ⟨copies, hCopies, hBegins⟩ := hInv.pool i hi
  have hLength : copies.length = entriesNeeded cfg table mpidrEl1 i := by
    have hMap := congrArg List.length hCopies
    rwa [List.length_map, List.length_map, sourcesFor_length] at hMap
  rw [hFilled.numCacheNodes] at hk
  have hlt : k < copies.length := by rwa [hLength]
  have hAt : copies[k]? = some copies[k] := List.getElem?_eq_getElem hlt
  have hSource : (sourcesFor cfg table mpidrEl1 i)[k]?.map (Option.map Mpam.copyCacheNode) =
      some (some copies[k]) := by
    rw [← List.getElem?_map, ← hCopies, List.getElem?_map, hAt, Option.map_some]
  obtain ⟨source, hCopied, hCopy⟩ := Option.map_eq_some_iff.mp hSource
  have hAllocated : values.allocated = entriesNeeded cfg table mpidrEl1 0 := hFilled.allocated
  refine ⟨copies[k], by rw [hBegins.load hlt, hAt], ?_⟩
  rw [Mpam.MpamInfoTable.cacheNode, Mpam.MpamInfoTable.source, hAllocated,
    if_pos (Nat.lt_of_lt_of_le hk hServed.fits), hFilled.copies, lookup_copiesOf, hCopied]
  exact hCopy

/-- The element of a PE, once the running PE has its memory nodes. -/
theorem FillInv.tableAt (hInv : FillInv cfg table mpidrEl1 tables pools n n s) {index : Nat}
    {t : MpamInfoTable} (hEntry : s.mpamTable.load (some ⟨tables.next, index⟩) = some t) {m : Nat}
    {mem : Memory}
    (hMem : mem.mpamTable = s.mpamTable.set ⟨tables.next, index⟩
      { t with
        numMemoryNodes := BitVec.ofNat 32 cfg.mnode.length
        memoryNode := some ⟨m, 0⟩ })
    (hi : i < n) :
    ∃ u, tableAt mem (some ⟨tables.next, 0⟩) i = some u ∧
      u.numCacheNodes = BitVec.ofNat 32 (entriesNeeded cfg table mpidrEl1 i) ∧
      u.cacheNode = some ⟨pools.next + i, 0⟩ ∧
      u.numMemoryNodes = (if i = index then BitVec.ofNat 32 cfg.mnode.length else 0) ∧
      (i = index → u.memoryNode = some ⟨m, 0⟩) := by
  obtain ⟨u, hLoad, hDone⟩ := hInv.entry i hi
  obtain ⟨hCount, hNone, hPool⟩ := hDone hi
  simp only [InMemory.tableAt, Pointer.add_some, Nat.zero_add, hMem]
  by_cases hii : i = index
  · subst hii
    cases hEntry.symm.trans hLoad
    refine ⟨_, Heap.load_set_self (Option.isSome_of_eq_some hEntry), hCount, hPool, ?_,
      fun _ => rfl⟩
    rw [if_pos rfl]
  · refine ⟨u, ?_, hCount, hPool, ?_, fun hEq => absurd hEq hii⟩
    · rw [Heap.load_set_of_ne fun hEq => hii (Ptr.mk.inj hEq).2, hLoad]
    · rw [if_neg hii, hNone]

theorem FillInv.refines (hInv : FillInv cfg table mpidrEl1 tables pools n n s)
    (hNum : table.numOfPe.toNat = n) (hServed : ∀ i < n, Served cfg table mpidrEl1 i)
    {index : Nat} (hIndex : (peGetIndexMpid table (currentMpidr mpidrEl1)).toNat = index)
    {t : MpamInfoTable} (hEntry : s.mpamTable.load (some ⟨tables.next, index⟩) = some t)
    {memory : Heap MemoryNodeEntry} {m : Nat} (hMemory : memory.cells m = some cfg.mnode)
    (nodes : Heap PrivatePeCaches) (clusters : Heap (Option Nat)) :
    Refines (fillFrom .granting cfg table mpidrEl1 (listsOf table cfg.cnode)) n
      (some ⟨tables.next, 0⟩)
      { privateCaches := nodes
        clusterCaches := clusters
        mpamTable := s.mpamTable.set ⟨tables.next, index⟩
          { t with
            numMemoryNodes := BitVec.ofNat 32 cfg.mnode.length
            memoryNode := some ⟨m, 0⟩ }
        cacheNode := s.cacheNode
        memoryNode := memory } := by
  subst hNum
  generalize hMem : ({ privateCaches := nodes, clusterCaches := clusters, .. } : Memory) = mem
  have hFilled : ∀ i < table.numOfPe.toNat,
      FilledAt .granting cfg table mpidrEl1 i
        (fillFrom .granting cfg table mpidrEl1 (listsOf table cfg.cnode) i) := fun i hi =>
    fillFrom_filled (fun j hj => (hServed j hj).hasPrivate) hi
  have hSet : mem.mpamTable = s.mpamTable.set ⟨tables.next, index⟩
      { t with
        numMemoryNodes := BitVec.ofNat 32 cfg.mnode.length
        memoryNode := some ⟨m, 0⟩ } := by rw [← hMem]
  have hTable i (hi : i < table.numOfPe.toNat) := hInv.tableAt hEntry hSet hi
  have hValues := fillFrom_memory .granting cfg table mpidrEl1 (listsOf table cfg.cnode)
  have hGranted : PoolAnswers.granting.memoryNode = true := rfl
  simp only [hIndex, hGranted, if_true] at hValues
  constructor
  · intro i hi
    obtain ⟨u, hAt, hCount, -, hMemoryCount, -⟩ := hTable i hi
    exact ⟨u, hAt, hCount.trans (hFilled i hi).num.symm, hMemoryCount.trans (hValues i).1.symm⟩
  · intro i hi k hk
    obtain ⟨u, hAt, -, hPool, -⟩ := hTable i hi
    obtain ⟨e, hLoad, hValue⟩ := hInv.cacheNode (hServed i hi) hi (hFilled i hi) hk
    refine ⟨e, ?_, hValue⟩
    rw [cacheNodeAt, hAt, Option.bind_some, hPool, Pointer.add_some, Nat.zero_add, ← hMem]
    exact hLoad
  · intro i hi k hk
    obtain ⟨u, hAt, -, -, -, hNode⟩ := hTable i hi
    rw [(hValues i).1] at hk
    by_cases hii : i = index
    · rw [if_pos hii, BitVec.toNat_ofNat] at hk
      have hlt : k < cfg.mnode.length := Nat.lt_of_lt_of_le hk (Nat.mod_le _ _)
      refine ⟨cfg.mnode[k], ?_, ?_⟩
      · rw [memoryNodeAt, hAt, Option.bind_some, hNode hii, Pointer.add_some, Nat.zero_add, ← hMem]
        exact (Heap.load_of_cells (q := ⟨m, k⟩) hMemory).trans (List.getElem?_eq_getElem hlt)
      · rw [(hValues i).2, if_pos hii, List.getElem?_eq_getElem hlt]
    · rw [if_neg hii] at hk
      exact absurd hk (Nat.not_lt_zero _)

end Result

section Fill

variable {madt : Acpi.Madt} {cfg : PlatformMpamCfg} {mpidrEl1 : BitVec 64} {pool : AllocatePool}
  {fuel n : Nat} {mem : Memory} {s : Filling}

/-- Every MPIDR is given the index of a PE, if there is one. -/
theorem peGetIndexMpid_lt (madt : Acpi.Madt) (hPes : 0 < (peTable madt).numOfPe.toNat)
    (mpid : BitVec 64) :
    (peGetIndexMpid (peTable madt) mpid).toNat < (peTable madt).numOfPe.toNat := by
  have hEntries : ∀ entries : List PeInfoEntry,
      (∀ entry ∈ entries, entry.peNum.toNat < (peTable madt).numOfPe.toNat) →
        (indexLoop mpid entries).toNat < (peTable madt).numOfPe.toNat := by
    intro entries
    induction entries with
    | nil => exact fun _ => hPes
    | cons entry entries ih =>
      intro hAll
      rw [indexLoop]
      split
      · exact hAll entry List.mem_cons_self
      · exact ih fun e he => hAll e (List.mem_cons_of_mem _ he)
  refine hEntries _ fun entry hMem => ?_
  obtain ⟨i, hi⟩ := List.mem_iff_getElem?.mp (List.mem_of_mem_take hMem)
  rw [peTable_numbered hi, peTable_count]
  exact (List.getElem?_eq_some_iff.mp hi).1

/-- Without a PE there is no element of the table for the memory nodes. -/
theorem fill_eq_none (hPlenty : pool.Plenty) (hPes : (peTable madt).numOfPe.toNat = 0) :
    fillMpamInfoTable cfg (peTable madt) mpidrEl1 pool fuel mem = none := by
  have hSize : mpamInfoTableType.size = 24 := by decide
  have hTable := palMemAllocate_eq hPlenty.mpamTable mem.mpamTable
    (peTable madt).numOfPe mpamInfoTableType (by rw [hSize]; omega) (by rw [hPes]; omega)
  have hLoad : ∀ index, (mem.mpamTable.push
      (pool.mpamTable.contents mem.mpamTable.next 0)).load
        (some ⟨mem.mpamTable.next, index⟩) = none := fun index => by
    rw [Heap.load_of_cells (Heap.push_cells_self _ _)]
    rfl
  simp only [fillMpamInfoTable, hTable, hPes, List.range_zero, List.foldlM_nil, copyMemoryNodes,
    Pointer.add_some, Nat.zero_add, Heap.modify, hLoad, Option.bind_eq_bind, Option.bind_none,
    Option.pure_def, Option.bind_some, Option.bind_fun_none]

theorem fillInv_start (madt : Acpi.Madt) (tables : Heap MpamInfoTable)
    (pools : Heap CacheNodeEntry) (contents : List MpamInfoTable) {n : Nat}
    (hLength : contents.length = n) :
    FillInv cfg (peTable madt) mpidrEl1 tables pools n 0
      { mpamTable := tables.push contents, cacheNode := pools } where
  entry := by
    intro i hi
    rw [Heap.load_of_cells (Heap.push_cells_self tables contents)]
    exact ⟨_, List.getElem?_eq_getElem (hLength ▸ hi), nofun⟩
  tablesRest := fun b hb => Heap.push_cells_of_ne hb
  next := rfl
  pool := nofun
  poolsRest := fun _ _ => rfl

/-- With the cluster array given back too, only the table and what it points to is left. -/
theorem FillInv.onlyTable
    (hInv : FillInv cfg (peTable madt) mpidrEl1 mem.mpamTable mem.cacheNode n n s)
    {nodes : Heap PrivatePeCaches} (hNodes : nodes.cells = mem.privateCaches.cells)
    {clusters : Heap (Option Nat)}
    (hClusters : ∀ b, b ≠ mem.clusterCaches.next → clusters.cells b = mem.clusterCaches.cells b)
    {memory : Heap MemoryNodeEntry}
    (hMemory : ∀ b, b ≠ mem.memoryNode.next → memory.cells b = mem.memoryNode.cells b)
    (index : Nat) (t : MpamInfoTable) :
    OnlyTable mem n (some ⟨mem.mpamTable.next, 0⟩)
      { privateCaches := nodes
        clusterCaches := clusters.drop mem.clusterCaches.next
        mpamTable := s.mpamTable.set ⟨mem.mpamTable.next, index⟩ t
        cacheNode := s.cacheNode
        memoryNode := memory } where
  privateCaches := hNodes
  clusterCaches := by
    funext b
    by_cases hb : b = mem.clusterCaches.next
    · rw [hb]
      exact (Heap.drop_cells_self _ _).trans (mem.clusterCaches.next_free _ (Nat.le_refl _)).symm
    · exact (Heap.drop_cells_of_ne hb).trans (hClusters b hb)
  table := rfl
  mpamTable := fun b hb => (Heap.set_cells_of_ne hb).trans (hInv.tablesRest b hb)
  pools := hInv.next
  cacheNode := hInv.poolsRest
  memoryNode := hMemory

theorem fill_goesWell (hPlenty : pool.Plenty) (hFuel : cfg.cnode.length ≤ fuel) :
    GoesWell (fillMpamInfoTable cfg (peTable madt) mpidrEl1 pool fuel mem)
      (0 < (peTable madt).numOfPe.toNat ∧
        ∀ i < (peTable madt).numOfPe.toNat, Served cfg (peTable madt) mpidrEl1 i)
      fun r => Refines (fillFrom .granting cfg (peTable madt) mpidrEl1
          (listsOf (peTable madt) cfg.cnode)) (peTable madt).numOfPe.toNat r.1 r.2 ∧
        OnlyTable mem (peTable madt).numOfPe.toNat r.1 r.2 := by
  by_cases hPes : 0 < (peTable madt).numOfPe.toNat
  · have hBytes : 80 * (peTable madt).numOfPe.toNat < 2 ^ 32 := by
      rw [peTable_numOfPe_toNat]
      exact madt.giccs_bytes
    have hClusters := filter_length_le cfg MpamCacheNodeCfg.isCluster
    have hTable := palMemAllocate_eq hPlenty.mpamTable mem.mpamTable
      (peTable madt).numOfPe mpamInfoTableType (by decide)
      (by rw [show mpamInfoTableType.size = 24 by decide]; omega)
    have hNodes := palMemAllocate_eq hPlenty.privateCaches mem.privateCaches
      (peTable madt).numOfPe privatePeCachesType (by decide)
      (by rw [show privatePeCachesType.size = 16 by decide]; omega)
    have hRefs := palMemAllocate_eq hPlenty.clusterCaches mem.clusterCaches
      (countClusters cfg) pointerType (by decide)
      (by rw [show pointerType.size = 8 by decide, countClusters_toNat]; omega)
    obtain ⟨heads, hHeads, hLists⟩ := setPeInfoNull_spec cfg mem.privateCaches
      (pool.privateCaches.contents mem.privateCaches.next (peTable madt).numOfPe.toNat)
      (Arena.length_contents ..)
    have hFresh := Begins.of_push mem.clusterCaches
      (pool.clusterCaches.contents mem.clusterCaches.next (countClusters cfg).toNat)
    rw [Arena.length_contents, countClusters_toNat] at hFresh
    obtain ⟨pass, hRun, hPass⟩ := pass_spec cfg (peTable madt)
      ⟨mem.privateCaches, mem.clusterCaches⟩
      (s := { privateCaches := heads
              clusterCaches := mem.clusterCaches.push (pool.clusterCaches.contents
                mem.clusterCaches.next (cfg.cnode.filter MpamCacheNodeCfg.isCluster).length) })
      hPlenty.privateCaches (peGetIndexMpid_lt madt hPes)
      ⟨⟨_, hLists⟩, ⟨[], hFresh, rfl, rfl⟩, fun b hb => Heap.push_cells_of_ne hb, rfl⟩
    have hLoop := GoesWell.foldlM_range
      (f := fillPe cfg pool.cacheNode mpidrEl1 fuel pass (some ⟨mem.privateCaches.next, 0⟩)
        (some ⟨mem.clusterCaches.next, 0⟩) (some ⟨mem.mpamTable.next, 0⟩))
      (FillInv cfg (peTable madt) mpidrEl1 mem.mpamTable mem.cacheNode
        (peTable madt).numOfPe.toNat)
      (fillInv_start madt mem.mpamTable mem.cacheNode
        (pool.mpamTable.contents mem.mpamTable.next (peTable madt).numOfPe.toNat)
          (Arena.length_contents ..))
      fun k hk s hInv => fillPe_goesWell hPass hPlenty.cacheNode hFuel hInv hk
    simp only [fillMpamInfoTable, hTable, hNodes, hRefs, hHeads, countClusters_toNat, hRun,
      Option.bind_eq_bind, Option.bind_some, Pointer.add_some, Nat.zero_add]
    refine (hLoop.and_condition.bind (d := True) fun s hs => ?_).congr
      ⟨fun hBoth => ⟨hPes, hBoth.1⟩, fun hBoth => ⟨hBoth.2, trivial⟩⟩
    obtain ⟨hServed, hInv⟩ := hs
    obtain ⟨t, hEntry, -⟩ := hInv.entry _
      (peGetIndexMpid_lt madt hPes (currentMpidr mpidrEl1))
    obtain ⟨memory, hMemory, hCells, hRest⟩ :=
      copyMemoryNodes_spec cfg hPlenty.memoryNode mem.memoryNode hEntry
    obtain ⟨nodes, hPassLists⟩ := hPass.lists
    obtain ⟨freed, hFreed, hFreedCells⟩ := freePrivateCaches_spec fuel hPassLists hPes
      (fun i hi => (hServed i hi).hasPrivate) fun i hi => by
        have hLength := (hPassLists.list i hi).length
        have hLe : (privatesIn (peTable madt) cfg.cnode i).length ≤ cfg.cnode.length :=
          List.length_filter_le _ _
        omega
    obtain ⟨refs, hBegins, -, -⟩ := hPass.clusters
    have hFree := Heap.free_of_live (q := ⟨mem.clusterCaches.next, 0⟩) rfl hBegins.live
    simp only [hMemory, hFreed, hFree, Option.bind_some]
    exact .of_eq rfl ⟨hInv.refines rfl hServed rfl hEntry hCells _ _,
      hInv.onlyTable hFreedCells hPass.clustersRest hRest _ _⟩
  · exact .of_none (fill_eq_none hPlenty (Nat.eq_zero_of_not_pos hPes)) fun hBoth => hPes hBoth.1

/-- The function follows valid pointers only and stays inside its blocks exactly when there is a
PE and each PE is served. -/
theorem fill_safe_iff (madt : Acpi.Madt) (cfg : PlatformMpamCfg) (mpidrEl1 : BitVec 64)
    (mem : Memory) (hPlenty : pool.Plenty) (hFuel : cfg.cnode.length ≤ fuel) :
    (∃ r, fillMpamInfoTable cfg (peTable madt) mpidrEl1 pool fuel mem = some r) ↔
      0 < (peTable madt).numOfPe.toNat ∧
        ∀ i < (peTable madt).numOfPe.toNat, Served cfg (peTable madt) mpidrEl1 i :=
  (fill_goesWell hPlenty hFuel).iff

/-- Then the table in memory is the one computed on values with all pools granted, every node and
both arrays have been given back once, and only the table and what it points to is new. -/
theorem fill_refines (madt : Acpi.Madt) (cfg : PlatformMpamCfg) (mpidrEl1 : BitVec 64)
    (mem : Memory) (hPlenty : pool.Plenty) (hFuel : cfg.cnode.length ≤ fuel)
    (hPes : 0 < (peTable madt).numOfPe.toNat)
    (hServed : ∀ i < (peTable madt).numOfPe.toNat, Served cfg (peTable madt) mpidrEl1 i) :
    ∃ p mem' values, fillMpamInfoTable cfg (peTable madt) mpidrEl1 pool fuel mem =
        some (p, mem') ∧
      Mpam.fillMpamInfoTable .granting cfg (peTable madt) mpidrEl1 = some values ∧
      Refines values (peTable madt).numOfPe.toNat p mem' ∧
      OnlyTable mem (peTable madt).numOfPe.toNat p mem' := by
  obtain ⟨⟨p, mem'⟩, hRun, hRefines, hOnly⟩ := (fill_goesWell hPlenty hFuel).1 ⟨hPes, hServed⟩
  obtain ⟨_, hValues, rfl⟩ := (fillMpamInfoTable_goesWell .granting cfg (peTable madt)
    mpidrEl1).1 (not_listRefused_granting cfg (peTable madt))
  exact ⟨p, mem', _, hRun, hValues, hRefines, hOnly⟩

/-! ### Two PEs -/

/-- An allocator that grants every request and leaves the same value in all cells. -/
def generous {α : Type} (a : α) : Arena α where
  grants := fun _ _ => true
  garbage := fun _ _ => a

/-- What is left in new blocks looks like pointers. -/
def generousPool : AllocatePool where
  privateCaches := generous { cache := some 7, next := some ⟨7, 7⟩ }
  clusterCaches := generous (some 7)
  mpamTable := generous
    { numCacheNodes := 7, numMemoryNodes := 7, cacheNode := some ⟨7, 7⟩, memoryNode := none }
  cacheNode := generous (Mpam.copyCacheNode (cacheOf 7 7))
  memoryNode := generous
    { proximityDomain := 7, baseAddress := 7, length := 7, flags := 7, hwregBaseAddr := 7
      notReadyMaxUs := 7, intrInfo := {} }

theorem generousPool_plenty : generousPool.Plenty :=
  ⟨fun _ _ => rfl, fun _ _ => rfl, fun _ _ => rfl, fun _ _ => rfl, fun _ _ => rfl⟩

def emptyHeap {α : Type} : Heap α where
  cells := fun _ => none
  next := 0
  next_free := fun _ _ => rfl

def emptyMemory : Memory where
  privateCaches := emptyHeap
  clusterCaches := emptyHeap
  mpamTable := emptyHeap
  cacheNode := emptyHeap
  memoryNode := emptyHeap

theorem levelOne_served : ∀ i < twoPeTable.numOfPe.toNat,
    Served levelOneCfg twoPeTable 0x80000000 i := by
  have hAll : ∀ i < twoPeTable.numOfPe.toNat, privatesAt levelOneCfg twoPeTable i ≠ [] ∧
      ((privatesAt levelOneCfg twoPeTable i).head?.bind fun c => clusterOf levelOneCfg c.mpidr) ≠
        none ∧ systemOf levelOneCfg ≠ none ∧
      entriesNeeded levelOneCfg twoPeTable 0x80000000 i ≤
        entriesNeeded levelOneCfg twoPeTable 0x80000000 0 := by decide
  intro i hi
  obtain ⟨hPrivate, hCluster, hSystem, hFits⟩ := hAll i hi
  exact ⟨hPrivate, hCluster, fun _ => hSystem, hFits⟩

/-- With one private cache for each PE the function ends; with three for PE 1 it writes behind
the pool of PE 1. -/
theorem fill_safe_two :
    (∃ r, fillMpamInfoTable levelOneCfg twoPeTable 0x80000000 generousPool 6 emptyMemory =
      some r) ∧
    ¬ ∃ r, fillMpamInfoTable unevenCfg twoPeTable 0x80000000 generousPool 6 emptyMemory =
      some r := by
  constructor
  · exact (fill_safe_iff (Acpi.twoGiccMadt 0 1) levelOneCfg 0x80000000 emptyMemory
      generousPool_plenty (by decide)).mpr ⟨by decide, levelOne_served⟩
  · intro hRun
    have hServed := (fill_safe_iff (Acpi.twoGiccMadt 0 1) unevenCfg 0x80000000 emptyMemory
      generousPool_plenty (by decide)).mp hRun
    exact absurd (hServed.2 1 (by decide)).fits (by decide)

theorem fill_refines_two :
    ∃ p mem' values, fillMpamInfoTable levelOneCfg twoPeTable 0x80000000 generousPool 6
        emptyMemory = some (p, mem') ∧
      Mpam.fillMpamInfoTable .granting levelOneCfg twoPeTable 0x80000000 = some values ∧
      Refines values twoPeTable.numOfPe.toNat p mem' ∧
      OnlyTable emptyMemory twoPeTable.numOfPe.toNat p mem' :=
  fill_refines (Acpi.twoGiccMadt 0 1) levelOneCfg 0x80000000 emptyMemory generousPool_plenty
    (by decide) (by decide) levelOne_served

end Fill

end EnterpriseAcs.Mpam.InMemory
