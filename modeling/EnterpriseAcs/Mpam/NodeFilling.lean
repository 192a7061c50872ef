import EnterpriseAcs.Mpam.NodePass

/-!
# Filling the information table in memory

After the pass `FillMpamInfoTable` copies the lists of each PE to a pool of its own. With memory
for every request, the code stays inside its blocks exactly when each PE has the caches that it
looks for and no PE needs more entries than PE 0.

* `copyCaches_goesWell`: the copies for one PE.
* `fillPe_goesWell`: one round of the loop, with its allocation.
-/

namespace EnterpriseAcs.Mpam.InMemory

open Machine BlockHeap

/-! ## Copying to a pool -/

section Copy

variable {cfg : PlatformMpamCfg} {h h' : Heap CacheNodeEntry} {b size : Nat}
  {sources : List (Option MpamCacheNodeCfg)}

/-- These caches have been copied to the start of block `b`, and nothing else has changed. -/
structure Copied (h : Heap CacheNodeEntry) (b size : Nat)
    (sources : List (Option MpamCacheNodeCfg)) (h' : Heap CacheNodeEntry) : Prop where
  begins : ∃ values, values.map some = sources.map (Option.map Mpam.copyCacheNode) ∧
    Begins h' b size values
  next : h'.next = h.next
  rest : ∀ c, c ≠ b → h'.cells c = h.cells c

theorem Copied.step (hCopied : Copied h b size sources h') (cfg : PlatformMpamCfg)
    (source : Option Nat) {index : Nat} (hIndex : index = sources.length) :
    GoesWell (copyCacheNode cfg h' source (Pointer.add (some ⟨b, 0⟩) index))
      (cacheAt cfg source ≠ none ∧ sources.length < size)
      (Copied h b size (sources ++ [cacheAt cfg source])) := by
  obtain ⟨values, hValues, hBegins⟩ := hCopied.begins
  have hLength : values.length = sources.length := by
    simpa using congrArg List.length hValues
  subst hIndex
  rw [copyCacheNode, Pointer.add_some, Nat.zero_add, ← hLength]
  cases hSource : cacheAt cfg source with
  | none => exact .of_none rfl fun hBoth => hBoth.1 rfl
  | some c =>
    refine ⟨fun hBoth => ⟨_, (hBegins.store_iff _).mpr ⟨hBoth.2, rfl⟩, ?_⟩, fun hNot => ?_⟩
    · refine ⟨⟨values ++ [Mpam.copyCacheNode c], ?_, hBegins.set hBoth.2 _⟩, hCopied.next,
        fun d hd => (Heap.set_cells_of_ne hd).trans (hCopied.rest d hd)⟩
      rw [List.map_append, hValues, List.map_append]
      rfl
    · by_contra hSome
      obtain ⟨new, hNew⟩ := Option.ne_none_iff_exists'.mp hSome
      exact hNot ⟨nofun, ((hBegins.store_iff _).mp hNew).1⟩

/-- The loop over the private caches needs an entry for each. -/
theorem Copied.privateLoop {nodesHeap : Heap PrivatePeCaches} {p : Pointer} {nodes : List Node}
    {caches : List MpamCacheNodeCfg} (hCopied : Copied h b size sources h')
    (hChain : Chain nodesHeap PrivatePeCaches.next p nodes)
    (hCaches : nodes.map (fun node => cacheAt cfg node.2.cache) = caches.map some) {index : Nat}
    (hIndex : index = sources.length) (hRoom : sources.length ≤ size) :
    GoesWell (copyPrivateLoop cfg nodesHeap (some ⟨b, 0⟩) caches.length index p h')
      (sources.length + caches.length ≤ size)
      (Copied h b size (sources ++ caches.map some)) := by
  induction caches generalizing p nodes sources index h' with
  | nil =>
    rw [List.map_nil, List.append_nil]
    exact (GoesWell.of_eq rfl hCopied).congr (iff_of_true trivial hRoom)
  | cons c caches ih =>
    cases nodes with
    | nil => cases hCaches
    | cons node nodes =>
      obtain ⟨q, a⟩ := node
      obtain ⟨rfl, hLoad, hRest⟩ := hChain
      rw [List.map_cons, List.map_cons] at hCaches
      obtain ⟨hFirst, hTail⟩ := List.cons.inj hCaches
      have hStep := hCopied.step cfg a.cache hIndex
      rw [hFirst] at hStep
      rw [List.length_cons, copyPrivateLoop, hLoad]
      by_cases hlt : sources.length < size
      · have hBoth := hStep.bind fun h'' hNext =>
          ih hNext hRest hTail (show index + 1 = _ by rw [hIndex, List.length_append]; rfl)
            (by rw [List.length_append]; exact hlt)
        rw [List.append_assoc, List.length_append, List.length_singleton] at hBoth
        refine hBoth.congr ⟨fun hAll => ?_, fun hFits => ⟨⟨nofun, hlt⟩, ?_⟩⟩
        · omega
        · omega
      · have hNone := hStep.2 fun hBoth => hlt hBoth.2
        refine .of_none ?_ (by omega)
        simp only [Option.bind_eq_bind, Option.bind_some, hNone, Option.bind_none]

/-- The search for the cluster of an MPIDR among the cluster caches. -/
theorem getClusterLoop_eq {clusters : Heap (Option Nat)} {c : Nat} {refs : List (Option Nat)}
    {caches : List MpamCacheNodeCfg} (hBegins : ∀ k < refs.length,
      clusters.load (some ⟨c, k⟩) = refs[k]?)
    (hRefs : refs.map (cacheAt cfg) = caches.map some) (mpidr : BitVec 64) (n index : Nat)
    (hn : index + n = refs.length) :
    ∃ p, getClusterLoop cfg clusters (some ⟨c, 0⟩) mpidr n index = some p ∧
      cacheAt cfg p = (caches.drop index).find? (sameCluster mpidr) := by
  have hLength : refs.length = caches.length := by simpa using congrArg List.length hRefs
  induction n generalizing index with
  | zero =>
    refine ⟨none, rfl, ?_⟩
    rw [List.drop_of_length_le (by omega)]
    rfl
  | succ n ih =>
    have hRef : refs[index]? = some refs[index] := List.getElem?_eq_getElem (by omega)
    have hCache : caches[index]? = some caches[index] := List.getElem?_eq_getElem (by omega)
    have hAt : cacheAt cfg refs[index] = some caches[index] := by
      have hMap := congrArg (·[index]?) hRefs
      simpa [hRef, hCache] using hMap
    have hLoad : clusters.load (Pointer.add (some ⟨c, 0⟩) index) = some refs[index] := by
      rw [Pointer.add_some, Nat.zero_add, hBegins index (by omega), hRef]
    simp only [getClusterLoop, hLoad, Option.bind_eq_bind, Option.bind_some, hAt]
    rw [List.drop_eq_getElem_cons (by omega), List.find?_cons]
    by_cases hSame : sameCluster mpidr caches[index] = true
    · rw [if_pos hSame, hSame]
      exact ⟨_, rfl, hAt⟩
    · rw [if_neg hSame, Bool.eq_false_iff.mpr hSame]
      exact ih (index + 1) (by omega)

end Copy

/-! ## The copies for one PE -/

/-- What PE `i` needs for its copies: a private cache, the cache of its cluster, for the primary
a system cache, and no more entries than PE 0, whose number is allocated for each PE. -/
structure Served (cfg : PlatformMpamCfg) (table : PeInfoTable) (mpidrEl1 : BitVec 64) (i : Nat) :
    Prop where
  hasPrivate : privatesAt cfg table i ≠ []
  hasCluster : ((privatesAt cfg table i).head?.bind fun c => clusterOf cfg c.mpidr) ≠ none
  hasSystem : isPrimary cfg table mpidrEl1 i = true → systemOf cfg ≠ none
  fits : entriesNeeded cfg table mpidrEl1 i ≤ entriesNeeded cfg table mpidrEl1 0

section FillPe

variable {cfg : PlatformMpamCfg} {table : PeInfoTable} {mpidrEl1 : BitVec 64} {start : Arrays}
  {n i : Nat} {pass : Pass}

/-- The nodes of PE `i`, its head first, are its caches in the order of the list. -/
theorem PassInv.list (hPass : PassInv cfg table start n
    (cfg.cnode.filter MpamCacheNodeCfg.isCluster).length cfg.cnode pass) (hi : i < n)
    (hPrivate : privatesAt cfg table i ≠ []) :
    ∃ nodes, Chain pass.privateCaches PrivatePeCaches.next (some ⟨start.nodes.next, i⟩) nodes ∧
      nodes.map (fun node => cacheAt cfg node.2.cache) =
        (chainOrder (privatesAt cfg table i)).map some := by
  obtain ⟨nodes, hLists⟩ := hPass.lists
  have hList : PeList cfg pass.privateCaches start.nodes.next i (nodes i)
      (privatesAt cfg table i) := hLists.list i hi
  obtain ⟨a, hChain, hNames⟩ := hList.chain hPrivate
  refine ⟨_, hChain, ?_⟩
  rw [List.map_cons, hNames.cacheAt, hList.behind]
  cases hCaches : privatesAt cfg table i with
  | nil => exact absurd hCaches hPrivate
  | cons c rest => rfl

theorem PassInv.cluster (hPass : PassInv cfg table start n
    (cfg.cnode.filter MpamCacheNodeCfg.isCluster).length cfg.cnode pass) (mpidr : BitVec 64) :
    ∃ p, getClusterNode cfg pass.clusterCaches (some ⟨start.clusters.next, 0⟩)
        (countClusters cfg) mpidr = some p ∧
      cacheAt cfg p = clusterOf cfg mpidr := by
  obtain ⟨refs, hBegins, -, hRefs⟩ := hPass.clusters
  have hLength : refs.length = (countClusters cfg).toNat := by
    rw [countClusters_toNat]
    simpa using congrArg List.length hRefs
  exact getClusterLoop_eq (fun k hk => hBegins.load hk) hRefs mpidr _ 0 (by omega)

theorem copyCaches_goesWell (mpidrEl1 : BitVec 64) (hPass : PassInv cfg table start n
    (cfg.cnode.filter MpamCacheNodeCfg.isCluster).length cfg.cnode pass) (hi : i < n)
    {c : MpamCacheNodeCfg} (hFirst : (privatesAt cfg table i).head? = some c)
    {t : MpamInfoTable} {h : Heap CacheNodeEntry} {b size : Nat}
    (hNum : t.numCacheNodes = BitVec.ofNat 32 (entriesNeeded cfg table mpidrEl1 i))
    (hPool : t.cacheNode = some ⟨b, 0⟩) (hFresh : Begins h b size []) :
    GoesWell (copyCaches cfg pass (some ⟨start.nodes.next, i⟩) (some ⟨start.clusters.next, 0⟩)
        c.mpidr t (isPrimary cfg table mpidrEl1 i) h)
      ((((privatesAt cfg table i).head?.bind fun c => clusterOf cfg c.mpidr) ≠ none) ∧
        (isPrimary cfg table mpidrEl1 i = true → systemOf cfg ≠ none) ∧
          entriesNeeded cfg table mpidrEl1 i ≤ size)
      (Copied h b size (sourcesFor cfg table mpidrEl1 i)) := by
  have hPrivate : privatesAt cfg table i ≠ [] := by
    intro hEmpty
    rw [hEmpty] at hFirst
    cases hFirst
  obtain ⟨nodes, hChain, hNodes⟩ := hPass.list hi hPrivate
  obtain ⟨p, hCluster, hAt⟩ := hPass.cluster c.mpidr
  have hSystem : cacheAt cfg pass.systemCache = systemOf cfg := hPass.system
  have hLength : (chainOrder (privatesAt cfg table i)).length = (privatesAt cfg table i).length :=
    (chainOrder_perm _).length_eq
  have hLe := filter_length_le cfg fun c =>
    c.isPrivate && (peGetIndexMpid table c.mpidr).toNat == i
  have hNone : Copied h b size [] h := ⟨⟨[], rfl, hFresh⟩, rfl, fun _ _ => rfl⟩
  have hPrivates := hNone.privateLoop hChain hNodes rfl (Nat.zero_le _)
  simp only [List.nil_append, List.length_nil, Nat.zero_add, hLength] at hPrivates
  simp only [copyCaches, copyPrivateCacheNodes, copyClusterCacheNodes, copySystemCacheNode, hNum,
    hPool, hCluster, Option.bind_eq_bind, Option.bind_some, sourcesFor, hFirst]
  cases hPrimary : isPrimary cfg table mpidrEl1 i with
  | true =>
    have hNeeded : entriesNeeded cfg table mpidrEl1 i = (privatesAt cfg table i).length + 2 := by
      rw [entriesNeeded, if_pos hPrimary]
    have hTwo : (BitVec.ofNat 32 (entriesNeeded cfg table mpidrEl1 i) - 2).toNat =
        (privatesAt cfg table i).length := toNat_ofNat_sub (k := 2) hNeeded (by
          rw [privatesAt] at *; omega)
    have hOne : (BitVec.ofNat 32 (entriesNeeded cfg table mpidrEl1 i) - 1).toNat =
        (privatesAt cfg table i).length + 1 := toNat_ofNat_sub (k := 1) hNeeded (by
          rw [privatesAt] at *; omega)
    simp only [if_true, hTwo, hOne]
    have hAll := hPrivates.bind fun h1 hCopied1 =>
      (hCopied1.step cfg p
        (show (privatesAt cfg table i).length = _ by
          rw [List.length_map, hLength])).bind fun h2 hCopied2 =>
            hCopied2.step cfg pass.systemCache
              (show (privatesAt cfg table i).length + 1 = _ by
                rw [List.length_append, List.length_map, hLength, List.length_singleton])
    simp only [hAt, hSystem, List.length_append, List.length_map, hLength,
      List.length_singleton] at hAll
    refine hAll.congr ?_
    rw [hNeeded]
    constructor
    · rintro ⟨-, ⟨hHasCluster, -⟩, hHasSystem, hFits⟩
      exact ⟨hHasCluster, fun _ => hHasSystem, by omega⟩
    · rintro ⟨hHasCluster, hHasSystem, hFits⟩
      exact ⟨by omega, ⟨hHasCluster, by omega⟩, hHasSystem trivial, by omega⟩
  | false =>
    have hNeeded : entriesNeeded cfg table mpidrEl1 i = (privatesAt cfg table i).length + 1 := by
      rw [entriesNeeded, if_neg (Bool.eq_false_iff.mp hPrimary)]
    have hOne : (BitVec.ofNat 32 (entriesNeeded cfg table mpidrEl1 i) - 1).toNat =
        (privatesAt cfg table i).length := toNat_ofNat_sub (k := 1) hNeeded (by
          rw [privatesAt] at *; omega)
    simp only [Bool.false_eq_true, if_false, hOne, List.append_nil]
    have hAll := hPrivates.bind fun h1 hCopied1 =>
      hCopied1.step cfg p
        (show (privatesAt cfg table i).length = _ by rw [List.length_map, hLength])
    simp only [hAt, List.length_map, hLength] at hAll
    simp only [Option.bind_fun_some]
    refine hAll.congr ?_
    rw [hNeeded]
    constructor
    · rintro ⟨-, hHasCluster, hFits⟩
      exact ⟨hHasCluster, False.elim, hFits⟩
    · rintro ⟨hHasCluster, -, hFits⟩
      exact ⟨by omega, hHasCluster, hFits⟩

theorem foldl_length {α : Type*} (l : List α) :
    l.foldl (fun count _ => count + 1) (0 : BitVec 32) = BitVec.ofNat 32 l.length := by
  have hCount := foldl_count (fun _ : α => true) l 0
  simp only [if_true, List.countP_true, Nat.zero_add] at hCount
  exact hCount

theorem PassInv.count (hPass : PassInv cfg table start n
    (cfg.cnode.filter MpamCacheNodeCfg.isCluster).length cfg.cnode pass) (hi : i < n)
    (hPrivate : privatesAt cfg table i ≠ []) {fuel : Nat} (hFuel : cfg.cnode.length ≤ fuel) :
    getCacheCount pass.privateCaches fuel (some ⟨start.nodes.next, i⟩) =
      some (BitVec.ofNat 32 (privatesAt cfg table i).length) := by
  obtain ⟨nodes, hChain, hNodes⟩ := hPass.list hi hPrivate
  have hLength : nodes.length = (privatesAt cfg table i).length := by
    have hMap := congrArg List.length hNodes
    rwa [List.length_map, List.length_map, (chainOrder_perm _).length_eq] at hMap
  have hLe : (privatesAt cfg table i).length ≤ cfg.cnode.length := List.length_filter_le _ _
  rw [getCacheCount, foldLoop_chain hChain _ (by omega), ← hLength, ← foldl_length nodes]

/-! ## The loop -/

/-- The first `k` PEs have been served, each with the next block of the heap of the pools. The
table is the next block of its heap. -/
structure FillInv (cfg : PlatformMpamCfg) (table : PeInfoTable) (mpidrEl1 : BitVec 64)
    (tables : Heap MpamInfoTable) (pools : Heap CacheNodeEntry) (n k : Nat) (s : Filling) :
    Prop where
  entry : ∀ i < n, ∃ t, s.mpamTable.load (some ⟨tables.next, i⟩) = some t ∧
    (i < k → t.numCacheNodes = BitVec.ofNat 32 (entriesNeeded cfg table mpidrEl1 i) ∧
      t.numMemoryNodes = 0 ∧ t.cacheNode = some ⟨pools.next + i, 0⟩)
  tablesRest : ∀ b, b ≠ tables.next → s.mpamTable.cells b = tables.cells b
  next : s.cacheNode.next = pools.next + k
  pool : ∀ i < k, ∃ values,
    values.map some = (sourcesFor cfg table mpidrEl1 i).map (Option.map Mpam.copyCacheNode) ∧
      Begins s.cacheNode (pools.next + i) (entriesNeeded cfg table mpidrEl1 0) values
  poolsRest : ∀ b, b < pools.next → s.cacheNode.cells b = pools.cells b

variable {tables : Heap MpamInfoTable} {pools : Heap CacheNodeEntry} {s : Filling} {k : Nat}
  {arena : Arena CacheNodeEntry}

/-- The entry of PE `k` is written, and its pool is the next block. -/
theorem FillInv.push (hInv : FillInv cfg table mpidrEl1 tables pools n k s) (hk : k < n)
    {tables' : Heap MpamInfoTable} {h h' : Heap CacheNodeEntry} {t : MpamInfoTable}
    (hEntry : tables'.load (some ⟨tables.next, k⟩) = some t)
    (hOther : ∀ i, i ≠ k → tables'.load (some ⟨tables.next, i⟩) =
      s.mpamTable.load (some ⟨tables.next, i⟩))
    (hRest : ∀ b, b ≠ tables.next → tables'.cells b = s.mpamTable.cells b)
    (hNum : t.numCacheNodes = BitVec.ofNat 32 (entriesNeeded cfg table mpidrEl1 k))
    (hMemory : t.numMemoryNodes = 0) (hPool : t.cacheNode = some ⟨s.cacheNode.next, 0⟩)
    {contents : List CacheNodeEntry} (hh : h = s.cacheNode.push contents)
    (hCopied : Copied h s.cacheNode.next (entriesNeeded cfg table mpidrEl1 0)
      (sourcesFor cfg table mpidrEl1 k) h') :
    FillInv cfg table mpidrEl1 tables pools n (k + 1)
      { mpamTable := tables', cacheNode := h' } where
  entry := by
    intro i hi
    by_cases hik : i = k
    · subst hik
      exact ⟨t, hEntry, fun _ => ⟨hNum, hMemory, by rw [hPool, hInv.next]⟩⟩
    · obtain ⟨u, hLoad, hServed⟩ := hInv.entry i hi
      exact ⟨u, (hOther i hik).trans hLoad, fun hLt => hServed (by omega)⟩
  tablesRest := fun b hb => (hRest b hb).trans (hInv.tablesRest b hb)
  next := by
    rw [hCopied.next, hh, Heap.push_next, hInv.next]
    rfl
  pool := by
    intro i hi
    by_cases hik : i = k
    · subst hik
      rw [← hInv.next]
      exact hCopied.begins
    · obtain ⟨values, hValues, hBegins⟩ := hInv.pool i (by omega)
      have hNe : pools.next + i ≠ s.cacheNode.next := by
        rw [hInv.next]
        omega
      refine ⟨values, hValues, hBegins.frame ?_⟩
      rw [hCopied.rest _ hNe, hh, Heap.push_cells_of_ne hNe]
  poolsRest := by
    intro b hb
    have hNe : b ≠ s.cacheNode.next := by
      rw [hInv.next]
      omega
    rw [hCopied.rest b hNe, hh, Heap.push_cells_of_ne hNe, hInv.poolsRest b hb]

theorem fillPe_goesWell (hPass : PassInv cfg table start n
    (cfg.cnode.filter MpamCacheNodeCfg.isCluster).length cfg.cnode pass)
    (hPlenty : arena.Plenty) {fuel : Nat} (hFuel : cfg.cnode.length ≤ fuel)
    (hInv : FillInv cfg table mpidrEl1 tables pools n k s) (hk : k < n) :
    GoesWell (fillPe cfg arena mpidrEl1 fuel pass (some ⟨start.nodes.next, 0⟩)
        (some ⟨start.clusters.next, 0⟩) (some ⟨tables.next, 0⟩) s k)
      (Served cfg table mpidrEl1 k)
      (FillInv cfg table mpidrEl1 tables pools n (k + 1)) := by
  obtain ⟨nodes, hLists⟩ := hPass.lists
  have hList : PeList cfg pass.privateCaches start.nodes.next k (nodes k)
      (privatesAt cfg table k) := hLists.list k hk
  obtain ⟨head, hHead, hNames, -⟩ := hList.head
  obtain ⟨t, hEntry, -⟩ := hInv.entry k hk
  simp only [fillPe, Pointer.add_some, Nat.zero_add, hHead, hNames.cacheAt, Option.bind_eq_bind,
    Option.bind_some]
  cases hFirst : (privatesAt cfg table k).head? with
  | none =>
    refine .of_none rfl fun hServed => hServed.hasPrivate ?_
    exact List.head?_eq_none_iff.mp hFirst
  | some c =>
    have hPrivate : privatesAt cfg table k ≠ [] := by
      intro hEmpty
      rw [hEmpty] at hFirst
      cases hFirst
    have hPrimary : decide (c.mpidr = currentMpidr mpidrEl1) = isPrimary cfg table mpidrEl1 k := by
      rw [isPrimary, hFirst]
      simp
    have hCount : (if isPrimary cfg table mpidrEl1 k = true then
          BitVec.ofNat 32 (privatesAt cfg table k).length + 2
        else BitVec.ofNat 32 (privatesAt cfg table k).length + 1) =
        BitVec.ofNat 32 (entriesNeeded cfg table mpidrEl1 k) := by
      rw [entriesNeeded, BitVec.ofNat_add]
      split <;> rfl
    simp only [Option.bind_some, hPrimary, hPass.count hk hPrivate hFuel,
      Heap.modify_of_load hEntry, hCount]
    generalize hOne : s.mpamTable.set ⟨tables.next, k⟩
      { t with
        numCacheNodes := BitVec.ofNat 32 (entriesNeeded cfg table mpidrEl1 k)
        numMemoryNodes := 0 } = one
    have hLoadOne : one.load (some ⟨tables.next, k⟩) = some { t with
        numCacheNodes := BitVec.ofNat 32 (entriesNeeded cfg table mpidrEl1 k)
        numMemoryNodes := 0 } := by
      rw [← hOne]
      exact Heap.load_set_self (Option.isSome_of_eq_some hEntry)
    have hOtherOne : ∀ i, i ≠ k → one.load (some ⟨tables.next, i⟩) =
        s.mpamTable.load (some ⟨tables.next, i⟩) := by
      intro i hi
      rw [← hOne, Heap.load_set_of_ne fun hEq => hi (Ptr.mk.inj hEq).2]
    -- for PE 0 the count was stored just now, for the others in the first round
    obtain ⟨zero, hZero, hZeroNum⟩ : ∃ zero, one.load (some ⟨tables.next, 0⟩) = some zero ∧
        zero.numCacheNodes = BitVec.ofNat 32 (entriesNeeded cfg table mpidrEl1 0) := by
      by_cases hk0 : k = 0
      · subst hk0
        exact ⟨_, hLoadOne, rfl⟩
      · obtain ⟨zero, hLoad, hServed⟩ := hInv.entry 0 (by omega)
        exact ⟨zero, (hOtherOne 0 (Ne.symm hk0)).trans hLoad, (hServed (by omega)).1⟩
    have hLe := entriesNeeded_le cfg table mpidrEl1 0
    have hSize : cacheNodeEntry.size = 80 := by decide
    have hNumNat : zero.numCacheNodes.toNat = entriesNeeded cfg table mpidrEl1 0 := by
      rw [hZeroNum, BitVec.toNat_ofNat]
      omega
    have hAlloc := palMemAllocate_eq hPlenty s.cacheNode zero.numCacheNodes cacheNodeEntry
      (by rw [hSize]; omega) (by rw [hSize, hNumNat]; omega)
    simp only [hZero, Option.bind_some, hAlloc, Heap.modify_of_load hLoadOne]
    generalize hTwo : one.set ⟨tables.next, k⟩
      { t with
        numCacheNodes := BitVec.ofNat 32 (entriesNeeded cfg table mpidrEl1 k)
        numMemoryNodes := 0
        cacheNode := some ⟨s.cacheNode.next, 0⟩ } = two
    have hLoadTwo : two.load (some ⟨tables.next, k⟩) = some { t with
        numCacheNodes := BitVec.ofNat 32 (entriesNeeded cfg table mpidrEl1 k)
        numMemoryNodes := 0
        cacheNode := some ⟨s.cacheNode.next, 0⟩ } := by
      rw [← hTwo]
      exact Heap.load_set_self (Option.isSome_of_eq_some hLoadOne)
    have hFresh := Begins.of_push s.cacheNode
      (arena.contents s.cacheNode.next zero.numCacheNodes.toNat)
    rw [Arena.length_contents, hNumNat] at hFresh
    have hCopies := copyCaches_goesWell mpidrEl1 hPass hk hFirst
      (t := { t with
        numCacheNodes := BitVec.ofNat 32 (entriesNeeded cfg table mpidrEl1 k)
        numMemoryNodes := 0
        cacheNode := some ⟨s.cacheNode.next, 0⟩ }) rfl rfl hFresh
    simp only [hLoadTwo, Option.bind_some, hNumNat]
    have hRound : GoesWell _ _ (FillInv cfg table mpidrEl1 tables pools n (k + 1)) :=
      hCopies.bind (d := True) (f := fun h => some { mpamTable := two, cacheNode := h })
        fun h' hCopied => by
        refine .of_eq rfl (hInv.push hk hLoadTwo (fun i hi => ?_) (fun b hb => ?_) rfl rfl rfl rfl
          hCopied)
        · rw [← hTwo, Heap.load_set_of_ne fun hEq => hi (Ptr.mk.inj hEq).2, hOtherOne i hi]
        · rw [← hTwo, Heap.set_cells_of_ne hb, ← hOne, Heap.set_cells_of_ne hb]
    refine hRound.congr ⟨fun hAll => ?_, fun hServed => ?_⟩
    · obtain ⟨⟨hCluster, hSystem, hFits⟩, -⟩ := hAll
      exact ⟨hPrivate, hCluster, hSystem, hFits⟩
    · exact ⟨⟨hServed.hasCluster, hServed.hasSystem, hServed.fits⟩, trivial⟩

end FillPe

end EnterpriseAcs.Mpam.InMemory
