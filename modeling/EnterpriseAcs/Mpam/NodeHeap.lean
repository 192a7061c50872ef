import EnterpriseAcs.Library.BlockHeap
import EnterpriseAcs.Mpam.Topology

/-!
# The cache nodes in memory

`FillMpamInfoTable` with its pointers: the array `PrivateCaches` of list heads, the nodes that
are linked behind them, the array `ClusterCaches`, and the pools that the information table
points to. Each kind of object has its own heap. A step that C leaves undefined has no result.

A cache of the configuration is pointed to by its index in `cnode`; an index past the end of
`cnode` is an invalid pointer. The printing of the finished table is left out.
-/

namespace EnterpriseAcs.Mpam.InMemory

open Machine BlockHeap

/-! ## The objects -/

/-- `PrivatePeCaches`. -/
structure PrivatePeCaches where
  cache : Option Nat
  next : Pointer
  deriving DecidableEq, Repr

/-- `MPAM_INFO_TABLE`. -/
structure MpamInfoTable where
  numCacheNodes : BitVec 32
  numMemoryNodes : BitVec 32
  cacheNode : Pointer
  memoryNode : Pointer
  deriving DecidableEq, Repr

/-- The layout of any pointer. -/
def pointerType : CType := ⟨8, 8⟩

def privatePeCachesType : CType := cStruct [pointerType, pointerType]

def mpamInfoTableType : CType := cStruct [uint32, uint32, pointerType, pointerType]

def memoryNodeEntryType : CType :=
  cStruct [uint32, uint64, uint64, uint32, uint64, uint32,
    cStruct [uint32, uint32, uint32, uint32]]

/-- The memory, one heap for each type of object. -/
structure Memory where
  privateCaches : Heap PrivatePeCaches
  clusterCaches : Heap (Option Nat)
  mpamTable : Heap MpamInfoTable
  cacheNode : Heap CacheNodeEntry
  memoryNode : Heap MemoryNodeEntry

/-- `AllocatePool`, for each type of object. -/
structure AllocatePool where
  privateCaches : Arena PrivatePeCaches
  clusterCaches : Arena (Option Nat)
  mpamTable : Arena MpamInfoTable
  cacheNode : Arena CacheNodeEntry
  memoryNode : Arena MemoryNodeEntry

/-- There is memory for every request. -/
structure AllocatePool.Plenty (pool : AllocatePool) : Prop where
  privateCaches : pool.privateCaches.Plenty
  clusterCaches : pool.clusterCaches.Plenty
  mpamTable : pool.mpamTable.Plenty
  cacheNode : pool.cacheNode.Plenty
  memoryNode : pool.memoryNode.Plenty

/-- `PalMemAllocate`; a block has as many cells as fit into its bytes. -/
def palMemAllocate {α : Type*} (arena : Arena α) (h : Heap α) (numInstances : BitVec 32)
    (type : CType) : Pointer × Heap α :=
  arena.alloc h ((numInstances * BitVec.ofNat 32 type.size).toNat / type.size)

/-! ## The pass over the configuration -/

/-- The cache that a pointer into `cnode` names. -/
def cacheAt (cfg : PlatformMpamCfg) (p : Option Nat) : Option MpamCacheNodeCfg :=
  p.bind (cfg.cnode[·]?)

def setPeInfoNull (h : Heap PrivatePeCaches) (privateCaches : Pointer) (peCnt : BitVec 32) :
    Option (Heap PrivatePeCaches) :=
  (List.range peCnt.toNat).foldlM
    (fun h peIndex => h.modify (privateCaches.add peIndex) fun a => { a with cache := none }) h

/-- What the pass changes. -/
structure Pass where
  privateCaches : Heap PrivatePeCaches
  clusterCaches : Heap (Option Nat)
  clusterIndex : Nat := 0
  systemCache : Option Nat := none

/-- The body of the pass; the pointers are those to the two arrays. -/
def passStep (cfg : PlatformMpamCfg) (table : PeInfoTable) (arena : Arena PrivatePeCaches)
    (privateCaches clusterCaches : Pointer) (s : Pass) (nodeIndex : Nat) : Option Pass := do
  let c ← cfg.cnode[nodeIndex]?
  if c.isPrivate then
    let peIndex := (peGetIndexMpid table c.mpidr).toNat
    let head ← s.privateCaches.load (privateCaches.add peIndex)
    if head.cache = none then
      let h ← s.privateCaches.store (privateCaches.add peIndex)
        { cache := some nodeIndex, next := none }
      some { s with privateCaches := h }
    else
      let (tempNode, h) := palMemAllocate arena s.privateCaches 1 privatePeCachesType
      let h ← h.store tempNode { cache := some nodeIndex, next := head.next }
      let h ← h.modify (privateCaches.add peIndex) fun a => { a with next := tempNode }
      some { s with privateCaches := h }
  else if c.isCluster then
    let h ← s.clusterCaches.store (clusterCaches.add s.clusterIndex) (some nodeIndex)
    some { s with clusterCaches := h, clusterIndex := s.clusterIndex + 1 }
  else
    some { s with systemCache := some nodeIndex }

/-! ## The loop over the PEs -/

def getCacheCount (h : Heap PrivatePeCaches) (fuel : Nat) (privateCaches : Pointer) :
    Option (BitVec 32) :=
  foldLoop h PrivatePeCaches.next (fun count _ => count + 1) fuel 0 privateCaches

/-- The loop of `GetClusterNode`, with the number of rounds left. -/
def getClusterLoop (cfg : PlatformMpamCfg) (h : Heap (Option Nat)) (clusters : Pointer)
    (mpidr : BitVec 64) : Nat → Nat → Option (Option Nat)
  | 0, _ => some none
  | n + 1, index => do
    let p ← h.load (clusters.add index)
    let c ← cacheAt cfg p
    if sameCluster mpidr c then some p else getClusterLoop cfg h clusters mpidr n (index + 1)

def getClusterNode (cfg : PlatformMpamCfg) (h : Heap (Option Nat)) (clusters : Pointer)
    (clusterCount : BitVec 32) (mpidr : BitVec 64) : Option (Option Nat) :=
  getClusterLoop cfg h clusters mpidr clusterCount.toNat 0

def copyCacheNode (cfg : PlatformMpamCfg) (h : Heap CacheNodeEntry) (source : Option Nat)
    (dest : Pointer) : Option (Heap CacheNodeEntry) := do
  let c ← cacheAt cfg source
  h.store dest (Mpam.copyCacheNode c)

/-- The loop of `CopyPrivateCacheNodes`, with the number of rounds left. -/
def copyPrivateLoop (cfg : PlatformMpamCfg) (nodes : Heap PrivatePeCaches) (cacheNode : Pointer) :
    Nat → Nat → Pointer → Heap CacheNodeEntry → Option (Heap CacheNodeEntry)
  | 0, _, _, h => some h
  | n + 1, nodeIndex, cacheIterator, h => do
    let node ← nodes.load cacheIterator
    let h ← copyCacheNode cfg h node.cache (cacheNode.add nodeIndex)
    copyPrivateLoop cfg nodes cacheNode n (nodeIndex + 1) node.next h

def copyPrivateCacheNodes (cfg : PlatformMpamCfg) (nodes : Heap PrivatePeCaches)
    (privateCaches : Pointer) (t : MpamInfoTable) (isPrimary : Bool) (h : Heap CacheNodeEntry) :
    Option (Heap CacheNodeEntry) :=
  let nodeCnt := if isPrimary then t.numCacheNodes - 2 else t.numCacheNodes - 1
  copyPrivateLoop cfg nodes t.cacheNode nodeCnt.toNat 0 privateCaches h

def copyClusterCacheNodes (cfg : PlatformMpamCfg) (cluster : Option Nat) (t : MpamInfoTable)
    (isPrimary : Bool) (h : Heap CacheNodeEntry) : Option (Heap CacheNodeEntry) :=
  if isPrimary then copyCacheNode cfg h cluster (t.cacheNode.add (t.numCacheNodes - 2).toNat)
  else copyCacheNode cfg h cluster (t.cacheNode.add (t.numCacheNodes - 1).toNat)

def copySystemCacheNode (cfg : PlatformMpamCfg) (system : Option Nat) (t : MpamInfoTable)
    (h : Heap CacheNodeEntry) : Option (Heap CacheNodeEntry) :=
  copyCacheNode cfg h system (t.cacheNode.add (t.numCacheNodes - 1).toNat)

/-- The copies that are made for one PE. -/
def copyCaches (cfg : PlatformMpamCfg) (pass : Pass) (privateCaches clusterCaches : Pointer)
    (mpidr : BitVec 64) (t : MpamInfoTable) (isPrimary : Bool) (h : Heap CacheNodeEntry) :
    Option (Heap CacheNodeEntry) := do
  let h ← copyPrivateCacheNodes cfg pass.privateCaches privateCaches t isPrimary h
  let cluster ← getClusterNode cfg pass.clusterCaches clusterCaches (countClusters cfg) mpidr
  let h ← copyClusterCacheNodes cfg cluster t isPrimary h
  if isPrimary then copySystemCacheNode cfg pass.systemCache t h else some h

/-- What the loop changes. -/
structure Filling where
  mpamTable : Heap MpamInfoTable
  cacheNode : Heap CacheNodeEntry

/-- The body of the loop; the pointers are those to the arrays. -/
def fillPe (cfg : PlatformMpamCfg) (arena : Arena CacheNodeEntry) (mpidrEl1 : BitVec 64)
    (fuel : Nat) (pass : Pass) (privateCaches clusterCaches mpamTable : Pointer) (s : Filling)
    (peIndex : Nat) : Option Filling := do
  let head ← pass.privateCaches.load (privateCaches.add peIndex)
  let first ← cacheAt cfg head.cache
  let isPrimary : Bool := first.mpidr = currentMpidr mpidrEl1
  let count ← getCacheCount pass.privateCaches fuel (privateCaches.add peIndex)
  let tables ← s.mpamTable.modify (mpamTable.add peIndex) fun t =>
    { t with
      numCacheNodes := if isPrimary then count + 2 else count + 1
      numMemoryNodes := 0 }
  -- the count is that of `MpamTable[0]`
  let tableZero ← tables.load mpamTable
  let (cacheNode, h) := palMemAllocate arena s.cacheNode tableZero.numCacheNodes cacheNodeEntry
  let tables ← tables.modify (mpamTable.add peIndex) fun t => { t with cacheNode := cacheNode }
  let t ← tables.load (mpamTable.add peIndex)
  let h ← copyCaches cfg pass (privateCaches.add peIndex) clusterCaches first.mpidr t isPrimary h
  some { mpamTable := tables, cacheNode := h }

/-! ## The end -/

/-- `CopyMemoryNodes`, with the two heaps that it changes. -/
def copyMemoryNodes (cfg : PlatformMpamCfg) (arena : Arena MemoryNodeEntry)
    (tables : Heap MpamInfoTable) (h : Heap MemoryNodeEntry) (mpamTable : Pointer) :
    Option (Heap MpamInfoTable × Heap MemoryNodeEntry) := do
  let num := BitVec.ofNat 32 cfg.mnode.length
  let (memoryNode, h) := palMemAllocate arena h num memoryNodeEntryType
  let tables ← tables.modify mpamTable fun t =>
    { t with numMemoryNodes := num, memoryNode := memoryNode }
  let h ← (List.range cfg.mnode.length).foldlM
    (fun h i => cfg.mnode[i]?.bind (h.store (memoryNode.add i))) h
  some (tables, h)

/-- The body of the loop of `FreePrivateCaches`. -/
def freePe (fuel : Nat) (privateCaches : Pointer) (h : Heap PrivatePeCaches) (peIndex : Nat) :
    Option (Heap PrivatePeCaches) := do
  let head ← h.load (privateCaches.add peIndex)
  freeLoop PrivatePeCaches.next fuel h head.next

def freePrivateCaches (numOfPe : BitVec 32) (fuel : Nat) (h : Heap PrivatePeCaches)
    (privateCaches : Pointer) : Option (Heap PrivatePeCaches) := do
  let h ← (List.range numOfPe.toNat).foldlM (freePe fuel privateCaches) h
  h.free privateCaches

/-- `FillMpamInfoTable` on the PE with this `MPIDR_EL1`: the pointer to the table, and the memory
at the end. -/
def fillMpamInfoTable (cfg : PlatformMpamCfg) (table : PeInfoTable) (mpidrEl1 : BitVec 64)
    (pool : AllocatePool) (fuel : Nat) (mem : Memory) : Option (Pointer × Memory) := do
  let (mpamTable, tables) :=
    palMemAllocate pool.mpamTable mem.mpamTable table.numOfPe mpamInfoTableType
  let (privateCaches, nodes) :=
    palMemAllocate pool.privateCaches mem.privateCaches table.numOfPe privatePeCachesType
  let (clusterCaches, clusters) :=
    palMemAllocate pool.clusterCaches mem.clusterCaches (countClusters cfg) pointerType
  let nodes ← setPeInfoNull nodes privateCaches table.numOfPe
  -- `SetClusterInfoNull` only changes its own copy of the pointer
  let pass ← (List.range cfg.cnode.length).foldlM
    (passStep cfg table pool.privateCaches privateCaches clusterCaches)
    { privateCaches := nodes, clusterCaches := clusters }
  let filling ← (List.range table.numOfPe.toNat).foldlM
    (fillPe cfg pool.cacheNode mpidrEl1 fuel pass privateCaches clusterCaches mpamTable)
    { mpamTable := tables, cacheNode := mem.cacheNode }
  let index := (peGetIndexMpid table (currentMpidr mpidrEl1)).toNat
  let (tables, memoryNodes) ←
    copyMemoryNodes cfg pool.memoryNode filling.mpamTable mem.memoryNode (mpamTable.add index)
  let nodes ← freePrivateCaches table.numOfPe fuel pass.privateCaches privateCaches
  let clusters ← pass.clusterCaches.free clusterCaches
  some (mpamTable,
    { privateCaches := nodes
      clusterCaches := clusters
      mpamTable := tables
      cacheNode := filling.cacheNode
      memoryNode := memoryNodes })

/-! ## Reading the table -/

/-- `MpamTable[i]`. -/
def tableAt (mem : Memory) (mpamTable : Pointer) (i : Nat) : Option MpamInfoTable :=
  mem.mpamTable.load (mpamTable.add i)

/-- `MpamTable[i].cache_node[k]`. -/
def cacheNodeAt (mem : Memory) (mpamTable : Pointer) (i k : Nat) : Option CacheNodeEntry :=
  (tableAt mem mpamTable i).bind fun t => mem.cacheNode.load (t.cacheNode.add k)

/-- `MpamTable[i].memory_node[k]`. -/
def memoryNodeAt (mem : Memory) (mpamTable : Pointer) (i k : Nat) : Option MemoryNodeEntry :=
  (tableAt mem mpamTable i).bind fun t => mem.memoryNode.load (t.memoryNode.add k)

end EnterpriseAcs.Mpam.InMemory
