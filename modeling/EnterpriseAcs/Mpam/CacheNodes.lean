import EnterpriseAcs.Library.BlockHeap
import EnterpriseAcs.Machine.Buffers
import EnterpriseAcs.Mpam.PeIndex
import Mathlib.Data.List.Induction
import Mathlib.Logic.Function.Basic

/-!
# The cache nodes of the PEs

The platform configuration lists all caches of the machine in one array. `FillMpamInfoTable`
hands them out: it collects the private caches of each PE in a list, then copies into the
`cache_node` array of each PE its private caches, its cluster cache, and for the primary the
system cache. `AllocatePool` may refuse any of the pools, and no pointer is checked.

* `cachesOf_goesWell`: what the lists hold after the pass over the configuration.
* `fillMpamInfoTable_goesWell`: what is copied to each PE, and where.
-/

namespace EnterpriseAcs.Mpam

open Machine BlockHeap

/-! ## The platform configuration -/

/-- `CACHE_NODE_ATTR_OVERRIDE`. -/
structure CacheNodeAttrOverride where
  allocType : BitVec 8 := 0
  cacheType : BitVec 8 := 0
  writePolicy : BitVec 8 := 0
  reserved : BitVec 8 := 0
  deriving DecidableEq, Repr

/-- `CACHE_NODE_INFO_OVERRIDE`. -/
structure CacheNodeInfoOverride where
  scopeIndex : BitVec 32 := 0
  nodeScope : BitVec 32
  deriving DecidableEq, Repr

/-- `INTR_INFO_OVERRIDE` and `INTR_INFO`, which have the same members. -/
structure IntrInfo where
  errorIntrNum : BitVec 32 := 0
  overflowIntrNum : BitVec 32 := 0
  errorIntrType : BitVec 32 := 0
  overflowIntrType : BitVec 32 := 0
  deriving DecidableEq, Repr

/-- `mpam_cache_node_cfg`. -/
structure MpamCacheNodeCfg where
  mpidr : BitVec 64
  lineSize : BitVec 32 := 0
  size : BitVec 32 := 0
  neighbours : Vector (BitVec 64) 4 := .replicate 4 0
  info : CacheNodeInfoOverride
  attributes : CacheNodeAttrOverride := {}
  hwregBaseAddr : BitVec 64 := 0
  notReadyMaxUs : BitVec 32 := 0
  intrInfo : IntrInfo := {}
  deriving DecidableEq, Repr

/-- `memory_node_entry` and `MEMORY_NODE_ENTRY`, which have the same members. -/
structure MemoryNodeEntry where
  proximityDomain : BitVec 32
  baseAddress : BitVec 64
  length : BitVec 64
  flags : BitVec 32
  hwregBaseAddr : BitVec 64
  notReadyMaxUs : BitVec 32
  intrInfo : IntrInfo
  deriving DecidableEq, Repr

/-- `MAX_CACHE_NODES`. -/
def maxCacheNodes : Nat := 256

/-- `MAX_DDR_NODES`. -/
def maxDdrNodes : Nat := 16

/-- `platform_mpam_cfg`: the used parts of its two arrays. -/
structure PlatformMpamCfg where
  cnode : List MpamCacheNodeCfg
  mnode : List MemoryNodeEntry := []
  cnode_le : cnode.length ≤ maxCacheNodes
  mnode_le : mnode.length ≤ maxDdrNodes

/-- `CACHE_SCOPE_PRIVATE`. -/
def cacheScopePrivate : BitVec 32 := 0

/-- `CACHE_SCOPE_CLUSTER`. -/
def cacheScopeCluster : BitVec 32 := 1

namespace MpamCacheNodeCfg

def isPrivate (c : MpamCacheNodeCfg) : Bool := c.info.nodeScope == cacheScopePrivate

def isCluster (c : MpamCacheNodeCfg) : Bool := c.info.nodeScope == cacheScopeCluster

/-- Every other scope counts as the system cache. -/
def isSystem (c : MpamCacheNodeCfg) : Bool := !c.isPrivate && !c.isCluster

end MpamCacheNodeCfg

/-! ## Pools -/

/-- The answers of `AllocatePool` to the requests of `FillMpamInfoTable`, `true` for success: the
three arrays, the node of the list for each cache of the configuration, the `cache_node` pool of
each PE, and the `memory_node` pool. -/
structure PoolAnswers where
  mpamTable : Bool
  privateCaches : Bool
  clusterCaches : Bool
  tempNode : Nat → Bool
  cacheNode : Nat → Bool
  memoryNode : Bool

/-- All allocations succeed. -/
def PoolAnswers.granting : PoolAnswers where
  mpamTable := true
  privateCaches := true
  clusterCaches := true
  tempNode := fun _ => true
  cacheNode := fun _ => true
  memoryNode := true

/-- The size of the pool in bytes, or `none` for a null pointer. -/
def palMemAllocate (granted : Bool) (numInstances sizeOfEntry : BitVec 32) :
    Option (BitVec 32) :=
  if granted then some (numInstances * sizeOfEntry) else none

/-! ## The lists of caches -/

/-- An element of `PrivateCaches`: the first cache, and the nodes linked behind it. -/
structure PrivatePeCaches where
  cache : Option MpamCacheNodeCfg := none
  next : List MpamCacheNodeCfg := []
  deriving DecidableEq, Repr

/-- The first cache of a PE becomes the head, and every other one goes right behind it. -/
def PrivatePeCaches.insert (caches : PrivatePeCaches) (c : MpamCacheNodeCfg) : PrivatePeCaches :=
  match caches.cache with
  | none => { cache := some c, next := [] }
  | some _ => { caches with next := c :: caches.next }

/-- The locals of `FillMpamInfoTable` that the pass over the configuration fills. -/
structure Caches where
  privateCaches : Nat → PrivatePeCaches := fun _ => {}
  clusterCaches : List MpamCacheNodeCfg := []
  systemCache : Option MpamCacheNodeCfg := none

def peGetIndexMpid (table : PeInfoTable) (mpid : BitVec 64) : BitVec 32 :=
  indexLoop mpid (table.peInfo.take table.numOfPe.toNat)

/-- The body of the pass. It has no result where it writes through a null pointer. -/
def Caches.add (pools : PoolAnswers) (cfg : PlatformMpamCfg) (table : PeInfoTable)
    (caches : Caches) (nodeIndex : Nat) : Option Caches := do
  let c ← cfg.cnode[nodeIndex]?
  if c.isPrivate then
    let peIndex := (peGetIndexMpid table c.mpidr).toNat
    -- a cache that is not the first of its PE gets a node of its own
    if (caches.privateCaches peIndex).cache.isSome && !pools.tempNode nodeIndex then none
    else
      some
        { caches with
          privateCaches := Function.update caches.privateCaches peIndex
            ((caches.privateCaches peIndex).insert c) }
  else if c.isCluster then
    if pools.clusterCaches then
      some { caches with clusterCaches := caches.clusterCaches ++ [c] }
    else none
  else
    some { caches with systemCache := some c }

def cachesOf (pools : PoolAnswers) (cfg : PlatformMpamCfg) (table : PeInfoTable) :
    Option Caches :=
  (List.range cfg.cnode.length).foldlM (Caches.add pools cfg table) {}

def countClusters (cfg : PlatformMpamCfg) : BitVec 32 :=
  cfg.cnode.foldl (fun count c => if c.isCluster then count + 1 else count) 0

def getCacheCount (caches : PrivatePeCaches) : BitVec 32 :=
  caches.next.foldl (fun count _ => count + 1) 1

/-- The comparison by which a cache belongs to the cluster of an MPIDR. -/
def sameCluster (mpidr : BitVec 64) (c : MpamCacheNodeCfg) : Bool :=
  c.mpidr &&& 0xffffff00 == mpidr &&& 0xffffff00

def getClusterNode (clusters : List MpamCacheNodeCfg) (clusterCount : BitVec 32)
    (mpidr : BitVec 64) : Option MpamCacheNodeCfg :=
  (clusters.take clusterCount.toNat).find? (sameCluster mpidr)

/-! ## The information table -/

/-- `CACHE_NODE_ENTRY`, whose members are narrower than those of the configuration. -/
structure CacheNodeEntry where
  lineSize : BitVec 16
  size : BitVec 32
  neighbours : Vector (BitVec 64) 4
  scopeIndex : BitVec 24
  nodeScope : BitVec 8
  allocType : BitVec 2
  cacheType : BitVec 2
  writePolicy : BitVec 1
  reserved : BitVec 3
  hwregBaseAddr : BitVec 64
  notReadyMaxUs : BitVec 32
  intrInfo : IntrInfo
  deriving DecidableEq, Repr

def copyCacheNode (source : MpamCacheNodeCfg) : CacheNodeEntry where
  lineSize := source.lineSize.setWidth 16
  size := source.size
  neighbours := source.neighbours
  scopeIndex := source.info.scopeIndex.setWidth 24
  nodeScope := source.info.nodeScope.setWidth 8
  allocType := source.attributes.allocType.setWidth 2
  cacheType := source.attributes.cacheType.setWidth 2
  writePolicy := source.attributes.writePolicy.setWidth 1
  reserved := source.attributes.reserved.setWidth 3
  hwregBaseAddr := source.hwregBaseAddr
  notReadyMaxUs := source.notReadyMaxUs
  intrInfo := source.intrInfo

/-- The layout of `CACHE_NODE_ENTRY`; the bit-fields take one `uint32_t` and one `uint8_t`. -/
def cacheNodeEntry : CType :=
  cStruct [⟨2, 2⟩, uint32, uint64.array 4, uint32, uint8, uint64, uint32,
    cStruct [uint32, uint32, uint32, uint32]]

/-- `MPAM_INFO_TABLE` with the pool at `cache_node`: its size, if it was granted, and the copies
made there, each with its index and the cache that was copied, `none` when the source pointer is
null or was never set. -/
structure MpamInfoTable where
  numCacheNodes : BitVec 32 := 0
  numMemoryNodes : BitVec 32 := 0
  cacheNodePool : Option (BitVec 32) := none
  copies : List (Nat × Option MpamCacheNodeCfg) := []
  memoryNode : List MemoryNodeEntry := []
  deriving DecidableEq, Repr

namespace MpamInfoTable

/-- The number of entries that were allocated at `cache_node`. -/
def allocated (t : MpamInfoTable) : Nat :=
  match t.cacheNodePool with
  | none => 0
  | some bytes => bytes.toNat / cacheNodeEntry.size

/-- `CopyCacheNode` to `cache_node[index]`. -/
def copy (t : MpamInfoTable) (index : Nat) (source : Option MpamCacheNodeCfg) : MpamInfoTable :=
  { t with copies := t.copies ++ [(index, source)] }

/-- The cache that `cache_node[k]` was copied from, if it is in the pool and was written. -/
def source (t : MpamInfoTable) (k : Nat) : Option MpamCacheNodeCfg :=
  if k < t.allocated then (t.copies.reverse.lookup k).join else none

/-- `cache_node[k]`. -/
def cacheNode (t : MpamInfoTable) (k : Nat) : Option CacheNodeEntry :=
  (t.source k).map copyCacheNode

/-- The caches in the list of a PE, which has `num_cache_nodes` entries. -/
def sources (t : MpamInfoTable) : List (Option MpamCacheNodeCfg) :=
  (List.range t.numCacheNodes.toNat).map t.source

/-- The list of a PE as the suite reads it. -/
def cacheNodes (t : MpamInfoTable) : List (Option CacheNodeEntry) :=
  (List.range t.numCacheNodes.toNat).map t.cacheNode

theorem cacheNodes_eq (t : MpamInfoTable) :
    t.cacheNodes = t.sources.map (Option.map copyCacheNode) := by
  rw [cacheNodes, sources, List.map_map]
  rfl

end MpamInfoTable

/-- The loop of `CopyPrivateCacheNodes`, with the nodes from the iterator on. -/
def copyPrivateLoop : Nat → Nat → List MpamCacheNodeCfg → MpamInfoTable → MpamInfoTable
  | 0, _, _, t => t
  | n + 1, index, nodes, t => copyPrivateLoop n (index + 1) nodes.tail (t.copy index nodes.head?)

def copyPrivateCacheNodes (caches : PrivatePeCaches) (t : MpamInfoTable) (isPrimary : Bool) :
    MpamInfoTable :=
  let nodeCnt := if isPrimary then t.numCacheNodes - 2 else t.numCacheNodes - 1
  copyPrivateLoop nodeCnt.toNat 0 (caches.cache.toList ++ caches.next) t

def copyClusterCacheNodes (cluster : Option MpamCacheNodeCfg) (t : MpamInfoTable)
    (isPrimary : Bool) : MpamInfoTable :=
  if isPrimary then t.copy (t.numCacheNodes - 2).toNat cluster
  else t.copy (t.numCacheNodes - 1).toNat cluster

def copySystemCacheNode (system : Option MpamCacheNodeCfg) (t : MpamInfoTable) : MpamInfoTable :=
  t.copy (t.numCacheNodes - 1).toNat system

/-- What `FillMpamInfoTable` takes for the MPIDR of the PE that it runs on. -/
def currentMpidr (mpidrEl1 : BitVec 64) : BitVec 64 :=
  (mpidrEl1 >>> 32 &&& 0xff) <<< 24 ||| (mpidrEl1 &&& 0xffffff)

/-- The body of the loop over the PEs. -/
def fillPe (pools : PoolAnswers) (cfg : PlatformMpamCfg) (caches : Caches)
    (mpidrEl1 : BitVec 64) (mpamTable : Nat → MpamInfoTable) (peIndex : Nat) :
    Nat → MpamInfoTable :=
  let privateCaches := caches.privateCaches peIndex
  let mpidr := privateCaches.cache.map MpamCacheNodeCfg.mpidr
  let isPrimary : Bool := mpidr = some (currentMpidr mpidrEl1)
  let numCacheNodes :=
    if isPrimary then getCacheCount privateCaches + 2 else getCacheCount privateCaches + 1
  let mpamTable := Function.update mpamTable peIndex
    { mpamTable peIndex with numCacheNodes := numCacheNodes, numMemoryNodes := 0 }
  -- the count is that of `MpamTable[0]`, whichever PE the pool is for
  let pool := palMemAllocate (pools.cacheNode peIndex) (mpamTable 0).numCacheNodes
    (BitVec.ofNat 32 cacheNodeEntry.size)
  let t := { mpamTable peIndex with cacheNodePool := pool, copies := [] }
  let t := copyPrivateCacheNodes privateCaches t isPrimary
  let cluster := mpidr.bind (getClusterNode caches.clusterCaches (countClusters cfg))
  let t := copyClusterCacheNodes cluster t isPrimary
  let t := if isPrimary then copySystemCacheNode caches.systemCache t else t
  Function.update mpamTable peIndex t

/-- Without a pool there is nothing at `memory_node`. -/
def copyMemoryNodes (pools : PoolAnswers) (cfg : PlatformMpamCfg) (t : MpamInfoTable) :
    MpamInfoTable :=
  { t with
    numMemoryNodes := BitVec.ofNat 32 cfg.mnode.length
    memoryNode := if pools.memoryNode then cfg.mnode else [] }

/-- `FillMpamInfoTable` from the loop over the PEs on. -/
def fillFrom (pools : PoolAnswers) (cfg : PlatformMpamCfg) (table : PeInfoTable)
    (mpidrEl1 : BitVec 64) (caches : Caches) : Nat → MpamInfoTable :=
  let mpamTable :=
    (List.range table.numOfPe.toNat).foldl (fillPe pools cfg caches mpidrEl1) fun _ => {}
  let index := (peGetIndexMpid table (currentMpidr mpidrEl1)).toNat
  Function.update mpamTable index (copyMemoryNodes pools cfg (mpamTable index))

/-- `FillMpamInfoTable` on the PE with this `MPIDR_EL1`; the result maps a PE index to its
element of `MpamTable`. There is none where the function comes to a null pointer before it
copies: with a PE it writes to both arrays that have an element for each. -/
def fillMpamInfoTable (pools : PoolAnswers) (cfg : PlatformMpamCfg) (table : PeInfoTable)
    (mpidrEl1 : BitVec 64) : Option (Nat → MpamInfoTable) := do
  if table.numOfPe.toNat != 0 && !(pools.mpamTable && pools.privateCaches) then none
  else
    let caches ← cachesOf pools cfg table
    some (fillFrom pools cfg table mpidrEl1 caches)

/-! ## After the pass over the configuration -/

/-- The private caches that the pass gives to PE `i`, in configuration order. -/
def privatesAt (cfg : PlatformMpamCfg) (table : PeInfoTable) (i : Nat) : List MpamCacheNodeCfg :=
  cfg.cnode.filter fun c => c.isPrivate && (peGetIndexMpid table c.mpidr).toNat == i

/-- The list that these caches are inserted into one by one. -/
def chainOf : List MpamCacheNodeCfg → PrivatePeCaches
  | [] => {}
  | c :: rest => { cache := some c, next := rest.reverse }

theorem chainOf_append (caches : List MpamCacheNodeCfg) (c : MpamCacheNodeCfg) :
    chainOf (caches ++ [c]) = (chainOf caches).insert c := by
  cases caches with
  | nil => rfl
  | cons first rest => simp [chainOf, PrivatePeCaches.insert]

theorem chainOf_cache (caches : List MpamCacheNodeCfg) :
    (chainOf caches).cache = caches.head? := by
  cases caches <;> rfl

/-- The caches in the order of the list: the first one, then the others backwards. -/
def chainOrder : List MpamCacheNodeCfg → List MpamCacheNodeCfg
  | [] => []
  | c :: rest => c :: rest.reverse

theorem chainOf_nodes (caches : List MpamCacheNodeCfg) :
    (chainOf caches).cache.toList ++ (chainOf caches).next = chainOrder caches := by
  cases caches <;> rfl

theorem chainOrder_perm (caches : List MpamCacheNodeCfg) : (chainOrder caches).Perm caches := by
  cases caches with
  | nil => exact List.Perm.refl []
  | cons first rest => exact (List.reverse_perm rest).cons first

theorem isCluster_of_isPrivate {c : MpamCacheNodeCfg} (h : c.isPrivate = true) :
    c.isCluster = false := by
  have hScope : c.info.nodeScope = cacheScopePrivate := beq_iff_eq.mp h
  simp [MpamCacheNodeCfg.isCluster, hScope, cacheScopePrivate, cacheScopeCluster]

/-- The lists after these nodes of the configuration. -/
def listsOf (table : PeInfoTable) (nodes : List MpamCacheNodeCfg) : Caches where
  privateCaches := fun i =>
    chainOf (nodes.filter fun c => c.isPrivate && (peGetIndexMpid table c.mpidr).toNat == i)
  clusterCaches := nodes.filter MpamCacheNodeCfg.isCluster
  systemCache := (nodes.filter MpamCacheNodeCfg.isSystem).getLast?

/-- Behind these nodes, a cache is refused the pool that its list needs: a private cache that is
not the first of its PE needs a node, a cluster cache the array. -/
def NodeRefused (pools : PoolAnswers) (table : PeInfoTable) (nodes : List MpamCacheNodeCfg)
    (c : MpamCacheNodeCfg) : Prop :=
  (c.isPrivate = true ∧ pools.tempNode nodes.length = false ∧
    ∃ d ∈ nodes, d.isPrivate = true ∧
      (peGetIndexMpid table d.mpidr).toNat = (peGetIndexMpid table c.mpidr).toNat) ∨
  (c.isCluster = true ∧ pools.clusterCaches = false)

section Pass

variable {pools : PoolAnswers} {cfg : PlatformMpamCfg} {table : PeInfoTable}
  {nodes : List MpamCacheNodeCfg} {c : MpamCacheNodeCfg}

theorem chainOf_cache_isSome {caches : List MpamCacheNodeCfg} :
    (chainOf caches).cache.isSome = true ↔ ∃ d, d ∈ caches := by
  cases caches <;> simp [chainOf]

theorem listsOf_append_private (hPrivate : c.isPrivate = true) :
    listsOf table (nodes ++ [c]) =
      { listsOf table nodes with
        privateCaches := Function.update (listsOf table nodes).privateCaches
          (peGetIndexMpid table c.mpidr).toNat
          (((listsOf table nodes).privateCaches (peGetIndexMpid table c.mpidr).toNat).insert c) } :=
    by
  have hCluster : c.isCluster = false := isCluster_of_isPrivate hPrivate
  have hSystem : c.isSystem = false := by simp [MpamCacheNodeCfg.isSystem, hPrivate]
  simp only [listsOf, List.filter_append, List.filter_cons, List.filter_nil, hPrivate, hCluster,
    hSystem, Bool.true_and, Bool.false_eq_true, if_false, List.append_nil]
  congr 1
  funext i
  by_cases hi : i = (peGetIndexMpid table c.mpidr).toNat
  · subst hi
    simp [chainOf_append]
  · simp [Function.update_of_ne hi, Ne.symm hi]

/-- A node of the configuration goes to the list of its kind, unless that is refused a pool. -/
theorem Caches.add_goesWell {k : Nat} (hk : cfg.cnode[k]? = some c) (hLength : nodes.length = k) :
    GoesWell ((listsOf table nodes).add pools cfg table k) (¬ NodeRefused pools table nodes c)
      (· = listsOf table (nodes ++ [c])) := by
  subst hLength
  rw [Caches.add, hk]
  simp only [Option.bind_eq_bind, Option.bind_some]
  by_cases hPrivate : c.isPrivate = true
  · have hCluster : c.isCluster = false := isCluster_of_isPrivate hPrivate
    have hRefused : ((((listsOf table nodes).privateCaches
        (peGetIndexMpid table c.mpidr).toNat).cache.isSome && !pools.tempNode nodes.length) =
          true) ↔ NodeRefused pools table nodes c := by
      rw [Bool.and_eq_true, listsOf, chainOf_cache_isSome]
      simp [NodeRefused, hPrivate, hCluster, and_comm]
    rw [if_pos hPrivate, listsOf_append_private hPrivate]
    by_cases hNull : NodeRefused pools table nodes c
    · rw [if_pos (hRefused.mpr hNull)]
      exact .of_none rfl (not_not_intro hNull)
    · rw [if_neg (hRefused.not.mpr hNull)]
      exact ⟨fun _ => ⟨_, rfl, rfl⟩, fun hNot => absurd hNull hNot⟩
  · rw [if_neg hPrivate]
    by_cases hCluster : c.isCluster = true
    · have hSystem : c.isSystem = false := by simp [MpamCacheNodeCfg.isSystem, hCluster]
      rw [if_pos hCluster]
      by_cases hPool : pools.clusterCaches = true
      · rw [if_pos hPool]
        refine (GoesWell.of_eq rfl ?_).congr (iff_of_true trivial ?_)
        · simp [listsOf, List.filter_append, hPrivate, hCluster, hSystem]
        · simp [NodeRefused, hPrivate, hPool]
      · rw [if_neg hPool]
        exact .of_none rfl (by simpa [NodeRefused, hPrivate, hCluster] using hPool)
    · have hSystem : c.isSystem = true := by
        simp [MpamCacheNodeCfg.isSystem, hPrivate, hCluster]
      rw [if_neg hCluster]
      refine (GoesWell.of_eq rfl ?_).congr (iff_of_true trivial ?_)
      · simp [listsOf, List.filter_append, hPrivate, hCluster, hSystem]
      · simp [NodeRefused, hPrivate, hCluster]

/-- The pass keeps in each list the caches of its kind. -/
theorem cachesOf_goesWell (pools : PoolAnswers) (cfg : PlatformMpamCfg) (table : PeInfoTable) :
    GoesWell (cachesOf pools cfg table)
      (∀ k < cfg.cnode.length, ∀ c ∈ cfg.cnode[k]?, ¬ NodeRefused pools table (cfg.cnode.take k) c)
      (· = listsOf table cfg.cnode) := by
  have hStep : ∀ k < cfg.cnode.length, ∀ caches, caches = listsOf table (cfg.cnode.take k) →
      GoesWell (caches.add pools cfg table k)
        (∀ c ∈ cfg.cnode[k]?, ¬ NodeRefused pools table (cfg.cnode.take k) c)
        (· = listsOf table (cfg.cnode.take (k + 1))) := by
    rintro k hk _ rfl
    have hAt : cfg.cnode[k]? = some cfg.cnode[k] := List.getElem?_eq_getElem hk
    have hNodes : (cfg.cnode.take k).length = k := by
      rw [List.length_take]
      omega
    rw [List.take_add_one, hAt, Option.toList_some]
    apply (Caches.add_goesWell hAt hNodes).congr
    simp
  have hLoop := GoesWell.foldlM_range
    (fun k caches => caches = listsOf table (cfg.cnode.take k)) (s := {}) rfl hStep
  rwa [List.take_length] at hLoop

end Pass

/-! ## Counting -/

theorem foldl_count {α : Type*} (q : α → Bool) (l : List α) (n : Nat) :
    l.foldl (fun count c => if q c then count + 1 else count) (BitVec.ofNat 32 n) =
      BitVec.ofNat 32 (n + l.countP q) := by
  induction l generalizing n with
  | nil => simp
  | cons c l ih =>
    have hNext : BitVec.ofNat 32 n + 1 = BitVec.ofNat 32 (n + 1) := (BitVec.ofNat_add n 1).symm
    rw [List.foldl_cons, List.countP_cons]
    by_cases hq : q c
    · rw [if_pos hq, if_pos hq, hNext, ih, Nat.add_right_comm, Nat.add_assoc]
    · rw [if_neg hq, if_neg hq, ih, Nat.add_zero]

theorem filter_length_le (cfg : PlatformMpamCfg) (q : MpamCacheNodeCfg → Bool) :
    (cfg.cnode.filter q).length ≤ 256 :=
  Nat.le_trans (List.length_filter_le q cfg.cnode) cfg.cnode_le

theorem countClusters_toNat (cfg : PlatformMpamCfg) :
    (countClusters cfg).toNat = (cfg.cnode.filter MpamCacheNodeCfg.isCluster).length := by
  have hLe := filter_length_le cfg MpamCacheNodeCfg.isCluster
  rw [countClusters, show (0 : BitVec 32) = BitVec.ofNat 32 0 from rfl,
    foldl_count MpamCacheNodeCfg.isCluster, List.countP_eq_length_filter, Nat.zero_add,
    BitVec.toNat_ofNat]
  omega

theorem getCacheCount_chainOf {caches : List MpamCacheNodeCfg} (h : caches ≠ []) :
    getCacheCount (chainOf caches) = BitVec.ofNat 32 caches.length := by
  cases caches with
  | nil => exact absurd rfl h
  | cons first rest =>
    have hCount := foldl_count (fun _ : MpamCacheNodeCfg => true) rest.reverse 1
    simp only [if_true, List.countP_true, List.length_reverse] at hCount
    rw [getCacheCount, chainOf, List.length_cons, Nat.add_comm rest.length]
    exact hCount

theorem toNat_ofNat_sub {n k m : Nat} (h : m = n + k) (hm : m < 2 ^ 32) :
    (BitVec.ofNat 32 m - BitVec.ofNat 32 k).toNat = n := by
  subst h
  rw [BitVec.ofNat_add, BitVec.add_sub_cancel, BitVec.toNat_ofNat]
  omega

/-! ## What a PE gets -/

/-- The cluster cache that is looked up for an MPIDR. -/
def clusterOf (cfg : PlatformMpamCfg) (mpidr : BitVec 64) : Option MpamCacheNodeCfg :=
  (cfg.cnode.filter MpamCacheNodeCfg.isCluster).find? (sameCluster mpidr)

def systemOf (cfg : PlatformMpamCfg) : Option MpamCacheNodeCfg :=
  (cfg.cnode.filter MpamCacheNodeCfg.isSystem).getLast?

/-- PE `i` counts as the primary when its first private cache has the MPIDR of the PE that
runs the function. -/
def isPrimary (cfg : PlatformMpamCfg) (table : PeInfoTable) (mpidrEl1 : BitVec 64) (i : Nat) :
    Bool :=
  (privatesAt cfg table i).head?.map MpamCacheNodeCfg.mpidr = some (currentMpidr mpidrEl1)

/-- The caches that are copied to PE `i`, in order. -/
def sourcesFor (cfg : PlatformMpamCfg) (table : PeInfoTable) (mpidrEl1 : BitVec 64) (i : Nat) :
    List (Option MpamCacheNodeCfg) :=
  (chainOrder (privatesAt cfg table i)).map some ++
    [(privatesAt cfg table i).head?.bind fun c => clusterOf cfg c.mpidr] ++
    if isPrimary cfg table mpidrEl1 i then [systemOf cfg] else []

/-- Private caches, cluster cache, and on the primary the system cache. -/
def entriesNeeded (cfg : PlatformMpamCfg) (table : PeInfoTable) (mpidrEl1 : BitVec 64) (i : Nat) :
    Nat :=
  (privatesAt cfg table i).length + if isPrimary cfg table mpidrEl1 i then 2 else 1

theorem sourcesFor_length (cfg : PlatformMpamCfg) (table : PeInfoTable) (mpidrEl1 : BitVec 64)
    (i : Nat) :
    (sourcesFor cfg table mpidrEl1 i).length = entriesNeeded cfg table mpidrEl1 i := by
  rw [sourcesFor, entriesNeeded, List.length_append, List.length_append, List.length_map,
    (chainOrder_perm _).length_eq]
  split <;> rfl

theorem entriesNeeded_le (cfg : PlatformMpamCfg) (table : PeInfoTable) (mpidrEl1 : BitVec 64)
    (i : Nat) : entriesNeeded cfg table mpidrEl1 i ≤ 258 := by
  have hLe := filter_length_le cfg fun c =>
    c.isPrivate && (peGetIndexMpid table c.mpidr).toNat == i
  rw [entriesNeeded, privatesAt]
  split <;> omega

/-- Copies of these sources to the indexes from 0 on. -/
def copiesOf (sources : List (Option MpamCacheNodeCfg)) :
    List (Nat × Option MpamCacheNodeCfg) :=
  sources.mapIdx fun k c => (k, c)

/-- An element of `MpamTable` with this count and pool, to which `sources` have been copied. -/
structure Filled (num : BitVec 32) (pool : Option (BitVec 32))
    (sources : List (Option MpamCacheNodeCfg)) (t : MpamInfoTable) : Prop where
  num : t.numCacheNodes = num
  pool : t.cacheNodePool = pool
  copies : t.copies = copiesOf sources

variable {num : BitVec 32} {pool : Option (BitVec 32)}
  {sources : List (Option MpamCacheNodeCfg)} {t : MpamInfoTable}

/-- The next copy goes behind the ones that were made. -/
theorem Filled.copy (h : Filled num pool sources t) {index : Nat}
    (hIndex : index = sources.length) (c : Option MpamCacheNodeCfg) :
    Filled num pool (sources ++ [c]) (t.copy index c) where
  num := h.num
  pool := h.pool
  copies := by
    subst hIndex
    rw [copiesOf, List.mapIdx_concat]
    exact congrArg (· ++ _) h.copies

theorem Filled.copyPrivateLoop (h : Filled num pool sources t) {index : Nat}
    (hIndex : index = sources.length) (nodes : List MpamCacheNodeCfg) :
    Filled num pool (sources ++ nodes.map some)
      (Mpam.copyPrivateLoop nodes.length index nodes t) := by
  induction nodes generalizing sources t index with
  | nil => rwa [List.map_nil, List.append_nil]
  | cons c nodes ih =>
    have hNext := ih (h.copy hIndex (some c)) (show index + 1 = _ by simp [hIndex])
    rwa [List.append_assoc] at hNext

theorem Filled.copyMemoryNodes (h : Filled num pool sources t) (pools : PoolAnswers)
    (cfg : PlatformMpamCfg) : Filled num pool sources (Mpam.copyMemoryNodes pools cfg t) :=
  ⟨h.num, h.pool, h.copies⟩

/-- The three copying functions fill a fresh pool from its start without a gap. -/
theorem Filled.copyAll (h : Filled num pool [] t) (caches : PrivatePeCaches)
    (cluster system : Option MpamCacheNodeCfg) (isPrimary : Bool) {n : Nat}
    (hNodes : (caches.cache.toList ++ caches.next).length = n) (hn : n ≤ 256)
    (hNum : num = BitVec.ofNat 32 (n + if isPrimary then 2 else 1)) :
    Filled num pool
      ((caches.cache.toList ++ caches.next).map some ++ [cluster] ++
        if isPrimary then [system] else [])
      (let t := copyClusterCacheNodes cluster (copyPrivateCacheNodes caches t isPrimary) isPrimary
      if isPrimary then copySystemCacheNode system t else t) := by
  have hPrivates := h.copyPrivateLoop (show 0 = _ from rfl) (caches.cache.toList ++ caches.next)
  rw [List.nil_append, hNodes] at hPrivates
  have hLength : ((caches.cache.toList ++ caches.next).map some).length = n := by
    rw [List.length_map, hNodes]
  cases isPrimary with
  | true =>
    have hTwo : (num - 2).toNat = n := hNum ▸ toNat_ofNat_sub (k := 2) (by simp) (by simp; omega)
    have hOne : (num - 1).toNat = n + 1 :=
      hNum ▸ toNat_ofNat_sub (k := 1) (by simp) (by simp; omega)
    have hCluster := hPrivates.copy (hTwo.trans hLength.symm) cluster
    have hEnd : (num - 1).toNat =
        ((caches.cache.toList ++ caches.next).map some ++ [cluster]).length := by
      rw [List.length_append, hLength, hOne, List.length_singleton]
    have hSystem := hCluster.copy hEnd system
    have hStart : copyPrivateCacheNodes caches t true =
        Mpam.copyPrivateLoop n 0 (caches.cache.toList ++ caches.next) t := by
      rw [copyPrivateCacheNodes, if_pos rfl, h.num, hTwo]
    simp only [if_true, copyClusterCacheNodes, copySystemCacheNode, hStart, hPrivates.num]
    rwa [hCluster.num]
  | false =>
    have hOne : (num - 1).toNat = n := hNum ▸ toNat_ofNat_sub (k := 1) (by simp) (by simp; omega)
    have hCluster := hPrivates.copy (hOne.trans hLength.symm) cluster
    have hStart : copyPrivateCacheNodes caches t false =
        Mpam.copyPrivateLoop n 0 (caches.cache.toList ++ caches.next) t := by
      rw [copyPrivateCacheNodes, if_neg Bool.false_ne_true, h.num, hOne]
    simp only [Bool.false_eq_true, if_false, List.append_nil, copyClusterCacheNodes, hStart,
      hPrivates.num]
    exact hCluster

/-! ## The loop over the PEs -/

section Loop

variable (pools : PoolAnswers) (cfg : PlatformMpamCfg) (table : PeInfoTable)
  (mpidrEl1 : BitVec 64)

/-- The element of PE `i` when the loop has passed it. -/
def FilledAt (i : Nat) (t : MpamInfoTable) : Prop :=
  Filled (BitVec.ofNat 32 (entriesNeeded cfg table mpidrEl1 i))
    (palMemAllocate (pools.cacheNode i) (BitVec.ofNat 32 (entriesNeeded cfg table mpidrEl1 0))
      (BitVec.ofNat 32 cacheNodeEntry.size))
    (sourcesFor cfg table mpidrEl1 i) t

variable {pools cfg table mpidrEl1}

theorem fillPe_of_ne (caches : Caches) (mpamTable : Nat → MpamInfoTable) {i j : Nat}
    (h : j ≠ i) : fillPe pools cfg caches mpidrEl1 mpamTable i j = mpamTable j := by
  simp only [fillPe, Function.update_of_ne h]

/-- The array of cluster caches has as many elements as were counted for it. -/
theorem getClusterNode_listsOf (mpidr : BitVec 64) :
    getClusterNode (listsOf table cfg.cnode).clusterCaches (countClusters cfg) mpidr =
      clusterOf cfg mpidr := by
  rw [getClusterNode, countClusters_toNat, listsOf, List.take_length, clusterOf]

theorem bind_getClusterNode (i : Nat) :
    ((chainOf (privatesAt cfg table i)).cache.map MpamCacheNodeCfg.mpidr).bind
      (getClusterNode (listsOf table cfg.cnode).clusterCaches (countClusters cfg)) =
        (privatesAt cfg table i).head?.bind fun c => clusterOf cfg c.mpidr := by
  rw [chainOf_cache, Option.bind_map]
  exact congrArg _ (funext fun c => getClusterNode_listsOf c.mpidr)

theorem decide_isPrimary (i : Nat) :
    decide ((chainOf (privatesAt cfg table i)).cache.map MpamCacheNodeCfg.mpidr =
      some (currentMpidr mpidrEl1)) = isPrimary cfg table mpidrEl1 i := by
  rw [chainOf_cache, isPrimary]

/-- The count that is stored is the number of entries the PE needs. -/
theorem getCacheCount_add {i : Nat} (hPrivate : privatesAt cfg table i ≠ []) :
    (if isPrimary cfg table mpidrEl1 i then getCacheCount (chainOf (privatesAt cfg table i)) + 2
      else getCacheCount (chainOf (privatesAt cfg table i)) + 1) =
        BitVec.ofNat 32 (entriesNeeded cfg table mpidrEl1 i) := by
  rw [getCacheCount_chainOf hPrivate, entriesNeeded, BitVec.ofNat_add]
  split <;> rfl

theorem fillPe_filled {mpamTable : Nat → MpamInfoTable} {i : Nat}
    (hPrivate : privatesAt cfg table i ≠ [])
    (hFirst : i ≠ 0 →
      (mpamTable 0).numCacheNodes = BitVec.ofNat 32 (entriesNeeded cfg table mpidrEl1 0)) :
    FilledAt pools cfg table mpidrEl1 i
      (fillPe pools cfg (listsOf table cfg.cnode) mpidrEl1 mpamTable i i) := by
  -- for PE 0 the count was stored just now, for the others in the first round
  have hPool : (Function.update mpamTable i
      { mpamTable i with
        numCacheNodes := BitVec.ofNat 32 (entriesNeeded cfg table mpidrEl1 i)
        numMemoryNodes := 0 } 0).numCacheNodes =
          BitVec.ofNat 32 (entriesNeeded cfg table mpidrEl1 0) := by
    by_cases hi : i = 0
    · subst hi
      rw [Function.update_self]
    · rw [Function.update_of_ne (Ne.symm hi), hFirst hi]
  have hLength : ((chainOf (privatesAt cfg table i)).cache.toList ++
      (chainOf (privatesAt cfg table i)).next).length = (privatesAt cfg table i).length := by
    rw [chainOf_nodes, (chainOrder_perm _).length_eq]
  have hChain : (listsOf table cfg.cnode).privateCaches i = chainOf (privatesAt cfg table i) := rfl
  have hSystem : (listsOf table cfg.cnode).systemCache = systemOf cfg := rfl
  simp only [FilledAt, fillPe, Function.update_self, hChain, hSystem,
    decide_isPrimary, bind_getClusterNode, getCacheCount_add hPrivate, hPool]
  rw [sourcesFor, ← chainOf_nodes]
  apply Filled.copyAll _ (chainOf (privatesAt cfg table i)) _ (systemOf cfg)
    (isPrimary cfg table mpidrEl1 i) hLength (filter_length_le cfg _)
  · rfl
  · exact ⟨rfl, rfl, rfl⟩

/-- After `k` rounds the first `k` elements are filled. -/
theorem foldl_fillPe (hPrivate : ∀ i < table.numOfPe.toNat, privatesAt cfg table i ≠ [])
    (k : Nat) (hk : k ≤ table.numOfPe.toNat) :
    ∀ i < k, FilledAt pools cfg table mpidrEl1 i
      ((List.range k).foldl (fillPe pools cfg (listsOf table cfg.cnode) mpidrEl1)
        (fun _ => {}) i) := by
  induction k with
  | zero =>
    intro i hi
    omega
  | succ k ih =>
    have hDone := ih (by omega)
    intro i hi
    rw [List.range_succ, List.foldl_append, List.foldl_cons, List.foldl_nil]
    by_cases hik : i = k
    · subst hik
      exact fillPe_filled (hPrivate i hk) fun hne => (hDone 0 (by omega)).num
    · rw [fillPe_of_ne _ _ hik]
      exact hDone i (by omega)

/-- Each PE gets its caches, with the count of PE 0 for the size of its pool. -/
theorem fillFrom_filled (hPrivate : ∀ i < table.numOfPe.toNat, privatesAt cfg table i ≠ [])
    {i : Nat} (hi : i < table.numOfPe.toNat) :
    FilledAt pools cfg table mpidrEl1 i
      (fillFrom pools cfg table mpidrEl1 (listsOf table cfg.cnode) i) := by
  have hLoop : FilledAt pools cfg table mpidrEl1 i _ :=
    foldl_fillPe hPrivate _ (Nat.le_refl _) i hi
  rw [fillFrom]
  by_cases hIndex : i = (peGetIndexMpid table (currentMpidr mpidrEl1)).toNat
  · rw [← hIndex, Function.update_self]
    exact hLoop.copyMemoryNodes pools cfg
  · rwa [Function.update_of_ne hIndex]

/-- A pool that a list needs is refused: with a PE that of `MpamTable` or of `PrivateCaches`, or
one for a node of the configuration. -/
def ListRefused (pools : PoolAnswers) (cfg : PlatformMpamCfg) (table : PeInfoTable) : Prop :=
  (table.numOfPe.toNat ≠ 0 ∧ (pools.mpamTable = false ∨ pools.privateCaches = false)) ∨
  ∃ k < cfg.cnode.length, ∃ c ∈ cfg.cnode[k]?, NodeRefused pools table (cfg.cnode.take k) c

/-- The function comes to its copies exactly when no list is refused a pool, and then it has
filled the table from the lists. -/
theorem fillMpamInfoTable_goesWell (pools : PoolAnswers) (cfg : PlatformMpamCfg)
    (table : PeInfoTable) (mpidrEl1 : BitVec 64) :
    GoesWell (fillMpamInfoTable pools cfg table mpidrEl1) (¬ ListRefused pools cfg table)
      (· = fillFrom pools cfg table mpidrEl1 (listsOf table cfg.cnode)) := by
  have hArrays : ((table.numOfPe.toNat != 0 && !(pools.mpamTable && pools.privateCaches)) = true) ↔
      table.numOfPe.toNat ≠ 0 ∧ (pools.mpamTable = false ∨ pools.privateCaches = false) := by
    simp
  rw [fillMpamInfoTable]
  by_cases hNull : table.numOfPe.toNat ≠ 0 ∧
      (pools.mpamTable = false ∨ pools.privateCaches = false)
  · rw [if_pos (hArrays.mpr hNull)]
    exact .of_none rfl (not_not_intro (.inl hNull))
  · have hFill : ∀ caches, caches = listsOf table cfg.cnode →
        GoesWell (some (fillFrom pools cfg table mpidrEl1 caches)) True
          (· = fillFrom pools cfg table mpidrEl1 (listsOf table cfg.cnode)) := by
      rintro _ rfl
      exact .of_eq rfl rfl
    rw [if_neg (hArrays.not.mpr hNull)]
    refine ((cachesOf_goesWell pools cfg table).bind hFill).congr ?_
    rw [and_true, ListRefused, or_iff_right hNull]
    push Not
    rfl

theorem not_listRefused_granting (cfg : PlatformMpamCfg) (table : PeInfoTable) :
    ¬ ListRefused .granting cfg table := by
  rintro (⟨-, hArray | hArray⟩ | ⟨k, -, c, -, hNode | hNode⟩)
  · cases hArray
  · cases hArray
  · cases hNode.2.1
  · cases hNode.2

end Loop

end EnterpriseAcs.Mpam
