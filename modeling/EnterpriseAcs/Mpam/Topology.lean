import EnterpriseAcs.Mpam.CacheNodes

/-!
# The topology of the PEs and its pools

The pool for the cache nodes of a PE has as many entries as PE 0 has cache nodes. A PE with
more of them than PE 0 is written past the end of its pool, and so is every PE whose pool is
refused. The cluster of a PE is looked for by the bits 31:8 of its MPIDR, where Aff3 is not.

* `copies_inside_iff`: when all copies stay inside their pools.
* `topology_iff`: when each PE ends up with the list of its own caches.
-/

namespace EnterpriseAcs.Mpam

open Machine

/-! ## Pools -/

theorem palMemAllocate_granted {n : Nat} (h : n ≤ 258) :
    ∃ bytes, palMemAllocate true (BitVec.ofNat 32 n) (BitVec.ofNat 32 cacheNodeEntry.size) =
      some bytes ∧ bytes.toNat / cacheNodeEntry.size = n := by
  have hSize : cacheNodeEntry.size = 80 := by decide
  refine ⟨_, rfl, ?_⟩
  rw [hSize, BitVec.toNat_mul, BitVec.toNat_ofNat, BitVec.toNat_ofNat]
  omega

section Filled

variable {pools : PoolAnswers} {cfg : PlatformMpamCfg} {table : PeInfoTable}
  {mpidrEl1 : BitVec 64} {i : Nat} {t : MpamInfoTable}

/-- Every pool that is granted has the size that PE 0 needs. -/
theorem FilledAt.allocated (h : FilledAt pools cfg table mpidrEl1 i t) :
    t.allocated = if pools.cacheNode i then entriesNeeded cfg table mpidrEl1 0 else 0 := by
  rw [MpamInfoTable.allocated, h.pool]
  cases hPool : pools.cacheNode i with
  | false => rfl
  | true =>
    obtain ⟨bytes, hBytes, hEntries⟩ :=
      palMemAllocate_granted (entriesNeeded_le cfg table mpidrEl1 0)
    rw [hBytes, if_pos rfl]
    exact hEntries

theorem FilledAt.numCacheNodes (h : FilledAt pools cfg table mpidrEl1 i t) :
    t.numCacheNodes.toNat = entriesNeeded cfg table mpidrEl1 i := by
  have hLe := entriesNeeded_le cfg table mpidrEl1 i
  rw [h.num, BitVec.toNat_ofNat]
  omega

end Filled

theorem forall_copiesOf {sources : List (Option MpamCacheNodeCfg)} {n : Nat} :
    (∀ w ∈ copiesOf sources, w.1 < n) ↔ sources.length ≤ n := by
  constructor
  · intro h
    by_contra hlt
    have hMem : (copiesOf sources)[n]? ≠ none := by
      simp [copiesOf]
      omega
    obtain ⟨w, hw⟩ := Option.ne_none_iff_exists'.mp hMem
    have hIndex : w.1 = n := by
      simp only [copiesOf, List.getElem?_mapIdx, Option.map_eq_some_iff] at hw
      obtain ⟨c, -, rfl⟩ := hw
      rfl
    exact absurd (h w (List.mem_of_getElem? hw)) (by omega)
  · intro h w hw
    obtain ⟨k, hk, rfl⟩ := List.mem_mapIdx.mp hw
    exact Nat.lt_of_lt_of_le hk h

theorem entriesNeeded_pos (cfg : PlatformMpamCfg) (table : PeInfoTable) (mpidrEl1 : BitVec 64)
    (i : Nat) : 0 < entriesNeeded cfg table mpidrEl1 i := by
  rw [entriesNeeded]
  split <;> omega

/-- All copies stay inside their pools exactly when the function does not come to them because a
list is refused its pool, or each PE has its pool and needs no more entries than PE 0. -/
theorem copies_inside_iff (pools : PoolAnswers) (cfg : PlatformMpamCfg) (table : PeInfoTable)
    (mpidrEl1 : BitVec 64)
    (hPrivate : ∀ i < table.numOfPe.toNat, privatesAt cfg table i ≠ []) :
    (∀ mpamTable, fillMpamInfoTable pools cfg table mpidrEl1 = some mpamTable →
      ∀ i < table.numOfPe.toNat, ∀ w ∈ (mpamTable i).copies, w.1 < (mpamTable i).allocated) ↔
    ListRefused pools cfg table ∨
      ∀ i < table.numOfPe.toNat, pools.cacheNode i = true ∧
        entriesNeeded cfg table mpidrEl1 i ≤ entriesNeeded cfg table mpidrEl1 0 := by
  have hFill := fillMpamInfoTable_goesWell pools cfg table mpidrEl1
  by_cases hRefused : ListRefused pools cfg table
  · rw [hFill.2 (not_not_intro hRefused)]
    exact iff_of_true nofun (.inl hRefused)
  · obtain ⟨_, hSome, rfl⟩ := hFill.1 hRefused
    rw [hSome, or_iff_right hRefused]
    simp only [Option.some_inj, forall_eq']
    refine forall₂_congr fun i hi => ?_
    have hFilled : FilledAt pools cfg table mpidrEl1 i _ := fillFrom_filled hPrivate hi
    have hPos := entriesNeeded_pos cfg table mpidrEl1 i
    rw [hFilled.copies, hFilled.allocated, forall_copiesOf, sourcesFor_length]
    cases pools.cacheNode i with
    | true => simp
    | false =>
      rw [if_neg Bool.false_ne_true]
      simp
      omega

/-! ### Two PEs -/

/-- A cache with this MPIDR and scope. -/
def cacheOf (mpidr : BitVec 64) (nodeScope : BitVec 32) : MpamCacheNodeCfg where
  mpidr := mpidr
  info := { nodeScope := nodeScope }

def levelOneCaches : List MpamCacheNodeCfg :=
  [cacheOf 0 0, cacheOf 1 0, cacheOf 0 1, cacheOf 0xffffffffffffffff 2]

/-- One private cache for each of the PEs 0 and 1, one cluster cache, one system cache. -/
def levelOneCfg : PlatformMpamCfg where
  cnode := levelOneCaches
  mnode := []
  cnode_le := Nat.le_of_ble_eq_true rfl
  mnode_le := Nat.zero_le 16

/-- PE 1 has two private caches more. -/
def unevenCfg : PlatformMpamCfg where
  cnode := cacheOf 1 0 :: cacheOf 1 0 :: levelOneCaches
  mnode := []
  cnode_le := Nat.le_of_ble_eq_true rfl
  mnode_le := Nat.zero_le 16

/-- The PE table of the PEs 0 and 1. -/
def twoPeTable : PeInfoTable := peTable (Acpi.twoGiccMadt 0 1)

/-- PE 0 is the primary. -/
theorem copies_inside_level_one :
    (∀ i < twoPeTable.numOfPe.toNat, privatesAt levelOneCfg twoPeTable i ≠ []) ∧
      ∀ mpamTable, fillMpamInfoTable .granting levelOneCfg twoPeTable 0x80000000 = some mpamTable →
        ∀ i < twoPeTable.numOfPe.toNat, ∀ w ∈ (mpamTable i).copies,
          w.1 < (mpamTable i).allocated :=
  ⟨by decide, (copies_inside_iff .granting levelOneCfg twoPeTable 0x80000000 (by decide)).mpr
    (.inr (by decide))⟩

/-- PE 1 needs four entries, and its pool has the three that PE 0 needs. -/
theorem copies_outside_uneven :
    (∀ i < twoPeTable.numOfPe.toNat, privatesAt unevenCfg twoPeTable i ≠ []) ∧
      ¬ ∀ mpamTable, fillMpamInfoTable .granting unevenCfg twoPeTable 0x80000000 = some mpamTable →
        ∀ i < twoPeTable.numOfPe.toNat, ∀ w ∈ (mpamTable i).copies,
          w.1 < (mpamTable i).allocated := by
  refine ⟨by decide, fun hInside => ?_⟩
  obtain ⟨_, hSome, rfl⟩ := (fillMpamInfoTable_goesWell .granting unevenCfg twoPeTable
    0x80000000).1 (not_listRefused_granting unevenCfg twoPeTable)
  exact absurd (hInside _ hSome) (by decide)

/-! ## Reading a list back -/

theorem lookup_copiesOf (sources : List (Option MpamCacheNodeCfg)) (k : Nat) :
    (copiesOf sources).reverse.lookup k = sources[k]? := by
  induction sources using List.reverseRecOn with
  | nil => rfl
  | append_singleton sources c ih =>
    rw [copiesOf, List.mapIdx_concat, List.reverse_append, List.reverse_singleton,
      List.singleton_append, List.lookup_cons, ← copiesOf, ih]
    rcases Nat.lt_trichotomy k sources.length with hlt | rfl | hgt
    · simp [beq_eq_false_iff_ne.mpr (Nat.ne_of_lt hlt), List.getElem?_append_left hlt]
    · simp
    · have hOut : (sources ++ [c])[k]? = none := by
        rw [List.getElem?_eq_none_iff, List.length_append, List.length_singleton]
        exact hgt
      simp [beq_eq_false_iff_ne.mpr (Nat.ne_of_gt hgt), hOut, Nat.le_of_lt hgt]

section Read

variable {num : BitVec 32} {pool : Option (BitVec 32)} {sources : List (Option MpamCacheNodeCfg)}
  {t : MpamInfoTable}

/-- In a pool that is large enough the list is what was copied. -/
theorem Filled.sources_eq (h : Filled num pool sources t)
    (hNum : t.numCacheNodes.toNat = sources.length) (hRoom : sources.length ≤ t.allocated) :
    t.sources = sources := by
  rw [MpamInfoTable.sources, hNum]
  apply List.ext_getElem
  · simp
  · intro k hk _
    rw [List.length_map, List.length_range] at hk
    simp [MpamInfoTable.source, Nat.lt_of_lt_of_le hk hRoom, h.copies, lookup_copiesOf, hk]

/-- A list without gaps lies in its pool. -/
theorem MpamInfoTable.le_allocated {nodes : List MpamCacheNodeCfg}
    (h : t.sources = nodes.map some) : t.numCacheNodes.toNat ≤ t.allocated := by
  by_contra hlt
  have hMem : t.source t.allocated ∈ t.sources :=
    List.mem_map_of_mem (List.mem_range.mpr (Nat.lt_of_not_le hlt))
  rw [h, source, if_neg (Nat.lt_irrefl _)] at hMem
  simp at hMem

end Read

/-! ## The caches of each PE -/

/-- A PE table as `pal_pe_create_info_table` leaves it, numbered in order. -/
structure NumberedTable where
  table : PeInfoTable
  count : table.numOfPe.toNat = table.peInfo.length
  numbered : ∀ (i : Nat) (entry : PeInfoEntry), table.peInfo[i]? = some entry →
    entry.peNum.toNat = i

theorem peTable_peNum (madt : Acpi.Madt) (i : Nat) (entry : PeInfoEntry)
    (h : (peTable madt).peInfo[i]? = some entry) : entry.peNum.toNat = i :=
  peTable_numbered h

/-- The table that the suite builds from a MADT. -/
def numberedOfMadt (madt : Acpi.Madt) : NumberedTable where
  table := peTable madt
  count := peTable_count madt
  numbered := peTable_peNum madt

/-- The cache is one of the cluster of this MPIDR, which its Aff3, Aff2 and Aff1 name. -/
def IsClusterOf (mpidr : BitVec 64) (c : MpamCacheNodeCfg) : Prop :=
  c.isCluster = true ∧ aff3 c.mpidr = aff3 mpidr ∧ aff2 c.mpidr = aff2 mpidr ∧
    aff1 c.mpidr = aff1 mpidr

instance (mpidr : BitVec 64) (c : MpamCacheNodeCfg) : Decidable (IsClusterOf mpidr c) :=
  inferInstanceAs (Decidable (_ ∧ _ ∧ _ ∧ _))

/-- The configuration describes the machine of the table: each private cache is that of a PE,
each PE has a private cache and a cluster, and there is one system cache. -/
structure Describes (cfg : PlatformMpamCfg) (table : PeInfoTable) : Prop where
  distinct : (table.peInfo.map PeInfoEntry.mpidr).Nodup
  owned : ∀ c ∈ cfg.cnode, c.isPrivate → ∃ entry ∈ table.peInfo, c.mpidr = entry.mpidr
  hasPrivate : ∀ entry ∈ table.peInfo, ∃ c ∈ cfg.cnode, c.isPrivate ∧ c.mpidr = entry.mpidr
  hasCluster : ∀ entry ∈ table.peInfo, ∃ c ∈ cfg.cnode, IsClusterOf entry.mpidr c
  oneSystem : ∃ system, cfg.cnode.filter MpamCacheNodeCfg.isSystem = [system]

/-- The private caches of the PE with this MPIDR. -/
def privatesOf (cfg : PlatformMpamCfg) (mpidr : BitVec 64) : List MpamCacheNodeCfg :=
  cfg.cnode.filter fun c => c.isPrivate && c.mpidr == mpidr

/-- The list of the PE with this MPIDR holds each of its private caches once, then a cache of
its cluster, then the system cache if it is the primary, and nothing else. -/
def HoldsCaches (cfg : PlatformMpamCfg) (mpidrEl1 mpidr : BitVec 64) (t : MpamInfoTable) : Prop :=
  ∃ (privates nodes : List MpamCacheNodeCfg) (cluster system : MpamCacheNodeCfg),
    privates.Perm (privatesOf cfg mpidr) ∧ cluster ∈ cfg.cnode ∧ IsClusterOf mpidr cluster ∧
      cfg.cnode.filter MpamCacheNodeCfg.isSystem = [system] ∧
      nodes = privates ++ [cluster] ++
        (if mpidr = currentMpidr mpidrEl1 then [system] else []) ∧
      t.sources = nodes.map some ∧
      t.cacheNodes = nodes.map (fun c => some (copyCacheNode c)) ∧
      t.numCacheNodes.toNat = nodes.length

/-- A cache of the cluster agrees with the MPIDR in bits 31:8, and before it in the configuration
no cache of another cluster does. -/
def ClusterReached (cfg : PlatformMpamCfg) (mpidr : BitVec 64) : Prop :=
  ∃ (before after : List MpamCacheNodeCfg) (own : MpamCacheNodeCfg),
    cfg.cnode = before ++ own :: after ∧ IsClusterOf mpidr own ∧ sameCluster mpidr own = true ∧
      ∀ c ∈ before, c.isCluster = true → sameCluster mpidr c = true → IsClusterOf mpidr c

theorem clusterOf_eq (cfg : PlatformMpamCfg) (mpidr : BitVec 64) :
    clusterOf cfg mpidr = cfg.cnode.find? fun c => c.isCluster && sameCluster mpidr c := by
  rw [clusterOf, List.find?_filter]
  simp

/-- Then the search finds a cache of the cluster. -/
theorem clusterReached_iff (cfg : PlatformMpamCfg) (mpidr : BitVec 64) :
    ClusterReached cfg mpidr ↔ ∃ own ∈ clusterOf cfg mpidr, IsClusterOf mpidr own := by
  rw [clusterOf_eq]
  constructor
  · rintro ⟨before, after, own, hCfg, hOwn, hSame, hBefore⟩
    rw [hCfg, List.find?_append]
    cases hEarly : before.find? fun c => c.isCluster && sameCluster mpidr c with
    | some c =>
      have hBoth := (List.find?_eq_some_iff_append.mp hEarly).1
      obtain ⟨hCluster, hSame⟩ := Bool.and_eq_true_iff.mp hBoth
      exact ⟨c, rfl, hBefore c (List.mem_of_find?_eq_some hEarly) hCluster hSame⟩
    | none =>
      refine ⟨own, ?_, hOwn⟩
      rw [Option.none_or, List.find?_cons_of_pos (by rw [hOwn.1, hSame]; rfl)]
      rfl
  · rintro ⟨own, hFound, hOwn⟩
    obtain ⟨hBoth, before, after, hCfg, hBefore⟩ := List.find?_eq_some_iff_append.mp hFound
    refine ⟨before, after, own, hCfg, hOwn, (Bool.and_eq_true_iff.mp hBoth).2,
      fun c hc hCluster hSame => ?_⟩
    have hNot := hBefore c hc
    rw [hCluster, hSame] at hNot
    cases hNot

/-- The length of this list. -/
def entriesOf (cfg : PlatformMpamCfg) (mpidrEl1 mpidr : BitVec 64) : Nat :=
  (privatesOf cfg mpidr).length + if mpidr = currentMpidr mpidrEl1 then 2 else 1

section Topology

variable {n : NumberedTable} {cfg : PlatformMpamCfg} {mpidrEl1 : BitVec 64} {i : Nat}
  {entry : PeInfoEntry}

/-- A private cache is given to the PE that has its MPIDR. -/
theorem peGetIndexMpid_eq_iff (hDistinct : (n.table.peInfo.map PeInfoEntry.mpidr).Nodup)
    (hEntry : n.table.peInfo[i]? = some entry) {mpid : BitVec 64}
    (hOwned : ∃ entry ∈ n.table.peInfo, mpid = entry.mpidr) :
    (peGetIndexMpid n.table mpid).toNat = i ↔ mpid = entry.mpidr := by
  obtain ⟨owner, hOwner, rfl⟩ := hOwned
  obtain ⟨j, hj⟩ := List.mem_iff_getElem?.mp hOwner
  have hIndex : (peGetIndexMpid n.table owner.mpidr).toNat = j := by
    rw [peGetIndexMpid, n.count, List.take_length, indexLoop_eq hDistinct hj rfl,
      n.numbered j owner hj]
  rw [hIndex]
  constructor
  · rintro rfl
    rw [Option.some_inj.mp (hj.symm.trans hEntry)]
  · intro hMpidr
    have hlt : j < (n.table.peInfo.map PeInfoEntry.mpidr).length := by
      rw [List.length_map]
      exact (List.getElem?_eq_some_iff.mp hj).1
    apply (List.getElem?_inj hlt hDistinct).mp
    rw [List.getElem?_map, List.getElem?_map, hj, hEntry, Option.map_some, Option.map_some,
      hMpidr]

theorem privatesAt_eq (h : Describes cfg n.table) (hEntry : n.table.peInfo[i]? = some entry) :
    privatesAt cfg n.table i = privatesOf cfg entry.mpidr := by
  apply List.filter_congr
  intro c hc
  cases hPrivate : c.isPrivate with
  | false => rfl
  | true =>
    rw [Bool.true_and, Bool.true_and, Bool.eq_iff_iff, beq_iff_eq, beq_iff_eq]
    exact peGetIndexMpid_eq_iff h.distinct hEntry (h.owned c hc hPrivate)

theorem exists_head (h : Describes cfg n.table) (hEntry : n.table.peInfo[i]? = some entry) :
    ∃ c, (privatesAt cfg n.table i).head? = some c ∧ c.mpidr = entry.mpidr := by
  rw [privatesAt_eq h hEntry]
  cases hPrivates : privatesOf cfg entry.mpidr with
  | nil =>
    obtain ⟨c, hc, hPrivate, hMpidr⟩ := h.hasPrivate entry (List.mem_of_getElem? hEntry)
    have hMem : c ∈ privatesOf cfg entry.mpidr := by
      simpa [privatesOf, hPrivate, hMpidr] using hc
    rw [hPrivates] at hMem
    exact absurd hMem List.not_mem_nil
  | cons c rest =>
    have hMem : c ∈ privatesOf cfg entry.mpidr := hPrivates ▸ List.mem_cons_self
    have hBoth := (List.mem_filter.mp hMem).2
    exact ⟨c, rfl, by simpa using (Bool.and_eq_true_iff.mp hBoth).2⟩

theorem isPrimary_eq (h : Describes cfg n.table) (hEntry : n.table.peInfo[i]? = some entry) :
    isPrimary cfg n.table mpidrEl1 i = decide (entry.mpidr = currentMpidr mpidrEl1) := by
  obtain ⟨c, hHead, hMpidr⟩ := exists_head h hEntry
  rw [isPrimary, hHead, Option.map_some, hMpidr]
  simp

theorem entriesNeeded_eq (h : Describes cfg n.table) (hEntry : n.table.peInfo[i]? = some entry) :
    entriesNeeded cfg n.table mpidrEl1 i = entriesOf cfg mpidrEl1 entry.mpidr := by
  rw [entriesNeeded, entriesOf, privatesAt_eq h hEntry, isPrimary_eq h hEntry]
  simp

/-- What is copied to a PE. -/
theorem sourcesFor_eq (h : Describes cfg n.table) (hEntry : n.table.peInfo[i]? = some entry)
    {system : MpamCacheNodeCfg} (hSystem : cfg.cnode.filter MpamCacheNodeCfg.isSystem = [system]) :
    sourcesFor cfg n.table mpidrEl1 i =
      (chainOrder (privatesOf cfg entry.mpidr)).map some ++ [clusterOf cfg entry.mpidr] ++
        (if entry.mpidr = currentMpidr mpidrEl1 then [system] else []).map some := by
  obtain ⟨c, hHead, hMpidr⟩ := exists_head h hEntry
  have hLast : systemOf cfg = some system := by
    rw [systemOf, hSystem, List.getLast?_singleton]
  rw [sourcesFor, hHead, Option.bind_some, hMpidr, hLast, isPrimary_eq h hEntry,
    privatesAt_eq h hEntry]
  by_cases hPrimary : entry.mpidr = currentMpidr mpidrEl1 <;> simp [hPrimary]

theorem Describes.privatesAt_ne_nil (h : Describes cfg n.table) :
    ∀ j < n.table.numOfPe.toNat, privatesAt cfg n.table j ≠ [] := by
  intro j hj hNil
  rw [n.count] at hj
  obtain ⟨c, hHead, -⟩ := exists_head h (List.getElem?_eq_getElem hj)
  rw [hNil] at hHead
  cases hHead

/-- The list of a PE is complete exactly when the search comes to its cluster, and it is no
longer than that of the first PE. -/
theorem holdsCaches_iff (h : Describes cfg n.table) (hEntry : n.table.peInfo[i]? = some entry)
    {first : PeInfoEntry} (hFirst : n.table.peInfo[0]? = some first) {t : MpamInfoTable}
    (hFilled : FilledAt .granting cfg n.table mpidrEl1 i t) :
    HoldsCaches cfg mpidrEl1 entry.mpidr t ↔
      ClusterReached cfg entry.mpidr ∧
        entriesOf cfg mpidrEl1 entry.mpidr ≤ entriesOf cfg mpidrEl1 first.mpidr := by
  obtain ⟨system, hSystem⟩ := h.oneSystem
  have hSources : sourcesFor cfg n.table mpidrEl1 i = _ := sourcesFor_eq h hEntry hSystem
  have hLength := hFilled.numCacheNodes.trans (sourcesFor_length cfg n.table mpidrEl1 i).symm
  have hAllocated : t.allocated = entriesNeeded cfg n.table mpidrEl1 0 := hFilled.allocated
  rw [clusterReached_iff, ← entriesNeeded_eq h hEntry, ← entriesNeeded_eq h hFirst, ← hAllocated,
    ← hFilled.numCacheNodes]
  constructor
  · rintro ⟨privates, nodes, cluster, system', hPerm, -, hOwn, -, rfl, hNodes, -, -⟩
    have hRoom := MpamInfoTable.le_allocated hNodes
    have hCopied := hNodes.symm.trans (Filled.sources_eq hFilled hLength (hLength ▸ hRoom))
    have hPrivates : (chainOrder (privatesOf cfg entry.mpidr)).length = privates.length :=
      (chainOrder_perm _).length_eq.trans hPerm.length_eq.symm
    -- the cluster cache is the entry behind the private caches
    have hAt := congrArg (·[privates.length]?) (hCopied.trans hSources)
    refine ⟨⟨cluster, ?_, hOwn⟩, hRoom⟩
    simpa [hPrivates, List.getElem?_append_right, eq_comm] using hAt
  · rintro ⟨⟨cluster, hCluster, hOwn⟩, hRoom⟩
    have hNodes := Filled.sources_eq hFilled hLength (hLength ▸ hRoom)
    have hMem : cluster ∈ cfg.cnode :=
      (List.mem_filter.mp (List.mem_of_find?_eq_some hCluster)).1
    have hAll : sourcesFor cfg n.table mpidrEl1 i =
        (chainOrder (privatesOf cfg entry.mpidr) ++ [cluster] ++
          (if entry.mpidr = currentMpidr mpidrEl1 then [system] else [])).map some := by
      rw [hSources, Option.mem_def.mp hCluster, List.map_append, List.map_append]
      rfl
    refine ⟨_, _, cluster, system, chainOrder_perm _, hMem, hOwn, hSystem, rfl, hNodes.trans hAll,
      ?_, ?_⟩
    · rw [MpamInfoTable.cacheNodes_eq, hNodes, hAll, List.map_map]
      rfl
    · rw [hLength, hAll, List.length_map]

end Topology

/-- When all allocations succeed, each PE has the list of its own caches exactly when the search
comes to the cluster of each, and no PE has more caches than the first PE of the table. -/
theorem topology_iff (n : NumberedTable) (cfg : PlatformMpamCfg) (mpidrEl1 : BitVec 64)
    (h : Describes cfg n.table) :
    (∃ mpamTable, fillMpamInfoTable .granting cfg n.table mpidrEl1 = some mpamTable ∧
      ∀ i entry, n.table.peInfo[i]? = some entry →
        HoldsCaches cfg mpidrEl1 entry.mpidr (mpamTable i)) ↔
    ∀ entry ∈ n.table.peInfo, ClusterReached cfg entry.mpidr ∧
      ∀ first ∈ n.table.peInfo.head?,
        entriesOf cfg mpidrEl1 entry.mpidr ≤ entriesOf cfg mpidrEl1 first.mpidr := by
  obtain ⟨_, hFill, rfl⟩ := (fillMpamInfoTable_goesWell .granting cfg n.table mpidrEl1).1
    (not_listRefused_granting cfg n.table)
  have hEach : ∀ i entry first, n.table.peInfo[i]? = some entry →
      n.table.peInfo[0]? = some first → (HoldsCaches cfg mpidrEl1 entry.mpidr
        (fillFrom .granting cfg n.table mpidrEl1 (listsOf n.table cfg.cnode) i) ↔ _) :=
    fun i entry first hEntry hFirst => holdsCaches_iff h hEntry hFirst
      (fillFrom_filled h.privatesAt_ne_nil
        (n.count ▸ (List.getElem?_eq_some_iff.mp hEntry).1))
  rw [hFill, List.head?_eq_getElem?]
  simp only [Option.some_inj, exists_eq_left']
  constructor
  · intro hHolds entry hMem
    obtain ⟨i, hEntry⟩ := List.mem_iff_getElem?.mp hMem
    have hi : i < n.table.peInfo.length := (List.getElem?_eq_some_iff.mp hEntry).1
    have hFirst := List.getElem?_eq_getElem (Nat.zero_lt_of_lt hi)
    obtain ⟨hReached, hRoom⟩ := (hEach i entry _ hEntry hFirst).mp (hHolds i entry hEntry)
    refine ⟨hReached, fun first hMem => ?_⟩
    rwa [Option.some_inj.mp (hMem.symm.trans hFirst)]
  · intro hRoom i entry hEntry
    have hi : i < n.table.peInfo.length := (List.getElem?_eq_some_iff.mp hEntry).1
    have hFirst := List.getElem?_eq_getElem (Nat.zero_lt_of_lt hi)
    obtain ⟨hReached, hFits⟩ := hRoom entry (List.mem_of_getElem? hEntry)
    exact (hEach i entry _ hEntry hFirst).mpr ⟨hReached, hFits _ hFirst⟩

theorem levelOneCfg_describes : Describes levelOneCfg twoPeTable :=
  ⟨by decide, by decide, by decide, by decide, ⟨_, rfl⟩⟩

theorem levelOneCfg_reached :
    ∀ entry ∈ twoPeTable.peInfo, ClusterReached levelOneCfg entry.mpidr := by
  intro entry hMem
  rw [clusterReached_iff]
  revert entry
  decide

theorem topology_level_one :
    Describes levelOneCfg twoPeTable ∧
      ∃ mpamTable, fillMpamInfoTable .granting levelOneCfg twoPeTable 0x80000000 =
          some mpamTable ∧
        ∀ i entry, twoPeTable.peInfo[i]? = some entry →
          HoldsCaches levelOneCfg 0x80000000 entry.mpidr (mpamTable i) := by
  refine ⟨levelOneCfg_describes, (topology_iff (numberedOfMadt (Acpi.twoGiccMadt 0 1)) levelOneCfg
    0x80000000 levelOneCfg_describes).mpr fun entry hMem => ⟨levelOneCfg_reached entry hMem, ?_⟩⟩
  revert entry
  decide

/-- When PE 1 is the primary, its system cache lies past the end of its pool. -/
theorem topology_second_primary :
    Describes levelOneCfg twoPeTable ∧
      ¬ ∃ mpamTable, fillMpamInfoTable .granting levelOneCfg twoPeTable 0x80000001 =
          some mpamTable ∧
        ∀ i entry, twoPeTable.peInfo[i]? = some entry →
          HoldsCaches levelOneCfg 0x80000001 entry.mpidr (mpamTable i) := by
  refine ⟨levelOneCfg_describes, fun hHolds => ?_⟩
  obtain ⟨mpamTable, hFill, hHolds⟩ := hHolds
  obtain ⟨_, hSome, rfl⟩ := (fillMpamInfoTable_goesWell .granting levelOneCfg twoPeTable
    0x80000001).1 (not_listRefused_granting levelOneCfg twoPeTable)
  cases hFill.symm.trans hSome
  obtain ⟨privates, nodes, cluster, system, -, -, -, -, -, hNodes, -, -⟩ := hHolds 1 _ rfl
  have hGap : none ∈ (fillFrom .granting levelOneCfg twoPeTable 0x80000001
      (listsOf twoPeTable levelOneCfg.cnode) 1).sources := by decide
  rw [hNodes] at hGap
  simp at hGap

/-- The clusters 0.0.0 and 1.0.0. -/
def aff3Cfg : PlatformMpamCfg where
  cnode := [cacheOf 0x100000000 0, cacheOf 0 1, cacheOf 0x100000000 1, cacheOf 0 2]
  mnode := []
  cnode_le := Nat.le_of_ble_eq_true rfl
  mnode_le := Nat.zero_le 16

/-- The PE 1.0.0.0 would be given the cache of cluster 0.0.0. -/
example : ¬ ClusterReached aff3Cfg 0x100000000 := by
  rw [clusterReached_iff]
  decide

end EnterpriseAcs.Mpam
