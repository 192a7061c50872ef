import EnterpriseAcs.Mpam.CacheTests
import EnterpriseAcs.Mpam.CsuMonitor

/-!
# The size of the copy buffers

The cache and the monitor tests copy between two buffers that together take a percentage of a
cache: of the largest one under test, or in m003 of the one that is measured. The product of the
size and the percentage is computed in 32 bits.

* `bufSize_eq_iff`: when the size of a buffer is that of the integers.
* `buffer_size_iff`: the same for the caches of a test.
* `allocate_right`: what the payload of a cache test then asks for.
-/

namespace EnterpriseAcs.Mpam

/-! ## The arithmetic -/

/-- A product that wraps is off by more than the two divisions can hide. -/
theorem wrapped_lt {product : Nat} (h : 2 ^ 32 ≤ product) :
    product % 2 ^ 32 / 100 / 2 < product / 100 / 2 := by
  have hBack := Nat.mod_add_div product (2 ^ 32)
  have hQuotient : 1 ≤ product / 2 ^ 32 := Nat.div_pos h (by decide)
  rw [Nat.div_div_eq_div_mul, Nat.div_div_eq_div_mul]
  omega

theorem toNat_bufSize (maxsize : BitVec 32) (percent : BitVec 8) :
    (bufSize maxsize percent).toNat = maxsize.toNat * percent.toNat % 2 ^ 32 / 100 / 2 := by
  have hPercent : percent.toNat < 2 ^ 32 := Nat.lt_trans percent.isLt (by decide)
  have hLt := (maxsize * percent.setWidth 32 / 100 / 2).isLt
  rw [bufSize, BitVec.toNat_setWidth, Nat.mod_eq_of_lt (Nat.lt_trans hLt (by decide)),
    BitVec.toNat_udiv, BitVec.toNat_udiv, BitVec.toNat_mul, BitVec.toNat_setWidth,
    Nat.mod_eq_of_lt hPercent]
  rfl

theorem bufSize_eq_iff (maxsize : BitVec 32) (percent : BitVec 8) :
    (bufSize maxsize percent).toNat = maxsize.toNat * percent.toNat / 100 / 2 ↔
      maxsize.toNat * percent.toNat < 2 ^ 32 := by
  rw [toNat_bufSize]
  apply Iff.intro
  · intro hSize
    by_contra hWraps
    exact Nat.ne_of_lt (wrapped_lt (Nat.le_of_not_lt hWraps)) hSize
  · intro hLt
    rw [Nat.mod_eq_of_lt hLt]

/-! ## The buffers of a test -/

/-- The tests that size their buffers by a cache. -/
inductive SizedTest
  | cache (test : CacheTest)
  | monitor (test : CsuTest)
  deriving DecidableEq, Repr

/-- The caches under test, the size of the largest one as the test computes it, and the
percentage. -/
structure SizeRequest where
  caches : List CacheNodeEntry
  maxsize : BitVec 32
  percent : BitVec 8

/-- `CACHE_PERCENTAGE`. -/
def cachePercentage : BitVec 8 := 50

section Requests

variable (caches : List CacheNodeEntry) (pe : PeState)

/-- The largest cache of those with a property. -/
def largestRequest (supports : NodeRegs → Bool) (percent : BitVec 8) : SizeRequest :=
  ⟨caches.filter fun n => supports (pe.mmio n.hwregBaseAddr), cacheMaxsize caches supports pe,
    percent⟩

/-- What a test sizes its buffers for, one by one: the rows of a table, or the nodes of m003. -/
def SizedTest.requests : SizedTest → List SizeRequest
  | .cache test =>
    test.configData.map fun config => largestRequest caches pe test.supports config.cachePercent
  | .monitor .m001 => [largestRequest caches pe Partitioning.cpor.supports cachePercentage]
  | .monitor .m002 => [largestRequest caches pe Partitioning.ccap.supports cachePercentage]
  | .monitor .m003 => caches.map fun n => ⟨[n], n.size, cachePercentage⟩

end Requests

/-- The sizes of the caches under test. -/
def SizeRequest.sizes (q : SizeRequest) : Set Nat := {s | ∃ n ∈ q.caches, s = n.size.toNat}

/-- The size of a buffer is half of the percentage of the largest cache under test, both rounded
down, and the product does not wrap. -/
structure SizedRight (q : SizeRequest) (largest : Nat) : Prop where
  greatest : IsGreatest ({0} ∪ q.sizes) largest
  product : (q.maxsize * q.percent.setWidth 32).toNat = largest * q.percent.toNat
  size : (bufSize q.maxsize q.percent).toNat = largest * q.percent.toNat / 100 / 2

section Sizes

variable (caches : List CacheNodeEntry) (pe : PeState)

theorem cacheMaxsize_isGreatest (supports : NodeRegs → Bool) (percent : BitVec 8) :
    IsGreatest ({0} ∪ (largestRequest caches pe supports percent).sizes)
      (cacheMaxsize caches supports pe).toNat := by
  have hSizes : (largestRequest caches pe supports percent).sizes = Extremum.selected
      (fun n => supports (pe.mmio n.hwregBaseAddr) = true) (fun n => n.size.toNat) caches := by
    ext s
    simp only [SizeRequest.sizes, largestRequest, Extremum.selected, List.mem_filter, and_assoc]
  rw [hSizes]
  apply Extremum.foldl_isGreatest BitVec.toNat _ _ _ _ _ isGreatest_singleton
  · intro maxsize n hSupports
    rw [if_pos hSupports]
    exact Extremum.toNat_larger _ _
  · intro maxsize n hOther
    rw [if_neg hOther]

/-- The computed maximum is the largest size. -/
theorem requests_isGreatest (test : SizedTest) {q : SizeRequest}
    (hMem : q ∈ test.requests caches pe) : IsGreatest ({0} ∪ q.sizes) q.maxsize.toNat := by
  cases test with
  | cache test =>
    obtain ⟨config, -, rfl⟩ := List.mem_map.mp hMem
    exact cacheMaxsize_isGreatest caches pe test.supports config.cachePercent
  | monitor test =>
    cases test with
    | m001 =>
      rw [List.mem_singleton.mp hMem]
      exact cacheMaxsize_isGreatest caches pe _ cachePercentage
    | m002 =>
      rw [List.mem_singleton.mp hMem]
      exact cacheMaxsize_isGreatest caches pe _ cachePercentage
    | m003 =>
      obtain ⟨n, -, rfl⟩ := List.mem_map.mp hMem
      refine ⟨Or.inr ⟨n, List.mem_singleton_self n, rfl⟩, ?_⟩
      rintro s (rfl | ⟨n', hNode, rfl⟩)
      · exact Nat.zero_le _
      · rw [List.mem_singleton.mp hNode]

end Sizes

theorem sizedRight_iff {q : SizeRequest} (hGreatest : IsGreatest ({0} ∪ q.sizes) q.maxsize.toNat) :
    (∃ largest, SizedRight q largest) ↔
      ∀ n ∈ q.caches, n.size.toNat * q.percent.toNat < 2 ^ 32 := by
  apply Iff.intro
  · rintro ⟨largest, hRight⟩ n hMem
    obtain rfl := hRight.greatest.unique hGreatest
    have hProduct := (bufSize_eq_iff q.maxsize q.percent).mp hRight.size
    have hLe : n.size.toNat ≤ q.maxsize.toNat := hGreatest.2 (Or.inr ⟨n, hMem, rfl⟩)
    exact Nat.lt_of_le_of_lt (Nat.mul_le_mul_right _ hLe) hProduct
  · intro hAll
    have hProduct : q.maxsize.toNat * q.percent.toNat < 2 ^ 32 := by
      rcases hGreatest.1 with hZero | ⟨n, hMem, hSize⟩
      · rw [Set.mem_singleton_iff.mp hZero, Nat.zero_mul]
        decide
      · rw [hSize]
        exact hAll n hMem
    have hPercent : q.percent.toNat < 2 ^ 32 := Nat.lt_trans q.percent.isLt (by decide)
    refine ⟨q.maxsize.toNat, hGreatest, ?_, (bufSize_eq_iff _ _).mpr hProduct⟩
    rw [BitVec.toNat_mul, BitVec.toNat_setWidth, Nat.mod_eq_of_lt hPercent,
      Nat.mod_eq_of_lt hProduct]

/-- The buffers that a cache test asks for are sized this way. -/
theorem allocate_mem_requests (test : CacheTest) (env : CacheEnv) (caches : List CacheNodeEntry)
    (pe : PeState) {size : BitVec 64}
    (hMem : .allocate size ∈ (cachePayload test env caches pe).trace) :
    ∃ q ∈ (SizedTest.cache test).requests caches pe, size = bufSize q.maxsize q.percent := by
  obtain ⟨config, hConfig, -, rfl⟩ := allocate_mem_cachePayload test env caches pe hMem
  exact ⟨_, List.mem_map_of_mem hConfig, rfl⟩

/-- Where the products fit, a cache test asks for nothing but half of a percentage of its largest
cache. -/
theorem allocate_right (test : CacheTest) (env : CacheEnv) (caches : List CacheNodeEntry)
    (pe : PeState)
    (hFits : ∀ q ∈ (SizedTest.cache test).requests caches pe, ∀ n ∈ q.caches,
      n.size.toNat * q.percent.toNat < 2 ^ 32)
    {size : BitVec 64} (hMem : .allocate size ∈ (cachePayload test env caches pe).trace) :
    ∃ q ∈ (SizedTest.cache test).requests caches pe, ∃ largest,
      IsGreatest ({0} ∪ q.sizes) largest ∧
        size.toNat = largest * q.percent.toNat / 100 / 2 := by
  obtain ⟨q, hRequest, rfl⟩ := allocate_mem_requests test env caches pe hMem
  have hGreatest := requests_isGreatest caches pe (.cache test) hRequest
  obtain ⟨largest, hRight⟩ := (sizedRight_iff hGreatest).mpr (hFits q hRequest)
  exact ⟨q, hRequest, largest, hRight.greatest, hRight.size⟩

/-- The size of a buffer is right exactly when the product of the percentage and the size of each
cache under test fits in 32 bits. -/
theorem buffer_size_iff (test : SizedTest) (caches : List CacheNodeEntry) (pe : PeState)
    {q : SizeRequest} (hMem : q ∈ test.requests caches pe) :
    (∃ largest, SizedRight q largest) ↔
      ∀ n ∈ q.caches, n.size.toNat * q.percent.toNat < 2 ^ 32 :=
  sizedRight_iff (requests_isGreatest caches pe test hMem)

/-- The buffers of c005 for 75% of one MiB. -/
theorem buffer_size_mib :
    ∃ q ∈ (SizedTest.cache .c005).requests [cacheOfSize 0x100000] onePartidPe,
      ((∃ largest, SizedRight q largest) ↔
        ∀ n ∈ q.caches, n.size.toNat * q.percent.toNat < 2 ^ 32) ∧
      ∃ largest, SizedRight q largest := by
  let q := largestRequest [cacheOfSize 0x100000] onePartidPe valCacheSupportsCpor 75
  have hMem : q ∈ (SizedTest.cache .c005).requests [cacheOfSize 0x100000] onePartidPe :=
    List.mem_cons_self
  have hIff := buffer_size_iff (.cache .c005) [cacheOfSize 0x100000] onePartidPe hMem
  refine ⟨q, hMem, hIff, hIff.mpr fun n hNode => ?_⟩
  rw [List.mem_singleton.mp (List.mem_filter.mp hNode).1]
  decide

/-- 75% of 64 MiB is 48 MiB, and the two buffers of c005 get 3690987 bytes each. -/
theorem large_cache_wraps :
    ¬ ∀ q ∈ (SizedTest.cache .c005).requests [cacheOfSize 0x4000000] onePartidPe,
      ∃ largest, SizedRight q largest := by
  let n := cacheOfSize 0x4000000
  let q := largestRequest [n] onePartidPe valCacheSupportsCpor 75
  intro hAll
  have hMem : q ∈ (SizedTest.cache .c005).requests [n] onePartidPe := List.mem_cons_self
  have hGreatest := requests_isGreatest [n] onePartidPe (.cache .c005) hMem
  have hNode : n ∈ q.caches := List.mem_filter.mpr ⟨List.mem_cons_self, by decide⟩
  exact absurd ((sizedRight_iff hGreatest).mp (hAll q hMem) n hNode) (by decide)

end EnterpriseAcs.Mpam
