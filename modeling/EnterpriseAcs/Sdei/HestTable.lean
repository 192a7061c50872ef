import EnterpriseAcs.Sdei.DeviceTables

/-!
# What the event table says about the HEST

The walk over the error sources is right up to the first version 2 source. From there on it
reads 5888 bytes ahead, where a version 2 structure has 92 bytes. The event table has a record
for every vector that is read, but its count leaves the zero ones out.

* `Hest`: a HEST, with the list of its error sources.
* `vectors_read`: the vectors that the walk reads.
* `events_iff`: the tables for which the event table has the vectors of the sources.
* `readsEvents_iff_of_v2_last`: what is left to ask where only the last source is of version 2.
-/

namespace EnterpriseAcs.Sdei

open Acpi Machine

/-! ## The error sources of a HEST -/

inductive GhesVersion where
  | ghes
  | ghesV2
  deriving DecidableEq, Repr

def GhesVersion.type : GhesVersion → BitVec 16
  | .ghes => 9
  | .ghesV2 => ghesVersion2

def GhesVersion.size : GhesVersion → Nat
  | .ghes => ghesSize
  | .ghesV2 => ghesV2Size

/-- The fields of a generic hardware error source structure. -/
structure ErrorSource where
  version : GhesVersion
  notification : BitVec 8
  vector : BitVec 32
  deriving DecidableEq, Repr

/-- The source at an address. -/
structure SourceAt (hest : Memory) (ghes : Nat) (source : ErrorSource) : Prop where
  type : ghesType hest ghes = source.version.type
  notification : notificationType hest ghes = source.notification
  vector : notificationVector hest ghes = source.vector

/-- Sources one after the other, each followed by the next at its end. -/
inductive SourcesAt (hest : Memory) : Nat → List ErrorSource → Prop
  | nil (ghes : Nat) : SourcesAt hest ghes []
  | cons {ghes : Nat} {source : ErrorSource} {sources : List ErrorSource}
      (first : SourceAt hest ghes source)
      (rest : SourcesAt hest (ghes + source.version.size) sources) :
      SourcesAt hest ghes (source :: sources)

/-- The vector of a source that notifies through SDEI. -/
def ErrorSource.sdeiVector (source : ErrorSource) : Option (BitVec 32) :=
  if source.notification = ghesNotifyTypeSdei then some source.vector else none

def sdeiVectors (sources : List ErrorSource) : List (BitVec 32) :=
  sources.filterMap ErrorSource.sdeiVector

/-- A HEST with its error sources. The buffer has room for a record for each that notifies
through SDEI. -/
structure Hest where
  mem : Memory
  sources : List ErrorSource
  count : (errorSourceCount mem).toNat = sources.length
  layout : SourcesAt mem hestHeaderSize sources
  fits : eventInfoOffset (sdeiVectors sources).length ≤ eventInfoTableSz

/-- What the event table is for: its first `num_events` records are the non-zero vectors of the
sources. -/
structure EventsOf (sources : List ErrorSource) (t : EventInfoTable) : Prop where
  events : t.info.take t.numEvents.toNat = (sdeiVectors sources).filter (· ≠ 0)
  numGhesNotify : t.numGhesNotify.toNat = (sdeiVectors sources).length

/-! ## Lists whose good elements come first -/

section GoodFirst

variable {α : Type*} {p : α → Prop} [DecidablePred p]

theorem take_countP_eq_filter {l : List α} (h : l.Pairwise fun a b => p b → p a) :
    l.take (l.countP (p ·)) = l.filter (p ·) := by
  induction l with
  | nil => rfl
  | cons a l ih =>
    obtain ⟨hHead, hTail⟩ := List.pairwise_cons.mp h
    by_cases ha : p a
    · rw [List.countP_cons_of_pos (by simpa using ha), List.filter_cons_of_pos (by simpa using ha),
        List.take_succ_cons, ih hTail]
    · have hNone : ∀ b ∈ l, ¬ p b := fun b hb hp => ha (hHead b hb hp)
      have hCount : (a :: l).countP (p ·) = 0 := by
        rw [List.countP_eq_zero]
        simpa [ha] using hNone
      have hFilter : (a :: l).filter (p ·) = [] := by
        rw [List.filter_eq_nil_iff]
        simpa [ha] using hNone
      rw [hCount, hFilter, List.take_zero]

/-- As many elements as are good, all of them good, are at the front only if nothing else is
before a good one. -/
theorem pairwise_of_take_countP {l : List α} (h : ∀ a ∈ l.take (l.countP (p ·)), p a) :
    l.Pairwise fun a b => p b → p a := by
  induction l with
  | nil => exact .nil
  | cons a l ih =>
    by_cases ha : p a
    · rw [List.countP_cons_of_pos (by simpa using ha), List.take_succ_cons,
        List.forall_mem_cons] at h
      exact .cons (fun _ _ _ => ha) (ih h.2)
    · rw [List.countP_cons_of_neg (by simpa using ha)] at h
      have hCount : l.countP (p ·) = 0 := by
        by_contra hSome
        obtain ⟨k, hk⟩ := Nat.exists_eq_succ_of_ne_zero hSome
        rw [hk, List.take_succ_cons] at h
        exact ha (h a List.mem_cons_self)
      have hNone : ∀ b ∈ l, ¬ p b := by
        simpa [List.countP_eq_zero] using hCount
      refine .cons (fun b hb hp => absurd hp (hNone b hb)) ?_
      exact List.pairwise_of_forall_mem_list fun a _ b hb hp => absurd hp (hNone b hb)

end GoodFirst

/-! ## The walk -/

/-- The vector at an address, if the structure there notifies through SDEI. -/
def vectorAt (hest : Memory) (ghes : Nat) : Option (BitVec 32) :=
  if notificationType hest ghes = ghesNotifyTypeSdei then some (notificationVector hest ghes)
  else none

theorem vectorAt_eq {hest : Memory} {ghes : Nat} {source : ErrorSource}
    (h : SourceAt hest ghes source) : vectorAt hest ghes = source.sdeiVector := by
  rw [vectorAt, h.notification, h.vector]
  rfl

/-- The position of the first version 2 source. -/
def firstV2 (sources : List ErrorSource) : Nat :=
  sources.findIdx fun source => source.version = .ghesV2

/-- The sources up to the first version 2 source, and those after it. -/
def throughV2 (sources : List ErrorSource) : List ErrorSource := sources.take (firstV2 sources + 1)
def afterV2 (sources : List ErrorSource) : List ErrorSource := sources.drop (firstV2 sources + 1)

/-- The addresses that the walk visits instead of those of the sources after the first
version 2 source, for sources that start at `ghes`. -/
def strayEntries (hest : Memory) (ghes : Nat) (sources : List ErrorSource) : List Nat :=
  countedEntries (nextGhes hest) (afterV2 sources).length
    (ghes + firstV2 sources * ghesSize + ghesV2Size * ghesSize)

/-- The vectors read there. -/
def Hest.strayVectors (h : Hest) : List (BitVec 32) :=
  (strayEntries h.mem hestHeaderSize h.sources).filterMap (vectorAt h.mem)

theorem nextGhes_eq {hest : Memory} {ghes : Nat} {source : ErrorSource}
    (h : SourceAt hest ghes source) :
    nextGhes hest ghes =
      match source.version with
      | .ghes => ghes + ghesSize
      | .ghesV2 => ghes + ghesV2Size * ghesSize := by
  rw [nextGhes, h.type]
  cases source.version with
  | ghes => exact if_neg (by decide)
  | ghesV2 => exact if_pos rfl

section FirstV2

variable {source : ErrorSource} {sources : List ErrorSource}

theorem firstV2_cons_ghes (h : source.version = .ghes) :
    firstV2 (source :: sources) = firstV2 sources + 1 := by
  simp [firstV2, List.findIdx_cons, h]

theorem firstV2_cons_ghesV2 (h : source.version = .ghesV2) : firstV2 (source :: sources) = 0 := by
  simp [firstV2, List.findIdx_cons, h]

/-- A version 1 source does not move the walk away from the others. -/
theorem strayEntries_cons_ghes (h : source.version = .ghes) (hest : Memory) (ghes : Nat) :
    strayEntries hest ghes (source :: sources) = strayEntries hest (ghes + ghesSize) sources := by
  rw [strayEntries, strayEntries, afterV2, afterV2, firstV2_cons_ghes h, List.drop_succ_cons]
  congr 1
  rw [Nat.succ_mul]
  omega

end FirstV2

/-- The walk over sources in their places: it is at the right place through the first version 2
source. -/
theorem walk_vectors {hest : Memory} {ghes : Nat} {sources : List ErrorSource}
    (h : SourcesAt hest ghes sources) :
    (countedEntries (nextGhes hest) sources.length ghes).filterMap (vectorAt hest) =
      sdeiVectors (throughV2 sources) ++
        (strayEntries hest ghes sources).filterMap (vectorAt hest) := by
  induction h with
  | nil ghes => rfl
  | @cons ghes source sources hFirst _ ih =>
    have hNext := nextGhes_eq hFirst
    have hVector := vectorAt_eq hFirst
    rw [List.length_cons, countedEntries]
    cases hVersion : source.version with
    | ghes =>
      simp only [hVersion] at hNext
      rw [hVersion, GhesVersion.size] at ih
      have hThrough : throughV2 (source :: sources) = source :: throughV2 sources := by
        rw [throughV2, firstV2_cons_ghes hVersion, List.take_succ_cons]
        rfl
      rw [hNext, strayEntries_cons_ghes hVersion, hThrough, filterMap_cons_toList, hVector, ih,
        sdeiVectors, sdeiVectors, filterMap_cons_toList, List.append_assoc]
    | ghesV2 =>
      simp only [hVersion] at hNext
      have hThrough : throughV2 (source :: sources) = [source] := by
        rw [throughV2, firstV2_cons_ghesV2 hVersion]
        rfl
      have hStray : strayEntries hest ghes (source :: sources) =
          countedEntries (nextGhes hest) sources.length (ghes + ghesV2Size * ghesSize) := by
        rw [strayEntries, afterV2, firstV2_cons_ghesV2 hVersion, Nat.zero_mul]
        rfl
      rw [hNext, hStray, hThrough, filterMap_cons_toList, hVector, sdeiVectors,
        filterMap_cons_toList, List.filterMap_nil, List.append_nil]

/-- The vectors that the walk over a HEST reads. -/
def Hest.vectorsRead (h : Hest) : List (BitVec 32) :=
  sdeiVectors (throughV2 h.sources) ++ h.strayVectors

theorem vectors_read (h : Hest) :
    (errorSources h.mem).filterMap (vectorAt h.mem) = h.vectorsRead := by
  rw [errorSources, h.count]
  exact walk_vectors h.layout

/-- The sources are those through the first version 2 source and those after it. -/
theorem sdeiVectors_split (sources : List ErrorSource) :
    sdeiVectors sources = sdeiVectors (throughV2 sources) ++ sdeiVectors (afterV2 sources) := by
  rw [sdeiVectors, sdeiVectors, sdeiVectors, ← List.filterMap_append, throughV2, afterV2,
    List.take_append_drop]

/-! ## The event table -/

theorem eventVisit_eq (hest : Memory) (ghes : Nat) (t : EventInfoTable) :
    eventVisit hest ghes t =
      { t with
        info := t.info ++ (vectorAt hest ghes).toList
        numGhesNotify := t.numGhesNotify + BitVec.ofNat 32 (vectorAt hest ghes).toList.length
        numEvents := t.numEvents +
          BitVec.ofNat 32 ((vectorAt hest ghes).toList.countP (· ≠ 0)) } := by
  rw [eventVisit, vectorAt]
  by_cases hType : notificationType hest ghes = ghesNotifyTypeSdei
  · rw [if_pos hType, if_pos hType]
    by_cases hVector : notificationVector hest ghes = 0#32
    · simp [hVector]
    · simp [hVector]
  · rw [if_neg hType, if_neg hType]
    simp

theorem event_fold (hest : Memory) (entries : List Nat) (t : EventInfoTable) :
    entries.foldl (fun t ghes => eventVisit hest ghes t) t =
      { t with
        info := t.info ++ entries.filterMap (vectorAt hest)
        numGhesNotify := t.numGhesNotify +
          BitVec.ofNat 32 (entries.filterMap (vectorAt hest)).length
        numEvents := t.numEvents +
          BitVec.ofNat 32 ((entries.filterMap (vectorAt hest)).countP (· ≠ 0)) } := by
  induction entries generalizing t with
  | nil => simp
  | cons ghes entries ih =>
    rw [List.foldl_cons, eventVisit_eq, ih, filterMap_cons_toList, List.length_append,
      List.countP_append, BitVec.ofNat_add, BitVec.ofNat_add]
    simp only [List.append_assoc, BitVec.add_assoc]

/-- No more vectors are read than the 32-bit number of sources. -/
theorem vectorsRead_lt (h : Hest) : h.vectorsRead.length < 2 ^ 32 := by
  have hCount : (errorSources h.mem).length = (errorSourceCount h.mem).toNat :=
    countedEntries_length _ _ _
  have hRead := List.length_filterMap_le (vectorAt h.mem) (errorSources h.mem)
  rw [vectors_read, hCount] at hRead
  exact Nat.lt_of_le_of_lt hRead (errorSourceCount h.mem).isLt

/-- The event table has the vectors that are read, and counts the non-zero ones. -/
theorem eventTable_eq (h : Hest) :
    let t := (palSdeiCreateEventInfoTable (some h.mem)).2.table
    t.info = h.vectorsRead ∧ t.numGhesNotify.toNat = h.vectorsRead.length ∧
      t.numEvents.toNat = h.vectorsRead.countP (· ≠ 0) := by
  have hTable : (palSdeiCreateEventInfoTable (some h.mem)).2.table =
      (errorSources h.mem).foldl (fun t ghes => eventVisit h.mem ghes t) { hestFound := 1 } := by
    simp only [palSdeiCreateEventInfoTable, hestScan, countedWalk_eq]
    exact foldl_withLog_fst _ _ _ _ _
  have hLength := vectorsRead_lt h
  have hCount : h.vectorsRead.countP (· ≠ 0) ≤ h.vectorsRead.length := List.countP_le_length
  intro t
  rw [show t = _ from hTable, event_fold, vectors_read]
  refine ⟨List.nil_append _, ?_, ?_⟩
  · show (0#32 + BitVec.ofNat 32 _).toNat = _
    rw [BitVec.zero_add, BitVec.toNat_ofNat, Nat.mod_eq_of_lt hLength]
  · show (0#32 + BitVec.ofNat 32 _).toNat = _
    rw [BitVec.zero_add, BitVec.toNat_ofNat, Nat.mod_eq_of_lt (by omega)]

/-- The tables that the walk gets right. What it reads after the first version 2 source has the
events of the sources there, and no zero vector is read before another one. -/
structure ReadsEvents (h : Hest) : Prop where
  zeros_last : h.vectorsRead.Pairwise fun v w => w ≠ 0 → v ≠ 0
  stray_events : h.strayVectors.filter (· ≠ 0) = (sdeiVectors (afterV2 h.sources)).filter (· ≠ 0)
  stray_notify : h.strayVectors.length = (sdeiVectors (afterV2 h.sources)).length

/-- The event table has the vectors of the sources exactly when the walk reads them. -/
theorem events_iff (h : Hest) :
    EventsOf h.sources (palSdeiCreateEventInfoTable (some h.mem)).2.table ↔ ReadsEvents h := by
  obtain ⟨hInfo, hNotify, hEvents⟩ := eventTable_eq h
  have hSplit := sdeiVectors_split h.sources
  constructor
  · rintro ⟨hTake, hLength⟩
    rw [hInfo, hEvents] at hTake
    have hZeros : h.vectorsRead.Pairwise fun v w => w ≠ 0 → v ≠ 0 := by
      refine pairwise_of_take_countP fun v hv => ?_
      rw [hTake] at hv
      exact of_decide_eq_true (List.mem_filter.mp hv).2
    rw [take_countP_eq_filter hZeros, Hest.vectorsRead, hSplit, List.filter_append,
      List.filter_append] at hTake
    rw [hNotify, Hest.vectorsRead, hSplit, List.length_append, List.length_append] at hLength
    exact ⟨hZeros, List.append_cancel_left hTake, Nat.add_left_cancel hLength⟩
  · rintro ⟨hZeros, hStray, hLength⟩
    constructor
    · rw [hInfo, hEvents, take_countP_eq_filter hZeros, Hest.vectorsRead, hSplit,
        List.filter_append, List.filter_append, hStray]
    · rw [hNotify, Hest.vectorsRead, hSplit, List.length_append, List.length_append, hLength]

/-- At 40 a version 2 source with the vector 5, at 132 a version 1 source with the vector 6, and
zeros after it. -/
def hestMemory : Memory
  | 36 => 2
  | 40 => 10
  | 72 => ghesNotifyTypeSdei
  | 80 => 5
  | 132 => 9
  | 164 => ghesNotifyTypeSdei
  | 172 => 6
  | _ => 0

def twoSources : List ErrorSource :=
  [⟨.ghesV2, ghesNotifyTypeSdei, 5⟩, ⟨.ghes, ghesNotifyTypeSdei, 6⟩]

theorem twoSources_layout : SourcesAt hestMemory hestHeaderSize twoSources := by
  refine .cons ?_ (.cons ?_ (.nil _))
  · constructor <;> decide
  · constructor <;> decide

theorem twoSources_fit : eventInfoOffset (sdeiVectors twoSources).length ≤ eventInfoTableSz := by
  decide

def twoSourcesHest : Hest where
  mem := hestMemory
  sources := twoSources
  count := rfl
  layout := twoSources_layout
  fits := twoSources_fit

/-- The walk reads the zeros at 5928 and not the source at 132. -/
theorem twoSources_events :
    (palSdeiCreateEventInfoTable (some hestMemory)).2.table = ⟨1, 1, 1, [5]⟩ ∧
      ¬ EventsOf twoSourcesHest.sources
        (palSdeiCreateEventInfoTable (some twoSourcesHest.mem)).2.table := by
  have hTable : (palSdeiCreateEventInfoTable (some hestMemory)).2.table = ⟨1, 1, 1, [5]⟩ := by
    decide
  refine ⟨hTable, fun h => ?_⟩
  have hNotify := h.numGhesNotify
  rw [show twoSourcesHest.mem = hestMemory from rfl, hTable] at hNotify
  exact absurd hNotify (by decide)

/-! ## When only the last source may be of version 2 -/

/-- With no source after the first version 2 source, the zero vectors alone decide. -/
theorem readsEvents_iff_of_v2_last {h : Hest} (hLast : afterV2 h.sources = []) :
    ReadsEvents h ↔ (sdeiVectors h.sources).Pairwise fun v w => w ≠ 0 → v ≠ 0 := by
  have hStray : h.strayVectors = [] := by
    rw [Hest.strayVectors, strayEntries, hLast]
    rfl
  have hRead : h.vectorsRead = sdeiVectors h.sources := by
    rw [Hest.vectorsRead, hStray, sdeiVectors_split h.sources, hLast]
    rfl
  rw [← hRead]
  constructor
  · exact ReadsEvents.zeros_last
  · intro hZeros
    refine ⟨hZeros, ?_, ?_⟩
    · rw [hStray, hLast]
      rfl
    · rw [hStray, hLast]
      rfl

end EnterpriseAcs.Sdei
