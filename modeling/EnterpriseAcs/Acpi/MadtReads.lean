import EnterpriseAcs.Acpi.Madt

/-!
# The bytes that a walk over the MADT reads

The walk is run with a log of the addresses it reads: the `Length` field of the header once,
and for each entry its type byte, the fields that the visit looks at and the length byte.
Nothing is assumed of the memory.

* `Footprint.loggedScan_congr`: the log is complete. A run reads nothing else, so memories that
  agree on the log give the same run.
* `walkInTable_iff`: when the walk returns and its log stays below the table length. The
  entries have to form an `EntryChain`.
-/

namespace EnterpriseAcs.Acpi

/-- The addresses of the `n` bytes from `addr` on. -/
def bytesAt (addr n : Nat) : List Nat := List.range' addr n

@[simp] theorem mem_bytesAt {addr n a : Nat} : a ∈ bytesAt addr n ↔ addr ≤ a ∧ a < addr + n :=
  List.mem_range'_1

theorem readLe_congr {mem mem' : Memory} {n addr : Nat}
    (h : ∀ a ∈ bytesAt addr n, mem a = mem' a) : readLe mem addr n = readLe mem' addr n := by
  induction n generalizing addr with
  | zero => rfl
  | succ n ih =>
    have hFirst : mem addr = mem' addr := h addr (by simp)
    have hRest : ∀ a ∈ bytesAt (addr + 1) n, mem a = mem' a := by
      intro a ha
      rw [mem_bytesAt] at ha
      exact h a (mem_bytesAt.mpr (by omega))
    rw [readLe, readLe, hFirst, ih hRest]

theorem read32_congr {mem mem' : Memory} {addr : Nat}
    (h : ∀ a ∈ bytesAt addr 4, mem a = mem' a) : read32 mem addr = read32 mem' addr := by
  rw [read32, read32, readLe_congr h]

theorem read64_congr {mem mem' : Memory} {addr : Nat}
    (h : ∀ a ∈ bytesAt addr 8, mem a = mem' a) : read64 mem addr = read64 mem' addr := by
  rw [read64, read64, readLe_congr h]

/-! ## Walks with a log -/

/-- The bytes of `Header.Length`. -/
def lengthReads : List Nat := bytesAt 4 4

/-- The bytes read of one entry: its type, the fields read by the visit, and its length. -/
def entryReads (fields : Nat → List Nat) (entry : Nat) : List Nat :=
  entry :: (fields entry ++ [entry + 1])

/-- The loop body `visit` with a log of what `events` says of each visit. -/
def withLog {σ β : Type*} (visit : Nat → σ → σ) (events : Nat → σ → List β) (entry : Nat)
    (s : σ × List β) : σ × List β :=
  (visit entry s.1, s.2 ++ events entry s.1)

/-- The loop body `visit` with a log of what it reads. -/
def logged {σ : Type*} (visit : Nat → σ → σ) (fields : Nat → List Nat) :
    Nat → σ × List Nat → σ × List Nat :=
  withLog visit fun entry _ => entryReads fields entry

def loggedScan {σ : Type*} (mem : Memory) (visit : Nat → σ → σ) (fields : Nat → List Nat)
    (fuel : Nat) (s : σ) : Option (σ × List Nat) :=
  madtScan mem (logged visit fields) fuel (s, lengthReads)

section Log

variable {σ : Type*} {mem : Memory} {visit : Nat → σ → σ} {fields : Nat → List Nat}

theorem withLog_fst {β : Type*} (events : Nat → σ → List β) (fuel : Nat) (length : BitVec 32)
    (entry : Nat) (s : σ) (log : List β) :
    (madtWalk mem (withLog visit events) fuel length entry (s, log)).map Prod.fst =
      madtWalk mem visit fuel length entry s := by
  induction fuel generalizing length entry s log with
  | zero => rfl
  | succ fuel ih =>
    simp only [madtWalk, withLog]
    split
    · exact ih _ _ _ _
    · rfl

/-- The log leaves the walk as it is. -/
theorem loggedScan_fst (fuel : Nat) (s : σ) :
    (loggedScan mem visit fields fuel s).map Prod.fst = madtScan mem visit fuel s :=
  withLog_fst _ fuel _ _ s lengthReads

/-- The log keeps what it had and gets the reads of the entry visited first. -/
theorem mem_log {fuel : Nat} {length : BitVec 32} {entry : Nat} {s t : σ}
    {log log' : List Nat}
    (h : madtWalk mem (logged visit fields) fuel length entry (s, log) = some (t, log')) :
    ∀ a ∈ log ++ entryReads fields entry, a ∈ log' := by
  induction fuel generalizing length entry s log with
  | zero => cases h
  | succ fuel ih =>
    simp only [madtWalk, logged, withLog] at h
    split at h
    · intro a ha
      exact ih h a (List.mem_append_left _ ha)
    · cases h
      exact fun a ha => ha

/-- Two memories that agree on the log of a run on one of them. -/
theorem loggedWalk_congr {mem' : Memory} {visit' : Nat → σ → σ} {fields' : Nat → List Nat}
    (hEntry : ∀ entry s, (∀ a ∈ entryReads fields entry, mem a = mem' a) →
      logged visit fields entry s = logged visit' fields' entry s)
    (hLength : madtLength mem = madtLength mem') {fuel : Nat} {length : BitVec 32} {entry : Nat}
    {s t : σ} {log log' : List Nat}
    (h : madtWalk mem (logged visit fields) fuel length entry (s, log) = some (t, log'))
    (hLog : ∀ a ∈ log', mem a = mem' a) :
    madtWalk mem' (logged visit' fields') fuel length entry (s, log) = some (t, log') := by
  induction fuel generalizing length entry s log with
  | zero => cases h
  | succ fuel ih =>
    have hReads : ∀ a ∈ entryReads fields entry, mem a = mem' a := fun a ha =>
      hLog a (mem_log h a (List.mem_append_right _ ha))
    have hByte : entryLength mem entry = entryLength mem' entry :=
      hReads (entry + 1) (by simp [entryReads])
    simp only [madtWalk, ← hEntry entry (s, log) hReads, ← hByte, ← hLength] at h ⊢
    split
    · rename_i hLt
      rw [if_pos hLt] at h
      exact ih h
    · rename_i hLt
      rwa [if_neg hLt] at h

theorem madtLength_congr {mem' : Memory} (h : ∀ a ∈ lengthReads, mem a = mem' a) :
    madtLength mem = madtLength mem' :=
  read32_congr h

end Log

/-- What a visit reads: its result and its reads are given by the bytes it reads, and these
are below `L` when `need` bytes of the entry are. -/
structure Footprint {σ : Type*} (visit : Memory → Nat → σ → σ) (fields : Memory → Nat → List Nat)
    (need : BitVec 8 → Nat) : Prop where
  complete : ∀ {mem mem' : Memory} {entry : Nat},
    (∀ a ∈ entryReads (fields mem) entry, mem a = mem' a) →
      (∀ s, visit mem entry s = visit mem' entry s) ∧ fields mem entry = fields mem' entry
  bounds : ∀ (mem : Memory) (entry L : Nat),
    (∀ a ∈ entryReads (fields mem) entry, a < L) ↔ entry + need (entryType mem entry) ≤ L

/-- The log of a run names every byte that the run depends on. -/
theorem Footprint.loggedScan_congr {σ : Type*} {visit : Memory → Nat → σ → σ}
    {fields : Memory → Nat → List Nat} {need : BitVec 8 → Nat} (h : Footprint visit fields need)
    {mem mem' : Memory} {fuel : Nat} {s t : σ} {log : List Nat}
    (hRun : loggedScan mem (visit mem) (fields mem) fuel s = some (t, log))
    (hLog : ∀ a ∈ log, mem a = mem' a) :
    loggedScan mem' (visit mem') (fields mem') fuel s = some (t, log) := by
  have hHeader : ∀ a ∈ lengthReads, mem a = mem' a := fun a ha =>
    hLog a (mem_log hRun a (List.mem_append_left _ ha))
  apply loggedWalk_congr ?_ (madtLength_congr hHeader) hRun hLog
  intro entry s hReads
  obtain ⟨hVisit, hFields⟩ := h.complete hReads
  simp only [logged, withLog, entryReads, hVisit, hFields]

/-! ## Walks that stay in the table -/

/-- The walk returns, and no byte it has read is at or beyond the end of the table. -/
def WalkInTable {σ : Type*} (mem : Memory) (visit : Nat → σ → σ) (fields : Nat → List Nat)
    (s : σ) : Prop :=
  ∃ fuel t log, loggedScan mem visit fields fuel s = some (t, log) ∧
    ∀ a ∈ log, a < (madtLength mem).toNat

/-- From the entry at `a` on, each entry has `need` bytes of its type before the end of the
table, no length byte is zero before the last entry, and the last one reaches the end of the
table without wrapping the 32-bit count. -/
inductive EntryChain (mem : Memory) (need : BitVec 8 → Nat) : Nat → Prop
  | last {a : Nat} :
      a + need (entryType mem a) ≤ (madtLength mem).toNat →
      (madtLength mem).toNat ≤ a + (entryLength mem a).toNat →
      a + (entryLength mem a).toNat < 2 ^ 32 →
      EntryChain mem need a
  | next {a : Nat} :
      a + need (entryType mem a) ≤ (madtLength mem).toNat →
      0 < (entryLength mem a).toNat →
      a + (entryLength mem a).toNat < (madtLength mem).toNat →
      EntryChain mem need (a + (entryLength mem a).toNat) →
      EntryChain mem need a

theorem EntryChain.need_le {mem : Memory} {need : BitVec 8 → Nat} {a : Nat}
    (h : EntryChain mem need a) : a + need (entryType mem a) ≤ (madtLength mem).toNat := by
  cases h <;> assumption

/-- A chain for two needs is one for the larger. -/
theorem EntryChain.max_iff {mem : Memory} {need₁ need₂ : BitVec 8 → Nat} {a : Nat} :
    EntryChain mem (fun type => max (need₁ type) (need₂ type)) a ↔
      EntryChain mem need₁ a ∧ EntryChain mem need₂ a := by
  constructor
  · intro h
    induction h with
    | last hNeed hEnd hWrap => exact ⟨.last (by omega) hEnd hWrap, .last (by omega) hEnd hWrap⟩
    | next hNeed hPos hLt _ ih =>
      exact ⟨.next (by omega) hPos hLt ih.1, .next (by omega) hPos hLt ih.2⟩
  · rintro ⟨h₁, h₂⟩
    induction h₁ with
    | last hNeed hEnd hWrap =>
      have := h₂.need_le
      exact .last (by omega) hEnd hWrap
    | next hNeed hPos hLt _ ih =>
      have hLe := h₂.need_le
      cases h₂ with
      | last _ hEnd _ => omega
      | next _ _ _ hRest => exact .next (by omega) hPos hLt (ih hRest)

section Bounds

variable {σ : Type*} {mem : Memory} {visit : Nat → σ → σ} {fields : Nat → List Nat}
  {need : BitVec 8 → Nat}

theorem count_add (a : Nat) (byte : BitVec 8) :
    BitVec.ofNat 32 a + byte.setWidth 32 = BitVec.ofNat 32 (a + byte.toNat) := by
  apply BitVec.eq_of_toNat_eq
  simp

/-- A run below the table length follows a chain. -/
theorem chain_of_run
    (hNeed : ∀ a L, (∀ x ∈ entryReads fields a, x < L) → a + need (entryType mem a) ≤ L)
    {fuel a : Nat} {s t : σ} {log log' : List Nat}
    (h : madtWalk mem (logged visit fields) fuel (BitVec.ofNat 32 a) a (s, log) = some (t, log'))
    (hLog : ∀ x ∈ log', x < (madtLength mem).toNat) : EntryChain mem need a := by
  induction fuel generalizing a s log with
  | zero => cases h
  | succ fuel ih =>
    have hReads : ∀ x ∈ entryReads fields a, x < (madtLength mem).toNat := fun x hx =>
      hLog x (mem_log h x (List.mem_append_right _ hx))
    have hFits := hNeed a _ hReads
    have hStart : a < (madtLength mem).toNat := hReads a (by simp [entryReads])
    have hTable := (madtLength mem).isLt
    have hByte := (entryLength mem a).isLt
    simp only [madtWalk, count_add, BitVec.lt_def, BitVec.toNat_ofNat] at h
    split at h
    · rename_i hLt
      -- the next entry is read as well, so the count has not wrapped
      have hNext : a + (entryLength mem a).toNat < (madtLength mem).toNat :=
        hLog _ (mem_log h _ (List.mem_append_right _ (by simp [entryReads])))
      have hChain := ih h
      rcases Nat.eq_zero_or_pos (entryLength mem a).toNat with hZero | hPos
      · rwa [hZero] at hChain
      · exact .next hFits hPos hNext hChain
    · rename_i hLt
      exact .last hFits (by omega) (by omega)

/-- A chain is walked to its end. -/
theorem run_of_chain
    (hNeed : ∀ a L, a + need (entryType mem a) ≤ L → ∀ x ∈ entryReads fields a, x < L)
    {a : Nat} (h : EntryChain mem need a) (s : σ) {log : List Nat}
    (hLog : ∀ x ∈ log, x < (madtLength mem).toNat) :
    ∃ fuel t log', madtWalk mem (logged visit fields) fuel (BitVec.ofNat 32 a) a (s, log) =
      some (t, log') ∧ ∀ x ∈ log', x < (madtLength mem).toNat := by
  have hAppend : ∀ a, a + need (entryType mem a) ≤ (madtLength mem).toNat → ∀ {log : List Nat},
      (∀ x ∈ log, x < (madtLength mem).toNat) →
      ∀ x ∈ log ++ entryReads fields a, x < (madtLength mem).toNat := by
    intro a hFits log hLog x hx
    rcases List.mem_append.mp hx with hx | hx
    · exact hLog x hx
    · exact hNeed a _ hFits x hx
  have hTable := (madtLength mem).isLt
  induction h generalizing s log with
  | @last a hFits hEnd hWrap =>
    refine ⟨1, visit a s, log ++ entryReads fields a, ?_, hAppend a hFits hLog⟩
    simp only [madtWalk, count_add, BitVec.lt_def, BitVec.toNat_ofNat]
    rw [if_neg (by omega)]
    rfl
  | @next a hFits hPos hLt _ ih =>
    obtain ⟨fuel, t, log', hRun, hLog'⟩ := ih (visit a s) (hAppend a hFits hLog)
    refine ⟨fuel + 1, t, log', ?_, hLog'⟩
    simp only [madtWalk, count_add, BitVec.lt_def, BitVec.toNat_ofNat]
    rw [if_pos (by omega)]
    exact hRun

/-- The memories on which a walk returns and stays in the table, for a visit that needs
`need` bytes of an entry. -/
theorem walkInTable_iff
    (hNeed : ∀ a L, (∀ x ∈ entryReads fields a, x < L) ↔ a + need (entryType mem a) ≤ L)
    (s : σ) : WalkInTable mem visit fields s ↔ EntryChain mem need madtHeaderSize := by
  constructor
  · rintro ⟨fuel, t, log, hRun, hLog⟩
    exact chain_of_run (fun a L => (hNeed a L).mp) hRun hLog
  · intro h
    apply run_of_chain (fun a L => (hNeed a L).mpr) h s
    intro x hx
    have hFits := h.need_le
    have hEntry := (hNeed madtHeaderSize _).mpr hFits madtHeaderSize (by simp [entryReads])
    simp only [lengthReads, mem_bytesAt, madtHeaderSize] at hx hEntry
    omega

end Bounds

end EnterpriseAcs.Acpi
