import EnterpriseAcs.Mpam.InterruptArrival

/-!
# The machine after an interrupt test

* `visit_por_cases`: how the visit of a node of i005 ends.
* `visitAll_por_iff`: what the requests for a partid out of range leave in `MPAM2_EL2`.
* `visitAllI008_spec`: the overflow test.
* `interrupt_tests_restore_iff`: when a test leaves the machine as it found it.
-/

namespace EnterpriseAcs.Mpam

/-! ## The accesses of the generators -/

/-- A generator that leaves `MPAM2_EL2` alone. -/
def KeepsMpam2 (g : Generator) : Prop :=
  ∀ access ∈ g.accesses, ∀ pe, (access pe).mpam2El2 = pe.mpam2El2

section Generators

variable (base : BitVec 64)

/-- Every generator enables the interrupt first. -/
theorem framed_of_tail {g : Generator} {rest : List Access}
    (hAccesses : g.accesses = enableIntr base :: rest)
    (hRest : ∀ access ∈ rest, ∀ pe, Frame {base} pe (access pe)) : Framed base g := by
  rw [Framed, hAccesses]
  exact List.forall_mem_cons.mpr ⟨fun pe => write_ecr_frame pe base 1, hRest⟩

theorem framed_of_last {g : Generator} {last : Access}
    (hAccesses : g.accesses = [enableIntr base, last])
    (hLast : ∀ pe, Frame {base} pe (last pe)) : Framed base g := by
  apply framed_of_tail base hAccesses
  intro access hAccess pe
  rw [List.mem_singleton.mp hAccess]
  exact hLast pe

theorem psr_framed : Framed base (valNodeGeneratePsrError base) :=
  framed_of_last base rfl fun pe => write_frame pe base _ (by decide) (by decide)

theorem msr_framed (monCount : BitVec 16) :
    Framed base (valNodeGenerateMsrError base monCount) :=
  framed_of_last base rfl fun pe => write_frame pe base _ (by decide) (by decide)

theorem por_framed : Framed base (valNodeGeneratePorError base) :=
  framed_of_last base rfl fun pe => writeMpam2_frame pe _

theorem pmgor_framed : Framed base (valNodeGeneratePmgorError base) :=
  framed_of_last base rfl fun pe => writeMpam2_frame pe _

theorem msmonConfig_framed (type : NodeType) (monCount : BitVec 16) :
    Framed base (valNodeGenerateMsmonConfigError type base monCount) := by
  have hEcr : filterReg type ≠ regMpamfEcr := by cases type <;> decide
  have hIdr : filterReg type ≠ regMpamfIdr := by cases type <;> decide
  apply framed_of_tail base rfl
  simp only [List.forall_mem_cons]
  exact ⟨fun pe => write_frame pe base _ (by decide) (by decide),
    fun pe => write_frame pe base _ hEcr hIdr, List.forall_mem_nil _⟩

theorem msmonOflow_framed (monCount : BitVec 16) :
    Framed base (valNodeGenerateMsmonOflowError base monCount) := by
  apply framed_of_tail base rfl
  simp only [List.forall_mem_cons]
  exact ⟨fun pe => write_frame pe base _ (by decide) (by decide),
    fun pe => write_frame pe base _ (by decide) (by decide),
    fun pe => write_frame pe base _ (by decide) (by decide),
    fun pe => write_frame pe base _ (by decide) (by decide), List.forall_mem_nil _⟩

theorem psr_keepsMpam2 : KeepsMpam2 (valNodeGeneratePsrError base) := by
  simp only [KeepsMpam2, valNodeGeneratePsrError, List.forall_mem_cons]
  exact ⟨fun _ => rfl, fun _ => rfl, List.forall_mem_nil _⟩

theorem msr_keepsMpam2 (monCount : BitVec 16) :
    KeepsMpam2 (valNodeGenerateMsrError base monCount) := by
  simp only [KeepsMpam2, valNodeGenerateMsrError, List.forall_mem_cons]
  exact ⟨fun _ => rfl, fun _ => rfl, List.forall_mem_nil _⟩

theorem msmonConfig_keepsMpam2 (type : NodeType) (monCount : BitVec 16) :
    KeepsMpam2 (valNodeGenerateMsmonConfigError type base monCount) := by
  simp only [KeepsMpam2, valNodeGenerateMsmonConfigError, List.forall_mem_cons]
  exact ⟨fun _ => rfl, fun _ => rfl, fun _ => rfl, List.forall_mem_nil _⟩

theorem unlessNoIntr_rule {P : Generator → Prop} {n : IntrNode} {g : Generator} (hg : P g)
    (g' : Generator) (h : unlessNoIntr n g = some g') : P g' := by
  unfold unlessNoIntr at h
  split at h
  · cases h
  · cases h
    exact hg

theorem unlessNoMonitor_rule {P : Generator → Prop} {n : IntrNode} {r : NodeRegs}
    {g : BitVec 16 → Generator} (hg : ∀ monCount, P (g monCount))
    (g' : Generator) (h : unlessNoMonitor n r g = some g') : P g' := by
  unfold unlessNoMonitor at h
  split at h
  · cases h
  · cases h
    exact hg _

end Generators

/-! ## The request for a partid out of range -/

section Requests

variable (env : IntrEnv)

/-- The bits that the request of a node sets in `MPAM2_EL2`. -/
def porBits (base : BitVec 64) (pe : PeState) : BitVec 64 :=
  (beyondPartid base pe <<< partidDShift).signExtend 64

/-- The visit of a node makes no request: the node has no error interrupt, the handler cannot be
installed, or the partids of the node exceed those of the PE. -/
def NoRequest (n : IntrNode) (pe : PeState) : Prop :=
  n.errorIntrNum = 0 ∨ installFails env n.errorIntrNum = true ∨
    valNodeGetPartid (pe.mmio n.base) > pePartidMax pe

/-- The bits of `a` are among those of `b`. -/
def Sub (a b : BitVec 64) : Prop := a ||| b = b

/-- The visit of a node makes no request, or one whose bits `MPAM2_EL2` has already. -/
def AddsNothing (n : IntrNode) (pe : PeState) : Prop :=
  NoRequest env n pe ∨ Sub (porBits n.base pe) pe.mpam2El2

/-- The node that the test enters at `time` gets its interrupt: `t` is the first time at which one
is taken once the status is pending, and the wait has not run out. -/
structure Answered (time t : Nat) : Prop extends FirstTaken env (time + 2) t where
  inTime : t < time + 5 + (timeoutLarge - 1)

/-- The test comes to a node: each one before it has no error interrupt, or makes its request and
gets its interrupt. -/
inductive Reaches (pe : PeState) : List IntrNode → Nat → IntrNode → Prop
  | here {n : IntrNode} {nodes : List IntrNode} {time : Nat} : Reaches pe (n :: nodes) time n
  | passed {n m : IntrNode} {nodes : List IntrNode} {time : Nat} (hIntr : n.errorIntrNum = 0)
      (hRest : Reaches pe nodes (time + 1) m) : Reaches pe (n :: nodes) time m
  | answered {n m : IntrNode} {nodes : List IntrNode} {time t : Nat}
      (hRequest : ¬ NoRequest env n pe) (hAnswer : Answered env time t)
      (hRest : Reaches pe nodes (max t (time + 5) + 2) m) : Reaches pe (n :: nodes) time m

theorem Sub.refl (a : BitVec 64) : Sub a a := BitVec.or_self

theorem Sub.trans {a b c : BitVec 64} (h : Sub a b) (h' : Sub b c) : Sub a c := by
  rw [Sub, ← h', ← BitVec.or_assoc, h]

theorem Sub.antisymm {a b : BitVec 64} (h : Sub a b) (h' : Sub b a) : a = b := by
  rw [← h', BitVec.or_comm, h]

theorem porMpam2_eq_iff (base : BitVec 64) (pe : PeState) :
    porMpam2 base pe = pe.mpam2El2 ↔ Sub (porBits base pe) pe.mpam2El2 := by
  rw [Sub, BitVec.or_comm]
  rfl

theorem read_idr_congr {pe pe' : PeState} (h : SameRegs pe pe') (base : BitVec 64) :
    (pe'.mmio base).read regMpamfIdr = (pe.mmio base).read regMpamfIdr := by
  have hSelector : selector regMpamfIdr = .none := by decide
  simp only [NodeRegs.read, hSelector, h.idr]

theorem por_skips_iff {pe pe' : PeState} (h : SameRegs pe pe') (base : BitVec 64) :
    (valNodeGeneratePorError base).skips pe' = true ↔
      valNodeGetPartid (pe.mmio base) > pePartidMax pe := by
  have hPartid : valNodeGetPartid (pe'.mmio base) = valNodeGetPartid (pe.mmio base) := by
    rw [valNodeGetPartid, valNodeGetPartid, read_idr_congr h]
  have hMax : pePartidMax pe' = pePartidMax pe := by
    rw [pePartidMax, pePartidMax, h.mpamidrEl1]
  rw [← hPartid, ← hMax]
  exact decide_eq_true_iff

theorem porMpam2_congr {pe pe' : PeState} (h : SameRegs pe pe')
    (hMpam2 : pe'.mpam2El2 = pe.mpam2El2) (base : BitVec 64) :
    porMpam2 base pe' = porMpam2 base pe := by
  rw [porMpam2, porMpam2, hMpam2, beyondPartid_congr base (read_idr_congr h base)]

theorem noRequest_congr {pe pe' : PeState} (h : SameRegs pe pe') (n : IntrNode) :
    NoRequest env n pe' ↔ NoRequest env n pe := by
  rw [NoRequest, NoRequest, ← por_skips_iff h, ← por_skips_iff (SameRegs.refl pe')]

/-- The condition on a node reads registers that the test leaves. -/
theorem addsNothing_congr {pe pe' : PeState} (h : SameRegs pe pe')
    (hMpam2 : pe'.mpam2El2 = pe.mpam2El2) (n : IntrNode) :
    AddsNothing env n pe' ↔ AddsNothing env n pe := by
  rw [AddsNothing, AddsNothing, noRequest_congr env h, ← porMpam2_eq_iff, ← porMpam2_eq_iff,
    porMpam2_congr h hMpam2, hMpam2]

/-- The accesses of the request, with interrupts between them. -/
theorem por_accesses_mpam2 (base : BitVec 64) (c : Cpu) :
    (c.accesses testi005 env (valNodeGeneratePorError base).accesses).pe.mpam2El2 =
      porMpam2 base c.pe := by
  have hFrame := frame_stable testi005 {base}
  have hMpam2 : Stable testi005 fun c c' => c'.pe.mpam2El2 = c.pe.mpam2El2 := mpam2_stable rfl
  have hIdr := hFrame.trans _ _ _
    (hFrame.access env (enableIntr base) (fun c => write_ecr_frame c.pe base 1) c)
    (hFrame.tick env _)
  have hBefore := hMpam2.trans _ _ _
    (hMpam2.access env (enableIntr base) (fun _ => rfl) c) (hMpam2.tick env _)
  have hRead : (((c.access testi005 env (enableIntr base)).tick testi005 env).pe.mmio base).read
      regMpamfIdr = (c.pe.mmio base).read regMpamfIdr := by
    have hSelector : selector regMpamfIdr = .none := by decide
    simp only [NodeRegs.read, hSelector]
    exact hIdr.idr base
  change porMpam2 base ((c.access testi005 env (enableIntr base)).tick testi005 env).pe = _
  rw [porMpam2, porMpam2, hBefore, beyondPartid_congr base hRead]

theorem chooseI005_framed (n : IntrNode) (r : NodeRegs) (g : Generator)
    (h : chooseI005 n r = some g) : Framed n.base g :=
  unlessNoIntr_rule (por_framed n.base) g h

/-- The whole request: after the accesses the test waits and restores `MPAMF_ECR`. -/
theorem raiseIntr_por_mpam2 (base : BitVec 64) (c : Cpu) :
    (raiseIntr testi005 env base (valNodeGeneratePorError base) c).2.pe.mpam2El2 =
      porMpam2 base c.pe := by
  have hStable : Stable testi005 fun c c' => c'.pe.mpam2El2 = c.pe.mpam2El2 := mpam2_stable rfl
  have hWaited := hStable.trans _ _ _ (hStable.poll env timeoutLarge
    (c.accesses testi005 env (valNodeGeneratePorError base).accesses))
    (hStable.access env (valNodeRestoreEcr base) (fun _ => rfl) _)
  exact hWaited.trans (por_accesses_mpam2 env base c)

/-- The state in which the generator is asked. -/
theorem saved_enter_spec (n : IntrNode) (c : Cpu) :
    SameRegs c.pe (saved testi005 env n.base (enter testi005 env n c)).pe ∧
      (saved testi005 env n.base (enter testi005 env n c)).pe.mpam2El2 = c.pe.mpam2El2 := by
  have hStable : Stable testi005 fun c c' => c'.pe.mpam2El2 = c.pe.mpam2El2 := mpam2_stable rfl
  have hEnter := Frame.sameRegs ((frame_stable testi005 ∅).enter env n c)
  exact ⟨hEnter.trans (saved_spec testi005 env n.base _).1,
    (hStable.saved env n.base (fun _ => rfl) _).trans (hStable.enter env n c)⟩

theorem visit_por_mpam2 (n : IntrNode) (c : Cpu) :
    (NoRequest env n c.pe ∧
      (visit testi005 env chooseI005 n c).2.pe.mpam2El2 = c.pe.mpam2El2) ∨
    ¬ NoRequest env n c.pe ∧
      (visit testi005 env chooseI005 n c).2.pe.mpam2El2 = porMpam2 n.base c.pe := by
  have hStable : Stable testi005 fun c c' => c'.pe.mpam2El2 = c.pe.mpam2El2 := mpam2_stable rfl
  have hEnter := hStable.enter env n c
  obtain ⟨hRegs, hMpam2⟩ := saved_enter_spec env n c
  have hSkips := por_skips_iff hRegs n.base
  have hHandler : testi005.handlerRestores = false := rfl
  rw [visit]
  by_cases hIntr : n.errorIntrNum = 0
  · have hChoose : chooseI005 n ((enter testi005 env n c).pe.mmio n.base) = none :=
      if_pos hIntr
    refine Or.inl ⟨Or.inl hIntr, ?_⟩
    simp only [hChoose]
    exact hEnter
  · have hChoose : chooseI005 n ((enter testi005 env n c).pe.mmio n.base) =
        some (valNodeGeneratePorError n.base) := if_neg hIntr
    by_cases hInstall : installFails env n.errorIntrNum = true
    · refine Or.inl ⟨Or.inr (Or.inl hInstall), ?_⟩
      simp only [hChoose, hInstall, if_true]
      exact hEnter
    · by_cases hSkip : valNodeGetPartid (c.pe.mmio n.base) > pePartidMax c.pe
      · refine Or.inl ⟨Or.inr (Or.inr hSkip), ?_⟩
        simp only [hChoose, hInstall, hSkips.mpr hSkip, hHandler, Bool.false_eq_true, if_true,
          if_false]
        exact hMpam2
      · have hRequest : ¬ NoRequest env n c.pe := by
          intro h
          rcases h with h | h | h
          · exact hIntr h
          · exact hInstall h
          · exact hSkip h
        have hPor := raiseIntr_por_mpam2 env n.base (saved testi005 env n.base
          (enter testi005 env n c))
        rw [porMpam2_congr hRegs hMpam2] at hPor
        refine Or.inr ⟨hRequest, ?_⟩
        simp only [hChoose, hInstall, mt hSkips.mp hSkip, hHandler, Bool.false_eq_true, if_false]
        split
        · exact hPor
        · exact hPor

/-- A visit sets bits of `MPAM2_EL2` and clears none. -/
theorem visit_por_sub (n : IntrNode) (c : Cpu) :
    Sub c.pe.mpam2El2 (visit testi005 env chooseI005 n c).2.pe.mpam2El2 := by
  obtain ⟨-, h⟩ | ⟨-, h⟩ := visit_por_mpam2 env n c
  · rw [h]
    exact Sub.refl _
  · rw [h, Sub, porMpam2, ← BitVec.or_assoc, BitVec.or_self]

theorem visit_addsNothing_iff (n : IntrNode) (c : Cpu) :
    (visit testi005 env chooseI005 n c).2.pe.mpam2El2 = c.pe.mpam2El2 ↔
      AddsNothing env n c.pe := by
  obtain ⟨hNone, h⟩ | ⟨hRequest, h⟩ := visit_por_mpam2 env n c
  · exact ⟨fun _ => Or.inl hNone, fun _ => h⟩
  · rw [h, porMpam2_eq_iff]
    exact ⟨fun hSame => Or.inr hSame, fun hAdds => hAdds.resolve_left hRequest⟩

theorem sub_stable : Stable testi005 fun c c' => Sub c.pe.mpam2El2 c'.pe.mpam2El2 where
  trans _ _ _ h h' := h.trans h'
  handler c := Sub.refl c.pe.mpam2El2
  bookkeeping c c' hPe _ := by
    rw [hPe]
    exact Sub.refl _

theorem visitAll_por_sub (nodes : List IntrNode) (intrCount : Bool) (c : Cpu) :
    Sub c.pe.mpam2El2 (visitAll testi005 env chooseI005 nodes intrCount c).pe.mpam2El2 :=
  visitAll_rule sub_stable (visit_por_sub env) nodes intrCount c

/-- How the visit of a node ends: it is passed over, the test returns, or the interrupt is
answered. -/
theorem visit_por_cases (n : IntrNode) (c : Cpu) :
    (n.errorIntrNum = 0 ∧ (visit testi005 env chooseI005 n c).1 = .passedOver ∧
        (visit testi005 env chooseI005 n c).2.time = c.time + 1) ∨
      (n.errorIntrNum ≠ 0 ∧ (¬ NoRequest env n c.pe → ∀ t, ¬ Answered env c.time t) ∧
        (visit testi005 env chooseI005 n c).1 = .stopped) ∨
      (¬ NoRequest env n c.pe ∧ ∃ t, Answered env c.time t ∧
        (visit testi005 env chooseI005 n c).1 = .visited ∧
        (visit testi005 env chooseI005 n c).2.time = max t (c.time + 5) + 2) := by
  have hEnter : (enter testi005 env n c).time = c.time + 1 := Cpu.tick_time _
  have hPass : isResultPending (resultPass testi005.num 1) = false := by decide
  obtain ⟨hArmed, hTime⟩ := saved_armed env hPass (by decide) n.base
    (enter testi005 env n c)
  have hSkips := por_skips_iff (saved_enter_spec env n c).1 n.base
  have hHandler : testi005.handlerRestores = false := rfl
  rw [visit]
  by_cases hIntr : n.errorIntrNum = 0
  · have hChoose : chooseI005 n ((enter testi005 env n c).pe.mmio n.base) = none := if_pos hIntr
    refine Or.inl ⟨hIntr, ?_, ?_⟩
    · simp only [hChoose]
    · simp only [hChoose]
      exact hEnter
  · have hChoose : chooseI005 n ((enter testi005 env n c).pe.mmio n.base) =
        some (valNodeGeneratePorError n.base) := if_neg hIntr
    by_cases hNone : NoRequest env n c.pe
    · refine Or.inr (Or.inl ⟨hIntr, fun hRequest => absurd hNone hRequest, ?_⟩)
      simp only [hChoose]
      split
      · rfl
      · rename_i hInstall
        have hSkip := hSkips.mpr ((hNone.resolve_left hIntr).resolve_left hInstall)
        simp only [hSkip, if_true]
    · have hInstall : ¬ installFails env n.errorIntrNum = true :=
        fun h => hNone (Or.inr (Or.inl h))
      have hSkip : ¬ (valNodeGeneratePorError n.base).skips
          (saved testi005 env n.base (enter testi005 env n c)).pe = true :=
        fun h => hNone (Or.inr (Or.inr (hSkips.mp h)))
      have hRaise := raiseIntr_armed hPass hArmed n.base (valNodeGeneratePorError n.base)
      have hLength : (valNodeGeneratePorError n.base).accesses.length = 2 := rfl
      rw [hTime, hEnter, hLength] at hRaise
      simp only [hChoose, hInstall, hSkip, hHandler, Bool.false_eq_true, if_false]
      obtain ⟨hOut, hAll⟩ | ⟨hIn, t, hFirst, hLt, hEnd⟩ := hRaise
      · refine Or.inr (Or.inl ⟨hIntr, fun _ t hAnswer => ?_, ?_⟩)
        · have hNot := hAll t hAnswer.le hAnswer.inTime
          rw [hAnswer.taken] at hNot
          cases hNot
        · rw [if_pos hOut]
      · refine Or.inr (Or.inr ⟨hNone, t, ⟨hFirst, hLt⟩, ?_, ?_⟩)
        · rw [if_neg hIn]
        · rw [if_neg hIn]
          exact hEnd

section Reach

variable {env} {pe : PeState} {n : IntrNode} {nodes : List IntrNode} {time : Nat}
  {P : IntrNode → Prop}

theorem Reaches.congr {pe' : PeState} (hSame : ∀ n, NoRequest env n pe' ↔ NoRequest env n pe)
    {m : IntrNode} (h : Reaches env pe nodes time m) : Reaches env pe' nodes time m := by
  induction h with
  | here => exact .here
  | passed hIntr _ ih => exact .passed hIntr ih
  | answered hRequest hAnswer _ ih => exact .answered (mt (hSame _).mp hRequest) hAnswer ih

theorem forall_reaches_passed (hIntr : n.errorIntrNum = 0) :
    (∀ m, Reaches env pe (n :: nodes) time m → P m) ↔
      P n ∧ ∀ m, Reaches env pe nodes (time + 1) m → P m := by
  constructor
  · intro h
    exact ⟨h n .here, fun m hm => h m (.passed hIntr hm)⟩
  · rintro ⟨hHead, hTail⟩ m hm
    cases hm with
    | here => exact hHead
    | passed _ hRest => exact hTail m hRest
    | answered hRequest _ _ => exact absurd (Or.inl hIntr) hRequest

theorem forall_reaches_answered (hRequest : ¬ NoRequest env n pe) {t : Nat}
    (hAnswer : Answered env time t) :
    (∀ m, Reaches env pe (n :: nodes) time m → P m) ↔
      P n ∧ ∀ m, Reaches env pe nodes (max t (time + 5) + 2) m → P m := by
  constructor
  · intro h
    exact ⟨h n .here, fun m hm => h m (.answered hRequest hAnswer hm)⟩
  · rintro ⟨hHead, hTail⟩ m hm
    cases hm with
    | here => exact hHead
    | passed hIntr _ => exact absurd (Or.inl hIntr) hRequest
    | answered _ hAnswer' hRest =>
      rw [hAnswer'.toFirstTaken.unique hAnswer.toFirstTaken] at hRest
      exact hTail m hRest

theorem forall_reaches_stopped (hIntr : n.errorIntrNum ≠ 0)
    (hNone : ¬ NoRequest env n pe → ∀ t, ¬ Answered env time t) :
    (∀ m, Reaches env pe (n :: nodes) time m → P m) ↔ P n := by
  constructor
  · intro h
    exact h n .here
  · intro hHead m hm
    cases hm with
    | here => exact hHead
    | passed hIntr' _ => exact absurd hIntr' hIntr
    | answered hRequest hAnswer _ => exact absurd hAnswer (hNone hRequest _)

end Reach

/-- The run leaves `MPAM2_EL2` exactly when no node that it comes to adds a bit. -/
theorem visitAll_por_iff (nodes : List IntrNode) (intrCount : Bool) (c : Cpu) :
    (visitAll testi005 env chooseI005 nodes intrCount c).pe.mpam2El2 = c.pe.mpam2El2 ↔
      ∀ n, Reaches env c.pe nodes c.time n → AddsNothing env n c.pe := by
  induction nodes generalizing intrCount c with
  | nil =>
    refine ⟨fun _ n hn => ?_, fun _ => rfl⟩
    cases hn
  | cons n nodes ih =>
    have hIff := visit_addsNothing_iff env n c
    have hHead := visit_por_sub env n c
    have hRegs := visit_sameRegs testi005 env chooseI005_framed n c
    have hCases := visit_por_cases env n c
    rw [visitAll]
    generalize visit testi005 env chooseI005 n c = out at hIff hHead hRegs hCases ⊢
    obtain ⟨how, c'⟩ := out
    have hRequests : ∀ m, NoRequest env m c'.pe ↔ NoRequest env m c.pe := noRequest_congr env hRegs
    -- The rest adds nothing to what the head leaves, and bits are never cleared.
    have hStep : ∀ count : Bool,
        (visitAll testi005 env chooseI005 nodes count c').pe.mpam2El2 = c.pe.mpam2El2 ↔
          AddsNothing env n c.pe ∧
            ∀ m, Reaches env c.pe nodes c'.time m → AddsNothing env m c.pe := by
      intro count
      rw [← hIff]
      apply Iff.intro
      · intro h
        have hTail := visitAll_por_sub env nodes count c'
        rw [h] at hTail
        have hSame := Sub.antisymm hTail hHead
        refine ⟨hSame, fun m hm => ?_⟩
        rw [← addsNothing_congr env hRegs hSame]
        exact (ih count c').mp (h.trans hSame.symm) m (hm.congr hRequests)
      · intro h
        refine Eq.trans ((ih count c').mpr fun m hm => ?_) h.1
        rw [addsNothing_congr env hRegs h.1]
        exact h.2 m (hm.congr fun m => (hRequests m).symm)
    obtain ⟨hIntr, rfl, hTime⟩ | ⟨hIntr, hNone, rfl⟩ | ⟨hRequest, t, hAnswer, rfl, hTime⟩ := hCases
    · rw [forall_reaches_passed hIntr]
      dsimp only at hTime
      rw [← hTime]
      exact hStep intrCount
    · rw [forall_reaches_stopped hIntr hNone]
      exact hIff
    · rw [forall_reaches_answered hRequest hAnswer]
      dsimp only at hTime
      rw [← hTime]
      exact hStep true

end Requests

/-! ## The overflow test -/

section OverflowRuns

variable (env : IntrEnv)

/-- What the visit of the node leaves; a visit that ends the test restores `MPAM2_EL2`. -/
theorem visitI008_spec (n : IntrNode) (monCount : BitVec 16) (c : Cpu) :
    SameRegs c.pe (visitI008 env n monCount c).2.pe ∧
      (visitI008 env n monCount c).2.mpam2El2Temp = c.mpam2El2Temp ∧
      ((visitI008 env n monCount c).1 = .stopped →
        (visitI008 env n monCount c).2.pe.mpam2El2 = c.mpam2El2Temp) := by
  have hStable := temp_stable testi008
  obtain ⟨hBefore, hSaved⟩ := saved_spec testi008 env n.base c
  have hTempSaved := hStable.saved env n.base (fun _ => rfl) c
  have hRaised := raiseIntr_sameRegs testi008 env (msmonOflow_framed n.base monCount) hSaved
  have hTempRaised := hStable.raiseIntr env n.base (valNodeGenerateMsmonOflowError n.base monCount)
    (fun _ _ _ => rfl) (fun _ => rfl) (saved testi008 env n.base c)
  have hStopped : ∀ c' : Cpu, SameRegs c.pe c'.pe → c'.mpam2El2Temp = c.mpam2El2Temp →
      SameRegs c.pe (restoreMpam2 testi008 env c').pe ∧
        (restoreMpam2 testi008 env c').mpam2El2Temp = c.mpam2El2Temp ∧
        (restoreMpam2 testi008 env c').pe.mpam2El2 = c.mpam2El2Temp := by
    intro c' hRegs hTemp
    obtain ⟨hMpam2, hSame⟩ := restoreMpam2_spec testi008 env c'
    exact ⟨hRegs.trans (restoreMpam2_sameRegs testi008 env c'), hSame.trans hTemp,
      hMpam2.trans hTemp⟩
  rw [visitI008]
  dsimp only
  split
  · exact ⟨SameRegs.refl _, rfl, fun h => by cases h⟩
  · split
    · obtain ⟨hRegs, hTemp, hMpam2⟩ := hStopped
        { c with status := resultFail testi008.num 2 } (SameRegs.refl _) rfl
      exact ⟨hRegs, hTemp, fun _ => hMpam2⟩
    · generalize raiseIntr testi008 env n.base (valNodeGenerateMsmonOflowError n.base monCount)
        (saved testi008 env n.base c) = raised at hRaised hTempRaised ⊢
      split
      · obtain ⟨hRegs, hTemp, hMpam2⟩ := hStopped
          { raised.2 with status := resultFail testi008.num 2 } (hBefore.trans hRaised)
          (hTempRaised.trans hTempSaved)
        exact ⟨hRegs, hTemp, fun _ => hMpam2⟩
      · exact ⟨hBefore.trans hRaised, hTempRaised.trans hTempSaved, fun h => by cases h⟩

/-- However the loop ends, `MPAM2_EL2` is the saved one. -/
theorem visitAllI008_spec (n : IntrNode) (count : Nat) (monCount : BitVec 16)
    (intrCount : Bool) (c : Cpu) :
    SameRegs c.pe (visitAllI008 env n count monCount intrCount c).pe ∧
      (visitAllI008 env n count monCount intrCount c).pe.mpam2El2 = c.mpam2El2Temp := by
  induction count generalizing monCount intrCount c with
  | zero => exact ⟨restoreMpam2_sameRegs testi008 env c, rfl⟩
  | succ count ih =>
    have hEnter : SameRegs c.pe (enter testi008 env n c).pe :=
      Frame.sameRegs ((frame_stable testi008 ∅).enter env n c)
    have hTempEnter := (temp_stable testi008).enter env n c
    rw [visitAllI008]
    generalize assignMonCount ((enter testi008 env n c).pe.mmio n.base) monCount = monCount'
    obtain ⟨hRegs, hTemp, hStopped⟩ := visitI008_spec env n monCount' (enter testi008 env n c)
    generalize visitI008 env n monCount' (enter testi008 env n c) = out at hRegs hTemp hStopped ⊢
    obtain ⟨how, c'⟩ := out
    have hHead : SameRegs c.pe c'.pe := hEnter.trans hRegs
    have hHeadTemp : c'.mpam2El2Temp = c.mpam2El2Temp := hTemp.trans hTempEnter
    cases how with
    | passedOver =>
      obtain ⟨hTail, hMpam2⟩ := ih monCount' intrCount c'
      exact ⟨hHead.trans hTail, hMpam2.trans hHeadTemp⟩
    | visited =>
      obtain ⟨hTail, hMpam2⟩ := ih monCount' true c'
      exact ⟨hHead.trans hTail, hMpam2.trans hHeadTemp⟩
    | stopped => exact ⟨hHead, (hStopped rfl).trans hTempEnter⟩

end OverflowRuns

/-! ## The machine after a test -/

/-- The tests of this group. -/
inductive InterruptTest
  | i003
  | i004
  | i005
  | i006
  | i007
  | i008
  deriving DecidableEq, Repr

def runPayload (id : InterruptTest) (env : IntrEnv) (nodes : List IntrNode)
    (monCount : BitVec 16) (pe : PeState) : Cpu :=
  match id with
  | .i003 => payloadI003 env nodes pe
  | .i004 => payloadI004 env nodes pe
  | .i005 => payloadI005 env nodes pe
  | .i006 => payloadI006 env nodes pe
  | .i007 => payloadI007 env nodes pe
  | .i008 => payloadI008 env nodes monCount pe

/-- `MPAM2_EL2` and `MPAMF_ECR` of every page are as before. -/
structure Restored (pe pe' : PeState) : Prop where
  mpam2 : pe'.mpam2El2 = pe.mpam2El2
  ecr : ∀ base, ecrOf pe' base = ecrOf pe base

section Runs

variable (env : IntrEnv) (nodes : List IntrNode) (pe : PeState)

theorem visitAll_sameRegs {test : IntrTest} {choose : Chooser}
    (hChoose : ∀ n r g, choose n r = some g → Framed n.base g) (intrCount : Bool) (c : Cpu) :
    SameRegs c.pe (visitAll test env choose nodes intrCount c).pe :=
  visitAll_rule (sameRegs_stable test) (visit_sameRegs test env hChoose) nodes intrCount c

/-- A test that never writes `MPAM2_EL2`. -/
theorem visitAll_restored {test : IntrTest} (hTest : test.handlerRestores = false)
    {choose : Chooser}
    (hFramed : ∀ n r g, choose n r = some g → Framed n.base g)
    (hKeeps : ∀ n r g, choose n r = some g → KeepsMpam2 g) :
    Restored pe (visitAll test env choose nodes false (Cpu.start pe)).pe where
  mpam2 := visitAll_rule (mpam2_stable hTest) (visit_keepsMpam2 env hTest hKeeps) nodes false
    (Cpu.start pe)
  ecr := (visitAll_sameRegs env nodes hFramed false (Cpu.start pe)).ecr

theorem payloadI003_restored : Restored pe (payloadI003 env nodes pe).pe :=
  visitAll_restored env nodes pe rfl
    (fun n _ => unlessNoIntr_rule (psr_framed n.base))
    (fun n _ => unlessNoIntr_rule (psr_keepsMpam2 n.base))

theorem payloadI004_restored : Restored pe (payloadI004 env nodes pe).pe :=
  visitAll_restored env nodes pe rfl
    (fun n _ => unlessNoMonitor_rule (msr_framed n.base))
    (fun n _ => unlessNoMonitor_rule (msr_keepsMpam2 n.base))

theorem payloadI005_restored_iff :
    Restored pe (payloadI005 env nodes pe).pe ↔
      ∀ n, Reaches env pe nodes 0 n → AddsNothing env n pe := by
  have hIff := visitAll_por_iff env nodes false (Cpu.start pe)
  have hRegs : SameRegs pe (payloadI005 env nodes pe).pe :=
    visitAll_sameRegs env nodes chooseI005_framed false (Cpu.start pe)
  exact ⟨fun h => hIff.mp h.mpam2, fun h => ⟨hIff.mpr h, hRegs.ecr⟩⟩

theorem payloadI006_restored : Restored pe (payloadI006 env nodes pe).pe where
  mpam2 := (visitAll_rule (restored_stable rfl)
    (fun n _ h => visit_restoresMpam2 env rfl chooseI006 n h) nodes false
    { Cpu.start pe with mpam2El2Temp := pe.mpam2El2 } rfl).1
  ecr := (visitAll_sameRegs env nodes (fun n _ => unlessNoIntr_rule (pmgor_framed n.base)) false
    { Cpu.start pe with mpam2El2Temp := pe.mpam2El2 }).ecr

theorem payloadI007_restored : Restored pe (payloadI007 env nodes pe).pe :=
  visitAll_restored env nodes pe rfl
    (fun n _ => unlessNoMonitor_rule (msmonConfig_framed n.base n.type))
    (fun n _ => unlessNoMonitor_rule (msmonConfig_keepsMpam2 n.base n.type))

theorem payloadI008_restored (monCount : BitVec 16) :
    Restored pe (payloadI008 env nodes monCount pe).pe := by
  have hDefault := (frame_stable testi008 ∅).access env
    (fun pe => pe.writeMpam2 (defaultMpam2 pe.mpam2El2)) (fun _ => writeMpam2_frame _ _)
    { Cpu.start pe with mpam2El2Temp := pe.mpam2El2 }
  rw [payloadI008]
  dsimp only
  split
  · have hRestore := restoreMpam2_sameRegs testi008 env (Cpu.access testi008 env
      { Cpu.start pe with mpam2El2Temp := pe.mpam2El2 }
      fun pe => pe.writeMpam2 (defaultMpam2 pe.mpam2El2))
    exact ⟨rfl, (hDefault.sameRegs.trans hRestore).ecr⟩
  · rename_i n rest _
    obtain ⟨hLoop, hMpam2⟩ := visitAllI008_spec env n (rest.length + 1) monCount false
      (Cpu.access testi008 env { Cpu.start pe with mpam2El2Temp := pe.mpam2El2 }
        fun pe => pe.writeMpam2 (defaultMpam2 pe.mpam2El2))
    exact ⟨hMpam2, (hDefault.sameRegs.trans hLoop).ecr⟩

end Runs

/-- A test leaves `MPAM2_EL2` and every `MPAMF_ECR` as they were. Only i005 may not: what it
requests stays in `MPAM2_EL2`. -/
theorem interrupt_tests_restore_iff (id : InterruptTest) (env : IntrEnv)
    (nodes : List IntrNode) (monCount : BitVec 16) (pe : PeState) :
    Restored pe (runPayload id env nodes monCount pe).pe ↔
      (id = .i005 → ∀ n, Reaches env pe nodes 0 n → AddsNothing env n pe) := by
  cases id with
  | i003 => exact iff_of_true (payloadI003_restored env nodes pe) (fun h => nomatch h)
  | i004 => exact iff_of_true (payloadI004_restored env nodes pe) (fun h => nomatch h)
  | i005 => exact (payloadI005_restored_iff env nodes pe).trans ⟨fun h _ => h, fun h => h rfl⟩
  | i006 => exact iff_of_true (payloadI006_restored env nodes pe) (fun h => nomatch h)
  | i007 => exact iff_of_true (payloadI007_restored env nodes pe) (fun h => nomatch h)
  | i008 => exact iff_of_true (payloadI008_restored env nodes pe monCount) (fun h => nomatch h)

/-- A cache node with 64 partids whose error interrupt is 40. -/
def cacheNode : IntrNode := ⟨.cache, 0x10000, 40, 0⟩

/-- A PE with 128 partids, and `MPAM2_EL2` zero. -/
def quietPe : PeState where
  mpam2El2 := 0
  mpamidrEl1 := 127
  mmio _ := { plain := fun offset => if offset = regMpamfIdr then 63 else 0
              byPartid := fun _ _ => 0
              byMonitor := fun _ _ => 0 }
  errCtrlReg := 0
  csuCtlTemp := 0

/-- The partid 64 stays in `MPAM2_EL2`. -/
theorem request_left_behind :
    ¬ Restored quietPe (runPayload .i005 ⟨fun _ => true, 1020⟩ [cacheNode] 0 quietPe).pe := by
  intro h
  have hIff := visitAll_por_iff ⟨fun _ => true, 1020⟩ [cacheNode] false (Cpu.start quietPe)
  rcases hIff.mp h.mpam2 cacheNode .here with hNone | hSub
  · rcases hNone with hIntr | hInstall | hPartid
    · exact absurd hIntr (by decide)
    · exact absurd hInstall (by decide)
    · exact absurd hPartid (by decide)
  · exact absurd (show porBits cacheNode.base quietPe ||| 0 = 0 from hSub) (by decide)

end EnterpriseAcs.Mpam
