import EnterpriseAcs.Mpam.Dispatch
import EnterpriseAcs.Mpam.ErrorInjection
import EnterpriseAcs.Mpam.TestSuite

/-!
# The interrupt tests

Each test goes over the nodes, makes one of them raise an interrupt, waits for the handler and
restores the error control register of the node. An interrupt can arrive before any access
once the handler is installed; which ones do is a parameter.

* `visit_sameRegs`: the control registers of all nodes, after the visit of one.
* `visit_keepsMpam2`, `visit_restoresMpam2`: `MPAM2_EL2` after the visit of a node.
* `visitAll_rule`: what the visit of a node keeps, the loop keeps.
-/

namespace EnterpriseAcs.Mpam

/-! ## The machine during a test -/

/-- What `g_mpam_info_table` says about a node. -/
structure IntrNode where
  type : NodeType
  base : BitVec 64
  errorIntrNum : BitVec 32
  overflowIntrNum : BitVec 32

/-- A test's number, and whether its handler writes `mpam2_el2_temp` back. -/
structure IntrTest where
  num : BitVec 32
  handlerRestores : Bool

/-- Before which accesses an interrupt is taken, and `val_get_max_intid`. -/
structure IntrEnv where
  taken : Nat → Bool
  maxIntid : BitVec 32

/-- The registers, the number of accesses so far, whether the handler is installed, the status of
the executing PE, and the static variables of the test: the page of the current node and
`mpam2_el2_temp`. -/
structure Cpu where
  pe : PeState
  time : Nat
  installed : Bool
  status : BitVec 32
  nodeBase : BitVec 64
  mpam2El2Temp : BitVec 64

section Steps

variable (test : IntrTest) (env : IntrEnv)

/-- `intr_handler`. -/
def intrHandler (c : Cpu) : Cpu :=
  { c with
    status := resultPass test.num 1
    pe :=
      let pe := valNodeClearIntr c.nodeBase c.pe
      if test.handlerRestores then pe.writeMpam2 c.mpam2El2Temp else pe }

/-- A point at which an interrupt may be taken. -/
def Cpu.tick (c : Cpu) : Cpu :=
  let c := if c.installed ∧ env.taken c.time then intrHandler test c else c
  { c with time := c.time + 1 }

def Cpu.access (c : Cpu) (access : Access) : Cpu :=
  let c := c.tick test env
  { c with pe := access c.pe }

/-- The accesses of a generator, with interrupts between them. -/
def Cpu.accesses (c : Cpu) (accesses : List Access) : Cpu :=
  accesses.foldl (Cpu.access test env) c

/-- `while ((--timeout > 0) && (IS_RESULT_PENDING(val_get_status(pe_index))))`, and the value
that `timeout` ends with. -/
def poll : Nat → Cpu → Nat × Cpu
  | 0, c => (0, c)
  | timeout + 1, c =>
    if timeout = 0 then (0, c)
    else
      let c := c.tick test env
      if isResultPending c.status then poll timeout c else (timeout, c)

/-- `val_gic_install_isr` fails on numbers that the distributor has not. -/
def installFails (intrNum : BitVec 32) : Bool := intrNum > env.maxIntid ∨ intrNum = 0

/-- Install the handler, route the interrupt and set the status to pending. -/
def armIntr (c : Cpu) : Cpu :=
  let c := { c with installed := true }.tick test env
  { c with status := resultPending test.num }

/-- The part of a visit before the error: arm the interrupt and save `MPAMF_ECR`. -/
def saved (base : BitVec 64) (c : Cpu) : Cpu :=
  (armIntr test env c).access test env (saveEcr base)

/-! ## The tests i003 to i007 -/

/-- How the visit of a node ends: the node is passed over, it raised its interrupt, or the test
returns. -/
inductive Visit
  | passedOver
  | visited
  | stopped
  deriving DecidableEq, Repr

/-- The number of monitors, 0 where there are none. -/
def monCountOf (n : IntrNode) (r : NodeRegs) : BitVec 16 :=
  if valNodeSupportsMon r then
    match n.type with
    | .cache => if valCacheSupportsCsumon r then valCsumonMonitorCount r else 0
    | .memory => if valMemorySupportsMbwumon r then valMemoryMonCount r else 0
  else 0

/-- The generator of a test for a node, none if the test passes the node over. -/
abbrev Chooser := IntrNode → NodeRegs → Option Generator

/-- Raise the interrupt of a node, wait for it and restore `MPAMF_ECR`; the value is what is left
of the timeout. -/
def raiseIntr (base : BitVec 64) (g : Generator) (c : Cpu) : Nat × Cpu :=
  let (timeout, c) := poll test env timeoutLarge (c.accesses test env g.accesses)
  (timeout, c.access test env (valNodeRestoreEcr base))

/-- Write `mpam2_el2_temp` back to `MPAM2_EL2`. -/
def restoreMpam2 (c : Cpu) : Cpu := c.access test env fun pe => pe.writeMpam2 c.mpam2El2Temp

/-- The node becomes the current one, and its registers are read. -/
def enter (n : IntrNode) (c : Cpu) : Cpu := Cpu.tick test env { c with nodeBase := n.base }

/-- The body of the loop. -/
def visit (choose : Chooser) (n : IntrNode) (c : Cpu) : Visit × Cpu :=
  let c := enter test env n c
  match choose n (c.pe.mmio n.base) with
  | none => (.passedOver, c)
  | some g =>
    if installFails env n.errorIntrNum then
      (.stopped, { c with status := resultFail test.num 2 })
    else
      let c := saved test env n.base c
      if g.skips c.pe then
        let c := if test.handlerRestores then restoreMpam2 test env c else c
        (.stopped, { c with status := resultSkip test.num 2 })
      else
        let (timeout, c) := raiseIntr test env n.base g c
        let c := if test.handlerRestores then restoreMpam2 test env c else c
        if timeout = 0 then (.stopped, { c with status := resultFail test.num 2 })
        else (.visited, c)

/-- The verdict after the loop; `intrCount` tells whether a node was counted. -/
def finish (intrCount : Bool) (c : Cpu) : Cpu :=
  { c with status := if intrCount then resultPass test.num 1 else resultSkip test.num 0 }

/-- The loop over the nodes. -/
def visitAll (choose : Chooser) : List IntrNode → Bool → Cpu → Cpu
  | [], intrCount, c => finish test intrCount c
  | n :: nodes, intrCount, c =>
    match visit test env choose n c with
    | (.passedOver, c) => visitAll choose nodes intrCount c
    | (.visited, c) => visitAll choose nodes true c
    | (.stopped, c) => c

end Steps

/-- The machine when a payload starts. -/
def Cpu.start (pe : PeState) : Cpu where
  pe := pe
  time := 0
  installed := false
  status := 0
  nodeBase := 0
  mpam2El2Temp := 0

/-- A node without an error interrupt is passed over. -/
def unlessNoIntr (n : IntrNode) (g : Generator) : Option Generator :=
  if n.errorIntrNum = 0 then none else some g

/-- So is one without monitors. -/
def unlessNoMonitor (n : IntrNode) (r : NodeRegs) (g : BitVec 16 → Generator) :
    Option Generator :=
  if n.errorIntrNum = 0 ∨ monCountOf n r = 0 then none else some (g (monCountOf n r))

section Payloads

variable (env : IntrEnv) (nodes : List IntrNode) (pe : PeState)

def testi003 : IntrTest := ⟨acsIntrTestNumBase + 3, false⟩
def testi004 : IntrTest := ⟨acsIntrTestNumBase + 4, false⟩
def testi005 : IntrTest := ⟨acsIntrTestNumBase + 5, false⟩
def testi006 : IntrTest := ⟨acsIntrTestNumBase + 6, true⟩
def testi007 : IntrTest := ⟨acsIntrTestNumBase + 7, false⟩
def testi008 : IntrTest := ⟨acsIntrTestNumBase + 8, false⟩

def chooseI003 : Chooser := fun n _ => unlessNoIntr n (valNodeGeneratePsrError n.base)
def chooseI004 : Chooser := fun n r => unlessNoMonitor n r (valNodeGenerateMsrError n.base)
def chooseI005 : Chooser := fun n _ => unlessNoIntr n (valNodeGeneratePorError n.base)
def chooseI006 : Chooser := fun n _ => unlessNoIntr n (valNodeGeneratePmgorError n.base)
def chooseI007 : Chooser :=
  fun n r => unlessNoMonitor n r (valNodeGenerateMsmonConfigError n.type n.base)

def payloadI003 : Cpu := visitAll testi003 env chooseI003 nodes false (Cpu.start pe)

def payloadI004 : Cpu := visitAll testi004 env chooseI004 nodes false (Cpu.start pe)

def payloadI005 : Cpu := visitAll testi005 env chooseI005 nodes false (Cpu.start pe)

/-- It saves `MPAM2_EL2` before the loop. -/
def payloadI006 : Cpu :=
  visitAll testi006 env chooseI006 nodes false
    { Cpu.start pe with mpam2El2Temp := pe.mpam2El2 }

def payloadI007 : Cpu := visitAll testi007 env chooseI007 nodes false (Cpu.start pe)

end Payloads

/-! ## The test i008 -/

section Overflow

variable (env : IntrEnv)

/-- `mon_count` once the registers of a node are read; without monitors it stays. -/
def assignMonCount (r : NodeRegs) (monCount : BitVec 16) : BitVec 16 :=
  if valNodeSupportsMon r then
    if valMemorySupportsMbwumon r then valMemoryMonCount r else 0
  else monCount

/-- The body of the loop, from the count of monitors on. -/
def visitI008 (n : IntrNode) (monCount : BitVec 16) (c : Cpu) : Visit × Cpu :=
  if n.overflowIntrNum = 0 ∨ monCount = 0 then (.passedOver, c)
  else if installFails env n.overflowIntrNum then
    (.stopped, restoreMpam2 testi008 env { c with status := resultFail testi008.num 2 })
  else
    let c := saved testi008 env n.base c
    let (timeout, c) :=
      raiseIntr testi008 env n.base (valNodeGenerateMsmonOflowError n.base monCount) c
    if timeout = 0 then
      (.stopped, restoreMpam2 testi008 env { c with status := resultFail testi008.num 2 })
    else (.visited, c)

/-- The loop runs once for each memory node, and its body is always about the first one: nothing
assigns `node_index`. -/
def visitAllI008 (n : IntrNode) : Nat → BitVec 16 → Bool → Cpu → Cpu
  | 0, _, intrCount, c => finish testi008 intrCount (restoreMpam2 testi008 env c)
  | count + 1, monCount, intrCount, c =>
    let c := enter testi008 env n c
    let monCount := assignMonCount (c.pe.mmio n.base) monCount
    match visitI008 env n monCount c with
    | (.passedOver, c) => visitAllI008 n count monCount intrCount c
    | (.visited, c) => visitAllI008 n count monCount true c
    | (.stopped, c) => c

/-- `MPAM2_EL2` with the default partid and PMG. -/
def defaultMpam2 (mpam2El2 : BitVec 64) : BitVec 64 :=
  let mpam2El2 := clearBitsMToN mpam2El2 (partidDShift + 15) partidDShift
  let mpam2El2 := clearBitsMToN mpam2El2 (pmgDShift + 7) pmgDShift
  mpam2El2 ||| (defaultPmg.setWidth 64 <<< pmgDShift ||| defaultPmg.setWidth 64 <<< partidDShift)

/-- The payload saves `MPAM2_EL2` and writes the defaults; `monCount` is what the local variable
holds before it is assigned. -/
def payloadI008 (nodes : List IntrNode) (monCount : BitVec 16) (pe : PeState) : Cpu :=
  let c := { Cpu.start pe with mpam2El2Temp := pe.mpam2El2 }
  let c := c.access testi008 env fun pe => pe.writeMpam2 (defaultMpam2 pe.mpam2El2)
  match nodes.filter fun n => n.type = .memory with
  | [] => finish testi008 false (restoreMpam2 testi008 env c)
  | n :: rest => visitAllI008 env n (rest.length + 1) monCount false c

end Overflow

/-! ## What accesses leave -/

/-- `MPAMF_ECR` of a page. -/
def ecrOf (pe : PeState) (base : BitVec 64) : BitVec 32 := (pe.mmio base).plain regMpamfEcr

/-- The ID registers, the saved control register, and `MPAMF_ECR` of the pages outside `changed`
are as before. -/
structure Frame (changed : Set (BitVec 64)) (pe pe' : PeState) : Prop where
  ecr : ∀ base ∉ changed, ecrOf pe' base = ecrOf pe base
  idr : ∀ base, (pe'.mmio base).plain regMpamfIdr = (pe.mmio base).plain regMpamfIdr
  mpamidrEl1 : pe'.mpamidrEl1 = pe.mpamidrEl1
  errCtrlReg : pe'.errCtrlReg = pe.errCtrlReg

section Frames

variable {changed : Set (BitVec 64)}

theorem Frame.refl (pe : PeState) : Frame changed pe pe :=
  ⟨fun _ _ => rfl, fun _ => rfl, rfl, rfl⟩

theorem Frame.trans {a b c : PeState} (h : Frame changed a b) (h' : Frame changed b c) :
    Frame changed a c :=
  ⟨fun base hBase => (h'.ecr base hBase).trans (h.ecr base hBase),
    fun base => (h'.idr base).trans (h.idr base), h'.mpamidrEl1.trans h.mpamidrEl1,
    h'.errCtrlReg.trans h.errCtrlReg⟩

theorem writeMpam2_frame (pe : PeState) (value : BitVec 64) :
    Frame changed pe (pe.writeMpam2 value) :=
  ⟨fun _ _ => rfl, fun _ => rfl, rfl, rfl⟩

theorem write_frame (pe : PeState) (base : BitVec 64) {offset : Nat} (value : BitVec 32)
    (hEcr : offset ≠ regMpamfEcr) (hIdr : offset ≠ regMpamfIdr) :
    Frame changed pe (pe.write base offset value) := by
  refine ⟨fun base' _ => ?_, fun base' => ?_, rfl, rfl⟩
  · rw [ecrOf, plain_write_at, if_neg fun h => hEcr h.2.1.symm]
    rfl
  · rw [plain_write_at, if_neg fun h => hIdr h.2.1.symm]

theorem write_ecr_frame (pe : PeState) (base : BitVec 64) (value : BitVec 32) :
    Frame {base} pe (pe.write base regMpamfEcr value) := by
  refine ⟨fun base' hBase => ?_, fun base' => ?_, rfl, rfl⟩
  · rw [ecrOf, plain_write_at, if_neg fun h => hBase h.1]
    rfl
  · rw [plain_write_at, if_neg fun h => absurd h.2.1 (by decide)]

/-- A generator whose accesses change `MPAMF_ECR` of the page alone. -/
def Framed (base : BitVec 64) (g : Generator) : Prop :=
  ∀ access ∈ g.accesses, ∀ pe, Frame {base} pe (access pe)

end Frames

/-! ## What a stretch of the test leaves -/

/-- A relation between two states that the handler and the bookkeeping of the test keep. -/
structure Stable (test : IntrTest) (R : Cpu → Cpu → Prop) : Prop where
  trans : ∀ a b c, R a b → R b c → R a c
  handler : ∀ c, R c (intrHandler test c)
  bookkeeping : ∀ c c', c'.pe = c.pe → c'.mpam2El2Temp = c.mpam2El2Temp → R c c'

section Stretches

variable {test : IntrTest} {R : Cpu → Cpu → Prop} (env : IntrEnv)

theorem Stable.refl (h : Stable test R) (c : Cpu) : R c c := h.bookkeeping c c rfl rfl

theorem Stable.tick (h : Stable test R) (c : Cpu) : R c (c.tick test env) := by
  unfold Cpu.tick
  dsimp only
  split
  · exact h.trans _ _ _ (h.handler c) (h.bookkeeping _ _ rfl rfl)
  · exact h.bookkeeping _ _ rfl rfl

theorem Stable.enter (h : Stable test R) (n : IntrNode) (c : Cpu) : R c (enter test env n c) :=
  h.trans _ _ _ (h.bookkeeping c { c with nodeBase := n.base } rfl rfl) (h.tick env _)

theorem Stable.access (h : Stable test R) (access : Access)
    (hAccess : ∀ c : Cpu, R c { c with pe := access c.pe }) (c : Cpu) :
    R c (c.access test env access) :=
  h.trans _ _ _ (h.tick env c) (hAccess _)

theorem Stable.accesses (h : Stable test R) {accesses : List Access}
    (hAccesses : ∀ access ∈ accesses, ∀ c : Cpu, R c { c with pe := access c.pe }) (c : Cpu) :
    R c (c.accesses test env accesses) := by
  induction accesses generalizing c with
  | nil => exact h.refl c
  | cons access accesses ih =>
    have hHead := h.access env access (hAccesses access List.mem_cons_self) c
    exact h.trans _ _ _ hHead (ih (fun a ha => hAccesses a (List.mem_cons_of_mem access ha)) _)

theorem Stable.poll (h : Stable test R) (timeout : Nat) (c : Cpu) :
    R c (poll test env timeout c).2 := by
  induction timeout generalizing c with
  | zero => exact h.refl c
  | succ timeout ih =>
    have hTick := h.tick env c
    rw [Mpam.poll]
    split
    · exact h.refl c
    · dsimp only
      split
      · exact h.trans _ _ _ hTick (ih _)
      · exact hTick

theorem Stable.armIntr (h : Stable test R) (c : Cpu) : R c (armIntr test env c) :=
  h.trans _ _ _ (h.bookkeeping c { c with installed := true } rfl rfl)
    (h.trans _ _ _ (h.tick env _) (h.bookkeeping _ _ rfl rfl))

theorem Stable.saved (h : Stable test R) (base : BitVec 64)
    (hSave : ∀ c : Cpu, R c { c with pe := saveEcr base c.pe }) (c : Cpu) :
    R c (saved test env base c) :=
  h.trans _ _ _ (h.armIntr env c) (h.access env _ hSave _)

theorem Stable.raiseIntr (h : Stable test R) (base : BitVec 64) (g : Generator)
    (hAccesses : ∀ access ∈ g.accesses, ∀ c : Cpu, R c { c with pe := access c.pe })
    (hRestore : ∀ c : Cpu, R c { c with pe := valNodeRestoreEcr base c.pe }) (c : Cpu) :
    R c (raiseIntr test env base g c).2 := by
  have hRaised := h.trans _ _ _ (h.accesses env hAccesses c) (h.poll env timeoutLarge _)
  exact h.trans _ _ _ hRaised (h.access env _ hRestore _)

end Stretches

theorem frame_stable (test : IntrTest) (changed : Set (BitVec 64)) :
    Stable test fun c c' => Frame changed c.pe c'.pe where
  trans _ _ _ h h' := h.trans h'
  handler c := by
    have hClear : Frame changed c.pe (valNodeClearIntr c.nodeBase c.pe) :=
      write_frame c.pe c.nodeBase 0 (by decide) (by decide)
    unfold intrHandler
    dsimp only
    split
    · exact hClear.trans (writeMpam2_frame _ _)
    · exact hClear
  bookkeeping c c' hPe _ := by
    rw [hPe]
    exact Frame.refl _

/-- The saved `MPAM2_EL2` is never assigned after the start. -/
theorem temp_stable (test : IntrTest) :
    Stable test fun c c' => c'.mpam2El2Temp = c.mpam2El2Temp where
  trans _ _ _ h h' := h'.trans h
  handler _ := rfl
  bookkeeping _ _ _ h := h

/-- A handler that does not restore `MPAM2_EL2` does not write it. -/
theorem mpam2_stable {test : IntrTest} (h : test.handlerRestores = false) :
    Stable test fun c c' => c'.pe.mpam2El2 = c.pe.mpam2El2 where
  trans _ _ _ h h' := h'.trans h
  handler c := by
    rw [intrHandler, h]
    rfl
  bookkeeping _ _ hPe _ := by rw [hPe]

/-! ## One node -/

/-- Every control register and ID register is as before. -/
structure SameRegs (pe pe' : PeState) : Prop where
  ecr : ∀ base, ecrOf pe' base = ecrOf pe base
  idr : ∀ base, (pe'.mmio base).plain regMpamfIdr = (pe.mmio base).plain regMpamfIdr
  mpamidrEl1 : pe'.mpamidrEl1 = pe.mpamidrEl1

theorem SameRegs.refl (pe : PeState) : SameRegs pe pe := ⟨fun _ => rfl, fun _ => rfl, rfl⟩

theorem SameRegs.trans {a b c : PeState} (h : SameRegs a b) (h' : SameRegs b c) :
    SameRegs a c :=
  ⟨fun base => (h'.ecr base).trans (h.ecr base), fun base => (h'.idr base).trans (h.idr base),
    h'.mpamidrEl1.trans h.mpamidrEl1⟩

theorem Frame.sameRegs {pe pe' : PeState} (h : Frame ∅ pe pe') : SameRegs pe pe' :=
  ⟨fun base => h.ecr base (Set.notMem_empty base), h.idr, h.mpamidrEl1⟩

section Nodes

variable (test : IntrTest) (env : IntrEnv)

/-- At the point where the generator is asked, the control register is saved. -/
theorem saved_spec (base : BitVec 64) (c : Cpu) :
    SameRegs c.pe (saved test env base c).pe ∧
      (saved test env base c).pe.errCtrlReg = ecrOf (saved test env base c).pe base := by
  have hStable := frame_stable test ∅
  have hBefore := hStable.trans _ _ _ (hStable.armIntr env c) (hStable.tick env _)
  refine ⟨hBefore.sameRegs.trans ⟨fun _ => rfl, fun _ => rfl, rfl⟩, ?_⟩
  have hSelector : selector regMpamfEcr = .none := by decide
  simp only [saved, Cpu.access, saveEcr, NodeRegs.read, hSelector, ecrOf]

/-- The interrupt is raised and the control register that was saved is restored. -/
theorem raiseIntr_sameRegs {base : BitVec 64} {g : Generator} (hg : Framed base g) {c : Cpu}
    (hSaved : c.pe.errCtrlReg = ecrOf c.pe base) :
    SameRegs c.pe (raiseIntr test env base g c).2.pe := by
  have hStable := frame_stable test {base}
  have hRaised : Frame {base} c.pe
      ((poll test env timeoutLarge (c.accesses test env g.accesses)).2.tick test env).pe :=
    hStable.trans _ _ _ (hStable.accesses env (fun a ha c => hg a ha c.pe) c)
      (hStable.trans _ _ _ (hStable.poll env _ _) (hStable.tick env _))
  have hEnd : (raiseIntr test env base g c).2.pe = valNodeRestoreEcr base
      ((poll test env timeoutLarge (c.accesses test env g.accesses)).2.tick test env).pe := rfl
  rw [hEnd, valNodeRestoreEcr, hRaised.errCtrlReg, hSaved]
  refine ⟨fun base' => ?_, fun base' => ?_, hRaised.mpamidrEl1⟩
  · rw [ecrOf, plain_write_at]
    by_cases hBase : base' = base
    · subst hBase
      rw [if_pos ⟨rfl, rfl, by decide⟩]
    · rw [if_neg fun h => hBase h.1]
      exact hRaised.ecr base' hBase
  · rw [plain_write_at, if_neg fun h => absurd h.2.1 (by decide)]
    exact hRaised.idr base'

theorem restoreMpam2_sameRegs (c : Cpu) : SameRegs c.pe (restoreMpam2 test env c).pe :=
  Frame.sameRegs ((frame_stable test ∅).access env _ (fun _ => writeMpam2_frame _ _) c)

/-- Where a visit leaves the machine: entered, or with the register restored after the node was
saved or raised its interrupt, up to the status. -/
theorem visit_rule {P Q : Cpu → Prop} {choose : Chooser} {n : IntrNode} {c : Cpu}
    (hStatus : ∀ c' status, P c' → P { c' with status := status })
    (hRestore : ∀ c', Q c' → P (if test.handlerRestores then restoreMpam2 test env c' else c'))
    (hEnter : P (enter test env n c)) (hSaved : Q (saved test env n.base (enter test env n c)))
    (hRaised : ∀ g, choose n ((enter test env n c).pe.mmio n.base) = some g →
      Q (raiseIntr test env n.base g (saved test env n.base (enter test env n c))).2) :
    P (visit test env choose n c).2 := by
  rw [visit]
  dsimp only
  split
  · exact hEnter
  · rename_i g hg
    split
    · exact hStatus _ _ hEnter
    · split
      · exact hStatus _ _ (hRestore _ hSaved)
      · split
        · exact hStatus _ _ (hRestore _ (hRaised g hg))
        · exact hRestore _ (hRaised g hg)

theorem visit_sameRegs {choose : Chooser}
    (hChoose : ∀ n r g, choose n r = some g → Framed n.base g) (n : IntrNode) (c : Cpu) :
    SameRegs c.pe (visit test env choose n c).2.pe := by
  have hEnter : SameRegs c.pe (enter test env n c).pe :=
    Frame.sameRegs ((frame_stable test ∅).enter env n c)
  obtain ⟨hBefore, hSaved⟩ := saved_spec test env n.base (enter test env n c)
  have hRestore : ∀ c' : Cpu, SameRegs c.pe c'.pe →
      SameRegs c.pe (if test.handlerRestores then restoreMpam2 test env c' else c').pe := by
    intro c' h
    split
    · exact h.trans (restoreMpam2_sameRegs test env c')
    · exact h
  refine visit_rule test env (P := fun c' => SameRegs c.pe c'.pe)
    (Q := fun c' => SameRegs c.pe c'.pe) (fun _ _ h => h) hRestore hEnter
    (hEnter.trans hBefore) ?_
  intro g hg
  exact (hEnter.trans hBefore).trans (raiseIntr_sameRegs test env (hChoose _ _ _ hg) hSaved)

variable {test} in
/-- A test whose handler and accesses leave `MPAM2_EL2` alone. -/
theorem visit_keepsMpam2 (hTest : test.handlerRestores = false) {choose : Chooser}
    (hChoose : ∀ n r g, choose n r = some g →
      ∀ access ∈ g.accesses, ∀ pe, (access pe).mpam2El2 = pe.mpam2El2)
    (n : IntrNode) (c : Cpu) :
    (visit test env choose n c).2.pe.mpam2El2 = c.pe.mpam2El2 := by
  have hStable := mpam2_stable hTest
  have hEnter := hStable.enter env n c
  have hSaved := hStable.saved env n.base (fun _ => rfl) (enter test env n c)
  have hKept : ∀ c' : Cpu, c'.pe.mpam2El2 = c.pe.mpam2El2 →
      (if test.handlerRestores then restoreMpam2 test env c' else c').pe.mpam2El2 =
        c.pe.mpam2El2 := by
    intro c' h
    rw [hTest]
    exact h
  refine visit_rule test env (P := fun c' => c'.pe.mpam2El2 = c.pe.mpam2El2)
    (Q := fun c' => c'.pe.mpam2El2 = c.pe.mpam2El2) (fun _ _ h => h) hKept hEnter
    (hSaved.trans hEnter) ?_
  intro g hg
  have hRaised := hStable.raiseIntr env n.base g (fun a ha c => hChoose _ _ _ hg a ha c.pe)
    (fun _ => rfl) (saved test env n.base (enter test env n c))
  exact hRaised.trans (hSaved.trans hEnter)

theorem restoreMpam2_spec (c : Cpu) :
    (restoreMpam2 test env c).pe.mpam2El2 = c.mpam2El2Temp ∧
      (restoreMpam2 test env c).mpam2El2Temp = c.mpam2El2Temp :=
  ⟨rfl, (temp_stable test).access env _ (fun _ => rfl) c⟩

/-- Before every visit of a test that restores `MPAM2_EL2` it is the saved value. -/
theorem restored_stable {test : IntrTest} (h : test.handlerRestores = true) :
    Stable test fun c c' => c.pe.mpam2El2 = c.mpam2El2Temp →
      c'.pe.mpam2El2 = c.mpam2El2Temp ∧ c'.mpam2El2Temp = c.mpam2El2Temp where
  trans a b c hab hbc hMpam2 := by
    obtain ⟨hPe, hTemp⟩ := hab hMpam2
    rw [← hTemp]
    exact hbc (hPe.trans hTemp.symm)
  handler c _ := by
    rw [intrHandler, h]
    exact ⟨rfl, rfl⟩
  bookkeeping c c' hPe hTemp hMpam2 := by
    rw [hPe]
    exact ⟨hMpam2, hTemp⟩

variable {test} in
/-- A test that writes the saved `MPAM2_EL2` back, as its handler does. -/
theorem visit_restoresMpam2 (hTest : test.handlerRestores = true) (choose : Chooser)
    (n : IntrNode) {c : Cpu} (hMpam2 : c.pe.mpam2El2 = c.mpam2El2Temp) :
    (visit test env choose n c).2.pe.mpam2El2 = c.mpam2El2Temp ∧
      (visit test env choose n c).2.mpam2El2Temp = c.mpam2El2Temp := by
  have hStable := temp_stable test
  have hEnter := (restored_stable hTest).enter env n c hMpam2
  have hSaved := (hStable.saved env n.base (fun _ => rfl) (enter test env n c)).trans hEnter.2
  have hRestored : ∀ c' : Cpu, c'.mpam2El2Temp = c.mpam2El2Temp →
      (if test.handlerRestores then restoreMpam2 test env c' else c').pe.mpam2El2 =
          c.mpam2El2Temp ∧
        (if test.handlerRestores then restoreMpam2 test env c' else c').mpam2El2Temp =
          c.mpam2El2Temp := by
    intro c' h
    obtain ⟨hPe, hTemp⟩ := restoreMpam2_spec test env c'
    rw [hTest]
    exact ⟨hPe.trans h, hTemp.trans h⟩
  refine visit_rule test env
    (P := fun c' => c'.pe.mpam2El2 = c.mpam2El2Temp ∧ c'.mpam2El2Temp = c.mpam2El2Temp)
    (Q := fun c' => c'.mpam2El2Temp = c.mpam2El2Temp) (fun _ _ h => h) hRestored hEnter hSaved ?_
  intro g _
  have hRaised := hStable.raiseIntr env n.base g (fun _ _ _ => rfl) (fun _ => rfl)
    (saved test env n.base (enter test env n c))
  exact hRaised.trans hSaved

end Nodes

/-! ## All nodes -/

section Loops

variable {test : IntrTest} {env : IntrEnv} {choose : Chooser}

/-- What the visit of a node keeps, the loop keeps. -/
theorem visitAll_rule {R : Cpu → Cpu → Prop} (h : Stable test R)
    (hVisit : ∀ n c, R c (visit test env choose n c).2) (nodes : List IntrNode)
    (intrCount : Bool) (c : Cpu) : R c (visitAll test env choose nodes intrCount c) := by
  induction nodes generalizing intrCount c with
  | nil => exact h.bookkeeping c _ rfl rfl
  | cons n nodes ih =>
    have hHead := hVisit n c
    rw [visitAll]
    generalize visit test env choose n c = out at hHead ⊢
    obtain ⟨how, c'⟩ := out
    cases how with
    | passedOver => exact h.trans _ _ _ hHead (ih intrCount c')
    | visited => exact h.trans _ _ _ hHead (ih true c')
    | stopped => exact hHead

theorem sameRegs_stable (test : IntrTest) :
    Stable test fun c c' => SameRegs c.pe c'.pe where
  trans _ _ _ h h' := h.trans h'
  handler c := Frame.sameRegs ((frame_stable test ∅).handler c)
  bookkeeping c c' hPe _ := by
    rw [hPe]
    exact SameRegs.refl _

end Loops

end EnterpriseAcs.Mpam
