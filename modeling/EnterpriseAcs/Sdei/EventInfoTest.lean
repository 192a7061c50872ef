import EnterpriseAcs.Sdei.EventLedger

/-!
# Test 012: the information about events

The test asks the dispatcher about a private and a shared event, which `val_event_get` binds for
it, about event zero and about an interrupt that it binds itself. Only that last binding is ever
released. The registration of the shared event is not given back when the query of its type
fails.

* `audit`: what is decisive in the replies.
* `payload_balanced_iff`: when everything that is acquired is given back.
-/

namespace EnterpriseAcs.Sdei

open Interaction Ledger Transition

/-! ## The test -/

/-- What the test runs with: the event table, what is on the stack in place of its event, the
address of `asm_event_handler` and the affinity of PE 2. -/
structure Test012 where
  table : EventInfoTable
  uninit : SdeiEvent
  asmEventHandler : BitVec 64
  mpid : BitVec 64

/-- A query, and the answers with which the test goes on. -/
structure InfoCheck where
  info : EventInfo
  passes : SdeiReturn → Bool

/-- The type or the mode is the one that is expected. -/
def InfoCheck.equals (info : EventInfo) (expected : BitVec 64) : InfoCheck where
  info := info
  passes := fun r => r.err == 0 && r.result == expected

/-- Any information will do. -/
def InfoCheck.any (info : EventInfo) : InfoCheck where
  info := info
  passes := fun r => r.err == 0

/-- The query is to fail with this status. -/
def InfoCheck.denies (info : EventInfo) (status : BitVec 32) : InfoCheck where
  info := info
  passes := fun r => r.err == status

/-- Queries one after the other: whether the test goes on. At the first that does not pass it
fails. -/
def checkInfos (eventNum : BitVec 32) : List InfoCheck → Val Bool
  | [] => pure true
  | check :: checks => do
    let r ← valSdeiEventGetInfo eventNum check.info
    if check.passes r then checkInfos eventNum checks
    else
      valTestPeSetStatus sdeiTestFail
      pure false

/-- The label `event_interrupt_release`, and `event_unregister` before it. -/
def eventInterruptRelease (eventNum : BitVec 32) (isBoundIrq : Bool) : Val Unit :=
  if isBoundIrq then do
    let _ ← valSdeiInterruptRelease eventNum
    pure ()
  else pure ()

def eventUnregister (eventNum : BitVec 32) (isBoundIrq : Bool) : Val Unit := do
  let _ ← valSdeiEventUnregister eventNum
  eventInterruptRelease eventNum isBoundIrq

/-- The private event. -/
def privateEvent (env : Test012) : Val Bool := do
  let got ← valEventGet env.table env.uninit eventTypePrivate eventPriorityAny
  if got.eventNum = 0 then pure true
  else
    checkInfos got.eventNum
      [.equals .evType (eventTypePrivate.setWidth 64), .any .evSignaled, .any .evPriority,
        .denies .evRoutingMode sdeiStatusInvalid, .denies .evRoutingAff sdeiStatusInvalid]

/-- `SDEI_EVENT_ROUTING_SET` for one PE. -/
def routingSet (eventNum : BitVec 32) (affinity : BitVec 64) : Val (BitVec 32) := do
  let r ← palInvokeSdeiFn
    { fn := .eventRoutingSet, arg0 := eventNum.setWidth 64, arg1 := 1, arg2 := affinity }
  pure r.err

/-- The shared event. -/
def sharedEvent (env : Test012) : Val Bool := do
  let got ← valEventGet env.table env.uninit eventTypeShared eventPriorityAny
  let err ← valSdeiEventRegister got.eventNum env.asmEventHandler 0 0 0
  if err ≠ 0 then
    valTestPeSetStatus sdeiTestFail
    pure false
  else
    let err ← routingSet got.eventNum env.mpid
    if err ≠ 0 then
      valTestPeSetStatus sdeiTestFail
      eventUnregister got.eventNum false
      pure false
    else
      -- the test returns here without a label when the type is not the expected one
      let typed ← checkInfos got.eventNum [.equals .evType (eventTypeShared.setWidth 64)]
      if !typed then pure false
      else
        let routed ← checkInfos got.eventNum [.equals .evRoutingMode 1, .any .evRoutingAff]
        if !routed then
          eventUnregister got.eventNum false
          pure false
        else
          let _ ← valSdeiEventUnregister got.eventNum
          pure true

/-- The event that is not registered, and event zero. -/
def deniedEvent (env : Test012) : Val Bool := do
  let got ← valEventGet env.table env.uninit eventTypeShared eventPriorityAny
  let denied ← checkInfos got.eventNum
    [.denies .evRoutingMode sdeiStatusDenied, .denies .evRoutingAff sdeiStatusDenied]
  if !denied then pure false else checkInfos 0 [.equals .evSignaled 0]

/-- `SDEI_UNKNOWN_EVENT`. -/
def sdeiUnknownEvent : BitVec 32 := 0x10000

/-- The event of an interrupt that the test binds itself. -/
def boundEvent : Val Unit := do
  let err ← gicDisable spiIntrNum
  if err ≠ 0 then pure ()
  else
    let event ← valSdeiInterruptBind spiIntrNum
    if event.err ≠ 0 then valTestPeSetStatus sdeiTestFail
    else
      let normal ← checkInfos event.eventNum [.equals .evPriority 0]
      if !normal then eventInterruptRelease event.eventNum true
      else
        let _ ← valSdeiInterruptRelease event.eventNum
        let unknown ← checkInfos sdeiUnknownEvent [.denies .evRoutingAff sdeiStatusInvalid]
        if unknown then valTestPeSetStatus sdeiTestPass else pure ()

/-- `payload` of test 012. -/
def payload (env : Test012) : Val Unit := do
  let goesOn ← privateEvent env
  if !goesOn then pure ()
  else
    let goesOn ← sharedEvent env
    if !goesOn then pure ()
    else
      let goesOn ← deniedEvent env
      if !goesOn then pure () else boundEvent

/-! ## What is decisive in the replies -/

/-- The call to the interrupt controller. -/
def isDisable : Entry TestCall TestReply → Bool
  | ⟨.gicDisableInterrupt _, _⟩ => true
  | _ => false

/-- A call of the dispatcher that returns success. -/
def succeeds (fn : EventFn) : Entry TestCall TestReply → Bool
  | ⟨.smc args, res⟩ => args.fn == fn && sdeiErr res == 0
  | _ => false

/-- A query of the type that does not answer SHARED. -/
def typeNotShared : Entry TestCall TestReply → Bool
  | ⟨.smc args, res⟩ =>
    args.fn == .eventGetInfo && args.arg1 == EventInfo.evType.code &&
      !(sdeiErr res == 0 && @BEq.beq (BitVec 64) _ res 1)
  | _ => false

/-- A binding before the interrupt is disabled, that is, one made by `val_event_get`, succeeds. -/
def BoundInGet (log : TestLog) : Prop :=
  ∃ e ∈ log.takeWhile fun e => !isDisable e, succeeds .interruptBind e = true

/-- After a registration the query of the type does not answer SHARED. -/
def TypeRefused (log : TestLog) : Prop :=
  ∃ e ∈ log.dropWhile fun e => !succeeds .eventRegister e, typeNotShared e = true

/-- The two, call by call. -/
structure Audit where
  disabled : Bool := false
  registered : Bool := false
  boundInGet : Bool := false
  typeRefused : Bool := false
  deriving DecidableEq, Repr

def audit (a : Audit) (e : Entry TestCall TestReply) : Audit where
  disabled := a.disabled || isDisable e
  registered := a.registered || succeeds .eventRegister e
  boundInGet := a.boundInGet || (!a.disabled && succeeds .interruptBind e)
  typeRefused := a.typeRefused || (a.registered && typeNotShared e)

/-! ## The audit of a log -/

theorem succeeds_of_isDisable {e : Entry TestCall TestReply} (h : isDisable e = true)
    (fn : EventFn) : succeeds fn e = false := by
  obtain ⟨c, reply⟩ := e
  cases c with
  | gicDisableInterrupt intId => rfl
  | _ => cases h

theorem typeNotShared_of_register {e : Entry TestCall TestReply}
    (h : succeeds .eventRegister e = true) : typeNotShared e = false := by
  obtain ⟨c, reply⟩ := e
  cases c with
  | smc args =>
    have hFn : args.fn = .eventRegister := by
      rw [succeeds, Bool.and_eq_true, beq_iff_eq] at h
      exact h.1
    rw [typeNotShared, hFn]
    rfl
  | _ => cases h

theorem boundInGet_cons (e : Entry TestCall TestReply) (log : TestLog) :
    BoundInGet (e :: log) ↔
      isDisable e = false ∧ (succeeds .interruptBind e = true ∨ BoundInGet log) := by
  rw [BoundInGet]
  cases h : isDisable e with
  | true =>
    rw [List.takeWhile_cons_of_neg (by rw [h]; exact Bool.false_ne_true)]
    exact iff_of_false (fun hMem => List.not_mem_nil hMem.choose_spec.1) fun hNot => nomatch hNot.1
  | false =>
    rw [List.takeWhile_cons_of_pos (by rw [h]; rfl), List.exists_mem_cons_iff,
      and_iff_right rfl]
    rfl

theorem typeRefused_cons (e : Entry TestCall TestReply) (log : TestLog) :
    TypeRefused (e :: log) ↔
      if succeeds .eventRegister e then ∃ e ∈ log, typeNotShared e = true
      else TypeRefused log := by
  rw [TypeRefused]
  cases h : succeeds .eventRegister e with
  | true =>
    rw [List.dropWhile_cons_of_neg (by rw [h]; exact Bool.false_ne_true),
      List.exists_mem_cons_iff, typeNotShared_of_register h, if_pos rfl]
    exact or_iff_right Bool.false_ne_true
  | false =>
    rw [List.dropWhile_cons_of_pos (by rw [h]; rfl), if_neg Bool.false_ne_true]
    rfl

theorem foldl_audit_boundInGet (log : TestLog) (a : Audit) :
    (log.foldl audit a).boundInGet = true ↔
      a.boundInGet = true ∨ a.disabled = false ∧ BoundInGet log := by
  induction log generalizing a with
  | nil =>
    refine (or_iff_left fun h => ?_).symm
    exact List.not_mem_nil h.2.choose_spec.1
  | cons e log ih =>
    rw [List.foldl_cons, ih, boundInGet_cons]
    simp only [audit, Bool.or_eq_true, Bool.and_eq_true, Bool.or_eq_false_iff,
      Bool.not_eq_true']
    cases hDisable : isDisable e with
    | true =>
      rw [succeeds_of_isDisable hDisable]
      simp
    | false =>
      simp only [and_true, true_and]
      tauto

theorem foldl_audit_typeRefused (log : TestLog) (a : Audit) :
    (log.foldl audit a).typeRefused = true ↔
      a.typeRefused = true ∨
        if a.registered then ∃ e ∈ log, typeNotShared e = true else TypeRefused log := by
  induction log generalizing a with
  | nil =>
    refine (or_iff_left fun h => ?_).symm
    split at h <;> exact List.not_mem_nil h.choose_spec.1
  | cons e log ih =>
    rw [List.foldl_cons, ih, typeRefused_cons]
    cases hRegistered : a.registered with
    | true => simp [audit, hRegistered, or_assoc]
    | false =>
      cases hRegister : succeeds .eventRegister e <;> simp [audit, hRegistered, hRegister]

/-- The audit of a whole log. -/
theorem audit_clean_iff (log : TestLog) :
    (log.foldl audit {}).boundInGet = false ∧ (log.foldl audit {}).typeRefused = false ↔
      ¬ BoundInGet log ∧ ¬ TypeRefused log := by
  have hBound := foldl_audit_boundInGet log {}
  have hType := foldl_audit_typeRefused log {}
  simp only [Bool.false_eq_true, false_or, true_and, if_false] at hBound hType
  rw [← Bool.not_eq_true, ← Bool.not_eq_true, hBound, hType]

/-! ## What the test holds, beside the audit -/

/-- As `Holds`, with the audit of the calls so far. -/
abbrev Watched {α : Type} (s : List Held × Audit) (p : Val α)
    (Q : α → List Held × Audit → Prop) : Prop :=
  Triple (alongside audit (observe heldEvent stackStep)) s p Q

section Rules

variable {α β : Type} (s : List Held × Audit)

/-- An entry that the audit does not look at. -/
theorem audit_quiet {a : Audit} {e : Entry TestCall TestReply} (hDisable : isDisable e = false)
    (hRegister : succeeds .eventRegister e = false) (hBind : succeeds .interruptBind e = false)
    (hType : a.registered = false ∨ typeNotShared e = false) : audit a e = a := by
  have hRefused : (a.registered && typeNotShared e) = false := by
    rcases hType with h | h <;> rw [h]
    · rfl
    · exact Bool.and_false _
  rw [audit, hDisable, hRegister, hBind, hRefused]
  simp only [Bool.or_false, Bool.and_false]

/-- A program after one with a fixed effect. -/
theorem Watched.seq {s t : List Held × Audit} {p : Val α} {f : α → Val β}
    {Q : β → List Held × Audit → Prop} (h : Watched s p fun _ u => u = t)
    (hf : ∀ a, Watched t (f a) Q) : Watched s (p >>= f) Q := by
  refine Triple.bind h ?_
  rintro a u rfl
  exact hf a

theorem watched_setStatus (status : BitVec 32) :
    Watched s (valTestPeSetStatus status) fun _ t => t = s := by
  refine Triple.perform fun reply => ⟨s, ?_, rfl⟩
  have hQuiet : audit s.2 ⟨.testPeSetStatus status, reply⟩ = s.2 :=
    audit_quiet rfl rfl rfl (Or.inr rfl)
  rw [alongside, hQuiet]
  rfl

/-- The interrupt is disabled. -/
theorem watched_gicDisable (intId : BitVec 32) :
    Watched s (gicDisable intId) fun _ t => t = (s.1, { s.2 with disabled := true }) := by
  refine Triple.perform fun reply => ⟨_, ?_, rfl⟩
  rw [alongside, audit]
  simp only [isDisable, succeeds, typeNotShared, Bool.or_true, Bool.or_false, Bool.and_false]
  rfl

/-- The program makes one call of the dispatcher, and `g` of what comes back is its result. -/
def OneCall (args : SmcArgs) (p : Val α) (g : SdeiReturn → α) : Prop :=
  ∀ log a, Runs p log a → ∃ res : BitVec 64, log = [⟨.smc args, res⟩] ∧
    a = g { err := sdeiErr res, result := res }

theorem oneCall_invoke (args : SmcArgs) : OneCall args (palInvokeSdeiFn args) id := by
  rintro log a ⟨res, rest, rfl, rfl, rfl⟩
  exact ⟨res, rfl, rfl⟩

theorem oneCall_map (args : SmcArgs) (g : SdeiReturn → α) :
    OneCall args (palInvokeSdeiFn args >>= fun r => pure (g r)) g := by
  rintro log a ⟨res, rest, rfl, rfl, rfl⟩
  exact ⟨res, rfl, rfl⟩

variable {s} in
/-- What such a program holds, and its only call for the audit. -/
theorem watched_of_holds {args : SmcArgs} {p : Val α} {g : SdeiReturn → α}
    {P : α → List Held → Prop} {Q : α → List Held × Audit → Prop} (hOne : OneCall args p g)
    (h : Holds s.1 p P)
    (hQ : ∀ (res : BitVec 64) rest, P (g { err := sdeiErr res, result := res }) rest →
      Q (g { err := sdeiErr res, result := res }) (rest, audit s.2 ⟨.smc args, res⟩)) :
    Watched s p Q := by
  intro log a hRuns
  obtain ⟨rest, hRun, hP⟩ := h log a hRuns
  obtain ⟨res, rfl, rfl⟩ := hOne log a hRuns
  refine ⟨(rest, audit s.2 ⟨.smc args, res⟩), ?_, hQ res rest hP⟩
  rw [run_alongside, hRun]
  rfl

theorem succeeds_of_err {res : BitVec 64} (h : sdeiErr res ≠ 0) (fn : EventFn) (args : SmcArgs) :
    succeeds fn ⟨.smc args, res⟩ = false :=
  Bool.and_eq_false_iff.mpr (Or.inr (beq_eq_false_iff_ne.mpr h))

/-- A query before the registration, or not of the type. -/
theorem watched_getInfo (eventNum : BitVec 32) {info : EventInfo}
    (h : s.2.registered = false ∨ info ≠ .evType) :
    Watched s (valSdeiEventGetInfo eventNum info) fun _ t => t = s := by
  refine watched_of_holds (oneCall_invoke _) (holds_getInfo s.1 eventNum info) ?_
  rintro res rest rfl
  have hType : s.2.registered = false ∨
      typeNotShared ⟨.smc (getInfoArgs eventNum info), res⟩ = false := by
    refine h.imp_right fun hInfo => ?_
    cases info with
    | evType => exact absurd rfl hInfo
    | _ => rfl
  rw [audit_quiet rfl rfl rfl hType]

/-- The query of the type after the registration. -/
theorem watched_getType (eventNum : BitVec 32) (hRegistered : s.2.registered = true) :
    Watched s (valSdeiEventGetInfo eventNum .evType) fun r t =>
      t = (s.1, { s.2 with
        typeRefused := s.2.typeRefused || !(r.err == 0 && r.result == 1) }) := by
  refine watched_of_holds (oneCall_invoke _) (holds_getInfo s.1 eventNum .evType) ?_
  rintro res rest rfl
  refine congrArg (Prod.mk s.1) ?_
  simp [audit, isDisable, succeeds, typeNotShared, getInfoArgs, hRegistered]

theorem watched_routingSet (eventNum : BitVec 32) (affinity : BitVec 64) :
    Watched s (routingSet eventNum affinity) fun _ t => t = s := by
  refine watched_of_holds (oneCall_map _ _)
    (holds_err s.1 (holds_invoke_silent s.1 fun _ => rfl)) ?_
  rintro res rest rfl
  rw [audit_quiet rfl rfl rfl (Or.inr rfl)]

theorem watched_release (held : List Held) (a : Audit) (eventNum : BitVec 32) :
    Watched (.bound eventNum :: held, a) (valSdeiInterruptRelease eventNum) fun _ t =>
      t = (held, a) := by
  refine watched_of_holds (oneCall_map _ _) (holds_release held eventNum) ?_
  rintro res rest rfl
  rw [audit_quiet rfl rfl rfl (Or.inr rfl)]

theorem watched_unregister (held : List Held) (a : Audit) (eventNum : BitVec 32) :
    Watched (.registered eventNum :: held, a) (valSdeiEventUnregister eventNum) fun _ t =>
      t = (held, a) := by
  refine watched_of_holds (oneCall_map _ _) (holds_unregister held eventNum) ?_
  rintro res rest rfl
  rw [audit_quiet rfl rfl rfl (Or.inr rfl)]

/-- A binding, with success noted unless the interrupt has been disabled before. -/
theorem watched_bind (irqNum : BitVec 32) :
    Watched s (valSdeiInterruptBind irqNum) fun r t =>
      t = if r.err = 0 then
        (.bound r.eventNum :: s.1, { s.2 with boundInGet := s.2.boundInGet || !s.2.disabled })
      else s := by
  refine watched_of_holds (oneCall_map _ _) (holds_bind s.1 irqNum) ?_
  rintro res rest rfl
  by_cases h : sdeiErr res = 0
  · rw [if_pos h, if_pos h]
    refine congrArg (Prod.mk _) ?_
    simp [audit, isDisable, succeeds, typeNotShared, bindArgs, h]
  · rw [if_neg h, if_neg h, audit_quiet rfl rfl (succeeds_of_err h _ _) (Or.inr rfl)]

/-- A registration, with success noted. -/
theorem watched_register (eventNum : BitVec 32) (entryPoint arg flags affinity : BitVec 64) :
    Watched s (valSdeiEventRegister eventNum entryPoint arg flags affinity) fun err t =>
      t = if err = 0 then (.registered eventNum :: s.1, { s.2 with registered := true })
      else s := by
  refine watched_of_holds (oneCall_map _ _)
    (holds_register s.1 eventNum entryPoint arg flags affinity) ?_
  rintro res rest rfl
  by_cases h : sdeiErr res = 0
  · rw [if_pos h, if_pos h]
    refine congrArg (Prod.mk _) ?_
    simp [audit, isDisable, succeeds, typeNotShared, registerArgs, h]
  · rw [if_neg h, if_neg h, audit_quiet rfl (succeeds_of_err h _ _) rfl (Or.inr rfl)]

end Rules

/-! ## The queries -/

section Queries

variable (s : List Held × Audit) (eventNum : BitVec 32)

theorem watched_checkInfos {checks : List InfoCheck}
    (h : s.2.registered = false ∨ ∀ check ∈ checks, check.info ≠ .evType) :
    Watched s (checkInfos eventNum checks) fun _ t => t = s := by
  induction checks with
  | nil => exact Triple.pure rfl
  | cons check checks ih =>
    have hHead : s.2.registered = false ∨ check.info ≠ .evType :=
      h.imp_right fun hAll => hAll check List.mem_cons_self
    have hTail := ih (h.imp_right fun hAll other hMem =>
      hAll other (List.mem_cons_of_mem check hMem))
    refine Watched.seq (watched_getInfo s eventNum hHead) fun r => ?_
    split
    · exact hTail
    · exact Watched.seq (watched_setStatus s _) fun _ => Triple.pure rfl

/-- The test goes on from the query of the type if it answers SHARED. -/
theorem watched_checkType (hRegistered : s.2.registered = true) :
    Watched s (checkInfos eventNum [.equals .evType (eventTypeShared.setWidth 64)]) fun typed t =>
      t = (s.1, { s.2 with typeRefused := s.2.typeRefused || !typed }) := by
  refine Triple.bind (watched_getType s eventNum hRegistered) fun r t ht => ?_
  have hPasses : (InfoCheck.equals .evType (eventTypeShared.setWidth 64)).passes r =
      (r.err == 0 && r.result == 1) := rfl
  rw [hPasses]
  split
  · rename_i hShared
    rw [hShared] at ht
    exact Triple.pure ht
  · rename_i hOther
    rw [Bool.eq_false_of_not_eq_true hOther] at ht
    subst ht
    exact Watched.seq (watched_setStatus _ _) fun _ => Triple.pure rfl

/-- The registration is given back, and with it nothing else. -/
theorem watched_eventUnregister (held : List Held) (a : Audit) :
    Watched (.registered eventNum :: held, a) (eventUnregister eventNum false) fun _ t =>
      t = (held, a) :=
  Watched.seq (watched_unregister held a eventNum) fun _ => Triple.pure rfl

end Queries

/-! ## What is left behind -/

/-- Nothing is held exactly when the audit has found nothing. -/
def Accounted (s : List Held × Audit) : Prop :=
  s.1 = [] ↔ s.2.boundInGet = false ∧ s.2.typeRefused = false

/-- So it is before the interrupt is disabled. -/
structure Early (s : List Held × Audit) : Prop where
  accounted : Accounted s
  disabled : s.2.disabled = false

section Parts

variable {s : List Held × Audit} (env : Test012)

/-- A binding by `val_event_get` that succeeds is held, and is noted. -/
theorem early_bind (h : Early s) (irqNum : BitVec 32) :
    Watched s (valSdeiInterruptBind irqNum) fun _ t =>
      Early t ∧ t.2.registered = s.2.registered := by
  refine Triple.mono (watched_bind s irqNum) fun r t ht => ?_
  subst ht
  split
  · refine ⟨⟨iff_of_false (List.cons_ne_nil _ _) fun hFound => ?_, h.disabled⟩, rfl⟩
    have hNoted : (s.2.boundInGet || !s.2.disabled) = false := hFound.1
    rw [h.disabled, Bool.not_false, Bool.or_true] at hNoted
    exact absurd hNoted (by decide)
  · exact ⟨h, rfl⟩

theorem early_getPrivate (h : Early s) (priority : BitVec 32) :
    Watched s (valEventGet env.table env.uninit eventTypePrivate priority) fun _ t =>
      Early t ∧ t.2.registered = s.2.registered := by
  rw [valEventGet, if_pos rfl]
  exact Triple.bind (early_bind h ppiIntrNum) fun _ _ ht => Triple.pure ht

theorem early_getShared (h : Early s) (priority : BitVec 32) :
    Watched s (valEventGet env.table env.uninit eventTypeShared priority) fun _ t =>
      Early t ∧ t.2.registered = s.2.registered := by
  rw [valEventGet, if_neg (by decide), if_pos rfl]
  exact Triple.bind (early_bind h spiIntrNum) fun _ _ ht => Triple.pure ht

theorem early_privateEvent (h : Early s) (hRegistered : s.2.registered = false) :
    Watched s (privateEvent env) fun _ t => Early t ∧ t.2.registered = false := by
  refine Triple.bind (early_getPrivate env h eventPriorityAny) ?_
  rintro got t ⟨hEarly, hSame⟩
  rw [hRegistered] at hSame
  split
  · exact Triple.pure ⟨hEarly, hSame⟩
  · refine Triple.mono (watched_checkInfos t got.eventNum (Or.inl hSame)) fun _ u hu => ?_
    subst hu
    exact ⟨hEarly, hSame⟩

/-- With the registration held, what remains is as before once it is given back. Where it is not,
the type has been refused. -/
theorem early_sharedEvent (h : Early s) :
    Watched s (sharedEvent env) fun _ t => Early t := by
  refine Triple.bind (early_getShared env h eventPriorityAny) ?_
  rintro got ⟨held, a⟩ ⟨hEarly, -⟩
  refine Triple.bind (watched_register (held, a) got.eventNum _ _ _ _) fun err u hu => ?_
  by_cases hErr : err = 0
  case neg =>
    rw [if_neg hErr] at hu
    subst hu
    rw [if_pos hErr]
    exact Watched.seq (watched_setStatus _ _) fun _ => Triple.pure hEarly
  case pos =>
    rw [if_pos hErr] at hu
    subst hu
    rw [if_neg (not_not.mpr hErr)]
    have hGivenBack : Early (held, { a with registered := true }) :=
      ⟨hEarly.accounted, hEarly.disabled⟩
    refine Watched.seq (watched_routingSet _ got.eventNum env.mpid) fun err => ?_
    split
    · refine Watched.seq (watched_setStatus _ _) fun _ => ?_
      exact Watched.seq (watched_eventUnregister got.eventNum held _) fun _ =>
        Triple.pure hGivenBack
    · refine Triple.bind (watched_checkType _ got.eventNum rfl) fun typed u hu => ?_
      subst hu
      cases typed with
      | false =>
        refine Triple.pure ⟨iff_of_false (List.cons_ne_nil _ _) fun hFound => ?_, hEarly.disabled⟩
        have hNoted : (a.typeRefused || !false) = false := hFound.2
        rw [Bool.not_false, Bool.or_true] at hNoted
        exact absurd hNoted (by decide)
      | true =>
        rw [Bool.not_true, Bool.or_false]
        refine Watched.seq (watched_checkInfos _ got.eventNum (Or.inr (by decide))) fun routed => ?_
        split
        · exact Watched.seq (watched_eventUnregister got.eventNum held _) fun _ =>
            Triple.pure hGivenBack
        · exact Watched.seq (watched_unregister held _ got.eventNum) fun _ =>
            Triple.pure hGivenBack

theorem early_deniedEvent (h : Early s) : Watched s (deniedEvent env) fun _ t => Early t := by
  refine Triple.bind (early_getShared env h eventPriorityAny) ?_
  rintro got t ⟨hEarly, -⟩
  refine Watched.seq (watched_checkInfos t got.eventNum (Or.inr (by decide))) fun denied => ?_
  split
  · exact Triple.pure hEarly
  · refine Triple.mono (watched_checkInfos t 0 (Or.inr (by decide))) fun _ u hu => ?_
    subst hu
    exact hEarly

/-- The last event is released by the test, whatever comes back. -/
theorem accounted_boundEvent (h : Accounted s) : Watched s boundEvent fun _ t => Accounted t := by
  have hAfter : Accounted (s.1, { s.2 with disabled := true }) := h
  refine Watched.seq (watched_gicDisable s spiIntrNum) fun err => ?_
  split
  · exact Triple.pure hAfter
  · refine Triple.bind (watched_bind _ spiIntrNum) fun event t ht => ?_
    rw [Bool.not_true, Bool.or_false] at ht
    by_cases hErr : event.err = 0
    case neg =>
      rw [if_neg hErr] at ht
      subst ht
      rw [if_pos hErr]
      refine Triple.mono (watched_setStatus _ _) fun _ u hu => ?_
      subst hu
      exact hAfter
    case pos =>
      rw [if_pos hErr] at ht
      subst ht
      rw [if_neg (not_not.mpr hErr)]
      refine Watched.seq (watched_checkInfos _ event.eventNum (Or.inr (by decide))) fun normal => ?_
      split
      · exact Watched.seq (watched_release s.1 _ event.eventNum) fun _ => Triple.pure hAfter
      · refine Watched.seq (watched_release s.1 _ event.eventNum) fun _ => ?_
        refine Watched.seq (watched_checkInfos _ sdeiUnknownEvent (Or.inr (by decide)))
          fun unknown => ?_
        split
        · refine Triple.mono (watched_setStatus _ _) fun _ u hu => ?_
          subst hu
          exact hAfter
        · exact Triple.pure hAfter

end Parts

/-! ## The whole test -/

theorem accounted_payload (env : Test012) :
    Watched ([], {}) (payload env) fun _ t => Accounted t := by
  have hStart : Early ([], {}) := ⟨iff_of_true rfl ⟨rfl, rfl⟩, rfl⟩
  refine Triple.bind (early_privateEvent env hStart rfl) ?_
  rintro goesOn t ⟨ht, -⟩
  split
  · exact Triple.pure ht.accounted
  · refine Triple.bind (early_sharedEvent env ht) fun goesOn u hu => ?_
    split
    · exact Triple.pure hu.accounted
    · refine Triple.bind (early_deniedEvent env hu) fun goesOn v hv => ?_
      split
      · exact Triple.pure hv.accounted
      · exact accounted_boundEvent hv.accounted

/-- Whatever the dispatcher and the interrupt controller return, call by call: everything that is
bound and registered is given back once exactly when `val_event_get` has bound nothing, and the
type of the registered event has not been refused. -/
theorem payload_balanced_iff (env : Test012) (answer : Nat → (c : TestCall) → TestReply c) :
    Clean (heldEvents (exec answer (payload env) 0).1) ↔
      ¬ BoundInGet (exec answer (payload env) 0).1 ∧
        ¬ TypeRefused (exec answer (payload env) 0).1 := by
  obtain ⟨⟨held, a⟩, hRun, hAccounted⟩ :=
    accounted_payload env _ _ (exec_runs answer (payload env) 0)
  rw [run_alongside, Option.map_eq_some_iff] at hRun
  obtain ⟨rest, hStack, hEq⟩ := hRun
  obtain ⟨rfl, rfl⟩ := Prod.mk.inj hEq
  rw [run_observe] at hStack
  have hHeld := run_of_stack hStack
  rw [Multiset.coe_nil] at hHeld
  rw [← audit_clean_iff, Clean, heldEvents, hHeld, Option.some_inj, ← Multiset.coe_nil,
    Multiset.coe_eq_coe, List.perm_nil]
  exact hAccounted

/-- The interrupt is bound to event 8, and every other call of the dispatcher is denied. -/
def privateOnly (_ : Nat) : (c : TestCall) → TestReply c
  | .smc args => if args.fn = .interruptBind then (8 : BitVec 64) else (-3 : BitVec 64)
  | .gicDisableInterrupt _ => (0 : BitVec 32)
  | .configureSecondInterrupt => { err := 0, index := 0, intId := 0 }
  | .disableSecondInterrupt _ => ()
  | .paToVa _ => (0 : BitVec 64)
  | .vaFree _ => ()
  | .wdSetWs0 _ _ _ => ()
  | .readHandlerFlag => (0 : BitVec 32)
  | .readEventCounter => (0 : BitVec 32)
  | .readTestStatus => (0 : BitVec 64)
  | .testPeSetStatus _ => ()

/-- A test without events in its table. -/
def emptyTest012 : Test012 where
  table := {}
  uninit := { eventNum := 0, type := 0, priority := 0 }
  asmEventHandler := 0
  mpid := 0

/-- The private event stays bound when its type is not told. -/
theorem private_event_kept :
    ¬ ∀ (env : Test012) (answer : Nat → (c : TestCall) → TestReply c),
      Clean (heldEvents (exec answer (payload env) 0).1) :=
  fun h => absurd (h emptyTest012 privateOnly) (by decide)

end EnterpriseAcs.Sdei
