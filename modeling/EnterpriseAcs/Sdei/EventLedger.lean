import EnterpriseAcs.Library.Ledger
import EnterpriseAcs.Sdei.SdeiCalls

/-!
# What a test holds of the dispatcher

A binding acquires an event, and a registration its handler, when the call returns success. A call
to release or to unregister gives it back, whatever it returns.

* `heldEvents`: the acquisitions and releases in the log of a test.
* `Holds`: a program that gives back last what it has acquired first, with one rule for each
  function of VAL.
-/

namespace EnterpriseAcs.Sdei

open Interaction Ledger Transition

inductive Held where
  | bound (eventNum : BitVec 32)
  | registered (eventNum : BitVec 32)
  deriving DecidableEq, Repr

/-- What a call of the dispatcher with the result `res` acquires or releases. -/
def smcEvent (args : SmcArgs) (res : BitVec 64) : Option (Event Held) :=
  match args.fn with
  | .interruptBind => if sdeiErr res = 0 then some (.acquire (.bound (res.setWidth 32))) else none
  | .interruptRelease => some (.release (.bound (args.arg0.setWidth 32)))
  | .eventRegister =>
    if sdeiErr res = 0 then some (.acquire (.registered (args.arg0.setWidth 32))) else none
  | .eventUnregister => some (.release (.registered (args.arg0.setWidth 32)))
  | _ => none

def heldEvent : Entry TestCall TestReply → Option (Event Held)
  | ⟨.smc args, res⟩ => smcEvent args res
  | _ => none

/-- The acquisitions and releases of a log. -/
def heldEvents (log : TestLog) : List (Event Held) := log.filterMap heldEvent

/-- From `held` on, with the last acquired first, the program releases only what is on top, and
ends as `Q` says. -/
abbrev Holds {α : Type} (held : List Held) (p : Val α) (Q : α → List Held → Prop) : Prop :=
  Triple (observe heldEvent stackStep) held p Q

theorem Holds.events {α : Type} {held : List Held} {p : Val α} {Q : α → List Held → Prop}
    (h : Holds held p Q) {log : TestLog} {a : α} (hRuns : Runs p log a) :
    ∃ rest, run stackStep held (heldEvents log) = some rest ∧ Q a rest := by
  obtain ⟨rest, hRun, hQ⟩ := h log a hRuns
  rw [run_observe] at hRun
  exact ⟨rest, hRun, hQ⟩

/-! ## The rules -/

/-- A word in a register and back. -/
theorem setWidth_setWidth_self (x : BitVec 32) : (x.setWidth 64).setWidth 32 = x := by
  rw [BitVec.setWidth_setWidth_of_le _ (by decide), BitVec.setWidth_eq]

section Rules

variable (held : List Held)

/-- A call that acquires and releases nothing. -/
theorem holds_silent {c : TestCall} (h : ∀ reply, heldEvent ⟨c, reply⟩ = none) :
    Holds held (perform c) fun _ rest => rest = held := by
  refine Triple.perform fun reply => ⟨held, ?_, rfl⟩
  rw [observe, h reply]

variable {held} in
/-- A call of the dispatcher, with every result. -/
theorem holds_invoke {args : SmcArgs} {Q : SdeiReturn → List Held → Prop}
    (h : ∀ res, ∃ rest, observe (smcEvent args) stackStep held res = some rest ∧
      Q { err := sdeiErr res, result := res } rest) : Holds held (palInvokeSdeiFn args) Q :=
  Triple.bind (R := fun res rest => Q { err := sdeiErr res, result := res } rest)
    (Triple.perform (c := TestCall.smc args) h) fun _ _ hQ => Triple.pure hQ

theorem holds_invoke_silent {args : SmcArgs} (h : ∀ res, smcEvent args res = none) :
    Holds held (palInvokeSdeiFn args) fun _ rest => rest = held := by
  refine holds_invoke fun res => ⟨held, ?_, rfl⟩
  rw [observe, h res]

theorem holds_getInfo (eventNum : BitVec 32) (info : EventInfo) :
    Holds held (valSdeiEventGetInfo eventNum info) fun _ rest => rest = held :=
  holds_invoke_silent held fun _ => rfl

theorem holds_status (eventNum : BitVec 32) :
    Holds held (valSdeiEventStatus eventNum) fun _ rest => rest = held :=
  holds_invoke_silent held fun _ => rfl

/-- A function that returns the status of one call. -/
theorem holds_err {args : SmcArgs} {Q : List Held → Prop}
    (h : Holds held (palInvokeSdeiFn args) fun _ rest => Q rest) :
    Holds held (palInvokeSdeiFn args >>= fun r => pure r.err) fun _ rest => Q rest :=
  Triple.bind h fun _ _ hQ => Triple.pure hQ

theorem holds_enable (eventNum : BitVec 32) :
    Holds held (valSdeiEventEnable eventNum) fun _ rest => rest = held :=
  holds_err held (holds_invoke_silent held fun _ => rfl)

theorem holds_release (eventNum : BitVec 32) :
    Holds (.bound eventNum :: held) (valSdeiInterruptRelease eventNum) fun _ rest =>
      rest = held := by
  refine holds_err _ (holds_invoke fun res => ⟨held, ?_, rfl⟩)
  exact (congrArg (fun n => stackStep (.bound eventNum :: held) (.release (.bound n)))
    (setWidth_setWidth_self eventNum)).trans (stackStep_release_cons held _)

theorem holds_unregister (eventNum : BitVec 32) :
    Holds (.registered eventNum :: held) (valSdeiEventUnregister eventNum) fun _ rest =>
      rest = held := by
  refine holds_err _ (holds_invoke fun res => ⟨held, ?_, rfl⟩)
  exact (congrArg (fun n => stackStep (.registered eventNum :: held) (.release (.registered n)))
    (setWidth_setWidth_self eventNum)).trans (stackStep_release_cons held _)

/-- A binding is held when it returns success. -/
theorem holds_bind (irqNum : BitVec 32) :
    Holds held (valSdeiInterruptBind irqNum) fun r rest =>
      rest = if r.err = 0 then .bound r.eventNum :: held else held := by
  refine Triple.bind (R := fun r rest =>
    rest = if r.err = 0 then .bound (r.result.setWidth 32) :: held else held)
    (holds_invoke fun res => ⟨_, ?_, rfl⟩) fun r rest hRest => Triple.pure hRest
  rw [observe, smcEvent]
  by_cases h : sdeiErr res = 0
  · simp only [bindArgs, if_pos h]
    rfl
  · simp only [bindArgs, if_neg h]

/-- So is a registration. -/
theorem holds_register (eventNum : BitVec 32) (entryPoint arg flags affinity : BitVec 64) :
    Holds held (valSdeiEventRegister eventNum entryPoint arg flags affinity) fun err rest =>
      rest = if err = 0 then .registered eventNum :: held else held := by
  refine Triple.bind (R := fun r rest =>
    rest = if r.err = 0 then .registered eventNum :: held else held)
    (holds_invoke fun res => ⟨_, ?_, rfl⟩) fun r rest hRest => Triple.pure hRest
  rw [observe, smcEvent]
  by_cases h : sdeiErr res = 0
  · simp only [registerArgs, if_pos h, setWidth_setWidth_self]
    rfl
  · simp only [registerArgs, if_neg h]

/-! ## In a sequence -/

variable {held} {α β : Type} {Q : β → List Held → Prop}

/-- A program after one that ends with `held'`. -/
theorem Holds.seq {held' : List Held} {p : Val α} {f : α → Val β}
    (h : Holds held p fun _ rest => rest = held') (hf : ∀ a, Holds held' (f a) Q) :
    Holds held (p >>= f) Q := by
  refine Triple.bind h fun a rest hRest => ?_
  subst hRest
  exact hf a

/-- After a binding, two cases. -/
theorem Holds.bind_seq {irqNum : BitVec 32} {f : BindReturn → Val β}
    (hBound : ∀ r, r.err = 0 → Holds (.bound r.eventNum :: held) (f r) Q)
    (hFailed : ∀ r, r.err ≠ 0 → Holds held (f r) Q) :
    Holds held (valSdeiInterruptBind irqNum >>= f) Q := by
  refine Triple.bind (holds_bind held irqNum) fun r rest hRest => ?_
  by_cases h : r.err = 0
  · rw [if_pos h] at hRest
    subst hRest
    exact hBound r h
  · rw [if_neg h] at hRest
    subst hRest
    exact hFailed r h

theorem Holds.register_seq {eventNum : BitVec 32} {entryPoint arg flags affinity : BitVec 64}
    {f : BitVec 32 → Val β} (hRegistered : Holds (.registered eventNum :: held) (f 0) Q)
    (hFailed : ∀ err, err ≠ 0 → Holds held (f err) Q) :
    Holds held (valSdeiEventRegister eventNum entryPoint arg flags affinity >>= f) Q := by
  refine Triple.bind (holds_register held eventNum entryPoint arg flags affinity)
    fun err rest hRest => ?_
  by_cases h : err = 0
  · rw [if_pos h] at hRest
    subst hRest h
    exact hRegistered
  · rw [if_neg h] at hRest
    subst hRest
    exact hFailed err h

end Rules

end EnterpriseAcs.Sdei
