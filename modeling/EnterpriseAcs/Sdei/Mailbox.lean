import Mathlib.Logic.Function.Basic

/-!
# The mailbox handshake of the SDEI suite

`pal_pe_execute_on_all` runs a payload on the calling PE and then, one PE after the other,
stores argument and payload into the two words of that PE's mailbox and spins until the
payload word is zero again. A secondary clears its mailbox in `ModuleEntryPoint` and then
stays in `CEntryPoint`: it polls the payload word, reads the argument word, runs the
payload and stores zero.

The parties interleave at single 64-bit reads and writes, which are atomic and seen in
order, so the cache maintenance calls do nothing here. The two sides of a mailbox use the
same address: the mailbox is part of the state of its PE.
-/

namespace EnterpriseAcs.Sdei

/-- A payload and its argument, as 64-bit words. -/
structure Call where
  payload : BitVec 64
  arg : BitVec 64
  deriving DecidableEq, Repr

/-- The two words of a mailbox: `*Addr` and `*(Addr + 1)`. -/
structure Mailbox where
  payload : BitVec 64
  arg : BitVec 64
  deriving DecidableEq, Repr

/-- Program points of `pal_pe_execute_on_all` on the primary; `idle` between two calls. -/
inductive PrimaryPc where
  | idle
  | runOwn (c : Call)
  | loop (c : Call) (i : Nat)
  | storeArg (c : Call) (i : Nat)
  | storePayload (c : Call) (i : Nat)
  | wait (c : Call) (i : Nat)
  deriving DecidableEq, Repr

/-- Program points of a secondary: `clear` is the `str xzr, [x0]` of `ModuleEntryPoint`,
the others are in `CEntryPoint`. -/
inductive SecondaryPc where
  | clear
  | loadPayload
  | loadArg (resAddr : BitVec 64)
  | call (resAddr arg : BitVec 64)
  | running (resAddr arg : BitVec 64)
  | ack
  deriving DecidableEq, Repr

/-- A secondary with its mailbox. The three lists are its history: what was posted to it,
and the executions it has started and finished. -/
structure PeState where
  pc : SecondaryPc
  mailbox : Mailbox
  posted : List Call
  started : List Call
  finished : List Call
  deriving DecidableEq, Repr

/-- `calls` is the history of `pal_pe_execute_on_all` calls. -/
structure MailState where
  primary : PrimaryPc
  calls : List Call
  pe : Nat → PeState

/-- The PE table and the masked MPIDR of the calling PE. -/
structure PeSet where
  mpidrs : List (BitVec 64)
  my : BitVec 64
  deriving DecidableEq, Repr

/-- Entry `i` is a PE that the primary posts to. -/
def PeSet.IsSecondary (P : PeSet) (i : Nat) : Prop :=
  i < P.mpidrs.length ∧ P.mpidrs[i]? ≠ some P.my

instance (P : PeSet) (i : Nat) : Decidable (P.IsSecondary i) :=
  inferInstanceAs (Decidable (_ ∧ _))

inductive MailLabel where
  | invoke (c : Call)
  | primary
  | secondary (i : Nat)
  deriving DecidableEq, Repr

/-! ## Steps -/

/-- The next step of a secondary. -/
def PeState.step (p : PeState) : PeState :=
  match p.pc with
  | .clear => { p with pc := .loadPayload, mailbox := { p.mailbox with payload := 0 } }
  | .loadPayload => { p with pc := .loadArg p.mailbox.payload }
  | .loadArg r => { p with pc := if r = 0 then .loadPayload else .call r p.mailbox.arg }
  | .call r a => { p with pc := .running r a, started := p.started ++ [⟨r, a⟩] }
  | .running r a => { p with pc := .ack, finished := p.finished ++ [⟨r, a⟩] }
  | .ack => { p with pc := .loadPayload, mailbox := { p.mailbox with payload := 0 } }

/-- The next step of the primary inside a call. -/
def executeOnAllStep (P : PeSet) (s : MailState) : Option MailState :=
  match s.primary with
  | .idle => none
  | .runOwn c => some { s with primary := .loop c 0 }
  | .loop c i =>
    if i < P.mpidrs.length then
      if P.mpidrs[i]? = some P.my then some { s with primary := .loop c (i + 1) }
      else some { s with primary := .storeArg c i }
    else some { s with primary := .idle }
  | .storeArg c i =>
    let p := s.pe i
    some { s with
      primary := .storePayload c i
      pe := Function.update s.pe i { p with mailbox := { p.mailbox with arg := c.arg } } }
  | .storePayload c i =>
    let p := s.pe i
    some { s with
      primary := .wait c i
      pe := Function.update s.pe i
        { p with
          mailbox := { p.mailbox with payload := c.payload }
          posted := p.posted ++ [c] } }
  | .wait c i =>
    if (s.pe i).mailbox.payload = 0 then some { s with primary := .loop c (i + 1) }
    else some s

/-- One step of the party that the label names. A call starts when the last one has
returned, with a payload that is not null. -/
def mailStep (P : PeSet) (s : MailState) : MailLabel → Option MailState
  | .invoke c =>
    if s.primary = .idle ∧ c.payload ≠ 0 then
      some { s with primary := .runOwn c, calls := s.calls ++ [c] }
    else none
  | .primary => executeOnAllStep P s
  | .secondary i =>
    if P.IsSecondary i then some { s with pe := Function.update s.pe i (s.pe i).step } else none

/-- The same, one constructor for each way a step goes on. -/
inductive MailStepped (P : PeSet) (s : MailState) : MailLabel → MailState → Prop where
  | invoked {c : Call} (hIdle : s.primary = .idle) (hc : c.payload ≠ 0) :
      MailStepped P s (.invoke c) { s with primary := .runOwn c, calls := s.calls ++ [c] }
  | ranOwn {c : Call} (hpc : s.primary = .runOwn c) :
      MailStepped P s .primary { s with primary := .loop c 0 }
  | passedOwn {c : Call} {i : Nat} (hpc : s.primary = .loop c i)
      (hOwn : P.mpidrs[i]? = some P.my) :
      MailStepped P s .primary { s with primary := .loop c (i + 1) }
  | turned {c : Call} {i : Nat} (hpc : s.primary = .loop c i) (hi : P.IsSecondary i) :
      MailStepped P s .primary { s with primary := .storeArg c i }
  | returned {c : Call} {i : Nat} (hpc : s.primary = .loop c i)
      (hEnd : ¬ i < P.mpidrs.length) :
      MailStepped P s .primary { s with primary := .idle }
  | storedArg {c : Call} {i : Nat} (hpc : s.primary = .storeArg c i) :
      MailStepped P s .primary { s with
        primary := .storePayload c i
        pe := Function.update s.pe i
          { s.pe i with mailbox := { (s.pe i).mailbox with arg := c.arg } } }
  | storedPayload {c : Call} {i : Nat} (hpc : s.primary = .storePayload c i) :
      MailStepped P s .primary { s with
        primary := .wait c i
        pe := Function.update s.pe i
          { s.pe i with
            mailbox := { (s.pe i).mailbox with payload := c.payload }
            posted := (s.pe i).posted ++ [c] } }
  | acknowledged {c : Call} {i : Nat} (hpc : s.primary = .wait c i)
      (hZero : (s.pe i).mailbox.payload = 0) :
      MailStepped P s .primary { s with primary := .loop c (i + 1) }
  | spun {c : Call} {i : Nat} (hpc : s.primary = .wait c i)
      (hBusy : (s.pe i).mailbox.payload ≠ 0) : MailStepped P s .primary s
  | moved {i : Nat} (hi : P.IsSecondary i) :
      MailStepped P s (.secondary i) { s with pe := Function.update s.pe i (s.pe i).step }

theorem mailStepped_of_primary {P : PeSet} {s t : MailState}
    (h : executeOnAllStep P s = some t) : MailStepped P s .primary t := by
  unfold executeOnAllStep at h
  split at h
  · cases h
  · rename_i hpc
    cases h
    exact .ranOwn hpc
  · rename_i hpc
    split at h
    · rename_i hlt
      split at h
      · rename_i hOwn
        cases h
        exact .passedOwn hpc hOwn
      · rename_i hOther
        cases h
        exact .turned hpc ⟨hlt, hOther⟩
    · rename_i hEnd
      cases h
      exact .returned hpc hEnd
  · rename_i hpc
    cases h
    exact .storedArg hpc
  · rename_i hpc
    cases h
    exact .storedPayload hpc
  · rename_i hpc
    split at h
    · rename_i hZero
      cases h
      exact .acknowledged hpc hZero
    · rename_i hBusy
      cases h
      exact .spun hpc hBusy

theorem mailStepped_of_step {P : PeSet} {s t : MailState} {l : MailLabel}
    (h : mailStep P s l = some t) : MailStepped P s l t := by
  cases l with
  | invoke c =>
    simp only [mailStep] at h
    split at h
    · rename_i hStart
      cases h
      exact .invoked hStart.1 hStart.2
    · cases h
  | primary => exact mailStepped_of_primary h
  | secondary i =>
    simp only [mailStep] at h
    split at h
    · rename_i hi
      cases h
      exact .moved hi
    · cases h

/-! ## What a secondary can look like -/

/-- Nothing is posted: the PE polls a zero word and has executed exactly `done`. -/
structure PeState.Quiet (p : PeState) (done : List Call) : Prop where
  payload : p.mailbox.payload = 0
  pc : p.pc = .loadPayload ∨ p.pc = .loadArg 0
  posted : p.posted = done
  started : p.started = done
  finished : p.finished = done

/-- The PE has not cleared its mailbox yet, and nothing was posted to it. -/
structure PeState.Booting (p : PeState) (done : List Call) : Prop where
  pc : p.pc = .clear
  done : done = []
  posted : p.posted = []
  started : p.started = []
  finished : p.finished = []

/-- The primary is not serving this PE. -/
def PeState.Rest (p : PeState) (done : List Call) : Prop := p.Quiet done ∨ p.Booting done

/-- How far the PE is with the call `c` that was posted to it. -/
inductive PeState.Phase (p : PeState) (c : Call) (done : List Call) : Prop
  | polling (pc : p.pc = .loadPayload ∨ p.pc = .loadArg 0) (started : p.started = done)
      (finished : p.finished = done)
  | taken (pc : p.pc = .loadArg c.payload ∨ p.pc = .call c.payload c.arg)
      (started : p.started = done) (finished : p.finished = done)
  | running (pc : p.pc = .running c.payload c.arg) (started : p.started = done ++ [c])
      (finished : p.finished = done)
  | ack (pc : p.pc = .ack) (started : p.started = done ++ [c])
      (finished : p.finished = done ++ [c])

/-- The call `c` is in the mailbox, on top of the calls `done`. -/
structure PeState.Busy (p : PeState) (c : Call) (done : List Call) : Prop where
  mailbox : p.mailbox = ⟨c.payload, c.arg⟩
  posted : p.posted = done ++ [c]
  phase : p.Phase c done

/-- The primary waits for this PE: it is at the call, or through with it. -/
def PeState.Serving (p : PeState) (c : Call) (done : List Call) : Prop :=
  p.Busy c done ∨ p.Quiet (done ++ [c])

end EnterpriseAcs.Sdei
