import EnterpriseAcs.Sdei.SdeiCalls

/-!
# Which event `val_event_get` selects

For type ANY the loop over the event table asks the dispatcher about an event in every round, but
the pointer to the event stays at the first one. For the types PRIVATE and SHARED an interrupt is
bound, and the result of that call is returned as the event number even when it is an error.

* `eval_eventLoop`: the loop is decided by the first event.
* `anyPriority_iff`, `onePriority_iff`: when the selection of type ANY is right.
* `valEventGet_iff`: these, and when the binding gives the right number.
-/

namespace EnterpriseAcs.Sdei

open Interaction

/-- An event table whose events are counted in `num_events`. -/
structure EventTable where
  table : EventInfoTable
  count_le : table.numEvents.toNat ≤ table.info.length

/-- The numbers of the events. -/
def EventTable.events (t : EventTable) : List (BitVec 32) :=
  t.table.info.take t.table.numEvents.toNat

theorem EventTable.events_length (t : EventTable) : t.events.length = t.table.numEvents.toNat := by
  rw [events, List.length_take, Nat.min_eq_left t.count_le]

/-- Where there is an event, `info[0]` is the first. -/
theorem EventTable.head?_events (t : EventTable) (h : 0 < t.table.numEvents.toNat) :
    t.events.head? = some (t.table.info.headD 0) := by
  have hCount := t.count_le
  rw [events]
  cases hInfo : t.table.info with
  | nil =>
    rw [hInfo, List.length_nil] at hCount
    omega
  | cons number info =>
    obtain ⟨n, hn⟩ := Nat.exists_eq_add_of_le' h
    rw [hn]
    rfl

/-! ## The answers of the dispatcher -/

section Answers

variable (answer : (c : TestCall) → TestReply c)

/-- The answer about an event. -/
def infoAnswer (event : BitVec 32) (info : EventInfo) : BitVec 64 :=
  answer (.smc (getInfoArgs event info))

/-- The answer to a binding. -/
def bindAnswer (irqNum : BitVec 32) : BitVec 64 := answer (.smc (bindArgs irqNum))

/-- The dispatcher answers both queries about an event. -/
def Answered (event : BitVec 32) : Prop :=
  sdeiErr (infoAnswer answer event .evPriority) = 0 ∧ sdeiErr (infoAnswer answer event .evType) = 0

/-- The priority of an event is the one requested. -/
def HasPriority (priority event : BitVec 32) : Prop :=
  priority = eventPriorityAny ∨
    sdeiErr (infoAnswer answer event .evPriority) = 0 ∧
      infoAnswer answer event .evPriority = priority.setWidth 64

/-! ## What the calls return -/

theorem eval_getInfo (event : BitVec 32) (info : EventInfo) :
    eval answer (valSdeiEventGetInfo event info) =
      ⟨sdeiErr (infoAnswer answer event info), infoAnswer answer event info⟩ := rfl

/-- The event with the answers about it. -/
def asked (number : BitVec 32) : SdeiEvent where
  eventNum := number
  type := infoAnswer answer number .evType
  priority := infoAnswer answer number .evPriority

variable {answer}

theorem eval_create_of_answered {event : SdeiEvent} (h : Answered answer event.eventNum) :
    eval answer (valEventCreate event) = (0, asked answer event.eventNum) := by
  rw [valEventCreate, eval_bind, eval_getInfo, if_neg (not_not.mpr h.1), eval_bind, eval_getInfo,
    eval_pure, h.2]
  rfl

theorem eval_create_of_not_answered {event : SdeiEvent} (h : ¬ Answered answer event.eventNum) :
    (eval answer (valEventCreate event)).1 ≠ 0 := by
  rw [valEventCreate, eval_bind, eval_getInfo]
  by_cases hPriority : sdeiErr (infoAnswer answer event.eventNum .evPriority) = 0
  · rw [if_neg (not_not.mpr hPriority), eval_bind, eval_getInfo, eval_pure]
    exact fun hType => h ⟨hPriority, hType⟩
  · rw [if_pos hPriority, eval_pure]
    exact hPriority

/-- An event that was asked passes the test of the loop when it has the priority. -/
theorem eventMatches_asked {number priority : BitVec 32} (hAnswered : Answered answer number)
    (hOne : priority ≠ eventPriorityAny) :
    eventMatches eventTypeAny priority (asked answer number) = true ↔
      HasPriority answer priority number := by
  rw [HasPriority, or_iff_right hOne, and_iff_right hAnswered.1, eventMatches, asked]
  simp only [beq_eq_false_iff_ne.mpr hOne, Bool.false_and, Bool.or_false, BEq.rfl, Bool.and_true,
    Bool.or_eq_true, Bool.and_eq_true, beq_iff_eq]
  constructor
  · rintro (h | h)
    · exact h.1.symm
    · exact h.symm
  · intro h
    exact Or.inr h.symm

/-! ## The loop -/

section Loop

variable {number priority : BitVec 32} (hOne : priority ≠ eventPriorityAny)

include hOne in
/-- One round: the event is asked, and returned if it has the priority. -/
theorem eval_round (rounds i : Nat) (event : SdeiEvent) :
    (¬ Answered answer number →
      eval answer (eventLoop number eventTypeAny priority (rounds + 1) i event) =
        ⟨0, decide (2 ^ 31 ≤ i)⟩) ∧
    (Answered answer number → HasPriority answer priority number →
      eval answer (eventLoop number eventTypeAny priority (rounds + 1) i event) =
        ⟨number, decide (2 ^ 31 ≤ i)⟩) ∧
    (Answered answer number → ¬ HasPriority answer priority number →
      eval answer (eventLoop number eventTypeAny priority (rounds + 1) i event) =
        eval answer (eventLoop number eventTypeAny priority rounds (i + 1)
          (asked answer number))) := by
  rw [eventLoop, if_neg (fun h => hOne h.1), eval_bind]
  refine ⟨fun h => ?_, fun h hHas => ?_, fun h hNot => ?_⟩
  · rw [if_pos (eval_create_of_not_answered h), eval_pure]
  · rw [eval_create_of_answered h, if_neg (not_not.mpr rfl),
      if_pos ((eventMatches_asked h hOne).mpr hHas), eval_pure]
    rfl
  · rw [eval_create_of_answered h, if_neg (not_not.mpr rfl),
      if_neg (fun hMatch => hNot ((eventMatches_asked h hOne).mp hMatch))]

include hOne in
/-- An event that answers without the priority is asked in every round. -/
theorem eval_eventLoop_unmatched (hAnswered : Answered answer number)
    (hNot : ¬ HasPriority answer priority number) (rounds i : Nat) (event : SdeiEvent) :
    eval answer (eventLoop number eventTypeAny priority rounds i event) =
      ⟨0, decide (2 ^ 31 ≤ i + rounds)⟩ := by
  induction rounds generalizing i event with
  | zero => rfl
  | succ rounds ih =>
    rw [(eval_round hOne rounds i event).2.2 hAnswered hNot, ih, Nat.add_right_comm, Nat.add_assoc]

end Loop

/-! ## Type ANY -/

variable (answer) in
/-- The first event answers and has the priority. -/
def FirstTaken (t : EventTable) (priority : BitVec 32) : Prop :=
  ∃ number, t.events.head? = some number ∧ Answered answer number ∧
    HasPriority answer priority number

variable (answer) in
/-- The first event does not answer. -/
def FirstSilent (t : EventTable) : Prop :=
  ∃ number, t.events.head? = some number ∧ ¬ Answered answer number

variable (answer) in
/-- The number of an event that has the priority, when there is one that answers, and zero
otherwise. The counter stays an `int`. -/
structure SelectsAny (t : EventTable) (priority : BitVec 32) (r : EventGet) : Prop where
  overflow : r.overflow = false
  found : (∃ number ∈ t.events, HasPriority answer priority number ∧ Answered answer number) →
    ∃ number ∈ t.events, HasPriority answer priority number ∧ r.eventNum = number
  none : (¬ ∃ number ∈ t.events, HasPriority answer priority number ∧ Answered answer number) →
    r.eventNum = 0

section Any

variable {t : EventTable} {uninit : SdeiEvent} {priority : BitVec 32}

theorem valEventGet_any (t : EventTable) (uninit : SdeiEvent) (priority : BitVec 32) :
    valEventGet t.table uninit eventTypeAny priority =
      eventLoop (t.table.info.headD 0) eventTypeAny priority t.table.numEvents.toNat 0 uninit :=
  rfl

theorem eval_any_of_taken (hOne : priority ≠ eventPriorityAny) {number : BitVec 32}
    (hFirst : t.events.head? = some number) (hAnswered : Answered answer number)
    (hHas : HasPriority answer priority number) :
    eval answer (valEventGet t.table uninit eventTypeAny priority) = ⟨number, false⟩ := by
  have hPos : 0 < t.table.numEvents.toNat := by
    rw [← t.events_length]
    exact List.length_pos_of_mem (List.mem_of_head? hFirst)
  have hNumber : t.table.info.headD 0 = number :=
    Option.some_inj.mp ((t.head?_events hPos).symm.trans hFirst)
  obtain ⟨rounds, hRounds⟩ := Nat.exists_eq_add_of_le' hPos
  rw [valEventGet_any, hRounds, hNumber, (eval_round hOne rounds 0 uninit).2.1 hAnswered hHas]
  rfl

variable (uninit) in
theorem eval_any_of_not_taken (hOne : priority ≠ eventPriorityAny)
    (hNot : ¬ FirstTaken answer t priority) :
    (eval answer (valEventGet t.table uninit eventTypeAny priority)).eventNum = 0 ∧
      ((eval answer (valEventGet t.table uninit eventTypeAny priority)).overflow = false ↔
        t.table.numEvents.toNat < 2 ^ 31 ∨ FirstSilent answer t) := by
  rw [valEventGet_any]
  rcases Nat.eq_zero_or_pos t.table.numEvents.toNat with hZero | hPos
  · rw [hZero]
    exact ⟨rfl, iff_of_true rfl (Or.inl (by decide))⟩
  · have hFirst := t.head?_events hPos
    by_cases hAnswered : Answered answer (t.table.info.headD 0)
    · have hOther : ¬ HasPriority answer priority (t.table.info.headD 0) :=
        fun hHas => hNot ⟨_, hFirst, hAnswered, hHas⟩
      have hSilent : ¬ FirstSilent answer t := by
        rintro ⟨number, hNumber, hNo⟩
        obtain rfl := Option.some_inj.mp (hFirst.symm.trans hNumber)
        exact hNo hAnswered
      rw [eval_eventLoop_unmatched hOne hAnswered hOther, or_iff_left hSilent, Nat.zero_add,
        decide_eq_false_iff_not, Nat.not_le]
      exact ⟨rfl, Iff.rfl⟩
    · obtain ⟨rounds, hRounds⟩ := Nat.exists_eq_add_of_le' hPos
      rw [hRounds, (eval_round hOne rounds 0 uninit).1 hAnswered]
      exact ⟨rfl, iff_of_true rfl (Or.inr ⟨_, hFirst, hAnswered⟩)⟩

/-- A request for one priority. The answer is right when the first event is the one; and else when
no event of the table is, or one with number zero, provided that the table is not so long that an
event without the priority is asked too often. -/
theorem onePriority_iff (hOne : priority ≠ eventPriorityAny) :
    SelectsAny answer t priority (eval answer (valEventGet t.table uninit eventTypeAny priority)) ↔
      FirstTaken answer t priority ∨
        (t.table.numEvents.toNat < 2 ^ 31 ∨ FirstSilent answer t) ∧
          ((∀ number ∈ t.events, HasPriority answer priority number →
              ¬ Answered answer number) ∨
            0 ∈ t.events ∧ HasPriority answer priority 0) := by
  by_cases hTaken : FirstTaken answer t priority
  · refine iff_of_true ?_ (Or.inl hTaken)
    obtain ⟨number, hFirst, hAnswered, hHas⟩ := hTaken
    have hMem := List.mem_of_head? hFirst
    rw [eval_any_of_taken hOne hFirst hAnswered hHas]
    exact ⟨rfl, fun _ => ⟨number, hMem, hHas, rfl⟩,
      fun hNone => absurd ⟨number, hMem, hHas, hAnswered⟩ hNone⟩
  · obtain ⟨hZero, hOverflow⟩ := eval_any_of_not_taken uninit hOne hTaken
    rw [or_iff_right hTaken, ← hOverflow]
    constructor
    · intro h
      refine ⟨h.overflow, ?_⟩
      by_cases hAny : ∃ number ∈ t.events, HasPriority answer priority number ∧
          Answered answer number
      · obtain ⟨number, hMem, hHas, hNumber⟩ := h.found hAny
        rw [hZero] at hNumber
        subst hNumber
        exact Or.inr ⟨hMem, hHas⟩
      · exact Or.inl fun number hMem hHas hAnswered => hAny ⟨number, hMem, hHas, hAnswered⟩
    · rintro ⟨hNoOverflow, hNone | ⟨hMem, hHas⟩⟩
      · refine ⟨hNoOverflow, fun hAny => ?_, fun _ => hZero⟩
        obtain ⟨number, hMem, hHas, hAnswered⟩ := hAny
        exact absurd hAnswered (hNone number hMem hHas)
      · exact ⟨hNoOverflow, fun _ => ⟨0, hMem, hHas, hZero⟩, fun _ => hZero⟩

/-- A request for any priority: the first event is returned without a question. -/
theorem anyPriority_iff :
    SelectsAny answer t eventPriorityAny
        (eval answer (valEventGet t.table uninit eventTypeAny eventPriorityAny)) ↔
      (∃ number ∈ t.events, Answered answer number) ∨ t.events.head? = none ∨
        t.events.head? = some 0 := by
  have hAll : ∀ number, HasPriority answer eventPriorityAny number := fun _ => Or.inl rfl
  have hExists : (∃ number ∈ t.events, HasPriority answer eventPriorityAny number ∧
      Answered answer number) ↔ ∃ number ∈ t.events, Answered answer number := by
    simp only [hAll, true_and]
  rw [valEventGet_any]
  rcases Nat.eq_zero_or_pos t.table.numEvents.toNat with hZero | hPos
  · have hEmpty : t.events = [] := List.length_eq_zero_iff.mp (t.events_length.trans hZero)
    rw [hZero, hEmpty]
    refine iff_of_true ⟨rfl, fun h => ?_, fun _ => rfl⟩ (Or.inr (Or.inl rfl))
    rw [hEmpty] at h
    obtain ⟨number, hMem, -⟩ := h
    exact absurd hMem List.not_mem_nil
  · have hFirst := t.head?_events hPos
    have hReturns : eval answer (eventLoop (t.table.info.headD 0) eventTypeAny eventPriorityAny
        t.table.numEvents.toNat 0 uninit) = ⟨t.table.info.headD 0, false⟩ := by
      obtain ⟨rounds, hRounds⟩ := Nat.exists_eq_add_of_le' hPos
      rw [hRounds]
      rfl
    rw [hReturns, hFirst, or_iff_right (a := some (t.table.info.headD 0) = none) nofun,
      Option.some.injEq]
    constructor
    · intro h
      by_cases hAny : ∃ number ∈ t.events, Answered answer number
      · exact Or.inl hAny
      · exact Or.inr (h.none (mt hExists.mp hAny))
    · intro h
      refine ⟨rfl, fun _ => ⟨_, List.mem_of_head? hFirst, hAll _, rfl⟩, fun hNone => ?_⟩
      rcases h with hAny | hZero
      · exact absurd (hExists.mpr hAny) hNone
      · exact hZero

end Any

/-! ## Types PRIVATE and SHARED -/

/-- The number that is bound, or zero. -/
structure SelectsBound (res : BitVec 64) (r : EventGet) : Prop where
  bound : sdeiErr res = 0 → r.eventNum = res.setWidth 32
  failed : sdeiErr res ≠ 0 → r.eventNum = 0

/-- The number is that of the result, and no error has the number zero. -/
theorem selectsBound_iff (res : BitVec 64) (overflow : Bool) :
    SelectsBound res { eventNum := res.setWidth 32, overflow := overflow } ↔ sdeiErr res = 0 := by
  constructor
  · intro h
    by_contra hErr
    have hIsErr : sdeiIsErr res = true := by
      rw [← Bool.not_eq_false]
      exact mt (sdeiErr_eq_zero_iff res).mpr hErr
    exact setWidth_ne_zero_of_isErr hIsErr (h.failed hErr)
  · intro hErr
    exact ⟨fun _ => rfl, fun h => absurd hErr h⟩

/-- When the selection of an event is right, for the three types. -/
theorem valEventGet_iff (answer : (c : TestCall) → TestReply c) (t : EventTable)
    (uninit : SdeiEvent) (priority : BitVec 32) :
    (SelectsAny answer t priority
        (eval answer (valEventGet t.table uninit eventTypeAny priority)) ↔
      if priority = eventPriorityAny then
        (∃ number ∈ t.events, Answered answer number) ∨ t.events.head? = none ∨
          t.events.head? = some 0
      else
        FirstTaken answer t priority ∨
          (t.table.numEvents.toNat < 2 ^ 31 ∨ FirstSilent answer t) ∧
            ((∀ number ∈ t.events, HasPriority answer priority number →
                ¬ Answered answer number) ∨
              0 ∈ t.events ∧ HasPriority answer priority 0)) ∧
    (SelectsBound (bindAnswer answer ppiIntrNum)
        (eval answer (valEventGet t.table uninit eventTypePrivate priority)) ↔
      sdeiErr (bindAnswer answer ppiIntrNum) = 0) ∧
    (SelectsBound (bindAnswer answer spiIntrNum)
        (eval answer (valEventGet t.table uninit eventTypeShared priority)) ↔
      sdeiErr (bindAnswer answer spiIntrNum) = 0) := by
  refine ⟨?_, selectsBound_iff _ false, selectsBound_iff _ false⟩
  split
  · rename_i hAny
    subst hAny
    exact anyPriority_iff
  · rename_i hOne
    exact onePriority_iff hOne

end Answers

/-! ## A table with two events -/

theorem twoEvents_count : (2#32).toNat ≤ [1#32, 2#32].length := by decide

def twoEvents : EventTable where
  table := { numEvents := 2, info := [1, 2] }
  count_le := twoEvents_count

/-- Only event 2 is critical, and nothing can be bound. -/
def secondCritical : (c : TestCall) → TestReply c
  | .smc args =>
    let res : BitVec 64 :=
      if args.fn = .interruptBind then -3 else if args = getInfoArgs 2 .evPriority then 1 else 0
    res
  | .gicDisableInterrupt _ => (0 : BitVec 32)
  | .configureSecondInterrupt => ({ err := 0, index := 0, intId := 0 } : SecondReply)
  | .disableSecondInterrupt _ => ()
  | .paToVa addr => (addr : BitVec 64)
  | .vaFree _ => ()
  | .wdSetWs0 _ _ _ => ()
  | .readHandlerFlag => (0 : BitVec 32)
  | .readEventCounter => (0 : BitVec 32)
  | .readTestStatus => (0 : BitVec 64)
  | .testPeSetStatus _ => ()

/-- The critical event is not found, and for a private one the error DENIED is returned. -/
theorem second_event_not_found :
    ¬ SelectsAny secondCritical twoEvents 1
        (eval secondCritical (valEventGet twoEvents.table ⟨0, 0, 0⟩ eventTypeAny 1)) ∧
      ¬ SelectsBound (bindAnswer secondCritical ppiIntrNum)
        (eval secondCritical (valEventGet twoEvents.table ⟨0, 0, 0⟩ eventTypePrivate 1)) ∧
      (eval secondCritical (valEventGet twoEvents.table ⟨0, 0, 0⟩ eventTypePrivate 1)).eventNum =
        0xFFFFFFFD := by
  have hReturns :
      eval secondCritical (valEventGet twoEvents.table ⟨0, 0, 0⟩ eventTypeAny 1) = ⟨0, false⟩ := by
    decide
  refine ⟨fun h => ?_, fun h => ?_, by decide⟩
  · have hCritical : ∃ number ∈ twoEvents.events, HasPriority secondCritical 1 number ∧
        Answered secondCritical number :=
      ⟨2, by decide, Or.inr ⟨by decide, by decide⟩, by decide, by decide⟩
    obtain ⟨number, hMem, -, hNumber⟩ := h.found hCritical
    rw [hReturns] at hNumber
    subst hNumber
    exact absurd hMem (by decide)
  · exact absurd (h.failed (by decide)) (by decide)

end EnterpriseAcs.Sdei
