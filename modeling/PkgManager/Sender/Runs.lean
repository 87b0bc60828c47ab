import PkgManager.Sender.Bookkeeping

/-!
# Every run of a segment sender
-/

namespace PkgManager
namespace Sender

open Transition

/-!
# One event
-/

section Events

variable {options : SenderOptions} {acknowledged : OrderedSet Nat} {w : SenderWorld}

theorem tidy_pump (h : Tidy options acknowledged w) (answers : SegmentSender.Answers) :
    Tidy options acknowledged { w with sender := w.sender.pump options answers } :=
  tidy_pumped h (pump_pumped options answers w.sender)

theorem tidy_afterRequest (h : Tidy options acknowledged w) (answers : SegmentSender.Answers)
    (segment : Option Int) :
    Tidy options acknowledged (w.afterRequest options answers segment) := by
  unfold SenderWorld.afterRequest SegmentSender.request
  cases w.sender.accepted options answers segment with
  | none => exact h
  | some segment => exact tidy_pump (tidy_demand h segment) answers

theorem tidy_afterAck (h : Tidy options acknowledged w) (answers : SegmentSender.Answers)
    (segment : Nat) : Tidy options acknowledged (w.afterAck options answers segment) := by
  unfold SenderWorld.afterAck SegmentSender.ack
  cases hanswered : w.sender.answered answers segment with
  | none => exact h
  | some flight =>
      rcases answered_flight hanswered with ⟨hget, hsent, hactive⟩
      exact tidy_pump (tidy_acknowledge h hactive hget hsent) answers

theorem tidy_afterBusy (h : Tidy options acknowledged w) (answers : SegmentSender.Answers)
    (segment : Nat) : Tidy options acknowledged (w.afterBusy options answers segment) := by
  unfold SenderWorld.afterBusy SegmentSender.busy
  cases hanswered : w.sender.answered answers segment with
  | none => exact h
  | some flight =>
      rcases answered_flight hanswered with ⟨hget, hsent, hactive⟩
      exact tidy_pump (tidy_retryLater h hactive hget hsent) answers

/-- The retry keeps its place when its timer has run out. -/
theorem timer_quiet {s : SegmentSender} {segment : Nat} {retry : Retry}
    (hget : s.retries.get segment = some retry) :
    Quiet s { s with retries := s.retries.set segment { retry with timer := false } } :=
  { Quiet.refl s with
    retries := by
      intro other
      rw [OrderedMap.mem_set]
      constructor
      · rintro (rfl | hin)
        · exact OrderedMap.mem_of_get hget
        · exact hin
      · exact Or.inr }

theorem tidy_retryTimer {t : SegmentSender} (h : Tidy options acknowledged w)
    {answers : SegmentSender.Answers} {segment : Nat}
    (htimer : w.sender.retryTimer options answers segment = some t) :
    Tidy options acknowledged { w with sender := t } := by
  unfold SegmentSender.retryTimer at htimer
  cases hget : w.sender.retries.get segment with
  | none =>
      rw [hget] at htimer
      cases htimer
  | some retry =>
      rw [hget] at htimer
      dsimp only at htimer
      split at htimer
      · cases htimer
        exact tidy_pump (tidy_quiet h (timer_quiet hget)) answers
      · cases htimer

theorem stop_markSent (s : SegmentSender) (segment : Nat) :
    (s.markSent segment).stop = s.stop := by
  unfold SegmentSender.markSent
  split <;> rfl

theorem inactive_false {s : SegmentSender} {answer : Bool}
    (h : ¬ s.inactive answer = true) : s.stopped = false := by
  cases hstopped : s.stopped with
  | false => rfl
  | true =>
      apply absurd _ h
      rw [SegmentSender.inactive, hstopped, Bool.true_or]

theorem tidy_afterRead (h : Tidy options acknowledged w) {segment : Nat} {read : FileRead}
    (hawaiting : w.sender.awaiting = some (segment, read)) (answers : SegmentSender.Answers)
    (ending : SegmentSender.ReadEnd) :
    Tidy options acknowledged (w.afterRead options answers ending (segment, read)) := by
  have hleave := tidy_quiet h (quiet_leave w.sender)
  unfold SenderWorld.afterRead SegmentSender.resume
  dsimp only
  split
  · exact hleave
  · rename_i hgo
    have hsent := tidy_markSent h (inactive_false hgo) hawaiting
    cases ending with
    | readFails => exact tidy_stop hleave
    | sendFails =>
        have hstop := tidy_stop hsent
        rw [stop_markSent] at hstop
        exact hstop
    | sent =>
        have hprepared := tidy_quiet hsent (prepareNext_quiet options _)
        exact tidy_pumped hprepared (pumpLoop_pumped options answers.loop _)

theorem hasPending_quiet (options : SenderOptions) (s : SegmentSender) :
    Quiet s (s.hasPending options).2 := by
  unfold SegmentSender.hasPending
  split
  · exact Quiet.refl s
  · exact nextSegment_quiet options s

theorem tidy_next {event : SenderEvent} {u : SenderWorld} (h : Tidy options acknowledged w)
    (hnext : (senderSystem options).next w event = some u) : Tidy options acknowledged u := by
  cases event with
  | pump answers =>
      cases hnext
      exact tidy_pump h answers
  | request answers segment =>
      cases hnext
      exact tidy_afterRequest h answers segment
  | ack answers segment =>
      cases hnext
      exact tidy_afterAck h answers segment
  | busy answers segment =>
      cases hnext
      exact tidy_afterBusy h answers segment
  | retryTimer answers segment =>
      rcases Option.map_eq_some_iff.mp hnext with ⟨t, htimer, rfl⟩
      exact tidy_retryTimer h htimer
  | readEnds answers ending =>
      rcases Option.map_eq_some_iff.mp hnext with ⟨⟨segment, read⟩, hawaiting, rfl⟩
      exact tidy_afterRead h hawaiting answers ending
  | hasPending =>
      cases hnext
      exact tidy_quiet h (hasPending_quiet options w.sender)
  | stop =>
      cases hnext
      exact tidy_stop h

theorem tidy_run {tr : List (SenderWorld × SenderEvent)}
    (hrun : Run (senderSystem options) (fun _ _ => True)
      (SenderWorld.create options acknowledged) tr w) :
    Tidy options acknowledged w :=
  run_invariant (fun h _ hnext => tidy_next h hnext) hrun (tidy_create options acknowledged)

/-!
# What a sender promises
-/

/-- Only the awaited segment is sent, with its own read, while the sender is active. -/
theorem sends_awaited {event : SenderEvent} {segment : Nat} {read : FileRead}
    (hsends : w.sends options event = some (segment, read)) :
    w.sender.awaiting = some (segment, read) ∧ w.sender.stopped = false := by
  cases event with
  | readEnds answers ending =>
      rcases Option.bind_eq_some_iff.mp hsends with ⟨⟨awaited, awaitedRead⟩, hawaiting, hout⟩
      unfold SegmentSender.resume at hout
      dsimp only at hout
      split at hout
      · cases hout
      · rename_i hgo
        have hactive := inactive_false hgo
        cases ending with
        | readFails => cases hout
        | sendFails =>
            cases hout
            exact ⟨hawaiting, hactive⟩
        | sent =>
            cases hout
            exact ⟨hawaiting, hactive⟩
  | _ => cases hsends

end Events

/-- The bookkeeping of a sender that was created with the segments acknowledged. -/
structure Bookkeeping (options : SenderOptions) (acknowledged : OrderedSet Nat)
    (w : SenderWorld) : Prop where
  inFlight : (w.sender.flights.size : Int) ≤ min 2 (max 1 options.maxInFlight)
  onWire : (w.wire.length : Int) ≤ min 2 (max 1 options.maxInFlight)
  notTwice : w.wire.Nodup ∧
    forall segment, segment ∈ w.wire -> w.sender.stopped = true ∨ segment ∈ w.sender.flights
  speculative : w.sender.ahead.size ≤ 2 * options.demandWindow
  resends : forall event segment read, w.sends options event = some (segment, read) ->
    segment ∉ w.wire ∧
      (segment ∈ w.sender.acknowledged ->
        segment ∈ w.calledFor ∨ (0 < options.demandWindow ∧ segment = 0 ∧ 0 ∉ w.sent))
  kept : forall segment, segment ∈ w.calledFor ->
    w.sender.stopped = true ∨ segment ∈ w.sender.demands ∨ segment ∈ w.sender.flights ∨
      segment ∈ w.sender.retries
  settled : options.demandWindow = 0 ->
    (forall segment, segment < options.startSegment -> segment ∈ acknowledged) ->
      w.sender.stopped = false -> (w.sender.hasPending options).1 = false ->
        forall segment, segment < options.totalSegments -> segment ∈ w.sender.acknowledged

/-- In every run of pumps, requests, answers, timers and file reads. -/
theorem createSegmentSender_bookkeeping (options : SenderOptions)
    (acknowledged : OrderedSet Nat) {tr : List (SenderWorld × SenderEvent)} {w : SenderWorld}
    (hrun : Run (senderSystem options) (fun _ _ => True)
      (SenderWorld.create options acknowledged) tr w) :
    Bookkeeping options acknowledged w := by
  have h := tidy_run hrun
  exact
    { inFlight := h.inFlight
      onWire := h.wireLength
      notTwice := by
        constructor
        · exact h.wireNodup
        · intro segment hin
          rcases h.wireSent segment hin with hstopped | ⟨flight, hget, _⟩
          · exact Or.inl hstopped
          · exact Or.inr (OrderedMap.mem_of_get hget)
      speculative := by
        have hahead := h.speculative
        omega
      resends := by
        intro event segment read hsends
        rcases sends_awaited hsends with ⟨hawaiting, hactive⟩
        rcases awaited_notOnWire h hactive hawaiting with ⟨hget, hnot⟩
        exact ⟨hnot, fun hack => h.flightCalled segment _ hget rfl hack⟩
      kept := h.kept
      settled := by
        intro hwindow hstart hactive hpending segment hlt
        rcases hasPending_false hwindow hpending with ⟨hnothing, hbaseline⟩
        rcases hbaseline segment hlt with hbelow | hack
        · rcases h.settled hwindow hstart segment hbelow with hstopped | hack | htracked
          · rw [hactive] at hstopped
            cases hstopped
          · exact hack
          · exact absurd htracked (hnothing segment)
        · exact hack }

/-- Two segments; the first one is answered busy once. -/
def busyOnce : List SenderEvent :=
  [.pump {}, .readEnds {} .sent, .busy {} 0, .retryTimer {} 0, .readEnds {} .sent, .ack {} 0,
    .readEnds {} .sent, .ack {} 1]

theorem createSegmentSender_bookkeeping_example :
    exists w, w.sent = [1, 0, 0] ∧
      (w.sender.hasPending { totalSegments := 2 }).1 = false ∧
        Bookkeeping { totalSegments := 2 } OrderedSet.empty w := by
  have hexec : (exec (senderSystem { totalSegments := 2 })
      (SenderWorld.create { totalSegments := 2 } OrderedSet.empty) busyOnce).map
        (fun w => (w.sent, (w.sender.hasPending { totalSegments := 2 }).1)) =
      some ([1, 0, 0], false) := by
    decide
  rcases Option.map_eq_some_iff.mp hexec with ⟨w, hw, hobs⟩
  rcases run_of_exec hw with ⟨tr, _, hrun⟩
  rcases Prod.mk.inj hobs with ⟨hsent, hpending⟩
  exact ⟨w, hsent, hpending, createSegmentSender_bookkeeping _ _ hrun⟩

def CallsFor (segment : Nat) : SenderEvent -> Prop
  | .request _ (some asked) => asked = segment
  | .busy _ refused => refused = segment
  | _ => False

/-- An acknowledged segment is only sent after a request of it or a busy answer. -/
def ResendsOnlyCalledFor : Prop :=
  forall options acknowledged tr w,
    Run (senderSystem options) (fun _ _ => True) (SenderWorld.create options acknowledged) tr w ->
      forall event segment read, w.sends options event = some (segment, read) ->
        segment ∈ w.sender.acknowledged -> exists step, step ∈ tr ∧ CallsFor segment step.2

/-- A resumed upload with a window begins with its first segment again. -/
def resumedOptions : SenderOptions where
  totalSegments := 2
  startSegment := 1
  demandWindow := 2

theorem not_resendsOnlyCalledFor : ¬ ResendsOnlyCalledFor := by
  intro hall
  have hexec : (exec (senderSystem resumedOptions)
      (SenderWorld.create resumedOptions (OrderedSet.empty.add 0)) [.pump {}]).map
        (fun w => (w.sends resumedOptions (.readEnds {} .sent),
          decide (0 ∈ w.sender.acknowledged))) =
      some (some (0, { segment := 0, call := 0 }), true) := by
    decide
  rcases Option.map_eq_some_iff.mp hexec with ⟨w, hw, hobs⟩
  rcases run_of_exec hw with ⟨tr, hlabels, hrun⟩
  rcases Prod.mk.inj hobs with ⟨hsends, hack⟩
  rcases hall _ _ tr w hrun _ 0 _ hsends (of_decide_eq_true hack) with ⟨step, hin, hcalls⟩
  have hlabel : step.2 ∈ tr.map Prod.snd := List.mem_map_of_mem hin
  rw [hlabels, List.mem_singleton] at hlabel
  rw [hlabel] at hcalls
  exact hcalls

end Sender
end PkgManager
