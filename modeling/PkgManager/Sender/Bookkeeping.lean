import PkgManager.Sender.Moves

/-!
# No segment is forgotten

The history of a sender is what was asked of it and what it put on the wire.
-/

namespace PkgManager
namespace Sender

open Transition

/-- {lit}`calledFor` holds the segments that were requested or answered busy and not
acknowledged since, and {lit}`wire` those that were sent and not answered since. -/
structure SenderWorld where
  sender : SegmentSender
  calledFor : OrderedSet Nat
  wire : List Nat
  sent : List Nat

inductive SenderEvent where
  | pump (answers : SegmentSender.Answers)
  | request (answers : SegmentSender.Answers) (segment : Option Int)
  | ack (answers : SegmentSender.Answers) (segment : Nat)
  | busy (answers : SegmentSender.Answers) (segment : Nat)
  | retryTimer (answers : SegmentSender.Answers) (segment : Nat)
  | readEnds (answers : SegmentSender.Answers) (ending : SegmentSender.ReadEnd)
  | hasPending
  | stop

namespace SenderWorld

def create (options : SenderOptions) (acknowledged : OrderedSet Nat) : SenderWorld where
  sender := createSegmentSender options acknowledged
  calledFor := OrderedSet.empty
  wire := []
  sent := []

def afterRequest (options : SenderOptions) (answers : SegmentSender.Answers)
    (segment : Option Int) (w : SenderWorld) : SenderWorld :=
  { w with
    sender := w.sender.request options answers segment
    calledFor :=
      match w.sender.accepted options answers segment with
      | none => w.calledFor
      | some segment => w.calledFor.add segment }

def afterAck (options : SenderOptions) (answers : SegmentSender.Answers) (segment : Nat)
    (w : SenderWorld) : SenderWorld :=
  { w with
    sender := w.sender.ack options answers segment
    calledFor :=
      match w.sender.answered answers segment with
      | none => w.calledFor
      | some _ => w.calledFor.delete segment
    wire :=
      match w.sender.answered answers segment with
      | none => w.wire
      | some _ => w.wire.erase segment }

def afterBusy (options : SenderOptions) (answers : SegmentSender.Answers) (segment : Nat)
    (w : SenderWorld) : SenderWorld :=
  { w with
    sender := w.sender.busy options answers segment
    calledFor :=
      match w.sender.answered answers segment with
      | none => w.calledFor
      | some _ => w.calledFor.add segment
    wire :=
      match w.sender.answered answers segment with
      | none => w.wire
      | some _ => w.wire.erase segment }

def afterRead (options : SenderOptions) (answers : SegmentSender.Answers)
    (ending : SegmentSender.ReadEnd) (w : SenderWorld) (awaited : Nat × FileRead) :
    SenderWorld :=
  let (sender, send) := w.sender.resume options answers ending awaited.1 awaited.2
  { w with
    sender := sender
    wire := (send.map Prod.fst).toList ++ w.wire
    sent := (send.map Prod.fst).toList ++ w.sent }

def next (options : SenderOptions) (w : SenderWorld) : SenderEvent -> Option SenderWorld
  | .pump answers => some { w with sender := w.sender.pump options answers }
  | .request answers segment => some (w.afterRequest options answers segment)
  | .ack answers segment => some (w.afterAck options answers segment)
  | .busy answers segment => some (w.afterBusy options answers segment)
  | .retryTimer answers segment =>
      (w.sender.retryTimer options answers segment).map (fun sender => { w with sender := sender })
  | .readEnds answers ending => w.sender.awaiting.map (w.afterRead options answers ending)
  | .hasPending => some { w with sender := (w.sender.hasPending options).2 }
  | .stop => some { w with sender := w.sender.stop }

/-- What an event hands to {lit}`sendSegment`. -/
def sends (options : SenderOptions) (w : SenderWorld) : SenderEvent -> Option (Nat × FileRead)
  | .readEnds answers ending =>
      w.sender.awaiting.bind
        (fun awaited => (w.sender.resume options answers ending awaited.1 awaited.2).2)
  | _ => none

end SenderWorld

def senderSystem (options : SenderOptions) : System SenderWorld SenderEvent where
  next := SenderWorld.next options

/-- The segment was asked for, or it is the first one, which a sender with a window asks
for itself when it is created. -/
def Called (options : SenderOptions) (w : SenderWorld) (segment : Nat) : Prop :=
  segment ∈ w.calledFor ∨ (0 < options.demandWindow ∧ segment = 0 ∧ 0 ∉ w.sent)

/-- What is on the wire is in flight. -/
structure OnWire (options : SenderOptions) (w : SenderWorld) : Prop where
  inFlight : (w.sender.flights.size : Int) ≤ options.limit
  wireNodup : w.wire.Nodup
  wireLength : (w.wire.length : Int) ≤ options.limit
  wireSent : forall segment, segment ∈ w.wire ->
    w.sender.stopped = true ∨
      exists flight, w.sender.flights.get segment = some flight ∧ flight.isSent = true
  awaited : forall segment read, w.sender.awaiting = some (segment, read) ->
    w.sender.stopped = true ∨
      w.sender.flights.get segment = some { read := read, isSent := false }

structure Tidy (options : SenderOptions) (acknowledged : OrderedSet Nat) (w : SenderWorld) : Prop
    extends OnWire options w where
  speculative : w.sender.ahead.size ≤ options.demandWindow * 2
  apart : forall segment, segment ∈ w.sender.demands -> segment ∉ w.sender.flights
  demandCalled : forall segment, segment ∈ w.sender.demands -> Called options w segment
  flightCalled : forall segment flight, w.sender.flights.get segment = some flight ->
    flight.isSent = false -> segment ∈ w.sender.acknowledged -> Called options w segment
  kept : forall segment, segment ∈ w.calledFor ->
    w.sender.stopped = true ∨ Tracked w.sender segment
  settled : options.demandWindow = 0 ->
    (forall segment, segment < options.startSegment -> segment ∈ acknowledged) ->
      forall segment, segment < w.sender.baseline ->
        w.sender.stopped = true ∨ segment ∈ w.sender.acknowledged ∨ Tracked w.sender segment

/-!
# Moves of the sender
-/

section Moves

variable {options : SenderOptions} {acknowledged : OrderedSet Nat} {w : SenderWorld}

theorem tidy_create (options : SenderOptions) (acknowledged : OrderedSet Nat) :
    Tidy options acknowledged (SenderWorld.create options acknowledged) := by
  have hlimit : (0 : Int) ≤ options.limit := by
    unfold SenderOptions.limit
    omega
  have hdemands : forall segment,
      segment ∈ (createSegmentSender options acknowledged).demands ->
        0 < options.demandWindow ∧ segment = 0 := by
    intro segment hin
    unfold createSegmentSender at hin
    dsimp only at hin
    split at hin
    · rename_i hdemand
      rw [OrderedSet.mem_add] at hin
      rcases hin with rfl | hin
      · exact ⟨hdemand.1, rfl⟩
      · exact absurd hin (OrderedSet.not_mem_empty _)
    · exact absurd hin (OrderedSet.not_mem_empty _)
  exact
    { inFlight := hlimit
      speculative := Nat.zero_le _
      wireNodup := List.nodup_nil
      wireLength := hlimit
      wireSent := fun segment hin => absurd hin List.not_mem_nil
      awaited := fun segment read h => nomatch h
      apart := fun segment _ => OrderedMap.not_mem_empty segment
      demandCalled := by
        intro segment hin
        rcases hdemands segment hin with ⟨hwindow, hzero⟩
        exact Or.inr ⟨hwindow, hzero, List.not_mem_nil⟩
      flightCalled := fun segment flight h => nomatch h
      kept := fun segment hin => absurd hin (OrderedSet.not_mem_empty _)
      settled := fun _ hstart segment hlt => Or.inr (Or.inl (hstart segment hlt)) }

theorem tracked_quiet {s t : SegmentSender} (h : Quiet s t) {segment : Nat} :
    Tracked t segment ↔ Tracked s segment := by
  unfold Tracked
  rw [h.demands, h.flights, h.retries]

theorem tidy_quiet {t : SegmentSender} (h : Tidy options acknowledged w)
    (hquiet : Quiet w.sender t) : Tidy options acknowledged { w with sender := t } where
  inFlight := by
    rw [hquiet.flights]
    exact h.inFlight
  speculative := Nat.le_trans hquiet.ahead h.speculative
  wireNodup := h.wireNodup
  wireLength := h.wireLength
  wireSent := by
    rw [hquiet.flights, hquiet.stopped]
    exact h.wireSent
  awaited := by
    intro segment read hawaiting
    rcases hquiet.awaiting with hsame | hnone
    · rw [hsame] at hawaiting
      rw [hquiet.flights, hquiet.stopped]
      exact h.awaited segment read hawaiting
    · rw [hnone] at hawaiting
      cases hawaiting
  apart := by
    rw [hquiet.demands, hquiet.flights]
    exact h.apart
  demandCalled := by
    rw [hquiet.demands]
    exact h.demandCalled
  flightCalled := by
    rw [hquiet.flights, hquiet.acknowledged]
    exact h.flightCalled
  kept := by
    intro segment hin
    rw [hquiet.stopped, tracked_quiet hquiet]
    exact h.kept segment hin
  settled := by
    intro hwindow hstart segment hlt
    rw [hquiet.stopped, hquiet.acknowledged, tracked_quiet hquiet]
    rcases hquiet.baseline segment hlt with hbelow | hhandled
    · exact h.settled hwindow hstart segment hbelow
    · right
      unfold SegmentSender.handled at hhandled
      rw [Bool.or_eq_true, decide_eq_true_eq, decide_eq_true_eq] at hhandled
      rcases hhandled with hack | hflight
      · exact Or.inl hack
      · exact Or.inr (Or.inr (Or.inl hflight))

theorem tracked_begins {s t : SegmentSender} {segment other : Nat} {read : FileRead}
    (h : Begins options segment read s t) (htracked : Tracked s other) : Tracked t other := by
  unfold Tracked at htracked ⊢
  rw [h.demands, h.flights, h.retries, OrderedSet.mem_delete, OrderedMap.mem_set]
  by_cases heq : other = segment
  · exact Or.inr (Or.inl (Or.inl heq))
  · rcases htracked with hdemand | hflight | hretry
    · exact Or.inl ⟨heq, hdemand⟩
    · exact Or.inr (Or.inl (Or.inr hflight))
    · exact Or.inr (Or.inr ⟨heq, hretry⟩)

theorem tidy_begins {t : SegmentSender} {segment : Nat} {read : FileRead}
    (h : Tidy options acknowledged w) (hbegins : Begins options segment read w.sender t) :
    Tidy options acknowledged { w with sender := t } where
  inFlight := by
    have hsize := OrderedMap.size_set_le w.sender.flights segment
      { read := read, isSent := false }
    have hroom := hbegins.room
    rw [hbegins.flights]
    omega
  speculative := Nat.le_trans hbegins.ahead h.speculative
  wireNodup := h.wireNodup
  wireLength := h.wireLength
  wireSent := by
    intro other hin
    right
    rcases h.wireSent other hin with hstopped | ⟨flight, hget, hsent⟩
    · rw [hbegins.active] at hstopped
      cases hstopped
    · have hne : other ≠ segment := by
        intro heq
        subst heq
        exact hbegins.fresh (OrderedMap.mem_of_get hget)
      exists flight
      rw [hbegins.flights, OrderedMap.get_set_ne _ _ hne]
      exact ⟨hget, hsent⟩
  awaited := by
    intro other otherRead hawaiting
    rw [hbegins.awaiting] at hawaiting
    cases hawaiting
    right
    rw [hbegins.flights, OrderedMap.get_set_self]
  apart := by
    intro other hin hflight
    rw [hbegins.demands, OrderedSet.mem_delete] at hin
    rw [hbegins.flights, OrderedMap.mem_set] at hflight
    rcases hflight with heq | hflight
    · exact hin.1 heq
    · exact h.apart other hin.2 hflight
  demandCalled := by
    intro other hin
    rw [hbegins.demands, OrderedSet.mem_delete] at hin
    exact h.demandCalled other hin.2
  flightCalled := by
    intro other flight hget hsent hack
    rw [hbegins.acknowledged] at hack
    by_cases heq : other = segment
    · subst heq
      rcases hbegins.cause with hdemand | hnot
      · exact h.demandCalled other hdemand
      · exact absurd hack hnot
    · rw [hbegins.flights, OrderedMap.get_set_ne _ _ heq] at hget
      exact h.flightCalled other flight hget hsent hack
  kept := by
    intro other hin
    rcases h.kept other hin with hstopped | htracked
    · rw [hbegins.active] at hstopped
      cases hstopped
    · exact Or.inr (tracked_begins hbegins htracked)
  settled := by
    intro hwindow hstart other hlt
    right
    rw [hbegins.acknowledged]
    have hsegment : other = segment -> Tracked t other := by
      intro heq
      unfold Tracked
      rw [hbegins.flights, OrderedMap.mem_set]
      exact Or.inr (Or.inl (Or.inl heq))
    rcases hbegins.baseline other hlt with hbelow | heq | hhandled
    · rcases h.settled hwindow hstart other hbelow with hstopped | hack | htracked
      · rw [hbegins.active] at hstopped
        cases hstopped
      · exact Or.inl hack
      · exact Or.inr (tracked_begins hbegins htracked)
    · exact Or.inr (hsegment heq)
    · unfold SegmentSender.handled at hhandled
      rw [Bool.or_eq_true, decide_eq_true_eq, decide_eq_true_eq] at hhandled
      rcases hhandled with hack | hflight
      · exact Or.inl hack
      · exact Or.inr (tracked_begins hbegins (Or.inr (Or.inl hflight)))

theorem tidy_pumped {t : SegmentSender} (h : Tidy options acknowledged w)
    (hpumped : Pumped options w.sender t) : Tidy options acknowledged { w with sender := t } := by
  rcases hpumped with hquiet | ⟨u, segment, read, hquiet, hbegins⟩
  · exact tidy_quiet h hquiet
  · exact tidy_begins (w := { w with sender := u }) (tidy_quiet h hquiet) hbegins

/-!
# Requests and answers
-/

theorem demand_tracked {s : SegmentSender} {segment other : Nat}
    (h : Tracked s other) : Tracked (s.demand options segment) other := by
  rcases h with hdemand | hother
  · left
    change other ∈ if segment ∈ s.flights then s.demands else s.demands.add segment
    split
    · exact hdemand
    · exact OrderedSet.mem_add.mpr (Or.inr hdemand)
  · exact Or.inr hother

theorem demand_requested (s : SegmentSender) (segment : Nat) :
    Tracked (s.demand options segment) segment := by
  by_cases hflight : segment ∈ s.flights
  · exact Or.inr (Or.inl hflight)
  · left
    change segment ∈ if segment ∈ s.flights then s.demands else s.demands.add segment
    rw [if_neg hflight]
    exact OrderedSet.mem_add.mpr (Or.inl rfl)

theorem tidy_demand (h : Tidy options acknowledged w) (segment : Nat) :
    Tidy options acknowledged
      { w with
        sender := w.sender.demand options segment
        calledFor := w.calledFor.add segment } := by
  have hdemands : forall other, other ∈ (w.sender.demand options segment).demands ->
      other ∈ w.sender.demands ∨ (other = segment ∧ segment ∉ w.sender.flights) := by
    intro other hin
    change other ∈ if segment ∈ w.sender.flights then w.sender.demands
      else w.sender.demands.add segment at hin
    split at hin
    · exact Or.inl hin
    · rename_i hflight
      rcases OrderedSet.mem_add.mp hin with heq | hold
      · exact Or.inr ⟨heq, hflight⟩
      · exact Or.inl hold
  have hcalled : forall other, Called options w other ->
      Called options { w with
        sender := w.sender.demand options segment
        calledFor := w.calledFor.add segment } other := by
    intro other hother
    rcases hother with hin | hfirst
    · exact Or.inl (OrderedSet.mem_add.mpr (Or.inr hin))
    · exact Or.inr hfirst
  exact
    { h with
      speculative := OrderedSet.size_trim_le _ _
      apart := by
        intro other hin
        rcases hdemands other hin with hold | ⟨rfl, hflight⟩
        · exact h.apart other hold
        · exact hflight
      demandCalled := by
        intro other hin
        rcases hdemands other hin with hold | ⟨rfl, hflight⟩
        · exact hcalled other (h.demandCalled other hold)
        · exact Or.inl (OrderedSet.mem_add.mpr (Or.inl rfl))
      flightCalled := fun other flight hget hsent hack =>
        hcalled other (h.flightCalled other flight hget hsent hack)
      kept := by
        intro other hin
        rcases OrderedSet.mem_add.mp hin with rfl | hold
        · exact Or.inr (demand_requested w.sender other)
        · rcases h.kept other hold with hstopped | htracked
          · exact Or.inl hstopped
          · exact Or.inr (demand_tracked htracked)
      settled := by
        intro hwindow hstart other hlt
        rcases h.settled hwindow hstart other hlt with hstopped | hack | htracked
        · exact Or.inl hstopped
        · exact Or.inr (Or.inl hack)
        · exact Or.inr (Or.inr (demand_tracked htracked)) }

theorem answered_flight {s : SegmentSender} {answers : SegmentSender.Answers} {segment : Nat}
    {flight : Flight} (h : s.answered answers segment = some flight) :
    s.flights.get segment = some flight ∧ flight.isSent = true ∧ s.stopped = false := by
  unfold SegmentSender.answered at h
  split at h
  · cases h
  · rename_i hactive
    rw [Option.filter_eq_some_iff] at h
    refine ⟨h.1, h.2, ?_⟩
    cases hstopped : s.stopped with
    | false => rfl
    | true => exact absurd (by simp [SegmentSender.inactive, hstopped]) hactive

/-- An answer ends the flight of its segment. -/
structure Answered (segment : Nat) (s t : SegmentSender) : Prop where
  active : s.stopped = false
  flight : exists flight, s.flights.get segment = some flight ∧ flight.isSent = true
  flights : t.flights = s.flights.delete segment
  awaiting : t.awaiting = s.awaiting
  stopped : t.stopped = s.stopped

theorem onWire_answered {segment : Nat} {t : SegmentSender} {calledFor : OrderedSet Nat}
    (h : OnWire options w) (hanswered : Answered segment w.sender t) :
    OnWire options
      { w with sender := t, calledFor := calledFor, wire := w.wire.erase segment } where
  inFlight := by
    have hsize := OrderedMap.size_delete_le w.sender.flights segment
    have hold := h.inFlight
    rw [hanswered.flights]
    omega
  wireNodup := h.wireNodup.erase segment
  wireLength := by
    have hlength := (List.erase_sublist (l := w.wire) (a := segment)).length_le
    have hold := h.wireLength
    change ((w.wire.erase segment).length : Int) ≤ _
    omega
  wireSent := by
    intro other hin
    rcases h.wireNodup.mem_erase_iff.mp hin with ⟨hne, hold⟩
    rw [hanswered.flights, hanswered.stopped, OrderedMap.get_delete_ne _ hne]
    exact h.wireSent other hold
  awaited := by
    intro other read hawaiting
    rw [hanswered.awaiting] at hawaiting
    have hawaited := h.awaited other read hawaiting
    rcases hanswered.flight with ⟨flight, hget, hsent⟩
    have hne : other ≠ segment := by
      intro heq
      subst heq
      rcases hawaited with hstopped | hunsent
      · rw [hanswered.active] at hstopped
        cases hstopped
      · rw [hunsent] at hget
        cases hget
        cases hsent
    rw [hanswered.flights, hanswered.stopped, OrderedMap.get_delete_ne _ hne]
    exact hawaited

theorem tidy_acknowledge {segment : Nat} {flight : Flight} (h : Tidy options acknowledged w)
    (hactive : w.sender.stopped = false)
    (hget : w.sender.flights.get segment = some flight) (hsent : flight.isSent = true) :
    Tidy options acknowledged
      { w with
        sender := w.sender.acknowledge segment
        calledFor := w.calledFor.delete segment
        wire := w.wire.erase segment } := by
  have htracked : forall other, other ≠ segment -> Tracked w.sender other ->
      Tracked (w.sender.acknowledge segment) other := by
    intro other hne hother
    rcases hother with hdemand | hflight | hretry
    · exact Or.inl (OrderedSet.mem_delete.mpr ⟨hne, hdemand⟩)
    · exact Or.inr (Or.inl (OrderedMap.mem_delete.mpr ⟨hne, hflight⟩))
    · exact Or.inr (Or.inr hretry)
  have hcalled : forall other, other ≠ segment -> Called options w other ->
      Called options
        { w with
          sender := w.sender.acknowledge segment
          calledFor := w.calledFor.delete segment
          wire := w.wire.erase segment } other := by
    intro other hne hother
    rcases hother with hin | hfirst
    · exact Or.inl (OrderedSet.mem_delete.mpr ⟨hne, hin⟩)
    · exact Or.inr hfirst
  exact
    { toOnWire := onWire_answered h.toOnWire
        { active := hactive
          flight := ⟨flight, hget, hsent⟩
          flights := rfl
          awaiting := rfl
          stopped := rfl }
      speculative := h.speculative
      apart := by
        intro other hin hflight
        exact h.apart other (OrderedSet.mem_delete.mp hin).2 (OrderedMap.mem_delete.mp hflight).2
      demandCalled := by
        intro other hin
        rcases OrderedSet.mem_delete.mp hin with ⟨hne, hold⟩
        exact hcalled other hne (h.demandCalled other hold)
      flightCalled := by
        intro other f hf hs hack
        have hne := (OrderedMap.mem_delete.mp (OrderedMap.mem_of_get hf)).1
        have hold := (OrderedMap.get_delete_ne w.sender.flights hne).symm.trans hf
        rcases OrderedSet.mem_add.mp hack with heq | hbefore
        · exact absurd heq hne
        · exact hcalled other hne (h.flightCalled other f hold hs hbefore)
      kept := by
        intro other hin
        rcases OrderedSet.mem_delete.mp hin with ⟨hne, hold⟩
        rcases h.kept other hold with hstopped | hother
        · exact Or.inl hstopped
        · exact Or.inr (htracked other hne hother)
      settled := by
        intro hwindow hstart other hlt
        by_cases heq : other = segment
        · exact Or.inr (Or.inl (OrderedSet.mem_add.mpr (Or.inl heq)))
        · rcases h.settled hwindow hstart other hlt with hstopped | hack | hother
          · exact Or.inl hstopped
          · exact Or.inr (Or.inl (OrderedSet.mem_add.mpr (Or.inr hack)))
          · exact Or.inr (Or.inr (htracked other heq hother)) }

theorem tidy_retryLater {segment : Nat} {flight : Flight} (h : Tidy options acknowledged w)
    (hactive : w.sender.stopped = false)
    (hget : w.sender.flights.get segment = some flight) (hsent : flight.isSent = true) :
    Tidy options acknowledged
      { w with
        sender := w.sender.retryLater segment flight.read
        calledFor := w.calledFor.add segment
        wire := w.wire.erase segment } := by
  have htracked : forall other, Tracked w.sender other ->
      Tracked (w.sender.retryLater segment flight.read) other := by
    intro other hother
    by_cases heq : other = segment
    · exact Or.inl (OrderedSet.mem_add.mpr (Or.inl heq))
    · rcases hother with hdemand | hflight | hretry
      · exact Or.inl (OrderedSet.mem_add.mpr (Or.inr hdemand))
      · exact Or.inr (Or.inl (OrderedMap.mem_delete.mpr ⟨heq, hflight⟩))
      · exact Or.inr (Or.inr (OrderedMap.mem_set.mpr (Or.inr hretry)))
  have hcalled : forall other, Called options w other ->
      Called options
        { w with
          sender := w.sender.retryLater segment flight.read
          calledFor := w.calledFor.add segment
          wire := w.wire.erase segment } other := by
    intro other hother
    rcases hother with hin | hfirst
    · exact Or.inl (OrderedSet.mem_add.mpr (Or.inr hin))
    · exact Or.inr hfirst
  exact
    { toOnWire := onWire_answered h.toOnWire
        { active := hactive
          flight := ⟨flight, hget, hsent⟩
          flights := rfl
          awaiting := rfl
          stopped := rfl }
      speculative := h.speculative
      apart := by
        intro other hin hflight
        rcases OrderedMap.mem_delete.mp hflight with ⟨hne, hold⟩
        rcases OrderedSet.mem_add.mp hin with heq | hdemand
        · exact hne heq
        · exact h.apart other hdemand hold
      demandCalled := by
        intro other hin
        rcases OrderedSet.mem_add.mp hin with rfl | hold
        · exact Or.inl (OrderedSet.mem_add.mpr (Or.inl rfl))
        · exact hcalled other (h.demandCalled other hold)
      flightCalled := by
        intro other f hf hs hack
        have hne := (OrderedMap.mem_delete.mp (OrderedMap.mem_of_get hf)).1
        have hold := (OrderedMap.get_delete_ne w.sender.flights hne).symm.trans hf
        exact hcalled other (h.flightCalled other f hold hs hack)
      kept := by
        intro other hin
        rcases OrderedSet.mem_add.mp hin with rfl | hold
        · exact Or.inr (Or.inl (OrderedSet.mem_add.mpr (Or.inl rfl)))
        · rcases h.kept other hold with hstopped | hother
          · exact Or.inl hstopped
          · exact Or.inr (htracked other hother)
      settled := by
        intro hwindow hstart other hlt
        rcases h.settled hwindow hstart other hlt with hstopped | hack | hother
        · exact Or.inl hstopped
        · exact Or.inr (Or.inl hack)
        · exact Or.inr (Or.inr (htracked other hother)) }

theorem tidy_stop (h : Tidy options acknowledged w) :
    Tidy options acknowledged { w with sender := w.sender.stop } where
  inFlight := by
    have hlimit : (0 : Int) ≤ options.limit := by
      unfold SenderOptions.limit
      omega
    exact hlimit
  wireNodup := h.wireNodup
  wireLength := h.wireLength
  wireSent := fun _ _ => Or.inl rfl
  awaited := fun _ _ _ => Or.inl rfl
  speculative := Nat.zero_le _
  apart := fun _ hin => absurd hin (OrderedSet.not_mem_empty _)
  demandCalled := fun _ hin => absurd hin (OrderedSet.not_mem_empty _)
  flightCalled := fun _ _ hget => nomatch hget
  kept := fun _ _ => Or.inl rfl
  settled := fun _ _ _ _ => Or.inl rfl

/-!
# The awaited read
-/

/-- What the pump awaits is sent for the first time since the last answer. -/
theorem awaited_notOnWire (h : Tidy options acknowledged w) (hactive : w.sender.stopped = false)
    {segment : Nat} {read : FileRead} (hawaiting : w.sender.awaiting = some (segment, read)) :
    w.sender.flights.get segment = some { read := read, isSent := false } ∧
      segment ∉ w.wire := by
  have hstopped : w.sender.stopped ≠ true := by
    rw [hactive]
    exact Bool.false_ne_true
  have hget := Or.resolve_left (h.awaited segment read hawaiting) hstopped
  constructor
  · exact hget
  · intro hin
    rcases Or.resolve_left (h.wireSent segment hin) hstopped with ⟨flight, hflight, hsent⟩
    rw [hget] at hflight
    cases hflight
    cases hsent

/-- The wire with one more segment is still within the flights. -/
theorem wire_room (h : Tidy options acknowledged w) (hactive : w.sender.stopped = false)
    {segment : Nat} (hflight : segment ∈ w.sender.flights) (hnot : segment ∉ w.wire) :
    ((segment :: w.wire).length : Int) ≤ options.limit := by
  have hmem : forall other, other ∈ segment :: w.wire -> other ∈ w.sender.flights := by
    intro other hin
    rcases List.mem_cons.mp hin with rfl | hwire
    · exact hflight
    · rcases h.wireSent other hwire with hstopped | ⟨flight, hget, _⟩
      · rw [hactive] at hstopped
        cases hstopped
      · exact OrderedMap.mem_of_get hget
  have hnodup : (segment :: w.wire).Nodup := List.nodup_cons.mpr ⟨hnot, h.wireNodup⟩
  have hlength := OrderedMap.length_le_size hnodup hmem
  have hlimit := h.inFlight
  omega

theorem tidy_markSent (h : Tidy options acknowledged w) (hactive : w.sender.stopped = false)
    {segment : Nat} {read : FileRead} (hawaiting : w.sender.awaiting = some (segment, read)) :
    Tidy options acknowledged
      { w with
        sender := ({ w.sender with awaiting := none } : SegmentSender).markSent segment
        wire := segment :: w.wire
        sent := segment :: w.sent } := by
  rcases awaited_notOnWire h hactive hawaiting with ⟨hget, hnot⟩
  have hflight := OrderedMap.mem_of_get hget
  have hmark : ({ w.sender with awaiting := none } : SegmentSender).markSent segment =
      { w.sender with
        awaiting := none
        flights := w.sender.flights.set segment { read := read, isSent := true } } := by
    unfold SegmentSender.markSent
    rw [hget]
  have hkeys : forall other,
      other ∈ w.sender.flights.set segment { read := read, isSent := true } ↔
        other ∈ w.sender.flights := by
    intro other
    rw [OrderedMap.mem_set]
    constructor
    · rintro (rfl | hin)
      · exact hflight
      · exact hin
    · exact Or.inr
  have hcalled : forall other, other ≠ segment -> Called options w other ->
      Called options
        { w with
          sender := ({ w.sender with awaiting := none } : SegmentSender).markSent segment
          wire := segment :: w.wire
          sent := segment :: w.sent } other := by
    intro other hne hother
    rcases hother with hin | ⟨hwindow, hzero, hfirst⟩
    · exact Or.inl hin
    · refine Or.inr ⟨hwindow, hzero, ?_⟩
      intro hin
      rcases List.mem_cons.mp hin with heq | hold
      · exact hne (hzero.trans heq)
      · exact hfirst hold
  rw [hmark] at hcalled ⊢
  exact
    { inFlight := by
        rw [OrderedMap.size_set_of_mem hflight]
        exact h.inFlight
      wireNodup := List.nodup_cons.mpr ⟨hnot, h.wireNodup⟩
      wireLength := wire_room h hactive hflight hnot
      wireSent := by
        intro other hin
        right
        by_cases heq : other = segment
        · subst heq
          exact ⟨_, OrderedMap.get_set_self _ _ _, rfl⟩
        · have hold := List.mem_of_ne_of_mem heq hin
          rcases h.wireSent other hold with hstopped | ⟨flight, hf, hs⟩
          · rw [hactive] at hstopped
            cases hstopped
          · exact ⟨flight, (OrderedMap.get_set_ne _ _ heq).trans hf, hs⟩
      awaited := fun _ _ hnone => nomatch hnone
      speculative := h.speculative
      apart := fun other hin hother => h.apart other hin ((hkeys other).mp hother)
      demandCalled := by
        intro other hin
        apply hcalled other _ (h.demandCalled other hin)
        intro heq
        subst heq
        exact h.apart other hin hflight
      flightCalled := by
        intro other flight hf hs hack
        by_cases heq : other = segment
        · subst heq
          rw [OrderedMap.get_set_self] at hf
          cases hf
          cases hs
        · rw [OrderedMap.get_set_ne _ _ heq] at hf
          exact hcalled other heq (h.flightCalled other flight hf hs hack)
      kept := by
        intro other hin
        rcases h.kept other hin with hstopped | hdemand | hother | hretry
        · exact Or.inl hstopped
        · exact Or.inr (Or.inl hdemand)
        · exact Or.inr (Or.inr (Or.inl ((hkeys other).mpr hother)))
        · exact Or.inr (Or.inr (Or.inr hretry))
      settled := by
        intro hwindow hstart other hlt
        rcases h.settled hwindow hstart other hlt with
          hstopped | hack | hdemand | hother | hretry
        · exact Or.inl hstopped
        · exact Or.inr (Or.inl hack)
        · exact Or.inr (Or.inr (Or.inl hdemand))
        · exact Or.inr (Or.inr (Or.inr (Or.inl ((hkeys other).mpr hother))))
        · exact Or.inr (Or.inr (Or.inr (Or.inr hretry))) }

end Moves

end Sender
end PkgManager
