import PkgManager.Sender.Runs

/-!
# Which read belongs to which segment

Whatever the sender keeps for a segment is a read of that segment, and every segment is one
of the file.
-/

namespace PkgManager
namespace Sender

open Transition

/-!
# Reads of the right segment
-/

/-- The read is one of the segment, which is one of the file. -/
structure ReadOf (options : SenderOptions) (segment : Nat) (read : FileRead) : Prop where
  inFile : segment < options.totalSegments
  segment : read.segment = segment

structure Proper (options : SenderOptions) (s : SegmentSender) : Prop where
  demands : forall segment, segment ∈ s.demands -> segment < options.totalSegments
  ahead : forall segment, segment ∈ s.ahead -> segment < options.totalSegments
  flights : forall segment flight, s.flights.get segment = some flight ->
    ReadOf options segment flight.read
  retries : forall segment retry, s.retries.get segment = some retry ->
    ReadOf options segment retry.read
  awaiting : forall segment read, s.awaiting = some (segment, read) ->
    ReadOf options segment read

section Sender

variable {options : SenderOptions} {s : SegmentSender}

theorem proper_create (options : SenderOptions) (acknowledged : OrderedSet Nat) :
    Proper options (createSegmentSender options acknowledged) where
  demands := by
    intro segment hin
    unfold createSegmentSender at hin
    dsimp only at hin
    split at hin
    · rename_i hdemand
      rcases OrderedSet.mem_add.mp hin with rfl | hnone
      · exact hdemand.2
      · exact absurd hnone (OrderedSet.not_mem_empty _)
    · exact absurd hin (OrderedSet.not_mem_empty _)
  ahead := fun _ hin => absurd hin (OrderedSet.not_mem_empty _)
  flights := fun _ _ hget => nomatch hget
  retries := fun _ _ hget => nomatch hget
  awaiting := fun _ _ hawaiting => nomatch hawaiting

/-- The next segment is one of the file. -/
theorem proper_nextSegment (h : Proper options s) :
    Proper options (s.nextSegment options).2 ∧
      forall segment, (s.nextSegment options).1 = some segment ->
        segment < options.totalSegments := by
  unfold SegmentSender.nextSegment
  split
  · rename_i chosen hfind
    refine ⟨h, fun segment hsegment => ?_⟩
    cases hsegment
    exact h.demands _ (List.mem_of_find?_eq_some hfind)
  · split
    · exact ⟨h, fun segment hsegment => nomatch hsegment⟩
    · split
      · have hdropped : Proper options { s with ahead := s.ahead.dropFront s.handled } :=
          { h with
            ahead := fun other hin => h.ahead other (OrderedSet.mem_of_mem_dropFront hin) }
        refine ⟨hdropped, fun segment hsegment => ?_⟩
        exact h.ahead segment (OrderedSet.head_dropFront hsegment).2
      · refine ⟨{ h with }, fun segment hsegment => ?_⟩
        dsimp only at hsegment
        split at hsegment
        · rename_i hlt
          cases hsegment
          exact hlt
        · cases hsegment

theorem proper_prepare (h : Proper options s) (segment : Nat) :
    Proper options (s.prepare segment).2 ∧ (s.prepare segment).1.segment = segment := by
  unfold SegmentSender.prepare
  split
  · rename_i read hprepared
    have hkeep := (Option.filter_eq_some_iff.mp hprepared).2
    exact ⟨h, by simpa using hkeep⟩
  · exact ⟨{ h with }, rfl⟩

theorem proper_takeRead (h : Proper options s) (segment : Nat) :
    Proper options (s.takeRead segment).2 ∧ (s.takeRead segment).1.segment = segment := by
  unfold SegmentSender.takeRead
  split
  · rename_i retry hretry
    exact ⟨h, (h.retries segment retry hretry).segment⟩
  · exact proper_prepare h segment

theorem proper_beginFlight (h : Proper options s) {segment : Nat}
    (hsegment : segment < options.totalSegments) : Proper options (s.beginFlight segment) := by
  have hchosen : Proper options (s.choose segment) :=
    { h with
      demands := fun other hin => h.demands other (OrderedSet.mem_delete.mp hin).2
      ahead := fun other hin => h.ahead other (OrderedSet.mem_delete.mp hin).2 }
  have htaken := proper_takeRead hchosen segment
  unfold SegmentSender.beginFlight
  generalize (s.choose segment).takeRead segment = taken at htaken
  obtain ⟨read, t⟩ := taken
  rcases htaken with ⟨ht, hread⟩
  have hof : ReadOf options segment read := ⟨hsegment, hread⟩
  exact
    { ht with
      flights := by
        intro other flight hget
        rcases OrderedMap.get_set_some hget with ⟨rfl, rfl⟩ | ⟨_, hold⟩
        · exact hof
        · exact ht.flights other flight hold
      retries := fun other retry hget => ht.retries other retry (OrderedMap.get_delete_some hget).2
      awaiting := by
        intro other otherRead hawaiting
        cases hawaiting
        exact hof }

theorem proper_leave (h : Proper options s) : Proper options { s with awaiting := none } :=
  { h with awaiting := fun _ _ hawaiting => nomatch hawaiting }

theorem proper_pumpLoop (h : Proper options s) (shouldStop : Bool) :
    Proper options (s.pumpLoop options shouldStop) := by
  unfold SegmentSender.pumpLoop
  split
  · exact proper_leave h
  · have hnext := proper_nextSegment h
    split
    · rename_i t heq
      rw [heq] at hnext
      exact proper_leave hnext.1
    · rename_i segment t heq
      rw [heq] at hnext
      exact proper_beginFlight hnext.1 (hnext.2 segment rfl)

theorem proper_pump (h : Proper options s) (answers : SegmentSender.Answers) :
    Proper options (s.pump options answers) := by
  unfold SegmentSender.pump
  split
  · exact h
  · exact proper_pumpLoop h answers.loop

theorem proper_stop (h : Proper options s) : Proper options s.stop where
  demands := fun _ hin => absurd hin (OrderedSet.not_mem_empty _)
  ahead := fun _ hin => absurd hin (OrderedSet.not_mem_empty _)
  flights := fun _ _ hget => nomatch hget
  retries := fun _ _ hget => nomatch hget
  awaiting := h.awaiting

theorem mem_trim {xs : OrderedSet Nat} {n x : Nat} (h : x ∈ xs.trim n) : x ∈ xs :=
  List.mem_of_mem_drop h

theorem proper_demand (h : Proper options s) {segment : Nat}
    (hsegment : segment < options.totalSegments) :
    Proper options (s.demand options segment) :=
  { h with
    demands := by
      intro other hin
      change other ∈ if segment ∈ s.flights then s.demands else s.demands.add segment at hin
      split at hin
      · exact h.demands other hin
      · rcases OrderedSet.mem_add.mp hin with rfl | hold
        · exact hsegment
        · exact h.demands other hold
    ahead := by
      intro other hin
      rcases OrderedSet.mem_addAll (mem_trim hin) with hwindow | hold
      · have hrange := (List.mem_filter.mp hwindow).1
        have hlt := (List.mem_range'_1.mp hrange).2
        omega
      · exact h.ahead other hold }

theorem requested_lt {asked : Option Int} {segment : Nat}
    (h : SegmentSender.requested options asked = some segment) :
    segment < options.totalSegments := by
  unfold SegmentSender.requested at h
  split at h
  · cases h
  · split at h
    · cases h
    · rename_i hrange
      cases h
      omega

theorem proper_request (h : Proper options s) (answers : SegmentSender.Answers)
    (asked : Option Int) : Proper options (s.request options answers asked) := by
  unfold SegmentSender.request
  split
  · exact h
  · rename_i segment haccepted
    unfold SegmentSender.accepted at haccepted
    split at haccepted
    · cases haccepted
    · exact proper_pump (proper_demand h (requested_lt haccepted)) answers

theorem proper_acknowledge (h : Proper options s) (segment : Nat) :
    Proper options (s.acknowledge segment) :=
  { h with
    demands := fun other hin => h.demands other (OrderedSet.mem_delete.mp hin).2
    flights := fun other flight hget => h.flights other flight (OrderedMap.get_delete_some hget).2 }

theorem proper_ack (h : Proper options s) (answers : SegmentSender.Answers) (segment : Nat) :
    Proper options (s.ack options answers segment) := by
  unfold SegmentSender.ack
  split
  · exact h
  · exact proper_pump (proper_acknowledge h segment) answers

theorem proper_busy (h : Proper options s) (answers : SegmentSender.Answers) (segment : Nat) :
    Proper options (s.busy options answers segment) := by
  unfold SegmentSender.busy
  split
  · exact h
  · rename_i flight hanswered
    have hof := h.flights segment flight (answered_flight hanswered).1
    have hlater : Proper options (s.retryLater segment flight.read) :=
      { h with
        demands := by
          intro other hin
          rcases OrderedSet.mem_add.mp hin with rfl | hold
          · exact hof.inFile
          · exact h.demands other hold
        flights := fun other f hget => h.flights other f (OrderedMap.get_delete_some hget).2
        retries := by
          intro other retry hget
          rcases OrderedMap.get_set_some hget with ⟨rfl, rfl⟩ | ⟨_, hold⟩
          · exact hof
          · exact h.retries other retry hold }
    exact proper_pump hlater answers

theorem proper_retryTimer {t : SegmentSender} (h : Proper options s)
    {answers : SegmentSender.Answers} {segment : Nat}
    (htimer : s.retryTimer options answers segment = some t) : Proper options t := by
  unfold SegmentSender.retryTimer at htimer
  split at htimer
  · cases htimer
  · rename_i retry hget
    split at htimer
    · cases htimer
      have hout : Proper options
          { s with retries := s.retries.set segment { retry with timer := false } } :=
        { h with
          retries := by
            intro other r hr
            rcases OrderedMap.get_set_some hr with ⟨rfl, rfl⟩ | ⟨_, hold⟩
            · exact h.retries other retry hget
            · exact h.retries other r hold }
      exact proper_pump hout answers
    · cases htimer

theorem proper_markSent (h : Proper options s) (segment : Nat) :
    Proper options (s.markSent segment) := by
  unfold SegmentSender.markSent
  split
  · rename_i flight hget
    exact
      { h with
        flights := by
          intro other f hf
          rcases OrderedMap.get_set_some hf with ⟨rfl, rfl⟩ | ⟨_, hold⟩
          · exact h.flights other flight hget
          · exact h.flights other f hold }
  · exact h

theorem proper_prepareNext (h : Proper options s) :
    Proper options (s.prepareNext options) := by
  have hnext := proper_nextSegment h
  unfold SegmentSender.prepareNext
  split
  · rename_i t heq
    rw [heq] at hnext
    exact hnext.1
  · rename_i segment t heq
    rw [heq] at hnext
    exact (proper_prepare hnext.1 segment).1

theorem proper_resume (h : Proper options s) (answers : SegmentSender.Answers)
    (ending : SegmentSender.ReadEnd) (segment : Nat) (read : FileRead) :
    Proper options (s.resume options answers ending segment read).1 := by
  have hleave := proper_leave h
  unfold SegmentSender.resume
  dsimp only
  split
  · exact hleave
  · cases ending with
    | readFails => exact proper_stop hleave
    | sendFails => exact proper_stop hleave
    | sent =>
        exact proper_pumpLoop (proper_prepareNext (proper_markSent hleave segment)) answers.loop

theorem proper_hasPending (h : Proper options s) : Proper options (s.hasPending options).2 := by
  unfold SegmentSender.hasPending
  split
  · exact h
  · exact (proper_nextSegment h).1

/-!
# What is counted as sent
-/

theorem acknowledged_pump (answers : SegmentSender.Answers) :
    (s.pump options answers).acknowledged = s.acknowledged := by
  rcases pump_pumped options answers s with hquiet | ⟨u, segment, read, hquiet, hbegins⟩
  · exact hquiet.acknowledged
  · rw [hbegins.acknowledged, hquiet.acknowledged]

theorem acknowledged_request (answers : SegmentSender.Answers) (asked : Option Int) :
    (s.request options answers asked).acknowledged = s.acknowledged := by
  unfold SegmentSender.request
  split
  · rfl
  · exact acknowledged_pump answers

theorem acknowledged_ack {answers : SegmentSender.Answers} {segment other : Nat}
    (h : other ∈ (s.ack options answers segment).acknowledged) :
    other ∈ s.acknowledged ∨ other = segment := by
  unfold SegmentSender.ack at h
  split at h
  · exact Or.inl h
  · rw [acknowledged_pump] at h
    exact (OrderedSet.mem_add.mp h).symm

theorem acknowledged_busy (answers : SegmentSender.Answers) (segment : Nat) :
    (s.busy options answers segment).acknowledged = s.acknowledged := by
  unfold SegmentSender.busy
  split
  · rfl
  · exact acknowledged_pump answers

theorem acknowledged_retryTimer {answers : SegmentSender.Answers} {segment : Nat}
    {t : SegmentSender} (h : s.retryTimer options answers segment = some t) :
    t.acknowledged = s.acknowledged := by
  unfold SegmentSender.retryTimer at h
  split at h
  · cases h
  · split at h
    · cases h
      exact acknowledged_pump answers
    · cases h

theorem acknowledged_resume (answers : SegmentSender.Answers) (ending : SegmentSender.ReadEnd)
    (segment : Nat) (read : FileRead) :
    (s.resume options answers ending segment read).1.acknowledged = s.acknowledged := by
  unfold SegmentSender.resume
  dsimp only
  split
  · rfl
  · cases ending with
    | readFails => rfl
    | sendFails => rfl
    | sent =>
        have hmark : (({ s with awaiting := none } : SegmentSender).markSent
            segment).acknowledged = s.acknowledged := by
          unfold SegmentSender.markSent
          split <;> rfl
        have hprepared := (prepareNext_quiet options
          (({ s with awaiting := none } : SegmentSender).markSent segment)).acknowledged
        rcases pumpLoop_pumped options answers.loop
            ((({ s with awaiting := none } : SegmentSender).markSent segment).prepareNext options)
          with hquiet | ⟨u, _, _, hquiet, hbegins⟩
        · exact hquiet.acknowledged.trans (hprepared.trans hmark)
        · exact hbegins.acknowledged.trans
            (hquiet.acknowledged.trans (hprepared.trans hmark))

end Sender

/-- Only an answer of the server counts a segment as sent. -/
theorem acknowledged_next {options : SenderOptions} {w u : SenderWorld} {event : SenderEvent}
    (hnext : w.next options event = some u) {segment : Nat}
    (h : segment ∈ u.sender.acknowledged) :
    segment ∈ w.sender.acknowledged ∨ exists answers, event = .ack answers segment := by
  cases event with
  | pump answers =>
      cases hnext
      exact Or.inl (acknowledged_pump answers ▸ h)
  | request answers asked =>
      cases hnext
      exact Or.inl (acknowledged_request answers asked ▸ h)
  | ack answers other =>
      cases hnext
      rcases acknowledged_ack h with hold | heq
      · exact Or.inl hold
      · exact Or.inr ⟨answers, heq ▸ rfl⟩
  | busy answers other =>
      cases hnext
      exact Or.inl (acknowledged_busy answers other ▸ h)
  | retryTimer answers other =>
      rcases Option.map_eq_some_iff.mp hnext with ⟨t, htimer, rfl⟩
      exact Or.inl (acknowledged_retryTimer htimer ▸ h)
  | readEnds answers ending =>
      rcases Option.map_eq_some_iff.mp hnext with ⟨⟨awaited, read⟩, _, rfl⟩
      exact Or.inl (acknowledged_resume answers ending awaited read ▸ h)
  | hasPending =>
      cases hnext
      exact Or.inl ((hasPending_quiet options w.sender).acknowledged ▸ h)
  | stop =>
      cases hnext
      exact Or.inl h

theorem proper_next {options : SenderOptions} {w u : SenderWorld} {event : SenderEvent}
    (h : Proper options w.sender) (hnext : w.next options event = some u) :
    Proper options u.sender := by
  cases event with
  | pump answers =>
      cases hnext
      exact proper_pump h answers
  | request answers segment =>
      cases hnext
      exact proper_request h answers segment
  | ack answers segment =>
      cases hnext
      exact proper_ack h answers segment
  | busy answers segment =>
      cases hnext
      exact proper_busy h answers segment
  | retryTimer answers segment =>
      rcases Option.map_eq_some_iff.mp hnext with ⟨t, htimer, rfl⟩
      exact proper_retryTimer h htimer
  | readEnds answers ending =>
      rcases Option.map_eq_some_iff.mp hnext with ⟨⟨segment, read⟩, _, rfl⟩
      exact proper_resume h answers ending segment read
  | hasPending =>
      cases hnext
      exact proper_hasPending h
  | stop =>
      cases hnext
      exact proper_stop h

end Sender
end PkgManager
