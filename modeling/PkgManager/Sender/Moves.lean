import PkgManager.Sender.SegmentSender
import PkgManager.Transition.System

/-!
# What the pump does to the bookkeeping

Between two flights the sender only forgets read-ahead, moves its baseline over segments
that are handled, prepares reads and leaves the pump.
-/

namespace PkgManager
namespace Sender

/-- A segment that the sender still owes. -/
def Tracked (sender : SegmentSender) (segment : Nat) : Prop :=
  segment ∈ sender.demands ∨ segment ∈ sender.flights ∨ segment ∈ sender.retries

structure Quiet (s t : SegmentSender) : Prop where
  acknowledged : t.acknowledged = s.acknowledged
  demands : t.demands = s.demands
  flights : t.flights = s.flights
  retries : forall segment, segment ∈ t.retries ↔ segment ∈ s.retries
  ahead : t.ahead.size ≤ s.ahead.size
  baseline : forall segment, segment < t.baseline ->
    segment < s.baseline ∨ s.handled segment = true
  awaiting : t.awaiting = s.awaiting ∨ t.awaiting = none
  stopped : t.stopped = s.stopped

/-- The flight of a segment begins with the read. -/
structure Begins (options : SenderOptions) (segment : Nat) (read : FileRead)
    (s t : SegmentSender) : Prop where
  active : s.stopped = false
  room : (s.flights.size : Int) < options.limit
  fresh : segment ∉ s.flights
  cause : segment ∈ s.demands ∨ segment ∉ s.acknowledged
  acknowledged : t.acknowledged = s.acknowledged
  demands : t.demands = s.demands.delete segment
  flights : t.flights = s.flights.set segment { read := read, isSent := false }
  retries : forall other, other ∈ t.retries ↔ other ≠ segment ∧ other ∈ s.retries
  ahead : t.ahead.size ≤ s.ahead.size
  baseline : forall other, other < t.baseline ->
    other < s.baseline ∨ other = segment ∨ s.handled other = true
  awaiting : t.awaiting = some (segment, read)
  stopped : t.stopped = false

theorem Quiet.refl (s : SegmentSender) : Quiet s s where
  acknowledged := rfl
  demands := rfl
  flights := rfl
  retries := fun _ => Iff.rfl
  ahead := Nat.le_refl _
  baseline := fun _ h => Or.inl h
  awaiting := Or.inl rfl
  stopped := rfl

theorem Quiet.handled {s t : SegmentSender} (h : Quiet s t) (segment : Nat) :
    t.handled segment = s.handled segment := by
  unfold SegmentSender.handled
  rw [h.acknowledged, h.flights]

theorem Quiet.trans {s t u : SegmentSender} (hst : Quiet s t) (htu : Quiet t u) :
    Quiet s u where
  acknowledged := htu.acknowledged.trans hst.acknowledged
  demands := htu.demands.trans hst.demands
  flights := htu.flights.trans hst.flights
  retries := fun segment => (htu.retries segment).trans (hst.retries segment)
  ahead := Nat.le_trans htu.ahead hst.ahead
  baseline := by
    intro segment hlt
    rcases htu.baseline segment hlt with hbelow | hhandled
    · exact hst.baseline segment hbelow
    · rw [hst.handled] at hhandled
      exact Or.inr hhandled
  awaiting := by
    rcases htu.awaiting with hsame | hnone
    · rw [hsame]
      exact hst.awaiting
    · exact Or.inr hnone
  stopped := htu.stopped.trans hst.stopped

theorem quiet_leave (s : SegmentSender) : Quiet s { s with awaiting := none } :=
  { Quiet.refl s with awaiting := Or.inr rfl }

/-!
# The next segment
-/

theorem skipHandled_below {handled : Nat -> Bool} {left baseline segment : Nat}
    (h : segment < SegmentSender.skipHandled handled left baseline) :
    segment < baseline ∨ handled segment = true := by
  induction left generalizing baseline with
  | zero => exact Or.inl h
  | succ left ih =>
      rw [SegmentSender.skipHandled] at h
      split at h
      · rename_i hhandled
        rcases ih h with hlt | hsegment
        · rcases Nat.lt_succ_iff_lt_or_eq.mp hlt with hbelow | rfl
          · exact Or.inl hbelow
          · exact Or.inr hhandled
        · exact Or.inr hsegment
      · exact Or.inl h

/-- The loop ends at a segment that is not handled, or behind the last one. -/
theorem skipHandled_stops (handled : Nat -> Bool) (left baseline : Nat) :
    handled (SegmentSender.skipHandled handled left baseline) = false ∨
      SegmentSender.skipHandled handled left baseline = baseline + left := by
  induction left generalizing baseline with
  | zero => exact Or.inr rfl
  | succ left ih =>
      rw [SegmentSender.skipHandled]
      split
      · rcases ih (baseline + 1) with hstop | hend
        · exact Or.inl hstop
        · rw [hend]
          exact Or.inr (by omega)
      · rename_i hhandled
        exact Or.inl (by simpa using hhandled)

theorem handled_false {s : SegmentSender} {segment : Nat} (h : s.handled segment = false) :
    segment ∉ s.acknowledged ∧ segment ∉ s.flights := by
  simpa [SegmentSender.handled] using h

theorem nextSegment_quiet (options : SenderOptions) (s : SegmentSender) :
    Quiet s (s.nextSegment options).2 := by
  unfold SegmentSender.nextSegment
  split
  · exact Quiet.refl s
  · split
    · exact Quiet.refl s
    · split
      · exact { Quiet.refl s with ahead := OrderedSet.size_dropFront_le _ _ }
      · exact { Quiet.refl s with baseline := fun segment h => skipHandled_below h }

theorem nextSegment_chosen {options : SenderOptions} {s : SegmentSender} {segment : Nat}
    (h : (s.nextSegment options).1 = some segment) :
    segment ∉ s.flights ∧ (segment ∈ s.demands ∨ segment ∉ s.acknowledged) := by
  unfold SegmentSender.nextSegment at h
  split at h
  · rename_i chosen hfind
    cases h
    have hfree := List.find?_some hfind
    have hmem := List.mem_of_find?_eq_some hfind
    have hflight : segment ∉ s.flights := by
      intro hin
      simp [hin] at hfree
    exact ⟨hflight, Or.inl hmem⟩
  · split at h
    · cases h
    · split at h
      · have hhead := OrderedSet.head_dropFront h
        rcases handled_false hhead.1 with ⟨hack, hflight⟩
        exact ⟨hflight, Or.inr hack⟩
      · dsimp only at h
        split at h
        · rename_i hlt
          cases h
          rcases skipHandled_stops s.handled (options.totalSegments - s.baseline) s.baseline
            with hstop | hend
          · rcases handled_false hstop with ⟨hack, hflight⟩
            exact ⟨hflight, Or.inr hack⟩
          · omega
        · cases h

theorem prepare_quiet (s : SegmentSender) (segment : Nat) : Quiet s (s.prepare segment).2 := by
  unfold SegmentSender.prepare
  split
  · exact Quiet.refl s
  · exact { Quiet.refl s with }

theorem prepareNext_quiet (options : SenderOptions) (s : SegmentSender) :
    Quiet s (s.prepareNext options) := by
  have hquiet := nextSegment_quiet options s
  unfold SegmentSender.prepareNext
  split
  · rename_i t heq
    rw [heq] at hquiet
    exact hquiet
  · rename_i next t heq
    rw [heq] at hquiet
    exact hquiet.trans (prepare_quiet t next)

/-!
# The pump
-/

theorem takeRead_quiet (s : SegmentSender) (segment : Nat) :
    Quiet s (s.takeRead segment).2 := by
  unfold SegmentSender.takeRead
  split
  · exact Quiet.refl s
  · exact prepare_quiet s segment

theorem choose_baseline {s : SegmentSender} {segment other : Nat}
    (h : other < (s.choose segment).baseline) : other < s.baseline ∨ other = segment := by
  change other < if segment = s.baseline then s.baseline + 1 else s.baseline at h
  split at h
  · rename_i heq
    rw [heq]
    exact Nat.lt_succ_iff_lt_or_eq.mp h
  · exact Or.inl h

theorem beginFlight_begins {options : SenderOptions} {s : SegmentSender} {segment : Nat}
    (hactive : s.stopped = false) (hroom : (s.flights.size : Int) < options.limit)
    (hfresh : segment ∉ s.flights)
    (hcause : segment ∈ s.demands ∨ segment ∉ s.acknowledged) :
    exists read, Begins options segment read s (s.beginFlight segment) := by
  have hquiet := takeRead_quiet (s.choose segment) segment
  exists ((s.choose segment).takeRead segment).1
  exact
    { active := hactive
      room := hroom
      fresh := hfresh
      cause := hcause
      acknowledged := hquiet.acknowledged
      demands := hquiet.demands
      flights := congrArg (fun flights => OrderedMap.set flights segment _) hquiet.flights
      retries := by
        intro other
        exact OrderedMap.mem_delete.trans (and_congr_right (fun _ => hquiet.retries other))
      ahead := Nat.le_trans hquiet.ahead (OrderedSet.size_delete_le _ _)
      baseline := by
        intro other hlt
        rcases hquiet.baseline other hlt with hbelow | hhandled
        · rcases choose_baseline hbelow with hold | heq
          · exact Or.inl hold
          · exact Or.inr (Or.inl heq)
        · exact Or.inr (Or.inr hhandled)
      awaiting := rfl
      stopped := hquiet.stopped.trans hactive }

/-- The pump leaves its loop, or it begins the flight of the next segment. -/
def Pumped (options : SenderOptions) (s t : SegmentSender) : Prop :=
  Quiet s t ∨ exists u segment read, Quiet s u ∧ Begins options segment read u t

theorem pumpLoop_pumped (options : SenderOptions) (shouldStop : Bool) (s : SegmentSender) :
    Pumped options s (s.pumpLoop options shouldStop) := by
  unfold SegmentSender.pumpLoop
  split
  · exact Or.inl (quiet_leave s)
  · rename_i hgo
    rw [Bool.or_eq_true, not_or] at hgo
    have hactive : s.stopped = false := by
      cases hstopped : s.stopped with
      | false => rfl
      | true => exact absurd (by simp [SegmentSender.inactive, hstopped]) hgo.1
    have hroom : (s.flights.size : Int) < options.limit := by simpa using hgo.2
    have hquiet := nextSegment_quiet options s
    cases hnext : s.nextSegment options with
    | mk chosen u =>
        rw [hnext] at hquiet
        cases chosen with
        | none => exact Or.inl (hquiet.trans (quiet_leave u))
        | some segment =>
            have hchosen := nextSegment_chosen (congrArg Prod.fst hnext)
            rw [<- hquiet.flights] at hroom
            rw [<- hquiet.flights, <- hquiet.demands, <- hquiet.acknowledged] at hchosen
            rcases beginFlight_begins (hquiet.stopped.trans hactive) hroom hchosen.1 hchosen.2
              with ⟨read, hbegins⟩
            exact Or.inr ⟨u, segment, read, hquiet, hbegins⟩

theorem pump_pumped (options : SenderOptions) (answers : SegmentSender.Answers)
    (s : SegmentSender) : Pumped options s (s.pump options answers) := by
  unfold SegmentSender.pump
  split
  · exact Or.inl (Quiet.refl s)
  · exact pumpLoop_pumped options answers.loop s

/-- {lit}`hasPending` is only false when nothing is owed in front of the baseline. -/
theorem hasPending_false {options : SenderOptions} {s : SegmentSender}
    (hwindow : options.demandWindow = 0) (h : (s.hasPending options).1 = false) :
    (forall segment, ¬ Tracked s segment) ∧
      forall segment, segment < options.totalSegments ->
        segment < s.baseline ∨ segment ∈ s.acknowledged := by
  unfold SegmentSender.hasPending at h
  split at h
  · cases h
  · rename_i hnone
    rw [not_or] at hnone
    have hflights := OrderedMap.not_mem_of_size_zero (Nat.eq_zero_of_not_pos hnone.1)
    have hretries := OrderedMap.not_mem_of_size_zero (Nat.eq_zero_of_not_pos hnone.2)
    have hnext : (s.nextSegment options).1 = none := by simpa using h
    unfold SegmentSender.nextSegment at hnext
    rw [if_neg hnone.2, if_neg (by omega)] at hnext
    split at hnext
    · cases hnext
    · rename_i hfind
      have hdemands : forall segment, segment ∉ s.demands := by
        intro segment hin
        have hheld := List.find?_eq_none.mp hfind segment hin
        apply hheld
        simp [hflights segment, SegmentSender.backsOff,
          OrderedMap.get_of_not_mem (hretries segment)]
      constructor
      · intro segment htracked
        rcases htracked with hdemand | hflight | hretry
        · exact hdemands segment hdemand
        · exact hflights segment hflight
        · exact hretries segment hretry
      · intro segment hlt
        dsimp only at hnext
        split at hnext
        · cases hnext
        · rename_i hend
          rcases skipHandled_below (Nat.lt_of_lt_of_le hlt (Nat.le_of_not_lt hend))
            with hbelow | hhandled
          · exact Or.inl hbelow
          · unfold SegmentSender.handled at hhandled
            right
            simpa [hflights segment] using hhandled

end Sender
end PkgManager
