import PkgManager.Transition.System
import PkgManager.Smb.PipelineSteps

/-!
# Runs of a pipelined read

Whatever the connection does, what is counted is what the file has, and the read
returns when every request is answered or the transport is gone.
-/

namespace PkgManager
namespace Smb

section Consuming

variable {c : ReadCall} {s : Pipe}

theorem extents_pop (hpos : 0 < s.inFlight) :
    s.extents = s.oldest.extent :: (popSlot s).extents := by
  rcases Nat.exists_eq_succ_of_ne_zero hpos.ne' with ⟨n, hn⟩
  unfold Pipe.extents popSlot
  simp only [hn, Nat.succ_eq_add_one, Nat.add_sub_cancel, Ring.view_pop, List.map_cons]
  rfl

theorem popSlot_flight (s : Pipe) (k : Nat) : (popSlot s).flight k = s.flight (k + 1) :=
  Ring.cell_succ _ _ _ _

theorem popSlot_place (s : Pipe) (k : Nat) : (popSlot s).place k = s.place (k + 1) := by
  unfold Pipe.place popSlot
  rw [Nat.add_assoc, Nat.add_comm 1 k]

def consumed (s : Pipe) (total : Nat) (discard stop : Bool) (err : Int) : Pipe :=
  { popSlot s with
    totalRead := total
    discardInflight := discard
    stopIssuing := stop
    readError := err }

/-- The oldest slot is answered and leaves the ring. -/
theorem piped_pop (h : Piped c s) (hpos : 0 < s.inFlight) (hdone : s.oldest.done = true)
    {total : Nat} (discard : Bool) (hholds : Holds c s.dst 0 total)
    (hfront : forall p, s.totalRead ≤ p -> (s.discardInflight = false -> p = s.totalRead) ->
      s.oldest.buf = p ->
        total ≤ p + s.oldest.size ∧ (discard = false -> p + s.oldest.size = total))
    (stop : Bool) (err : Int) :
    Piped c (consumed s total discard stop err) where
  tail := by
    change s.tail = s.head + 1 + (s.inFlight - 1)
    rw [h.tail, Nat.add_assoc, Nat.add_sub_cancel' hpos]
  depth := (Nat.sub_le _ _).trans h.depth
  issued := h.issued
  sent := h.sent
  front := by
    rcases h.front with ⟨p, hle, hnow, hchain⟩
    rw [extents_pop hpos] at hchain
    rcases hchain with ⟨hstart, hrest⟩
    rcases hfront p hle hnow hstart with ⟨hle', hnow'⟩
    exact ⟨_, hle', hnow', hrest⟩
  holds := hholds
  answered := by
    intro k hk hopen
    have hk' : k + 1 < s.inFlight := Nat.add_lt_of_lt_sub hk
    have hflight := popSlot_flight s k
    exact hflight ▸ h.answered (k + 1) hk' (hflight ▸ hopen)
  asked := by
    intro r hr
    rcases h.asked r hr with ⟨k, ha⟩
    cases k with
    | zero =>
        have hopen : s.oldest.done = false := ha.open_
        rw [hdone] at hopen
        cases hopen
    | succ k =>
        have hflight := popSlot_flight s k
        exists k
        exact ⟨Nat.lt_sub_of_add_lt ha.flying, (popSlot_place s k).symm ▸ ha.slot,
          hflight ▸ ha.open_, hflight ▸ ha.buf, hflight ▸ ha.size, ha.offset⟩
  awaited := by
    intro k hk hopen
    have hk' : k + 1 < s.inFlight := Nat.add_lt_of_lt_sub hk
    have hflight := popSlot_flight s k
    rcases h.awaited (k + 1) hk' (hflight ▸ hopen) with ⟨r, hr, hslot⟩
    exact ⟨r, hr, (popSlot_place s k).symm ▸ hslot⟩
  distinct := h.distinct

theorem mayConsume_parts (h : mayConsume s = true) : 0 < s.inFlight ∧ s.oldest.done = true := by
  simpa [mayConsume] using h

/-- An answer with bytes continues what is counted. -/
theorem holds_counted (h : Piped c s) (hdiscard : s.discardInflight = false)
    (hpos : 0 < s.inFlight) {n : Nat} (hholds : Holds c s.dst s.oldest.buf n) :
    Holds c s.dst 0 (s.totalRead + n) := by
  rcases h.front with ⟨p, _, hnow, hchain⟩
  rw [extents_pop hpos] at hchain
  have hbuf : s.oldest.buf = s.totalRead := hchain.1.trans (hnow hdiscard)
  rw [hbuf] at hholds
  exact holds_append h.holds hholds

theorem piped_consumeOne (h : Piped c s) (hmay : mayConsume s = true) :
    Piped c (consumeOne s) := by
  rcases mayConsume_parts hmay with ⟨hpos, hdone⟩
  -- A slot that is not counted leaves a gap, and then nothing more is counted.
  have hgap : forall stop err, Piped c (consumed s s.totalRead true stop err) := fun stop err =>
    piped_pop h hpos hdone true h.holds
      (fun p hle _ _ => ⟨hle.trans (Nat.le_add_right _ _), fun hno => by cases hno⟩) stop err
  unfold consumeOne
  cases hdiscard : s.discardInflight with
  | true =>
      have hkept := hgap s.stopIssuing s.readError
      rw [<- hdiscard] at hkept
      rw [if_pos (show (popSlot s).discardInflight = true from hdiscard)]
      exact hkept
  | false =>
      rw [if_neg (by rw [show (popSlot s).discardInflight = false from hdiscard]; decide)]
      split
      · exact hgap true s.oldest.result
      · split
        · exact hgap true s.readError
        · rename_i hneg hzero
          rcases h.answered 0 hpos hdone with hbad | ⟨n, hn, hle, hholds⟩
          · exact absurd hbad hneg
          · have hres : s.oldest.result.toNat = n := by
              rw [show s.oldest.result = n from hn, Int.toNat_natCast]
            have hcounted := holds_counted h hdiscard hpos hholds
            change n ≤ s.oldest.size at hle
            rw [hres]
            split
            · exact piped_pop h hpos hdone true hcounted
                (fun p hp _ _ => ⟨Nat.add_le_add hp hle, fun hno => by cases hno⟩) true s.readError
            · rename_i hfull
              have hsize : n = s.oldest.size := Nat.le_antisymm hle (Nat.le_of_not_lt hfull)
              have hkept := piped_pop h hpos hdone s.discardInflight hcounted
                (fun p hp hnow _ => ⟨Nat.add_le_add hp hle, fun hno => by
                  rw [hnow hno, hsize]⟩) s.stopIssuing s.readError
              exact hkept

end Consuming

theorem consumeOne_phase (s : Pipe) : (consumeOne s).phase = s.phase := by
  unfold consumeOne
  dsimp only
  split
  · rfl
  · split
    · rfl
    · split
      · rfl
      · split <;> rfl

theorem consumeOne_kept (s : Pipe) :
    (consumeOne s).inFlight = s.inFlight - 1 ∧ (consumeOne s).issued = s.issued ∧
      (consumeOne s).wire = s.wire := by
  unfold consumeOne
  dsimp only
  split
  · exact ⟨rfl, rfl, rfl⟩
  · split
    · exact ⟨rfl, rfl, rfl⟩
    · split
      · exact ⟨rfl, rfl, rfl⟩
      · split <;> exact ⟨rfl, rfl, rfl⟩

theorem consumeOne_error {s : Pipe} (h : s.readError ≤ 0) : (consumeOne s).readError ≤ 0 := by
  unfold consumeOne
  dsimp only
  split
  · exact h
  · split
    · rename_i hneg
      exact hneg.le
    · split
      · exact h
      · split <;> exact h

/-!
# Steps
-/

structure Sound (c : ReadCall) (s : Pipe) : Prop where
  counted : Counted c s
  running : s.phase ≠ .returned -> Piped c s
  flying : s.phase = .waiting -> 0 < s.inFlight
  error : s.readError ≤ 0

theorem sound_start (c : ReadCall) (dst : Nat -> UInt8) : Sound c (startRead c dst) where
  counted := ⟨Nat.zero_le _, fun i hi => absurd hi (Nat.not_lt_zero i)⟩
  running := fun _ =>
    { tail := rfl
      depth := Nat.zero_le _
      issued := Nat.zero_le _
      sent := le_rfl
      front := ⟨0, le_rfl, fun _ => rfl, rfl⟩
      holds := fun i hi => absurd hi (Nat.not_lt_zero i)
      answered := fun k hk _ => absurd hk (Nat.not_lt_zero k)
      asked := fun r hr => absurd hr (List.not_mem_nil)
      awaited := fun k hk _ => absurd hk (Nat.not_lt_zero k)
      distinct := List.nodup_nil }
  flying := by
    intro hphase
    unfold startRead at hphase
    split at hphase <;> cases hphase
  error := by
    change (if c.count = 0 ∨ c.connected = true then (0 : Int) else -1) ≤ 0
    split <;> decide

theorem sound_of_piped {c : ReadCall} {s : Pipe} (h : Piped c s)
    (hflying : s.phase = .waiting -> 0 < s.inFlight) (herr : s.readError ≤ 0) : Sound c s :=
  ⟨h.counted, fun _ => h, hflying, herr⟩

theorem sound_leaveIssuing {c : ReadCall} {s : Pipe} (h : Piped c s) (herr : s.readError ≤ 0) :
    Sound c (leaveIssuing s) := by
  refine sound_of_piped (piped_leaveIssuing h) ?_ herr
  intro hphase
  change (if s.inFlight = 0 then Phase.returned else Phase.waiting) = Phase.waiting at hphase
  split at hphase
  · cases hphase
  · rename_i hne
    exact Nat.pos_of_ne_zero hne

theorem sound_issueOne {c : ReadCall} {s : Pipe} (h : Piped c s) (hmay : mayIssue c s = true)
    (herr : s.readError ≤ 0) (hphase : s.phase = .issuing) (available rc : Int) :
    Sound c (issueOne c s available rc) := by
  have hpiped := piped_issueOne h hmay available rc
  have hroom := (mayIssue_room hmay).1
  unfold issueOne at hpiped ⊢
  split
  · exact sound_leaveIssuing h herr
  · split
    · exact sound_leaveIssuing h herr
    · split
      · rename_i hrc
        exact sound_leaveIssuing (piped_same (piped_fillSlot h hroom _) _ true rc) hrc.le
      · rename_i hcredit hsize hrc
        rw [if_neg hcredit, if_neg hsize, if_neg hrc] at hpiped
        refine sound_of_piped hpiped ?_ herr
        intro hwait
        exact Phase.noConfusion (hphase.symm.trans hwait)

/-- An arrival changes the buffer, one slot and the wire. -/
theorem arrive_kept {c : ReadCall} {s s' : Pipe} {a : Arrival} (h : arrive c s a = some s') :
    (s'.phase = s.phase ∧ s'.inFlight = s.inFlight ∧ s'.issued = s.issued ∧
        s'.readError = s.readError) ∧
      (s'.wire = s.wire ∨ s'.wire.length < s.wire.length) := by
  have hshort : forall r, r ∈ s.wire -> (s.wire.erase r).length < s.wire.length := by
    intro r hr
    rw [List.length_erase_of_mem hr]
    exact Nat.sub_lt (List.length_pos_of_mem hr) Nat.one_pos
  cases a with
  | partly r bytes =>
      rcases Option.ite_none_right_eq_some.mp h with ⟨_, heq⟩
      cases heq
      exact ⟨⟨rfl, rfl, rfl, rfl⟩, Or.inl rfl⟩
  | data r n =>
      rcases Option.ite_none_right_eq_some.mp h with ⟨⟨hr, _⟩, heq⟩
      cases heq
      exact ⟨⟨rfl, rfl, rfl, rfl⟩, Or.inr (hshort r hr)⟩
  | error r status =>
      rcases Option.ite_none_right_eq_some.mp h with ⟨⟨hr, _⟩, heq⟩
      cases heq
      exact ⟨⟨rfl, rfl, rfl, rfl⟩, Or.inr (hshort r hr)⟩

theorem arrivals_kept {c : ReadCall} {s s' : Pipe} {arrivals : List Arrival}
    (h : arrivals.foldlM (arrive c) s = some s') :
    (s'.phase = s.phase ∧ s'.inFlight = s.inFlight ∧ s'.issued = s.issued ∧
        s'.readError = s.readError) ∧
      (s'.wire = s.wire ∨ s'.wire.length < s.wire.length) := by
  induction arrivals generalizing s with
  | nil =>
      cases h
      exact ⟨⟨rfl, rfl, rfl, rfl⟩, Or.inl rfl⟩
  | cons a rest ih =>
      rw [List.foldlM_cons] at h
      rcases Option.bind_eq_some_iff.mp h with ⟨next, hnext, hrest⟩
      rcases arrive_kept hnext with ⟨⟨hphase, hin, hissued, herr⟩, hwire⟩
      rcases ih hrest with ⟨⟨hphase', hin', hissued', herr'⟩, hwire'⟩
      constructor
      · exact ⟨hphase'.trans hphase, hin'.trans hin, hissued'.trans hissued, herr'.trans herr⟩
      · rcases hwire with heq | hlt
        · rw [<- heq]
          exact hwire'
        · right
          rcases hwire' with heq' | hlt'
          · rw [heq']
            exact hlt
          · exact hlt'.trans hlt

theorem counted_abort {c : ReadCall} {s : Pipe} (h : Counted c s) :
    Sound c (abortTransport s) :=
  ⟨⟨h.bounded, h.holds⟩, fun hno => absurd rfl hno, fun hno => (by cases hno),
    show (-1 : Int) ≤ 0 by decide⟩

theorem sound_step {c : ReadCall} {s s' : Pipe} {e : PipeEvent} (h : Sound c s)
    (hstep : s.step c e = some s') : Sound c s' := by
  cases e with
  | advance =>
      unfold Pipe.step at hstep
      cases hphase : s.phase with
      | outer =>
          have hpiped := h.running (by rw [hphase]; decide)
          simp only [hphase] at hstep
          cases hstep
          refine sound_of_piped (piped_same hpiped _ s.stopIssuing s.readError) ?_ h.error
          intro hwait
          change (if wantsMore c s then Phase.issuing else Phase.returned) = Phase.waiting at hwait
          split at hwait <;> cases hwait
      | issuing =>
          have hpiped := h.running (by rw [hphase]; decide)
          simp only [hphase] at hstep
          rcases Option.ite_none_left_eq_some.mp hstep with ⟨_, heq⟩
          cases heq
          exact sound_leaveIssuing hpiped h.error
      | waiting =>
          have hpiped := h.running (by rw [hphase]; decide)
          simp only [hphase] at hstep
          rcases Option.ite_none_right_eq_some.mp hstep with ⟨_, heq⟩
          cases heq
          exact sound_of_piped (piped_same hpiped _ s.stopIssuing s.readError)
            (fun hwait => by cases hwait) h.error
      | consuming =>
          have hpiped := h.running (by rw [hphase]; decide)
          simp only [hphase] at hstep
          cases hstep
          cases hmay : mayConsume s with
          | true =>
              rw [if_pos rfl]
              refine sound_of_piped (piped_consumeOne hpiped hmay) ?_ (consumeOne_error h.error)
              intro hwait
              rw [consumeOne_phase, hphase] at hwait
              cases hwait
          | false =>
              exact sound_of_piped (piped_same hpiped _ s.stopIssuing s.readError)
                (fun hwait => by cases hwait) h.error
      | returned =>
          simp only [hphase] at hstep
          cases hstep
  | issue available rc =>
      rcases Option.ite_none_right_eq_some.mp hstep with ⟨⟨hphase, hmay⟩, heq⟩
      cases heq
      exact sound_issueOne (h.running (by rw [hphase]; decide)) hmay h.error hphase available rc
  | service arrivals holds =>
      rcases Option.ite_none_right_eq_some.mp hstep with ⟨⟨hphase, _⟩, hmap⟩
      rcases Option.map_eq_some_iff.mp hmap with ⟨next, hnext, heq⟩
      have hpiped := piped_arrivals (h.running (by rw [hphase]; decide)) hnext
      rcases arrivals_kept hnext with ⟨⟨_, hin, _, herr⟩, _⟩
      cases holds with
      | true =>
          cases heq
          refine sound_of_piped hpiped ?_ (herr ▸ h.error)
          intro _
          change 0 < next.inFlight
          rw [hin]
          exact h.flying hphase
      | false =>
          cases heq
          exact counted_abort hpiped.counted

end Smb
end PkgManager
