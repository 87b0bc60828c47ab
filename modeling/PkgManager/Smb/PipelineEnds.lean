import PkgManager.Smb.PipelineRuns

/-!
# The end of a pipelined read

Issuing uses up the bytes that are wanted, an answer uses up a request and consuming uses up
a slot.  A read only waits while a request is not answered.
-/

namespace PkgManager
namespace Smb

section Rank

variable {c : ReadCall} {s : Pipe}

def phaseRank (s : Pipe) : Nat :=
  match s.phase with
  | .returned => 0
  | .waiting => 2
  | .issuing => 3
  | .outer => 4
  | .consuming => if mayConsume s then 1 else 5

def pipeRank (c : ReadCall) (s : Pipe) : Nat :=
  if s.phase = .returned then 0
  else 7 * (c.targetCount - s.issued) + s.wire.length + 5 * s.inFlight + phaseRank s

theorem pipeRank_returned (c : ReadCall) {s : Pipe} (h : s.phase = .returned) :
    pipeRank c s = 0 :=
  if_pos h

theorem pipeRank_running (c : ReadCall) {s : Pipe} (h : s.phase ≠ .returned) :
    pipeRank c s =
      7 * (c.targetCount - s.issued) + s.wire.length + 5 * s.inFlight + phaseRank s :=
  if_neg h

theorem pipeRank_le (c : ReadCall) (s : Pipe) :
    pipeRank c s ≤
      7 * (c.targetCount - s.issued) + s.wire.length + 5 * s.inFlight + phaseRank s := by
  unfold pipeRank
  split
  · exact Nat.zero_le _
  · exact le_rfl

/-- A step that only changes the phase falls with it. -/
theorem pipeRank_phase {s s' : Pipe} (hs : s.phase ≠ .returned) (hissued : s'.issued = s.issued)
    (hwire : s'.wire = s.wire) (hin : s'.inFlight = s.inFlight)
    (hphase : phaseRank s' < phaseRank s) : pipeRank c s' < pipeRank c s := by
  have hle := pipeRank_le c s'
  rw [pipeRank_running c hs]
  rw [hissued, hwire, hin] at hle
  omega

theorem running_of_phase {phase : Phase} (h : s.phase = phase) (hne : phase ≠ .returned) :
    s.phase ≠ .returned :=
  h.trans_ne hne

theorem phaseRank_le (s : Pipe) : phaseRank s ≤ 5 := by
  unfold phaseRank
  split
  · decide
  · decide
  · decide
  · decide
  · split <;> decide

theorem phaseRank_of_issuing (h : s.phase = .issuing) : phaseRank s = 3 := by
  unfold phaseRank
  rw [h]

theorem phaseRank_leaveIssuing (s : Pipe) : phaseRank (leaveIssuing s) ≤ 2 := by
  unfold phaseRank leaveIssuing
  split
  · decide
  · decide
  all_goals
    rename_i h
    dsimp only at h
    split at h <;> cases h

theorem leaveIssuing_falls (h : s.phase = .issuing) (stop : Bool) (err : Int)
    (slots : Nat -> Slot) :
    pipeRank c (leaveIssuing { s with slots := slots, stopIssuing := stop, readError := err }) <
      pipeRank c s := by
  refine pipeRank_phase (running_of_phase h (by decide)) rfl rfl rfl ?_
  rw [phaseRank_of_issuing h]
  exact (phaseRank_leaveIssuing _).trans_lt (by decide)

theorem sendRequest_falls (h : s.phase = .issuing) {toReq : Nat} (hpos : toReq ≠ 0)
    (hfit : toReq ≤ c.targetCount - s.issued) :
    pipeRank c (sendRequest c s toReq) < pipeRank c s := by
  have hlen : (sendRequest c s toReq).wire.length = s.wire.length + 1 := by
    unfold sendRequest
    rw [List.length_append, List.length_singleton]
  have hphase : (sendRequest c s toReq).phase = .issuing := h
  rw [pipeRank_running c (running_of_phase h (by decide)),
    pipeRank_running c (running_of_phase hphase (by decide)), hlen,
    phaseRank_of_issuing h, phaseRank_of_issuing hphase]
  change 7 * (c.targetCount - (s.issued + toReq)) + (s.wire.length + 1) + 5 * (s.inFlight + 1) + 3
    < _
  omega

theorem issueOne_falls (h : s.phase = .issuing) (available rc : Int) :
    pipeRank c (issueOne c s available rc) < pipeRank c s := by
  have hleave := leaveIssuing_falls (c := c) h s.stopIssuing s.readError s.slots
  unfold issueOne
  split
  · exact hleave
  · split
    · exact hleave
    · split
      · exact leaveIssuing_falls h true rc _
      · rename_i hsize _
        exact sendRequest_falls h hsize (requestSize_le c s available)

theorem consumeOne_falls (h : s.phase = .consuming) (hmay : mayConsume s = true) :
    pipeRank c (consumeOne s) < pipeRank c s := by
  have hpos := (mayConsume_parts hmay).1
  rcases consumeOne_kept s with ⟨hin, hissued, hwire⟩
  have hle := pipeRank_le c (consumeOne s)
  have hrank : phaseRank s = 1 := by
    unfold phaseRank
    rw [h]
    exact if_pos hmay
  have hnext := phaseRank_le (consumeOne s)
  rw [pipeRank_running c (running_of_phase h (by decide)), hrank]
  rw [hin, hissued, hwire] at hle
  omega

theorem advance_falls {s' : Pipe} (h : Sound c s) (hstep : s.step c .advance = some s') :
    pipeRank c s' < pipeRank c s := by
  unfold Pipe.step at hstep
  cases hphase : s.phase with
  | outer =>
      simp only [hphase] at hstep
      cases hstep
      refine pipeRank_phase (running_of_phase hphase (by decide)) rfl rfl rfl ?_
      have hrank : phaseRank s = 4 := by
        unfold phaseRank
        rw [hphase]
      rw [hrank]
      cases wantsMore c s with
      | true => exact Nat.lt_succ_self 3
      | false => exact Nat.succ_pos 3
  | issuing =>
      simp only [hphase] at hstep
      rcases Option.ite_none_left_eq_some.mp hstep with ⟨_, heq⟩
      cases heq
      exact leaveIssuing_falls hphase s.stopIssuing s.readError s.slots
  | waiting =>
      simp only [hphase] at hstep
      rcases Option.ite_none_right_eq_some.mp hstep with ⟨hdone, heq⟩
      cases heq
      refine pipeRank_phase (running_of_phase hphase (by decide)) rfl rfl rfl ?_
      have hmay : mayConsume { s with phase := .consuming } = true := by
        unfold mayConsume
        rw [Bool.and_eq_true, decide_eq_true_eq]
        exact ⟨h.flying hphase, hdone⟩
      unfold phaseRank
      rw [hphase]
      change (if mayConsume { s with phase := .consuming } = true then 1 else 5) < 2
      rw [if_pos hmay]
      decide
  | consuming =>
      simp only [hphase] at hstep
      cases hstep
      split
      · rename_i hmay
        exact consumeOne_falls hphase hmay
      · rename_i hmay
        refine pipeRank_phase (running_of_phase hphase (by decide)) rfl rfl rfl ?_
        unfold phaseRank
        rw [hphase]
        change 4 < if mayConsume s = true then 1 else 5
        rw [if_neg hmay]
        decide
  | returned =>
      simp only [hphase] at hstep
      cases hstep

/-- A pass of the event loop without an answer leaves the requests. -/
theorem service_falls {s' : Pipe} {arrivals : List Arrival} {holds : Bool} (h : Sound c s)
    (hstep : s.step c (.service arrivals holds) = some s') :
    pipeRank c s' < pipeRank c s ∨
      (pipeRank c s' = pipeRank c s ∧ (exists r, r ∈ s.wire) ∧
        forall r, r ∈ s.wire -> r ∈ s'.wire) := by
  rcases Option.ite_none_right_eq_some.mp hstep with ⟨⟨hphase, hopen⟩, hmap⟩
  rcases Option.map_eq_some_iff.mp hmap with ⟨next, hnext, heq⟩
  rcases arrivals_kept hnext with ⟨⟨hkept, hin, hissued, _⟩, hwire⟩
  have hrun := running_of_phase hphase (by decide)
  have hpiped := h.running hrun
  have hrank : phaseRank next = phaseRank s := by
    unfold phaseRank
    rw [hkept, hphase]
  have hnextRank : pipeRank c next =
      7 * (c.targetCount - s.issued) + next.wire.length + 5 * s.inFlight + phaseRank s := by
    rw [pipeRank_running c (by rw [hkept]; exact hrun), hin, hissued, hrank]
  rw [pipeRank_running c hrun]
  cases holds with
  | true =>
      change next = s' at heq
      subst heq
      rw [hnextRank]
      rcases hwire with hsame | hlt
      · right
        rw [hsame]
        refine ⟨rfl, ?_, fun r hr => hr⟩
        rcases hpiped.awaited 0 (h.flying hphase) hopen with ⟨r, hr, _⟩
        exact ⟨r, hr⟩
      · left
        omega
  | false =>
      change abortTransport next = s' at heq
      subst heq
      left
      rw [pipeRank_returned c rfl]
      have hpos : phaseRank s = 2 := by
        unfold phaseRank
        rw [hphase]
      omega

theorem step_falls {s' : Pipe} {e : PipeEvent} (h : Sound c s) (hstep : s.step c e = some s') :
    pipeRank c s' < pipeRank c s ∨
      (pipeRank c s' = pipeRank c s ∧ (exists r, r ∈ s.wire) ∧
        forall r, r ∈ s.wire -> r ∈ s'.wire) := by
  cases e with
  | advance => exact Or.inl (advance_falls h hstep)
  | issue available rc =>
      rcases Option.ite_none_right_eq_some.mp hstep with ⟨⟨hphase, _⟩, heq⟩
      cases heq
      exact Or.inl (issueOne_falls hphase available rc)
  | service arrivals holds => exact service_falls h hstep

end Rank

/-!
# Whole reads
-/

def runPipe (c : ReadCall) (s : Pipe) (events : List PipeEvent) : Option Pipe :=
  events.foldlM (Pipe.step c) s

theorem sound_run {c : ReadCall} {s s' : Pipe} (h : Sound c s) {events : List PipeEvent}
    (hrun : runPipe c s events = some s') : Sound c s' := by
  induction events generalizing s with
  | nil =>
      cases hrun
      exact h
  | cons e rest ih =>
      unfold runPipe at hrun
      rw [List.foldlM_cons] at hrun
      rcases Option.bind_eq_some_iff.mp hrun with ⟨next, hnext, hrest⟩
      exact ih (sound_step h hnext) hrest

/-- A read that never stops going on, or has returned. -/
structure PipeRun (c : ReadCall) where
  state : Nat -> Pipe
  start : exists dst, state 0 = startRead c dst
  next : forall t, (exists e, (state t).step c e = some (state (t + 1))) ∨
    ((state t).phase = .returned ∧ state (t + 1) = state t)

/-- Every request is answered at some time, or its transport is destroyed. -/
def PipeRun.Answering {c : ReadCall} (run : PipeRun c) : Prop :=
  forall t r, r ∈ (run.state t).wire -> exists t', t ≤ t' ∧ r ∉ (run.state t').wire

theorem PipeRun.sound {c : ReadCall} (run : PipeRun c) (t : Nat) : Sound c (run.state t) := by
  induction t with
  | zero =>
      rcases run.start with ⟨dst, hstart⟩
      rw [hstart]
      exact sound_start c dst
  | succ t ih =>
      rcases run.next t with ⟨e, hstep⟩ | ⟨_, hsame⟩
      · exact sound_step ih hstep
      · rw [hsame]
        exact ih

theorem PipeRun.returns {c : ReadCall} (run : PipeRun c) (h : run.Answering) :
    exists t, (run.state t).phase = .returned := by
  apply Progress.ends_of_fair run.state (pipeRank c) (fun s => s.phase = .returned)
    (fun s r => r ∈ s.wire) _ h
  intro t hnot
  rcases run.next t with ⟨e, hstep⟩ | ⟨hdone, _⟩
  · exact step_falls (run.sound t) hstep
  · exact absurd hdone hnot

/-- A read that has not returned can go on. -/
theorem step_possible (c : ReadCall) {s : Pipe} (h : s.phase ≠ .returned) :
    exists e s', s.step c e = some s' := by
  cases hphase : s.phase with
  | outer =>
      exists .advance
      unfold Pipe.step
      simp only [hphase]
      exact ⟨_, rfl⟩
  | issuing =>
      cases hmay : mayIssue c s with
      | true => exact ⟨.issue 0 0, _, if_pos ⟨hphase, hmay⟩⟩
      | false =>
          exists .advance, leaveIssuing s
          unfold Pipe.step
          simp [hphase, hmay]
  | waiting =>
      cases hdone : s.oldest.done with
      | true =>
          exists .advance, { s with phase := .consuming }
          unfold Pipe.step
          simp [hphase, hdone]
      | false => exact ⟨.service [] true, _, if_pos ⟨hphase, hdone⟩⟩
  | consuming =>
      exists .advance
      unfold Pipe.step
      simp only [hphase]
      exact ⟨_, rfl⟩
  | returned => exact absurd hphase h

/-- What a read returns is in the buffer. -/
def ReadsExactly (c : ReadCall) : Prop :=
  forall dst events s, runPipe c (startRead c dst) events = some s -> s.phase = .returned ->
    0 < s.result ->
      exists n : Nat, s.result = n ∧ n ≤ c.count ∧
        forall i, i < n -> c.file[c.offset + i]? = some (s.dst i)

/-- A read that is answered comes to its end, and it can always go on until then. -/
def ReadReturns (c : ReadCall) : Prop :=
  (forall run : PipeRun c, run.Answering -> exists t, (run.state t).phase = .returned) ∧
    forall dst events s, runPipe c (startRead c dst) events = some s -> s.phase ≠ .returned ->
      exists e s', s.step c e = some s'

theorem targetCount_le (c : ReadCall) : c.targetCount ≤ c.count := by
  unfold ReadCall.targetCount
  split
  · exact Nat.min_le_left _ _
  · exact le_rfl

theorem result_counted {c : ReadCall} {s : Pipe} (h : Sound c s) (hpos : 0 < s.result) :
    s.result = s.totalRead := by
  unfold Pipe.result at hpos ⊢
  split
  · rfl
  · rename_i hnone
    rw [if_neg hnone] at hpos
    exact absurd h.error (Int.not_le.mpr hpos)

theorem reads_exactly (c : ReadCall) : ReadsExactly c := by
  intro dst events s hrun _ hpos
  have hsound := sound_run (sound_start c dst) hrun
  refine ⟨s.totalRead, result_counted hsound hpos,
    hsound.counted.bounded.trans (targetCount_le c), ?_⟩
  intro i hi
  have hbyte := hsound.counted.holds i hi
  rw [Nat.zero_add] at hbyte
  exact hbyte

/-- The second of two requests is answered first. -/
example :
    let c : ReadCall :=
      { file := [7, 8, 9], fits := by decide, count := 5, offset := 1, maxReadSize := 1,
        dialect := 0x0311, connected := true }
    let request (k : Nat) : ReadRequest := { slot := k, buf := k, size := 1, offset := 1 + k }
    (runPipe c (startRead c (fun _ => 0))
      [.advance, .issue 2 0, .issue 1 0, .advance, .service [.data (request 1) 1] true,
        .service [.data (request 0) 1] true, .advance, .advance, .advance, .advance,
        .advance]).map (fun s => (s.result, s.dst 0, s.dst 1, s.phase)) =
      some (2, 8, 9, .returned) := by
  decide

/-- The counters of the ring stay below the bytes that are asked for. -/
theorem counters_bounded {c : ReadCall} {dst : Nat -> UInt8} {events : List PipeEvent} {s : Pipe}
    (h : runPipe c (startRead c dst) events = some s) (hrun : s.phase ≠ .returned) :
    s.head ≤ s.tail ∧ s.tail ≤ c.count := by
  have hpiped := (sound_run (sound_start c dst) h).running hrun
  constructor
  · rw [hpiped.tail]
    exact Nat.le_add_right _ _
  · exact hpiped.sent.trans (hpiped.issued.trans (targetCount_le c))

/-- A pipelined read is exact and comes to its end. -/
theorem pipelined_read (c : ReadCall) : ReadsExactly c ∧ ReadReturns c :=
  ⟨reads_exactly c, fun run => run.returns, fun _ _ _ _ => step_possible c⟩

end Smb
end PkgManager
