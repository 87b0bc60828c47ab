import PkgManager.Smb.PipelineEnds

/-!
# The end of a file over a share

A read that returns nothing is taken for the end of the file.  The server has said so, or the
read found no credit for its first request.
-/

namespace PkgManager
namespace Smb

/-- The server answers a request of the read with no bytes. -/
def AnswersNothing (e : PipeEvent) : Prop :=
  exists arrivals holds r, e = .service arrivals holds ∧ Arrival.data r 0 ∈ arrivals

/-!
# What a running read knows
-/

/-- A read that is still running has not missed an end of the file. -/
structure Honest (ended : Prop) (s : Pipe) : Prop where
  answered : forall k, k < s.inFlight -> (s.flight k).done = true -> (s.flight k).result = 0 ->
    ended
  stopped : s.stopIssuing = true -> s.totalRead = 0 -> s.readError = 0 -> ended
  discards : s.discardInflight = true -> s.stopIssuing = true
  consumed : s.stopIssuing = false -> s.totalRead = 0 -> s.head = 0
  issued : s.tail = 0 -> s.issued = 0

theorem Honest.imp {ended ended' : Prop} {s : Pipe} (h : Honest ended s)
    (himp : ended -> ended') : Honest ended' s where
  answered k hk hdone hresult := himp (h.answered k hk hdone hresult)
  stopped hstop htotal herr := himp (h.stopped hstop htotal herr)
  discards := h.discards
  consumed := h.consumed
  issued := h.issued

/-- The phase does not matter. -/
theorem honest_phase {ended : Prop} {s : Pipe} (h : Honest ended s) (phase : Phase) :
    Honest ended { s with phase := phase } where
  answered := h.answered
  stopped := h.stopped
  discards := h.discards
  consumed := h.consumed
  issued := h.issued

/-- The bytes in the buffer do not matter. -/
theorem honest_written {ended : Prop} {s : Pipe} (h : Honest ended s) (dst : Nat -> UInt8) :
    Honest ended { s with dst := dst } where
  answered := h.answered
  stopped := h.stopped
  discards := h.discards
  consumed := h.consumed
  issued := h.issued

theorem honest_start (c : ReadCall) (dst : Nat -> UInt8) : Honest False (startRead c dst) where
  answered k hk := absurd hk (Nat.not_lt_zero k)
  stopped hstop := by cases hstop
  discards hdiscard := by cases hdiscard
  consumed _ _ := rfl
  issued _ := rfl

theorem result_zero {s : Pipe} (h : s.result = 0) : s.totalRead = 0 ∧ s.readError = 0 := by
  unfold Pipe.result at h
  split at h
  · omega
  · rename_i hnone
    exact ⟨Nat.eq_zero_of_not_pos hnone, h⟩

section Steps

variable {c : ReadCall} {ended : Prop} {s : Pipe}

/-- Nothing is on the way and nothing was read: no request was issued yet. -/
theorem Honest.fresh (h : Honest ended s) (hp : Piped c s) (hstop : s.stopIssuing = false)
    (htotal : s.totalRead = 0) (hflight : s.inFlight = 0) : s.tail = 0 ∧ s.issued = 0 := by
  have htail : s.tail = 0 := by
    rw [hp.tail, h.consumed hstop htotal, hflight]
  exact ⟨htail, h.issued htail⟩

/-!
# Issuing
-/

theorem requestSize_pos (hmay : mayIssue c s = true) {available : Int}
    (hcredit : ¬(limitedByCredits c = true ∧ available ≤ 0)) : 0 < requestSize c s available := by
  have hleft := (mayIssue_room hmay).right
  have hchunk : 0 < c.pipelineChunk := by
    unfold ReadCall.pipelineChunk
    split
    · rename_i hsmall
      exact hsmall.left
    · decide
  have hreq : 0 < min (c.targetCount - s.issued) c.pipelineChunk :=
    lt_min (Nat.sub_pos_of_lt hleft) hchunk
  unfold requestSize
  dsimp only
  split
  · rename_i hlimited
    have hpos : 0 < available := not_le.mp (fun hle => hcredit ⟨hlimited, hle⟩)
    apply lt_min hreq
    omega
  · exact hreq

theorem honest_sendRequest (h : Honest ended s) (hp : Piped c s)
    (hroom : s.inFlight < smbPipelineDepth) (toReq : Nat) :
    Honest ended (sendRequest c s toReq) where
  answered k hk hdone hresult := by
    rcases Nat.lt_succ_iff_lt_or_eq.mp hk with hlt | heq
    · have hflight := fillSlot_flight hp hroom toReq hlt
      apply h.answered k hlt
      · rw [<- hflight]
        exact hdone
      · rw [<- hflight]
        exact hresult
    · rw [heq, sendRequest_last hp] at hdone
      cases hdone
  stopped := h.stopped
  discards := h.discards
  consumed := h.consumed
  issued htail := absurd htail (Nat.succ_ne_zero s.tail)

theorem honest_refuseRequest (h : Honest ended s) (hp : Piped c s)
    (hroom : s.inFlight < smbPipelineDepth) (toReq : Nat) {rc : Int} (hrc : rc < 0) :
    Honest ended (refuseRequest s toReq rc) where
  answered k hk hdone hresult := by
    have hflight := fillSlot_flight hp hroom toReq hk
    apply h.answered k hk
    · rw [<- hflight]
      exact hdone
    · rw [<- hflight]
      exact hresult
  stopped _ _ herr := absurd herr hrc.ne
  discards _ := rfl
  consumed hstop := by cases hstop
  issued := h.issued

/-- What an issuing step leaves: a running read, or the reason for which it returns nothing. -/
theorem issueOne_honest (h : Honest ended s) (hp : Piped c s) (hmay : mayIssue c s = true)
    (available rc : Int) :
    Honest ended (issueOne c s available rc) ∧
      ((issueOne c s available rc).phase = .returned -> s.phase = .issuing ->
        (issueOne c s available rc).result = 0 ->
          limitedByCredits c = true ∧ available ≤ 0 ∧ s.tail = 0) := by
  have hroom := (mayIssue_room hmay).left
  have hstop : s.stopIssuing = false := by
    simp only [mayIssue, Bool.and_eq_true, Bool.not_eq_true'] at hmay
    exact hmay.left.left
  unfold issueOne
  split
  · rename_i hcredit
    constructor
    · exact honest_phase h _
    · intro hphase _ hresult
      have hflight : s.inFlight = 0 := by
        by_contra hne
        rw [leaveIssuing, if_neg hne] at hphase
        cases hphase
      rcases result_zero hresult with ⟨htotal, _⟩
      exact ⟨hcredit.left, hcredit.right, (h.fresh hp hstop htotal hflight).left⟩
  · rename_i hcredit
    rw [if_neg (requestSize_pos hmay hcredit).ne']
    split
    · rename_i hrc
      constructor
      · exact honest_phase (honest_refuseRequest h hp hroom _ hrc) _
      · intro _ _ hresult
        exact absurd (result_zero hresult).right hrc.ne
    · constructor
      · exact honest_sendRequest h hp hroom _
      · intro hphase hissuing
        exact absurd (hissuing.symm.trans hphase) (by decide)

/-!
# Answers
-/

theorem honest_cb (h : Honest ended s) (hp : Piped c s) {r : ReadRequest} (hr : r ∈ s.wire)
    {status : Int} (hstatus : status = 0 -> ended) : Honest ended (smbPipelineCb s r status) where
  answered j hj hdone hresult := by
    rcases hp.asked r hr with ⟨k, ha⟩
    by_cases hne : j = k
    · rw [hne, cb_flight_same ha] at hresult
      exact hstatus hresult
    · rw [cb_flight_other hp ha status hj hne] at hdone hresult
      exact h.answered j hj hdone hresult
  stopped := h.stopped
  discards := h.discards
  consumed := h.consumed
  issued := h.issued

theorem honest_arrive {s' : Pipe} (h : Honest ended s) (hp : Piped c s) {a : Arrival}
    (harr : arrive c s a = some s') (hzero : forall r, a = .data r 0 -> ended) :
    Honest ended s' := by
  cases a with
  | partly r bytes =>
      rcases Option.ite_none_right_eq_some.mp harr with ⟨_, heq⟩
      cases heq
      exact honest_written h _
  | data r n =>
      rcases Option.ite_none_right_eq_some.mp harr with ⟨⟨hr, hsize, hfile⟩, heq⟩
      rcases hp.asked r hr with ⟨k, ha⟩
      cases heq
      have hlen : ((c.file.drop r.offset).take n).length ≤ r.size :=
        (List.length_take_le _ _).trans hsize
      have hended : (n : Int) = 0 -> ended := by
        intro hn
        rw [Int.natCast_eq_zero.mp hn] at hzero
        exact hzero r rfl
      exact honest_cb (honest_written h _) (piped_writeBytes hp ha hlen) hr hended
  | error r status =>
      rcases Option.ite_none_right_eq_some.mp harr with ⟨⟨hr, hneg⟩, heq⟩
      cases heq
      exact honest_cb h hp hr (fun hstatus => absurd hstatus hneg.ne)

theorem honest_arrivals {s' : Pipe} (h : Honest ended s) (hp : Piped c s)
    {arrivals : List Arrival} (harr : arrivals.foldlM (arrive c) s = some s')
    (hzero : forall r, Arrival.data r 0 ∈ arrivals -> ended) : Honest ended s' := by
  induction arrivals generalizing s with
  | nil =>
      cases harr
      exact h
  | cons a rest ih =>
      rw [List.foldlM_cons] at harr
      rcases Option.bind_eq_some_iff.mp harr with ⟨next, hnext, hrest⟩
      have hhead : forall r, a = .data r 0 -> ended := by
        intro r heq
        exact hzero r (heq ▸ List.mem_cons_self)
      exact ih (honest_arrive h hp hnext hhead) (piped_arrive hp hnext) hrest
        (fun r hr => hzero r (List.mem_cons_of_mem a hr))

/-!
# Consuming
-/

theorem honest_consumeOne (h : Honest ended s) (hmay : mayConsume s = true) :
    Honest ended (consumeOne s) := by
  rcases mayConsume_parts hmay with ⟨hpos, hdone⟩
  have hanswered : forall k, k < s.inFlight - 1 -> ((popSlot s).flight k).done = true ->
      ((popSlot s).flight k).result = 0 -> ended := by
    intro k hk hfinished hresult
    rw [popSlot_flight] at hfinished hresult
    exact h.answered (k + 1) (by omega) hfinished hresult
  unfold consumeOne
  dsimp only
  split
  · rename_i hdiscard
    refine ⟨hanswered, h.stopped, h.discards, ?_, h.issued⟩
    intro hstop
    rw [show (popSlot s).stopIssuing = true from h.discards hdiscard] at hstop
    cases hstop
  · split
    · rename_i hneg
      exact ⟨hanswered, fun _ _ herr => absurd herr hneg.ne, fun _ => rfl,
        fun hstop => (by cases hstop), h.issued⟩
    · rename_i hnonneg
      split
      · rename_i hzero
        have hended := h.answered 0 hpos hdone hzero
        exact ⟨hanswered, fun _ _ _ => hended, fun _ => rfl, fun hstop => (by cases hstop),
          h.issued⟩
      · rename_i hne
        have hread : s.totalRead + s.oldest.result.toNat ≠ 0 := by omega
        split
        · exact ⟨hanswered, fun _ htotal => absurd htotal hread, fun _ => rfl,
            fun hstop => (by cases hstop), h.issued⟩
        · exact ⟨hanswered, fun _ htotal => absurd htotal hread, h.discards,
            fun _ htotal => absurd htotal hread, h.issued⟩

/-!
# Steps
-/

/-- A step that returns nothing. -/
def ReturnsNothing (s : Pipe) : Prop :=
  s.phase = .returned ∧ s.result = 0

theorem advance_honest {s' : Pipe} (htarget : 0 < c.targetCount) (h : Honest ended s)
    (hp : Piped c s) (hstep : s.step c .advance = some s') :
    Honest ended s' ∧ (ReturnsNothing s' -> ended) := by
  unfold Pipe.step at hstep
  cases hphase : s.phase with
  | outer =>
      simp only [hphase] at hstep
      cases hstep
      refine ⟨honest_phase h _, ?_⟩
      rintro ⟨hreturned, hresult⟩
      rcases result_zero hresult with ⟨htotal, herr⟩
      cases hstop : s.stopIssuing with
      | true => exact h.stopped hstop htotal herr
      | false =>
          have htotal' : s.totalRead = 0 := htotal
          simp [wantsMore, hstop, htotal', htarget] at hreturned
  | issuing =>
      simp only [hphase] at hstep
      rcases Option.ite_none_left_eq_some.mp hstep with ⟨hmay, heq⟩
      cases heq
      refine ⟨honest_phase h _, ?_⟩
      rintro ⟨hreturned, hresult⟩
      rcases result_zero hresult with ⟨htotal, herr⟩
      cases hstop : s.stopIssuing with
      | true => exact h.stopped hstop htotal herr
      | false =>
          have hflight : s.inFlight = 0 := by
            by_contra hne
            rw [leaveIssuing, if_neg hne] at hreturned
            cases hreturned
          have hissued := (h.fresh hp hstop htotal hflight).right
          simp [mayIssue, hstop, hflight, hissued, htarget, smbPipelineDepth] at hmay
  | waiting =>
      simp only [hphase] at hstep
      rcases Option.ite_none_right_eq_some.mp hstep with ⟨_, heq⟩
      cases heq
      exact ⟨honest_phase h _, fun hnothing => by cases hnothing.left⟩
  | consuming =>
      simp only [hphase] at hstep
      cases hstep
      split
      · rename_i hmay
        refine ⟨honest_consumeOne h hmay, fun hnothing => ?_⟩
        rw [ReturnsNothing, consumeOne_phase, hphase] at hnothing
        cases hnothing.left
      · exact ⟨honest_phase h _, fun hnothing => by cases hnothing.left⟩
  | returned =>
      simp only [hphase] at hstep
      cases hstep

theorem service_honest {s' : Pipe} {arrivals : List Arrival} {holds : Bool}
    (h : Honest ended s) (hp : Piped c s)
    (hstep : s.step c (.service arrivals holds) = some s')
    (hzero : forall r, Arrival.data r 0 ∈ arrivals -> ended) :
    (s'.phase ≠ .returned -> Honest ended s') ∧ ¬ReturnsNothing s' := by
  rcases Option.ite_none_right_eq_some.mp hstep with ⟨⟨hphase, _⟩, hmap⟩
  rcases Option.map_eq_some_iff.mp hmap with ⟨next, hnext, heq⟩
  cases holds with
  | true =>
      change next = s' at heq
      subst heq
      have hkept := (arrivals_kept hnext).left.left
      refine ⟨fun _ => honest_arrivals h hp hnext hzero, fun hnothing => ?_⟩
      rw [ReturnsNothing, hkept, hphase] at hnothing
      cases hnothing.left
  | false =>
      change abortTransport next = s' at heq
      subst heq
      refine ⟨fun hrunning => absurd rfl hrunning, fun hnothing => ?_⟩
      have herr := (result_zero hnothing.right).right
      cases herr

end Steps

/-!
# Whole reads
-/

theorem step_returned {c : ReadCall} {s : Pipe} (h : s.phase = .returned) (e : PipeEvent) :
    s.step c e = none := by
  cases e with
  | advance => simp only [Pipe.step, h]
  | issue available rc => simp [Pipe.step, h]
  | service arrivals holds => simp [Pipe.step, h]

theorem run_returned {c : ReadCall} {s s' : Pipe} {events : List PipeEvent}
    (h : s.phase = .returned) (hrun : runPipe c s events = some s') : events = [] ∧ s' = s := by
  cases events with
  | nil =>
      cases hrun
      exact ⟨rfl, rfl⟩
  | cons e rest =>
      rw [runPipe, List.foldlM_cons, step_returned h] at hrun
      cases hrun

/-- The credits that the first issuing step finds. -/
def firstCredits : List PipeEvent -> Option Int
  | [] => none
  | .issue available _ :: _ => some available
  | .advance :: rest => firstCredits rest
  | .service _ _ :: rest => firstCredits rest

/-- The first request has a credit, where credits count. -/
def StartsWithCredit (c : ReadCall) (events : List PipeEvent) : Prop :=
  forall available, firstCredits events = some available -> limitedByCredits c = true ->
    0 < available

/-- The server answers a request of the read with no bytes. -/
def ServerEnds (events : List PipeEvent) : Prop :=
  exists e, e ∈ events ∧ AnswersNothing e

/-- A read in front of the steps that are left. -/
structure Going (c : ReadCall) (ended : Prop) (events : List PipeEvent) (s : Pipe) : Prop where
  sound : Sound c s
  honest : s.phase ≠ .returned -> Honest ended s
  credit : s.phase ≠ .returned -> s.tail = 0 -> StartsWithCredit c events
  nothing : ReturnsNothing s -> ended

theorem advance_tail {c : ReadCall} {s s' : Pipe} (h : s.step c .advance = some s') :
    s'.tail = s.tail := by
  unfold Pipe.step at h
  cases hphase : s.phase with
  | outer =>
      simp only [hphase] at h
      cases h
      rfl
  | issuing =>
      simp only [hphase] at h
      rcases Option.ite_none_left_eq_some.mp h with ⟨_, heq⟩
      cases heq
      rfl
  | waiting =>
      simp only [hphase] at h
      rcases Option.ite_none_right_eq_some.mp h with ⟨_, heq⟩
      cases heq
      rfl
  | consuming =>
      simp only [hphase] at h
      cases h
      split
      · unfold consumeOne
        dsimp only
        split
        · rfl
        · split
          · rfl
          · split
            · rfl
            · split <;> rfl
      · rfl
  | returned =>
      simp only [hphase] at h
      cases h

/-- An issuing step that leaves nothing on the way ends the read. -/
theorem issueOne_tail {c : ReadCall} {s : Pipe} (hp : Piped c s) {available rc : Int}
    (h : (issueOne c s available rc).tail = 0) : (issueOne c s available rc).phase = .returned := by
  have hflight : s.tail = 0 -> s.inFlight = 0 := by
    intro htail
    rw [hp.tail] at htail
    exact (Nat.add_eq_zero_iff.mp htail).right
  unfold issueOne at h ⊢
  split at h
  · rename_i hcredit
    rw [if_pos hcredit]
    exact if_pos (hflight h)
  · rename_i hcredit
    rw [if_neg hcredit]
    split at h
    · rename_i hsize
      rw [if_pos hsize]
      exact if_pos (hflight h)
    · rename_i hsize
      rw [if_neg hsize]
      split at h
      · rename_i hrc
        rw [if_pos hrc]
        exact if_pos (hflight h)
      · exact absurd h (Nat.succ_ne_zero s.tail)

theorem going_step {c : ReadCall} {ended : Prop} {s s' : Pipe} {e : PipeEvent}
    {rest : List PipeEvent} (htarget : 0 < c.targetCount) (h : Going c ended (e :: rest) s)
    (hstep : s.step c e = some s') : Going c (ended ∨ AnswersNothing e) rest s' := by
  have hrunning : s.phase ≠ .returned := by
    intro hreturned
    rw [step_returned hreturned] at hstep
    cases hstep
  have hp := h.sound.running hrunning
  have hhonest := h.honest hrunning
  have hsound := sound_step h.sound hstep
  cases e with
  | advance =>
      rcases advance_honest htarget hhonest hp hstep with ⟨hnext, hnothing⟩
      refine ⟨hsound, fun _ => hnext.imp Or.inl, ?_, fun hn => Or.inl (hnothing hn)⟩
      intro _ htail
      rw [advance_tail hstep] at htail
      exact h.credit hrunning htail
  | issue available rc =>
      rcases Option.ite_none_right_eq_some.mp hstep with ⟨⟨hphase, hmay⟩, heq⟩
      cases heq
      rcases issueOne_honest hhonest hp hmay available rc with ⟨hnext, hnothing⟩
      refine ⟨hsound, fun _ => hnext.imp Or.inl, ?_, ?_⟩
      · intro hnot htail
        exact absurd (issueOne_tail hp htail) hnot
      · rintro ⟨hreturned, hresult⟩
        rcases hnothing hreturned hphase hresult with ⟨hlimited, hcredit, htail⟩
        have hpos := h.credit hrunning htail available rfl hlimited
        exact absurd hpos hcredit.not_gt
  | service arrivals holds =>
      have hzero : forall r, Arrival.data r 0 ∈ arrivals ->
          ended ∨ AnswersNothing (.service arrivals holds) :=
        fun r hr => Or.inr ⟨arrivals, holds, r, rfl, hr⟩
      rcases service_honest (hhonest.imp Or.inl) hp hstep hzero with ⟨hnext, hnothing⟩
      refine ⟨hsound, hnext, ?_, fun hn => absurd hn hnothing⟩
      intro hnot htail
      have hflight : 0 < s'.inFlight := by
        rcases Option.ite_none_right_eq_some.mp hstep with ⟨⟨hphase, _⟩, hmap⟩
        rcases Option.map_eq_some_iff.mp hmap with ⟨next, harrived, heq⟩
        cases holds with
        | true =>
            change next = s' at heq
            rw [<- heq, (arrivals_kept harrived).left.right.left]
            exact h.sound.flying hphase
        | false =>
            change abortTransport next = s' at heq
            exact absurd (congrArg Pipe.phase heq.symm) hnot
      rw [(hsound.running hnot).tail] at htail
      omega

theorem going_run {c : ReadCall} {ended : Prop} {s s' : Pipe} {events : List PipeEvent}
    (htarget : 0 < c.targetCount) (h : Going c ended events s)
    (hrun : runPipe c s events = some s') (hnothing : ReturnsNothing s') :
    ended ∨ ServerEnds events := by
  induction events generalizing s ended with
  | nil =>
      cases hrun
      exact Or.inl (h.nothing hnothing)
  | cons e rest ih =>
      rw [runPipe, List.foldlM_cons] at hrun
      rcases Option.bind_eq_some_iff.mp hrun with ⟨next, hnext, hrest⟩
      rcases ih (going_step htarget h hnext) hrest with (hended | hanswers) | ⟨e', hmem, hanswers⟩
      · exact Or.inl hended
      · exact Or.inr ⟨e, List.mem_cons_self, hanswers⟩
      · exact Or.inr ⟨e', List.mem_cons_of_mem e hmem, hanswers⟩

theorem going_start {c : ReadCall} {events : List PipeEvent} (hcount : 0 < c.count)
    (hcredit : StartsWithCredit c events) (dst : Nat -> UInt8) :
    Going c False events (startRead c dst) where
  sound := sound_start c dst
  honest _ := honest_start c dst
  credit _ _ := hcredit
  nothing := by
    rintro ⟨hreturned, hresult⟩
    have herr := (result_zero hresult).right
    unfold startRead at hreturned herr
    simp only [hcount.ne', false_or] at hreturned herr
    cases hconnected : c.connected with
    | true => simp [hconnected] at hreturned
    | false => simp [hconnected] at herr

/-- A read on its way to its first request. -/
structure Untouched (s : Pipe) : Prop where
  totalRead : s.totalRead = 0
  stopIssuing : s.stopIssuing = false
  readError : s.readError = 0
  inFlight : s.inFlight = 0
  issued : s.issued = 0

theorem untouched_leaves {c : ReadCall} {s s' : Pipe} {available rc : Int}
    {rest : List PipeEvent} (h : Untouched s) (hlimited : limitedByCredits c = true)
    (hcredit : available ≤ 0) (hrun : runPipe c s (.issue available rc :: rest) = some s') :
    s'.result = 0 ∧ rest = [] := by
  rw [runPipe, List.foldlM_cons] at hrun
  rcases Option.bind_eq_some_iff.mp hrun with ⟨next, hnext, hrest⟩
  rcases Option.ite_none_right_eq_some.mp hnext with ⟨_, heq⟩
  have hleave : issueOne c s available rc = leaveIssuing s := if_pos ⟨hlimited, hcredit⟩
  rw [hleave] at heq
  cases heq
  rcases run_returned (if_pos h.inFlight) hrest with ⟨hnil, hsame⟩
  constructor
  · rw [hsame]
    change (if 0 < s.totalRead then (s.totalRead : Int) else s.readError) = 0
    rw [h.totalRead, if_neg (Nat.lt_irrefl 0)]
    exact h.readError
  · exact hnil

theorem firstCredits_step {c : ReadCall} {s s' : Pipe} {e : PipeEvent} (h : Untouched s)
    (htarget : 0 < c.targetCount) (hstep : s.step c e = some s')
    (hphase : s.phase = .outer ∨ s.phase = .issuing) :
    (e = .advance ∧ Untouched s' ∧ s'.phase = .issuing) ∨
      exists available rc, e = .issue available rc := by
  cases e with
  | issue available rc => exact Or.inr ⟨available, rc, rfl⟩
  | service arrivals holds =>
      rcases Option.ite_none_right_eq_some.mp hstep with ⟨⟨hwaiting, _⟩, _⟩
      rcases hphase with hphase | hphase
      · cases hphase.symm.trans hwaiting
      · cases hphase.symm.trans hwaiting
  | advance =>
      left
      rcases hphase with hphase | hphase
      · have hmore : wantsMore c s = true := by
          simp [wantsMore, h.stopIssuing, h.totalRead, htarget]
        simp only [Pipe.step, hphase, hmore, if_true] at hstep
        cases hstep
        exact ⟨rfl, ⟨h.totalRead, h.stopIssuing, h.readError, h.inFlight, h.issued⟩, rfl⟩
      · have hmay : mayIssue c s = true := by
          simp [mayIssue, h.stopIssuing, h.inFlight, h.issued, htarget, smbPipelineDepth]
        simp only [Pipe.step, hphase, hmay, if_true] at hstep
        cases hstep

theorem untouched_run {c : ReadCall} {s s' : Pipe} {events : List PipeEvent} (h : Untouched s)
    (htarget : 0 < c.targetCount) (hphase : s.phase = .outer ∨ s.phase = .issuing)
    (hrun : runPipe c s events = some s') (hcredit : ¬StartsWithCredit c events) :
    s'.result = 0 ∧ ¬ServerEnds events := by
  induction events generalizing s with
  | nil =>
      exfalso
      apply hcredit
      intro available hfirst
      cases hfirst
  | cons e rest ih =>
      have hrest := hrun
      rw [runPipe, List.foldlM_cons] at hrest
      rcases Option.bind_eq_some_iff.mp hrest with ⟨next, hnext, hlast⟩
      rcases firstCredits_step h htarget hnext hphase with ⟨rfl, hsame, hissuing⟩ | ⟨a, rc, rfl⟩
      · rcases ih hsame (Or.inr hissuing) hlast hcredit with ⟨hresult, hends⟩
        refine ⟨hresult, ?_⟩
        rintro ⟨e, hmem, hanswers⟩
        rcases List.mem_cons.mp hmem with rfl | hmem
        · rcases hanswers with ⟨_, _, _, heq, _⟩
          cases heq
        · exact hends ⟨e, hmem, hanswers⟩
      · have hshort : limitedByCredits c = true ∧ a ≤ 0 := by
          by_contra hnot
          apply hcredit
          intro available hfirst hlimited
          cases hfirst
          exact not_le.mp (fun hle => hnot ⟨hlimited, hle⟩)
        rcases untouched_leaves h hshort.left hshort.right hrun with ⟨hresult, rfl⟩
        refine ⟨hresult, ?_⟩
        rintro ⟨e, hmem, _, _, _, heq, _⟩
        rw [List.mem_singleton.mp hmem] at heq
        cases heq

/-- Without a credit for its first request, a read returns nothing at once. -/
theorem run_without_credit {c : ReadCall} {dst : Nat -> UInt8} {events : List PipeEvent} {s : Pipe}
    (hcount : 0 < c.count) (htarget : 0 < c.targetCount) (hcredit : ¬StartsWithCredit c events)
    (hrun : runPipe c (startRead c dst) events = some s) :
    s.result = 0 ∧ ¬ServerEnds events := by
  cases hconnected : c.connected with
  | true =>
      have hstart : Untouched (startRead c dst) :=
        ⟨rfl, rfl, by simp [startRead, hconnected], rfl, rfl⟩
      have hphase : (startRead c dst).phase = .outer := by
        simp [startRead, hconnected, hcount.ne']
      exact untouched_run hstart htarget (Or.inl hphase) hrun hcredit
  | false =>
      have hphase : (startRead c dst).phase = .returned := by
        simp [startRead, hconnected]
      rw [(run_returned hphase hrun).left] at hcredit
      exfalso
      apply hcredit
      intro available hfirst
      cases hfirst

theorem targetCount_pos {c : ReadCall} (hcount : 0 < c.count) (hoffset : c.offset < c.file.length) :
    0 < c.targetCount := by
  unfold ReadCall.targetCount
  split
  · exact lt_min hcount (Nat.sub_pos_of_lt hoffset)
  · exact hcount

/-- A read inside the file returns nothing only for an answer without bytes, exactly when its
first request has a credit. -/
theorem endOfFile_iff {c : ReadCall} (hcount : 0 < c.count) (hoffset : c.offset < c.file.length)
    {dst : Nat -> UInt8} {events : List PipeEvent} {s : Pipe}
    (hrun : runPipe c (startRead c dst) events = some s) (hreturned : s.phase = .returned) :
    (s.result = 0 -> ServerEnds events) ↔ StartsWithCredit c events := by
  have htarget := targetCount_pos hcount hoffset
  constructor
  · intro hends
    by_contra hcredit
    rcases run_without_credit hcount htarget hcredit hrun with ⟨hresult, hnot⟩
    exact hnot (hends hresult)
  · intro hcredit hresult
    rcases going_run htarget (going_start hcount hcredit dst) hrun ⟨hreturned, hresult⟩ with h | h
    · exact h.elim
    · exact h

/-- A read of three bytes on a newer dialect. -/
def creditCall : ReadCall where
  file := [7, 8, 9]
  fits := by decide
  count := 3
  offset := 0
  maxReadSize := 0
  dialect := 0x0311
  connected := true

def answeredRun : List PipeEvent :=
  [.advance, .issue 1 0, .advance, .service [.data ⟨0, 0, 3, 0⟩ 0] true, .advance, .advance,
    .advance, .advance]

theorem endOfFile_answered :
    exists s, runPipe creditCall (startRead creditCall (fun _ => 0)) answeredRun = some s ∧
      s.phase = .returned ∧ s.result = 0 ∧ ServerEnds answeredRun := by
  have hsome : (runPipe creditCall (startRead creditCall (fun _ => 0)) answeredRun).isSome := rfl
  rcases Option.isSome_iff_exists.mp hsome with ⟨s, hrun⟩
  have hphase : s.phase = .returned :=
    Option.some.inj ((congrArg (Option.map Pipe.phase) hrun).symm.trans rfl)
  have hresult : s.result = 0 :=
    Option.some.inj ((congrArg (Option.map Pipe.result) hrun).symm.trans rfl)
  refine ⟨s, hrun, hphase, hresult, ?_⟩
  have hcredit : StartsWithCredit creditCall answeredRun := by
    intro available hfirst _
    cases hfirst
    decide
  exact (endOfFile_iff (by decide) (by decide) hrun hphase).mpr hcredit hresult

theorem endOfFile_without_credit :
    exists s, runPipe creditCall (startRead creditCall (fun _ => 0)) [.advance, .issue 0 0] =
      some s ∧ s.phase = .returned ∧ s.result = 0 ∧ ¬ServerEnds [.advance, .issue 0 0] := by
  refine ⟨_, rfl, rfl, rfl, ?_⟩
  rintro ⟨e, hmem, _, _, _, heq, _⟩
  rcases List.mem_pair.mp hmem with rfl | rfl
  · cases heq
  · cases heq

end Smb
end PkgManager
