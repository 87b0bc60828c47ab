import PkgManager.DirectUpload.Session

/-!
# What was uploaded is the file

Every byte that is stored in the session is the byte of the file at its position, and
every segment that the browser counts was stored.
-/

namespace PkgManager
namespace DirectUpload

open Live
open Sender
open Transition
open WriteLog

/-!
# What is on the way
-/

/-- A message that is neither an address nor a binary message. -/
def ToServer.isPlain : ToServer -> Bool
  | .finish => true
  | .ping => true
  | .stats => true
  | _ => false

/-- Every binary message follows the address of the segment whose bytes it has. -/
inductive Paired (file : UploadFile) : Option Nat -> List ToServer -> Prop where
  | nil : Paired file none []
  | plain {m : ToServer} {rest : List ToServer} (hm : m.isPlain = true)
      (h : Paired file none rest) : Paired file none (m :: rest)
  | seg {segment : Nat} {rest : List ToServer} (hsegment : segment < segmentCount file.size)
      (h : Paired file (some segment) rest) : Paired file none (ToServer.seg segment :: rest)
  | chunk {segment : Nat} {rest : List ToServer} (hsegment : segment < segmentCount file.size)
      (h : Paired file none rest) : Paired file (some segment) (file.slice segment :: rest)

theorem paired_append {file : UploadFile} {pending : Option Nat} {l l' : List ToServer}
    (h : Paired file pending l) (h' : Paired file none l') : Paired file pending (l ++ l') := by
  induction h with
  | nil => exact h'
  | plain hm _ ih => exact Paired.plain hm ih
  | seg hsegment _ ih => exact Paired.seg hsegment ih
  | chunk hsegment _ ih => exact Paired.chunk hsegment ih

theorem paired_plain {file : UploadFile} {m : ToServer} (hm : m.isPlain = true) :
    Paired file none [m] :=
  Paired.plain hm Paired.nil

/-- The session has stored the segment. -/
structure Arrived (file : UploadFile) (lv : LiveState) (segment : Nat) : Prop where
  inFile : segment < segmentCount file.size
  acked : lv.ackedEver segment = true

/-- What the session has acknowledged it keeps, and it stays aborted. -/
structure Onward (lv lv' : LiveState) : Prop where
  still : StillAcked lv lv'
  aborted : lv.aborted = true -> lv'.aborted = true

theorem onward_of_same {lv lv' : LiveState} (h : SameContent lv lv') : Onward lv lv' where
  still := fun _ hacked => h.ackedEver ▸ hacked
  aborted := h.aborted

theorem onward_refl (lv : LiveState) : Onward lv lv where
  still := fun _ hacked => hacked
  aborted := fun habort => habort

/-- What the worker may say of the session. -/
def Truthful (file : UploadFile) (lv : LiveState) : ToBrowser -> Prop
  | .ack segment => Arrived file lv segment
  | .complete => forall segment, segment < segmentCount file.size -> Arrived file lv segment
  | .error => lv.aborted = true
  | _ => True

section Onward

variable {file : UploadFile} {lv lv' : LiveState}

theorem arrived_onward (h : Onward lv lv') {segment : Nat} (harrived : Arrived file lv segment) :
    Arrived file lv' segment :=
  ⟨harrived.inFile, h.still segment harrived.acked⟩

theorem truthful_onward (h : Onward lv lv') {message : ToBrowser}
    (htrue : Truthful file lv message) : Truthful file lv' message := by
  cases message with
  | ack segment => exact arrived_onward h htrue
  | complete => exact fun segment hlt => arrived_onward h (htrue segment hlt)
  | error => exact h.aborted htrue
  | _ => exact trivial

end Onward

structure Faithful (file : UploadFile) (options : SenderOptions) (w : UploadWorld) : Prop where
  opened : Opened file w.live
  proper : Proper options w.browser.world.sender
  counted : forall segment, segment ∈ w.browser.world.sender.acknowledged ->
    Arrived file w.live.shared.lv segment
  told : forall message, message ∈ w.toBrowser -> Truthful file w.live.shared.lv message
  paired : Paired file w.connection.pendingSeg w.toServer
  connected : w.connection.closed = false
  whole : ToServer.finish ∈ w.toServer ->
    forall segment, segment < segmentCount file.size -> Arrived file w.live.shared.lv segment

section Upload

variable {file : UploadFile} {options : SenderOptions} {w u : UploadWorld}

/-- The sender takes an event; only an answer of the server changes what it counts. -/
theorem faithful_takes (h : Faithful file options w) {event : SenderEvent}
    (hack : forall answers segment, event = .ack answers segment ->
      Arrived file w.live.shared.lv segment)
    (hnext : w.takes options event = some u) : Faithful file options u := by
  rcases Option.map_eq_some_iff.mp hnext with ⟨browser, htakes, rfl⟩
  rcases Option.map_eq_some_iff.mp htakes with ⟨world, hworld, rfl⟩
  exact
    { h with
      proper := proper_next h.proper hworld
      counted := by
        intro segment hin
        rcases acknowledged_next hworld hin with hold | ⟨answers, hevent⟩
        · exact h.counted segment hold
        · exact hack answers segment hevent }

theorem takes_toServer {event : SenderEvent} (hnext : w.takes options event = some u) :
    u.toServer = w.toServer ∧ u.connection = w.connection ∧ u.live = w.live ∧
      u.toBrowser = w.toBrowser := by
  rcases Option.map_eq_some_iff.mp hnext with ⟨browser, _, rfl⟩
  exact ⟨rfl, rfl, rfl, rfl⟩

theorem faithful_readEnds (hoptions : options.totalSegments = segmentCount file.size)
    (h : Faithful file options w) (hnext : w.readEnds file options = some u) :
    Faithful file options u := by
  rcases Option.map_eq_some_iff.mp hnext with ⟨v, hv, rfl⟩
  have hafter := faithful_takes h (fun _ _ hevent => by cases hevent) hv
  rcases takes_toServer hv with ⟨hserver, hconnection, hlive, _⟩
  have hsent : Paired file none (file.sendSegment
      (w.browser.world.sends options (.readEnds w.browser.answers .sent))) := by
    cases hsends : w.browser.world.sends options (.readEnds w.browser.answers .sent) with
    | none => exact Paired.nil
    | some out =>
        obtain ⟨segment, read⟩ := out
        have hof := h.proper.awaiting segment read (sends_awaited hsends).1
        have hlt : segment < segmentCount file.size := hoptions ▸ hof.inFile
        unfold UploadFile.sendSegment
        dsimp only
        rw [hof.segment]
        exact Paired.seg hlt (Paired.chunk hlt Paired.nil)
  exact
    { hafter with
      paired := paired_append hafter.paired hsent
      whole := by
        intro hfinish
        rcases List.mem_append.mp hfinish with hold | hnew
        · exact hafter.whole hold
        · cases hsends : w.browser.world.sends options (.readEnds w.browser.answers .sent) with
          | none =>
              rw [hsends] at hnew
              cases hnew
          | some out =>
              rw [hsends] at hnew
              simp [UploadFile.sendSegment, UploadFile.slice] at hnew }

theorem faithful_readFails (h : Faithful file options w) (hnext : w.readFails options = some u) :
    Faithful file options u := by
  rcases Option.map_eq_some_iff.mp hnext with ⟨v, hv, rfl⟩
  exact { faithful_takes h (fun _ _ hevent => by cases hevent) hv with }

/-- As many different segments as there are in the file are all of them. -/
theorem all_counted {s : OrderedSet Nat} {n : Nat} (hin : forall x, x ∈ s -> x < n)
    (hsize : n ≤ s.size) {segment : Nat} (hlt : segment < n) : segment ∈ s := by
  have hsub : s.elements.Subperm (List.range n) :=
    List.subperm_of_subset s.nodup (fun x hx => List.mem_range.mpr (hin x hx))
  have hperm := hsub.perm_of_length_le (by rw [List.length_range]; exact hsize)
  exact hperm.mem_iff.mpr (List.mem_range.mpr hlt)

theorem faithful_installed (h : Faithful file options w) :
    Faithful file options (w.installed file) := by
  unfold UploadWorld.installed
  split
  · exact h
  · split
    · exact { h with }
    · rename_i hsize
      have hall : forall segment, segment < segmentCount file.size ->
          Arrived file w.live.shared.lv segment := fun segment hlt =>
        h.counted segment (all_counted (fun x hx => (h.counted x hx).inFile)
          (Nat.le_of_not_lt hsize) hlt)
      exact
        { h with
          paired := paired_append h.paired (paired_plain rfl)
          whole := fun _ => hall }

theorem faithful_receive (h : Faithful file options w) (hnext : w.receive options = some u) :
    Faithful file options u := by
  unfold UploadWorld.receive at hnext
  split at hnext
  · cases hnext
  · rename_i message rest hmessages
    rcases Option.map_eq_some_iff.mp hnext with ⟨browser, hbrowser, rfl⟩
    have hrest : Faithful file options { w with toBrowser := rest } :=
      { h with
        told := fun other hin =>
          h.told other (hmessages ▸ List.mem_cons_of_mem message hin) }
    have htakes : forall event, (forall answers segment, event ≠ .ack answers segment) ->
        w.browser.takes options event = some browser ->
          Faithful file options { w with browser := browser, toBrowser := rest } := by
      intro event hevent hnow
      exact faithful_takes hrest (fun answers segment heq => absurd heq (hevent _ _))
        (Option.map_eq_some_iff.mpr ⟨browser, hnow, rfl⟩)
    unfold Browser.onmessage at hbrowser
    split at hbrowser
    · cases hbrowser
      exact hrest
    · cases message with
      | ack segment =>
          have harrived : Arrived file w.live.shared.lv segment :=
            h.told (ToBrowser.ack segment) (hmessages ▸ List.mem_cons_self)
          have hadded : Faithful file options
              { w with browser := w.browser.adds segment, toBrowser := rest } :=
            { hrest with
              proper := { h.proper with }
              counted := by
                intro other hin
                rcases OrderedSet.mem_add.mp hin with heq | hold
                · rw [heq]
                  exact harrived
                · exact h.counted other hold }
          have hsent : forall answers other,
              SenderEvent.ack w.browser.answers segment = .ack answers other ->
                Arrived file w.live.shared.lv other := by
            intro answers other heq
            cases heq
            exact harrived
          exact faithful_takes hadded hsent (Option.map_eq_some_iff.mpr ⟨browser, hbrowser, rfl⟩)
      | busy segment => exact htakes _ (fun _ _ hevent => by cases hevent) hbrowser
      | seek segment => exact htakes _ (fun _ _ hevent => by cases hevent) hbrowser
      | pong =>
          cases hbrowser
          exact hrest
      | complete =>
          cases hbrowser
          exact { hrest with }
      | error =>
          cases hbrowser
          exact { hrest with }

/-- The session of the upload has changed, and it keeps what it has acknowledged. -/
theorem faithful_live (h : Faithful file options w) {live : Pool LiveWorld LivePoint}
    (hopened : Opened file live) (honward : Onward w.live.shared.lv live.shared.lv) :
    Faithful file options { w with live := live } :=
  { h with
    opened := hopened
    counted := fun segment hin => arrived_onward honward (h.counted segment hin)
    told := fun message hin => truthful_onward honward (h.told message hin)
    whole := fun hfinish segment hlt => arrived_onward honward (h.whole hfinish segment hlt) }

/-!
# The worker serves a message
-/

/-- What the worker has done with the first message on the way. -/
structure Served (file : UploadFile) (p : Pool LiveWorld LivePoint) (rest : List ToServer)
    (h : Handled) : Prop where
  opened : forall accepted, Opened file
    { shared := { lv := h.lv, accepted := accepted }, threads := p.threads }
  onward : Onward p.shared.lv h.lv
  told : forall message, h.answer = some message -> Truthful file h.lv message
  paired : Paired file h.connection.pendingSeg rest
  connected : h.connection.closed = false

theorem opened_log {p : Pool LiveWorld LivePoint} (h : Opened file p)
    (accepted : List (Write UInt8)) :
    Opened file { shared := { lv := p.shared.lv, accepted := accepted }, threads := p.threads } :=
  { h with
    pool := ⟨h.pool.shared, h.pool.threads⟩ }

theorem served_unchanged {p : Pool LiveWorld LivePoint} (h : Opened file p) {c : Connection}
    {rest : List ToServer} (hpaired : Paired file c.pendingSeg rest) (hopen : c.closed = false)
    {answer : Option ToBrowser}
    (hanswer : forall message, answer = some message -> Truthful file p.shared.lv message) :
    Served file p rest (unchanged c p.shared.lv answer) where
  opened := opened_log h
  onward := onward_refl p.shared.lv
  told := hanswer
  paired := hpaired
  connected := hopen

/-- When everything has arrived, only an aborted session refuses to finish. -/
theorem truthful_finish {p : Pool LiveWorld LivePoint} (h : Opened file p)
    (hall : forall segment, segment < segmentCount file.size ->
      Arrived file p.shared.lv segment) :
    Truthful file (wsLiveFinish p.shared.lv).1
      (if (wsLiveFinish p.shared.lv).2 = 0 then .complete else .error) := by
  have honward := onward_of_same (sameContent_finish p.shared.lv)
  split
  · exact fun segment hlt => arrived_onward honward (hall segment hlt)
  · rename_i hrefused
    have hcount : (List.range p.shared.lv.nsegs).countP p.shared.lv.ackedEver =
        p.shared.lv.nsegs :=
      countP_range_eq.mpr (fun segment hlt => (hall segment (h.nsegs ▸ hlt)).acked)
    refine honward.aborted ?_
    cases habort : p.shared.lv.aborted with
    | true => rfl
    | false =>
        refine absurd ?_ hrefused
        unfold wsLiveFinish
        rw [if_neg (by simp [h.active, habort, hcount])]

theorem served_finish {p : Pool LiveWorld LivePoint} (h : Opened file p) {c : Connection}
    (hall : forall segment, segment < segmentCount file.size ->
      Arrived file p.shared.lv segment)
    {rest : List ToServer} (hpaired : Paired file c.pendingSeg rest) (hopen : c.closed = false) :
    Served file p rest (handle file.sid p.shared.lv c ToServer.finish) := by
  unfold handle
  dsimp only
  rw [if_pos h.checkId]
  exact
    { opened := opened_finish h
      onward := onward_of_same (sameContent_finish p.shared.lv)
      told := by
        intro message heq
        rw [← Option.some.inj heq]
        exact truthful_finish h hall
      paired := hpaired
      connected := hopen }

/-- The bytes of a segment of the file. -/
def UploadFile.segBytes (file : UploadFile) (segment : Nat) : Nat -> UInt8 :=
  fun i => file.bytes (segSize * segment + i)

theorem sliceMessage_eq {p : Pool LiveWorld LivePoint} (h : Opened file p) {seg : Nat}
    (hseg : seg < segmentCount file.size) :
    ({ offset := u64 (seg * segSize)
       len := min ((seg + 1) * segSize) file.size - seg * segSize
       data := file.segBytes seg } : Message) =
      segMessage p.shared.lv seg (file.segBytes seg) := by
  have hlt : seg < p.shared.lv.nsegs := h.nsegs ▸ hseg
  have hsmall := mul_segSize_lt_u64 h.consistent hlt
  unfold segMessage
  rw [slice_len h hseg, Nat.mul_comm seg segSize, u64_of_lt hsmall]

theorem fromFile_segMessage {p : Pool LiveWorld LivePoint} (h : Opened file p) (seg len : Nat) :
    FromFile file
      ({ start := segSize * seg, len := len, data := file.segBytes seg } ::
        p.shared.lv.stored) := by
  intro x hx position hcovers
  rcases List.mem_cons.mp hx with heq | hold
  · rw [heq] at hcovers ⊢
    have hle : segSize * seg ≤ position := hcovers.1
    change file.bytes (segSize * seg + (position - segSize * seg)) = file.bytes position
    rw [Nat.add_sub_cancel' hle]
  · exact h.stored x hold position hcovers

/-- The worker does not refuse a segment of the file. -/
theorem applyChunk_slice {p : Pool LiveWorld LivePoint} (h : Opened file p) {seg : Nat}
    (hseg : seg < segmentCount file.size) :
    applyChunk file.sid p.shared.lv seg (min ((seg + 1) * segSize) file.size - seg * segSize)
        (file.segBytes seg) =
      storeChunk p.shared.lv seg (segMessage p.shared.lv seg (file.segBytes seg)) := by
  have hactive : wsLiveSessionActive p.shared.lv = true := h.active
  unfold applyChunk
  rw [if_neg (by
    simp only [h.checkId, hactive, h.liveSegs, expectedLen_eq h hseg, slice_len h hseg]
    simpa using hseg), sliceMessage_eq h hseg]

theorem served_chunk {p : Pool LiveWorld LivePoint} (h : Opened file p) {seg : Nat}
    (hseg : seg < segmentCount file.size) {rest : List ToServer}
    (hpaired : Paired file none rest) :
    Served file p rest
      (applyChunk file.sid p.shared.lv seg (min ((seg + 1) * segSize) file.size - seg * segSize)
        (file.segBytes seg)) := by
  have hlt : seg < p.shared.lv.nsegs := h.nsegs ▸ hseg
  rw [applyChunk_slice h hseg]
  unfold storeChunk
  dsimp only
  cases habort : p.shared.lv.aborted with
  | true =>
      have hfails : wsLiveTryWrite p.shared.lv (segMessage p.shared.lv seg (file.segBytes seg)) =
          (p.shared.lv, -1) := by
        unfold wsLiveTryWrite
        rw [if_pos (by simp [habort])]
      rw [hfails, if_neg (show ¬ (-1 : Int) = 0 by decide),
        if_neg (show ¬ (-1 : Int) = -2 by decide)]
      refine served_unchanged h hpaired rfl (fun message heq => ?_)
      rw [← Option.some.inj heq]
      exact habort
  | false =>
      have hsame : SameSession p.shared.lv
          (wsLiveTryWrite p.shared.lv (segMessage p.shared.lv seg (file.segBytes seg))).1 :=
        sameSession_tryWrite rfl
      rcases tryWrite_segMessage h.consistent h.active habort hlt (file.segBytes seg) with
        ⟨hbusy, hacked, hstored⟩ | ⟨hdone, hacked, hstored⟩
      · rw [hbusy, if_neg (by decide), if_pos rfl]
        exact
          { opened := opened_tryWrite h (hstored ▸ h.stored)
            onward := ⟨fun segment hold => hacked ▸ hold, fun hstop => hsame.aborted.trans hstop⟩
            told := by
              intro message heq
              rw [← Option.some.inj heq]
              exact trivial
            paired := hpaired
            connected := rfl }
      · rw [hdone, if_pos rfl]
        have hstill : StillAcked p.shared.lv
            (wsLiveTryWrite p.shared.lv (segMessage p.shared.lv seg (file.segBytes seg))).1 := by
          intro segment hold
          rw [hacked, Function.update_apply]
          split
          · rfl
          · exact hold
        exact
          { opened := opened_tryWrite h (hstored ▸ fromFile_segMessage h seg _)
            onward := ⟨hstill, fun hstop => hsame.aborted.trans hstop⟩
            told := by
              intro message heq
              rw [← Option.some.inj heq]
              exact ⟨hseg, by rw [hacked, Function.update_self]⟩
            paired := hpaired
            connected := rfl }

theorem served_handle (h : Faithful file options w) {message : ToServer} {rest : List ToServer}
    (hmessages : w.toServer = message :: rest) :
    Served file w.live rest (handle file.sid w.live.shared.lv w.connection message) := by
  have hpaired := h.paired
  have hopen := h.connected
  rw [hmessages] at hpaired
  generalize w.connection = c at hpaired hopen ⊢
  obtain ⟨pending, closed⟩ := c
  cases hpaired with
  | plain hm hrest =>
      cases message with
      | finish =>
          have hall := h.whole (hmessages ▸ List.mem_cons_self)
          exact served_finish h.opened hall hrest hopen
      | ping =>
          refine served_unchanged h.opened hrest hopen (fun message heq => ?_)
          rw [← Option.some.inj heq]
          exact trivial
      | stats => exact served_unchanged h.opened hrest hopen (fun _ heq => by cases heq)
      | seg segment => cases hm
      | chunk len data => cases hm
  | @seg segment _ hsegment hrest =>
      have hsmall : segment ≤ 0x7fffffff := by
        have hle := nsegs_le h.opened.consistent
        rw [h.opened.nsegs] at hle
        omega
      unfold handle
      dsimp only
      rw [if_pos h.opened.checkId, if_pos hsmall]
      exact served_unchanged (c := ⟨some segment, closed⟩) h.opened hrest hopen
        (fun _ heq => by cases heq)
  | chunk hsegment hrest => exact served_chunk h.opened hsegment hrest

theorem faithful_serve (h : Faithful file options w) (hnext : w.serve file = some u) :
    Faithful file options u := by
  unfold UploadWorld.serve at hnext
  rw [if_neg (by simp [h.connected])] at hnext
  split at hnext
  · cases hnext
  · rename_i message rest hmessages
    cases hnext
    have hserved := served_handle h hmessages
    generalize handle file.sid w.live.shared.lv w.connection message = handled at hserved ⊢
    exact
      { opened := hserved.opened _
        proper := h.proper
        counted := fun segment hin => arrived_onward hserved.onward (h.counted segment hin)
        told := by
          intro other hin
          rcases List.mem_append.mp hin with hold | hnew
          · exact truthful_onward hserved.onward (h.told other hold)
          · exact hserved.told other (Option.mem_toList.mp hnew)
        paired := hserved.paired
        connected := hserved.connected
        whole := fun hfinish segment hlt => arrived_onward hserved.onward
          (h.whole (hmessages ▸ List.mem_cons_of_mem message hfinish) segment hlt) }

/-!
# Every step
-/

theorem faithful_append (h : Faithful file options w) {m : ToServer} (hm : m.isPlain = true)
    (hfinish : m ≠ ToServer.finish) :
    Faithful file options { w with toServer := w.toServer ++ [m] } :=
  { h with
    paired := paired_append h.paired (paired_plain hm)
    whole := by
      intro hin
      rcases List.mem_append.mp hin with hold | hnew
      · exact h.whole hold
      · exact absurd (List.mem_singleton.mp hnew).symm hfinish }

theorem faithful_next (hoptions : options.totalSegments = segmentCount file.size)
    (h : Faithful file options w) {event : UploadEvent} (hok : OneUploader w event)
    (hnext : w.next file options event = some u) : Faithful file options u := by
  cases event with
  | pump => exact faithful_takes h (fun _ _ hevent => by cases hevent) hnext
  | retryTimer segment => exact faithful_takes h (fun _ _ hevent => by cases hevent) hnext
  | readEnds => exact faithful_readEnds hoptions h hnext
  | readFails => exact faithful_readFails h hnext
  | hasPending => exact faithful_takes h (fun _ _ hevent => by cases hevent) hnext
  | stats =>
      cases hnext
      exact faithful_append h rfl (fun heq => by cases heq)
  | ping =>
      cases hnext
      exact faithful_append h rfl (fun heq => by cases heq)
  | installed =>
      cases hnext
      exact faithful_installed h
  | fails =>
      cases hnext
      exact { h with }
  | cancel =>
      cases hnext
      exact { h with }
  | stop =>
      change (if w.browser.done then w.takes options .stop else none) = some u at hnext
      split at hnext
      · exact faithful_takes h (fun _ _ hevent => by cases hevent) hnext
      · cases hnext
  | receive => exact faithful_receive h hnext
  | serve => exact faithful_serve h hnext
  | seek segment =>
      cases hnext
      exact
        { h with
          told := by
            intro message hin
            rcases List.mem_append.mp hin with hold | hnew
            · exact h.told message hold
            · rw [List.mem_singleton.mp hnew]
              exact trivial }
  | session l =>
      rcases Option.map_eq_some_iff.mp hnext with ⟨live, hlive, rfl⟩
      have hopened := opened_session h.opened hok hlive
      exact faithful_live h hopened.1 (onward_of_same hopened.2)

theorem faithful_run (hoptions : options.totalSegments = segmentCount file.size)
    {tr : List (UploadWorld × UploadEvent)}
    (hrun : Run (uploadSystem file options) OneUploader w tr u)
    (h : Faithful file options w) : Faithful file options u :=
  run_invariant (fun hinv hok hnext => faithful_next hoptions hinv hok hnext) hrun h

/-!
# The beginning
-/

/-- The session is open for the file, and {lit}`offset` is not beyond its resume point.  A
session that goes on may have bytes of the file already. -/
structure Resumed (file : UploadFile) (offset : Nat) (p : Pool LiveWorld LivePoint) : Prop where
  reached : exists p0 tr, Idle p0 ∧ Run liveProgram.system OneSession p0 tr p
  quiet : forall x, x ∈ p.threads -> QuietPoint x
  active : p.shared.lv.active = true
  named : file.sid ≠ ""
  sized : 0 < file.size
  session : p.shared.lv.sessionId = file.sid
  total : p.shared.lv.total = file.size
  stored : FromFile file p.shared.lv.stored
  resume : offset ≤ wsLiveGetResumeOffset p.shared.lv

theorem boundedCalls_of_oneSession (p : Pool LiveWorld LivePoint)
    (l : Move LiveCall LiveAnswer) (h : OneSession p l) : BoundedCalls p l := by
  cases l with
  | run t a => exact trivial
  | call c =>
      cases c with
      | create env filename totalSize ringMb => exact h
      | _ => exact Nat.zero_le _

section Beginning

variable {offset : Nat} {p : Pool LiveWorld LivePoint}

theorem opened_of_resumed (h : Resumed file offset p) : Opened file p := by
  rcases h.reached with ⟨p0, tr, hidle, hrun⟩
  have hpoints : forall x, x ∈ p0.threads -> BoundedPoint x := by
    intro x hx
    rw [hidle.2] at hx
    cases hx
  have hacks := session_run sessionAcks_move boundedCalls_of_oneSession hrun
    (sessionAcks_of_idle hidle) hpoints
  exact
    { pool := goodPool_run hidle hrun
      acks := hacks.shared
      quiet := h.quiet
      active := h.active
      named := h.named
      sized := h.sized
      session := h.session
      total := h.total
      stored := h.stored }

/-- The segments below the resume point have arrived. -/
theorem arrived_of_resumed (h : Resumed file offset p) {segment : Nat}
    (hlt : segment < baselineSeg offset) : Arrived file p.shared.lv segment := by
  have hopened := opened_of_resumed h
  have hlongest := (resumeOffset_longest hopened.acks h.active).1
  have hresume := h.resume
  rw [resumeOffset_eq hopened.consistent hlongest.le] at hresume
  have hwithin : offset ≤ segSize * resumeSegs p.shared.lv :=
    Nat.le_trans hresume (Nat.min_le_left _ _)
  have hbefore : segment < resumeSegs p.shared.lv := by
    refine Nat.lt_of_lt_of_le hlt ?_
    unfold baselineSeg
    rw [Nat.div_le_iff_le_mul_add_pred (by decide)]
    omega
  refine ⟨?_, ((hopened.acks h.active).2.2 segment).mpr (hlongest.accepted segment hbefore)⟩
  rw [← hopened.nsegs]
  exact Nat.lt_of_lt_of_le hbefore hlongest.le

theorem faithful_ready (h : Resumed file offset p) :
    Faithful file (uploadOptions file offset p.shared.lv)
      (ready (uploadOptions file offset p.shared.lv) offset p) where
  opened := opened_of_resumed h
  proper := proper_create _ _
  counted := by
    intro segment hin
    rcases OrderedSet.mem_addAll hin with hbelow | hempty
    · exact arrived_of_resumed h (List.mem_range.mp hbelow)
    · cases hempty
  told := fun _ hin => by cases hin
  paired := Paired.nil
  connected := rfl
  whole := fun hin => by cases hin

theorem faithful_upload (h : Resumed file offset p) {tr : List (UploadWorld × UploadEvent)}
    (hrun : Run (uploadSystem file (uploadOptions file offset p.shared.lv)) OneUploader
      (ready (uploadOptions file offset p.shared.lv) offset p) tr w) :
    Faithful file (uploadOptions file offset p.shared.lv) w :=
  faithful_run rfl hrun (faithful_ready h)

/-!
# The results
-/

/-- The session holds the bytes that the file has in the segment. -/
def Holds (file : UploadFile) (lv : LiveState) (segment : Nat) : Prop :=
  forall position, position < file.size -> segSize * segment ≤ position ->
    position < segSize * (segment + 1) -> latest lv.stored position = some (file.bytes position)

theorem holds_of_arrived {q : Pool LiveWorld LivePoint} (h : Opened file q) {segment : Nat}
    (harrived : Arrived file q.shared.lv segment) : Holds file q.shared.lv segment := by
  intro position hsize hlow hhigh
  rcases ((h.acks h.active).2.2 segment).mp harrived.acked with ⟨x, hmem, hstart, hlen⟩
  have hlt : segment < q.shared.lv.nsegs := by
    rw [h.nsegs]
    exact harrived.inFile
  have hcovers : x.Covers position := by
    rw [segLenLocked_resident h.consistent hlt, h.total] at hlen
    rw [Nat.mul_succ] at hhigh
    refine ⟨by omega, ?_⟩
    omega
  rcases latest_of_covers hmem hcovers with ⟨b, hlatest⟩
  rw [hlatest, latest_fromFile h.stored hlatest]

end Beginning

end Upload

/-!
# A concrete upload
-/

instance (x : LivePoint) : Decidable (QuietPoint x) := by
  unfold QuietPoint
  split <;> infer_instance

def smallFile : UploadFile where
  size := segSize + 5
  bytes := fun i => UInt8.ofNat (i + 7)
  sid := "feed"

def openSmall : List (Move LiveCall LiveAnswer) :=
  [Move.call (LiveCall.create { sessionId := "feed" } "game.pkg" (segSize + 5) 4),
    Move.run 0 {}]

def smallPool : Pool LiveWorld LivePoint :=
  (execWhile liveProgram.system OneSession emptyPool openSmall).getD emptyPool

theorem resumed_smallPool : Resumed smallFile 0 smallPool where
  reached := by
    have hsome : (execWhile liveProgram.system OneSession emptyPool openSmall).isSome = true := by
      decide
    rcases Option.isSome_iff_exists.mp hsome with ⟨p, hexec⟩
    rcases run_of_execWhile hexec with ⟨tr, _, hrun⟩
    have hpool : smallPool = p := by
      unfold smallPool
      rw [hexec]
      rfl
    rw [hpool]
    exact ⟨emptyPool, tr, ⟨rfl, rfl⟩, hrun⟩
  quiet := by decide
  active := by decide
  named := by decide
  sized := by decide
  session := by decide
  total := by decide
  stored := by
    have hnothing : smallPool.shared.lv.stored = [] := rfl
    intro x hx
    rw [hnothing] at hx
    cases hx
  resume := Nat.zero_le _

def smallReady : UploadWorld :=
  ready (uploadOptions smallFile 0 smallPool.shared.lv) 0 smallPool

def smallUpload : System UploadWorld UploadEvent :=
  uploadSystem smallFile (uploadOptions smallFile 0 smallPool.shared.lv)

/-- Both segments arrive and are counted; then a read of the last one begins. -/
def sendBoth : List UploadEvent :=
  [.seek 1, .receive, .pump, .readEnds, .readEnds, .serve, .serve, .serve, .serve, .receive,
    .receive, .session (Move.call (LiveCall.read segSize 9 (fun _ => 0)))]

end DirectUpload
end PkgManager
