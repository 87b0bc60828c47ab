import PkgManager.DirectUpload.Protocol
import PkgManager.Live.Provenance

/-!
# The session of an upload

The other threads of the console neither write to the session nor tear it down, and a
segment of the file is stored whole or refused for want of a slot.
-/

namespace PkgManager
namespace DirectUpload

open Live
open Sender
open Transition
open WriteLog

/-!
# The session of the upload
-/

/-- The log holds bytes of the file only. -/
def FromFile (file : UploadFile) (log : List (Write UInt8)) : Prop :=
  forall w, w ∈ log -> forall p, w.Covers p -> w.data (p - w.start) = file.bytes p

theorem latest_fromFile {file : UploadFile} {log : List (Write UInt8)} (h : FromFile file log)
    {p : Nat} {b : UInt8} (hlatest : latest log p = some b) : b = file.bytes p := by
  induction log with
  | nil => cases hlatest
  | cons w log ih =>
      rw [latest] at hlatest
      split at hlatest
      · rename_i hcovers
        cases hlatest
        exact h w List.mem_cons_self p hcovers
      · exact ih (fun w' hw' => h w' (List.mem_cons_of_mem w hw')) hlatest

/-- The session of the upload, and no other thread that writes to it. -/
structure Opened (file : UploadFile) (p : Pool LiveWorld LivePoint) : Prop where
  pool : GoodPool p
  acks : SessionAcks p.shared.lv
  quiet : forall x, x ∈ p.threads -> QuietPoint x
  active : p.shared.lv.active = true
  named : file.sid ≠ ""
  sized : 0 < file.size
  session : p.shared.lv.sessionId = file.sid
  total : p.shared.lv.total = file.size
  stored : FromFile file p.shared.lv.stored

section Session

variable {file : UploadFile} {p q : Pool LiveWorld LivePoint}

theorem Opened.consistent (h : Opened file p) : Consistent p.shared.lv :=
  (h.acks h.active).1.consistent

theorem Opened.checkId (h : Opened file p) : wsLiveCheckId p.shared.lv file.sid = true := by
  unfold wsLiveCheckId
  rw [h.active, h.session]
  simp [h.named]

theorem Opened.getTotal (h : Opened file p) : wsLiveGetTotal p.shared.lv = file.size := by
  unfold wsLiveGetTotal
  rw [if_pos h.active, h.total]

/-- A section that neither writes nor tears the session down. -/
structure SameContent (lv lv' : LiveState) : Prop where
  stored : lv'.stored = lv.stored
  ackedEver : lv'.ackedEver = lv.ackedEver
  sessionId : lv'.sessionId = lv.sessionId
  total : lv'.total = lv.total
  nsegs : lv'.nsegs = lv.nsegs
  aborted : lv.aborted = true -> lv'.aborted = true

theorem sameContent_reader {lv lv' : LiveState} (h : ReaderMoved lv lv') : SameContent lv lv' := by
  rcases h with ⟨_, _, _, _, _, _, _, _, rfl⟩
  exact ⟨rfl, rfl, rfl, rfl, rfl, fun habort => habort⟩

theorem sameContent_attach (lv : LiveState) : SameContent lv (wsLiveAttach lv).1 := by
  unfold wsLiveAttach
  split <;> exact ⟨rfl, rfl, rfl, rfl, rfl, fun habort => habort⟩

theorem sameContent_finish (lv : LiveState) : SameContent lv (wsLiveFinish lv).1 := by
  unfold wsLiveFinish
  split <;> exact ⟨rfl, rfl, rfl, rfl, rfl, fun habort => habort⟩

theorem sameContent_abort (lv : LiveState) : SameContent lv (wsLiveAbort lv) := by
  unfold wsLiveAbort
  split
  · exact ⟨rfl, rfl, rfl, rfl, rfl, fun _ => rfl⟩
  · exact ⟨rfl, rfl, rfl, rfl, rfl, fun habort => habort⟩

theorem sameContent_detach {lv : LiveState} (hfree : lv.freePending = false) :
    SameContent lv (wsLiveDetach lv) := by
  unfold wsLiveDetach
  dsimp only
  split
  · rw [if_neg (by simp [hfree])]
    exact ⟨rfl, rfl, rfl, rfl, rfl, fun habort => habort⟩
  · rw [if_neg (by simp [hfree])]
    exact ⟨rfl, rfl, rfl, rfl, rfl, fun habort => habort⟩

theorem quietPoint_afterRead (w : LiveWorld) (off count : Nat) (res : LiveState × ReadEnd) :
    (afterRead w off count res).shared.lv = res.1 ∧
      QuietPoint (afterRead w off count res).point := by
  rcases res with ⟨lv, e⟩
  cases e <;> exact ⟨rfl, trivial⟩

theorem sameContent_section {t : Nat} {x : LivePoint} {a : LiveAnswer}
    {o : Section LiveWorld LivePoint} (h : Opened file p) (hx : QuietPoint x)
    (hstep : liveProgram.step p t x a = some o) :
    SameContent p.shared.lv o.shared.lv ∧ QuietPoint o.point := by
  have hread : forall off count res, ReaderMoved p.shared.lv res.1 ->
      SameContent p.shared.lv (afterRead p.shared off count res).shared.lv ∧
        QuietPoint (afterRead p.shared off count res).point := by
    intro off count res hmoved
    rcases quietPoint_afterRead p.shared off count res with ⟨hlv, hpoint⟩
    rw [hlv]
    exact ⟨sameContent_reader hmoved, hpoint⟩
  change liveStep p t x a = some o at hstep
  cases x with
  | enter c =>
      cases hstep
      cases c with
      | create env filename totalSize ringMb =>
          refine ⟨?_, trivial⟩
          change SameContent p.shared.lv (wsLiveCreate p.shared.lv env filename totalSize ringMb).1
          rw [wsLiveCreate_active h.active]
          exact sameContent_reader (readerMoved_refl _)
      | write m => exact absurd hx id
      | tryWrite m => exact absurd hx id
      | read off count buf => exact hread _ _ _ (readerMoved_wsLiveRead _ off count a.now buf)
      | finish => exact ⟨sameContent_finish _, trivial⟩
      | attach => exact ⟨sameContent_attach _, trivial⟩
      | detach => exact ⟨sameContent_detach (h.acks h.active).2.1, trivial⟩
      | abort => exact ⟨sameContent_abort _, trivial⟩
      | destroy => exact absurd hx id
  | writeBlocked m left seg => exact absurd hx id
  | readRescan off count rc =>
      cases hstep
      exact hread _ _ _ (readerMoved_readLoop _ rc a.now)
  | readSeeking off count rc needSeg =>
      cases hstep
      exact hread _ _ _ (readerMoved_readAfterSeek _ rc needSeg a.now)
  | readWaiting off count rc needSeg =>
      cases hstep
      exact hread _ _ _ (readerMoved_readAfterWait _ rc needSeg a.now a.expired)
  | readReturned off count n dst => cases hstep
  | returned c r => cases hstep

theorem oneSession_of_quiet {l : Move LiveCall LiveAnswer} {w : UploadWorld}
    (h : OneUploader w (UploadEvent.session l)) : OneSession p l := by
  cases l with
  | run t a => exact trivial
  | call c =>
      cases c with
      | destroy => exact absurd h id
      | create env filename totalSize ringMb => exact h
      | _ => exact trivial

theorem boundedPoint_of_good {w : LiveWorld} {x : LivePoint} (h : GoodPoint w x) :
    BoundedPoint x := by
  cases x with
  | enter c =>
      cases c with
      | create env filename totalSize ringMb => exact h.2 env filename totalSize ringMb rfl
      | _ => exact Nat.zero_le _
  | writeBlocked m left seg => exact h.2
  | _ => exact trivial

/-- The session is the same one after a step of another thread. -/
theorem opened_session {l : Move LiveCall LiveAnswer} {w : UploadWorld} (h : Opened file p)
    (hok : OneUploader w (UploadEvent.session l)) (hnext : liveProgram.system.next p l = some q) :
    Opened file q ∧ SameContent p.shared.lv q.shared.lv := by
  have hpool := goodPool_next h.pool (oneSession_of_quiet hok) hnext
  have hacks := sessionAcks_move _ _ h.acks
    (sessionMove_next (fun x hx => boundedPoint_of_good (h.pool.threads x hx)) hnext)
  have hopened : SameContent p.shared.lv q.shared.lv -> q.shared.lv.active = true ->
      (forall x, x ∈ q.threads -> QuietPoint x) -> Opened file q := by
    intro hsame hactive hquiet
    exact
      { pool := hpool
        acks := hacks
        quiet := hquiet
        active := hactive
        named := h.named
        sized := h.sized
        session := hsame.sessionId.trans h.session
        total := hsame.total.trans h.total
        stored := by
          rw [hsame.stored]
          exact h.stored }
  cases l with
  | call c =>
      rw [next_call] at hnext
      cases hnext
      have hsame : SameContent p.shared.lv p.shared.lv := sameContent_reader (readerMoved_refl _)
      refine ⟨hopened hsame h.active (fun x hx => ?_), hsame⟩
      rcases mem_enter hx with hold | hnew
      · exact h.quiet x hold
      · rw [hnew]
        exact hok
  | run t a =>
      rcases next_run hnext with ⟨x, o, hx, hstep, hq⟩
      have hmem := List.mem_of_getElem? hx
      have hsection := sameContent_section h (h.quiet x hmem) hstep
      have hgood := goodStep_section h.pool.shared (h.pool.threads x hmem) hstep
      rw [hq] at hopened ⊢
      refine ⟨hopened hsection.1 (hgood.continues h.active).1 (fun y hy => ?_), hsection.1⟩
      rcases mem_after hy with hold | hpoint | hcreated
      · exact h.quiet y hold
      · rw [hpoint]
        exact hsection.2
      · rw [hgood.created] at hcreated
        cases hcreated

theorem Opened.nsegs (h : Opened file p) : p.shared.lv.nsegs = segmentCount file.size := by
  have hsized := h.sized
  have hpos : 1 ≤ (file.size + segSize - 1) / segSize :=
    (Nat.le_div_iff_mul_le (by decide)).mpr (by unfold segSize; omega)
  rw [h.consistent.nsegs_eq, h.total, segmentCount, Nat.max_eq_right hpos]

theorem Opened.liveSegs (h : Opened file p) :
    liveSegs p.shared.lv = segmentCount file.size := by
  have hle := h.consistent.total_le
  rw [h.total] at hle
  have hsmall : file.size + segSize - 1 < 2 ^ 64 := by
    unfold maxTotal at hle
    unfold segSize
    omega
  have hsized := h.sized
  unfold DirectUpload.liveSegs
  rw [h.getTotal, if_neg (by omega), u64_of_lt hsmall, ← h.nsegs, h.consistent.nsegs_eq, h.total]

/-!
# A segment that arrives
-/

theorem segMessage_stored {lv : LiveState} (hc : Consistent lv) {seg : Nat}
    (hseg : seg < lv.nsegs) (data : Nat -> UInt8) :
    ((storeSegLocked lv seg (segMessage lv seg data)).2 = -2 ∧
      (storeSegLocked lv seg (segMessage lv seg data)).1.ackedEver = lv.ackedEver ∧
      (storeSegLocked lv seg (segMessage lv seg data)).1.stored = lv.stored) ∨
    (0 ≤ (storeSegLocked lv seg (segMessage lv seg data)).2 ∧
      (storeSegLocked lv seg (segMessage lv seg data)).1.ackedEver =
        Function.update lv.ackedEver seg true ∧
      (storeSegLocked lv seg (segMessage lv seg data)).1.stored =
        { start := segSize * seg, len := segLenLocked lv seg, data := data } :: lv.stored) := by
  have hbounds := segMessage_bounds hc hseg
  have htotal := total_lt hc
  have hsmall := mul_segSize_lt_u64 hc hseg
  have hsum : u64 (segSize * seg + segLenLocked lv seg) = segSize * seg + segLenLocked lv seg :=
    u64_of_lt (by omega)
  have hlog := allocated_log (allocSlotLocked_cases hc hseg)
  have hcase := storeSegLocked_spec htotal hsmall (segMessage lv seg data)
  generalize storeSegLocked lv seg (segMessage lv seg data) = r at hcase ⊢
  cases hcase with
  | apart h =>
      have hle : min (u64 (segSize * seg + segLenLocked lv seg))
        (segSize * seg + segLenLocked lv seg) ≤ max (segSize * seg) (segSize * seg) := h
      rw [hsum] at hle
      omega
  | part h hpart => exact absurd ⟨Nat.le_refl _, Nat.le_of_eq hsum.symm⟩ hpart
  | busy h hall hbusy => exact Or.inl ⟨rfl, hlog⟩
  | stored h hall hslot =>
      refine Or.inr ⟨hslot, ?_, ?_⟩
      · change Function.update (allocSlotLocked lv seg).1.ackedEver seg true = _
        rw [hlog.1]
      · change _ :: (allocSlotLocked lv seg).1.stored = _
        rw [hlog.2, u64_of_lt hsmall]
        congr 2
        funext i
        change data (segSize * seg - segSize * seg + i) = data i
        rw [Nat.sub_self, Nat.zero_add]

/-- A whole segment is stored and acknowledged, or there is no slot for it. -/
theorem tryWrite_segMessage {lv : LiveState} (hc : Consistent lv) (hactive : lv.active = true)
    (habort : lv.aborted = false) {seg : Nat} (hseg : seg < lv.nsegs) (data : Nat -> UInt8) :
    ((wsLiveTryWrite lv (segMessage lv seg data)).2 = -2 ∧
      (wsLiveTryWrite lv (segMessage lv seg data)).1.ackedEver = lv.ackedEver ∧
      (wsLiveTryWrite lv (segMessage lv seg data)).1.stored = lv.stored) ∨
    ((wsLiveTryWrite lv (segMessage lv seg data)).2 = 0 ∧
      (wsLiveTryWrite lv (segMessage lv seg data)).1.ackedEver =
        Function.update lv.ackedEver seg true ∧
      (wsLiveTryWrite lv (segMessage lv seg data)).1.stored =
        { start := segSize * seg, len := segLenLocked lv seg, data := data } :: lv.stored) := by
  have hbounds := segMessage_bounds hc hseg
  have htotal := total_lt hc
  have hlast : lastSeg (segMessage lv seg data) = seg :=
    segMessage_last hbounds.1 hbounds.2.1 (by omega) data
  have hfirst : firstSeg (segMessage lv seg data) = seg :=
    Nat.mul_div_cancel_left seg (by decide)
  have haccept : acceptsMessage lv (segMessage lv seg data) = true := by
    have hsum : u64 (segSize * seg + segLenLocked lv seg) =
        segSize * seg + segLenLocked lv seg := u64_of_lt (by omega)
    have hmod : segSize * seg % segSize = 0 := Nat.mul_mod_right segSize seg
    unfold acceptsMessage segMessage
    simp only [hsum, hmod]
    simpa using hbounds.2.2
  have hlen : (segMessage lv seg data).len ≠ 0 := Nat.ne_of_gt hbounds.1
  have hone : seg + 1 - seg = 1 := by omega
  have hloop : wsLiveTryWrite lv (segMessage lv seg data) =
      tryWriteLoop (segMessage lv seg data) 1 seg lv := by
    unfold wsLiveTryWrite
    rw [if_neg (by simp [hactive, habort]), if_neg hlen,
      if_neg (by simp [haccept]), hlast, hfirst, hone]
  rw [hloop]
  rcases segMessage_stored hc hseg data with ⟨hbusy, hsame⟩ | ⟨hslot, hlog⟩
  · left
    rw [tryWriteLoop, hbusy, if_neg (by decide), if_neg (by decide), if_pos rfl]
    exact ⟨rfl, hsame⟩
  · rw [tryWriteLoop_one hslot]
    exact Or.inr ⟨rfl, hlog⟩

theorem slice_len (h : Opened file p) {seg : Nat} (hseg : seg < segmentCount file.size) :
    min ((seg + 1) * segSize) file.size - seg * segSize = segLenLocked p.shared.lv seg := by
  have hlt : seg < p.shared.lv.nsegs := h.nsegs ▸ hseg
  rw [segLenLocked_resident h.consistent hlt, h.total, Nat.succ_mul, Nat.mul_comm seg segSize]
  omega

/-- The segments cover the file. -/
theorem size_le_segments (h : Opened file p) :
    file.size ≤ segSize * segmentCount file.size := by
  have hcount := h.consistent.nsegs_eq
  rw [h.nsegs, h.total] at hcount
  have hmod := Nat.div_add_mod (file.size + segSize - 1) segSize
  have hrem := Nat.mod_lt (file.size + segSize - 1) (show 0 < segSize by decide)
  rw [hcount]
  omega

theorem expectedLen_eq (h : Opened file p) {seg : Nat} (hseg : seg < segmentCount file.size) :
    expectedLen p.shared.lv seg = segLenLocked p.shared.lv seg := by
  have hlt : seg < p.shared.lv.nsegs := h.nsegs ▸ hseg
  unfold expectedLen
  rw [h.liveSegs, h.getTotal, segLenLocked_resident h.consistent hlt, h.total,
    Nat.mul_comm seg segSize]
  split
  · rename_i hend
    have hwhole := size_le_segments h
    have hlast : segmentCount file.size = seg + 1 := by omega
    rw [hlast, Nat.mul_succ] at hwhole
    omega
  · have hnext : seg + 1 < p.shared.lv.nsegs := by
      rw [h.nsegs]
      omega
    have hmore := mul_segSize_lt h.consistent hnext
    rw [Nat.mul_succ, h.total] at hmore
    omega

/-- A move of the session under which its log still holds bytes of the file. -/
theorem opened_moved {lv : LiveState} (h : Opened file p) (hmove : SessionMove p.shared.lv lv)
    (hgood : GoodSession { p.shared with lv := lv } ∧ Continues p.shared.lv lv)
    (hsession : lv.sessionId = p.shared.lv.sessionId) (hstored : FromFile file lv.stored)
    (accepted : List (Write UInt8)) :
    Opened file { shared := { lv := lv, accepted := accepted }, threads := p.threads } where
  pool := ⟨hgood.1, fun x hx => goodPoint_of_continues hgood.2 (h.pool.threads x hx)⟩
  acks := sessionAcks_move _ _ h.acks hmove
  quiet := h.quiet
  active := (hgood.2 h.active).1
  named := h.named
  sized := h.sized
  session := hsession.trans h.session
  total := (hgood.2 h.active).2.trans h.total
  stored := hstored

theorem opened_finish (h : Opened file p) (accepted : List (Write UInt8)) :
    Opened file
      { shared := { lv := (wsLiveFinish p.shared.lv).1, accepted := accepted }
        threads := p.threads } := by
  have hsame := sameContent_finish p.shared.lv
  refine opened_moved h SessionMove.finish
    (goodSession_of_same h.pool.shared (sameCache_finish _)) hsame.sessionId ?_ accepted
  rw [hsame.stored]
  exact h.stored

theorem opened_tryWrite (h : Opened file p) {m : Message}
    (hstored : FromFile file (wsLiveTryWrite p.shared.lv m).1.stored)
    (accepted : List (Write UInt8)) :
    Opened file
      { shared := { lv := (wsLiveTryWrite p.shared.lv m).1, accepted := accepted }
        threads := p.threads } := by
  have hsame : SameSession p.shared.lv (wsLiveTryWrite p.shared.lv m).1 :=
    sameSession_tryWrite rfl
  refine opened_moved h (SessionMove.write (stores_wsLiveTryWrite _ m)) ?_ hsame.sessionId
    hstored accepted
  refine goodSession_of_kept _ h.pool.shared
    (fun hactive => wsLiveTryWrite_kept (h.pool.shared hactive).1 rfl) (fun hidle => ?_)
  rw [h.active] at hidle
  cases hidle

end Session

end DirectUpload
end PkgManager
