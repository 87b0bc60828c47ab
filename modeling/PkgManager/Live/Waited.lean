import PkgManager.Live.Slots

/-!
# A segment that a reader waits for can be stored

As long as fewer other segments are waited for than there are slots beside the
pinned one and the one that is needed, some resident segment may be evicted.
-/

namespace PkgManager
namespace Live

open Transition

/-- The other segments that a reader waits for. -/
def othersWaited (lv : LiveState) (seg : Nat) : Finset Nat :=
  (Finset.range lv.nsegs).filter (fun s => s ≠ seg ∧ 0 < lv.waiters s)

/-- A message of exactly one segment. -/
def segMessage (lv : LiveState) (seg : Nat) (data : Nat -> UInt8) : Message where
  offset := segSize * seg
  len := segLenLocked lv seg
  data := data

/-!
# Allocation
-/

theorem freeSlot_none {lv : LiveState} (h : freeSlot lv = none) {i : Nat} (hi : i < lv.nslots) :
    0 ≤ lv.slotSeg i := by
  have hused := List.find?_eq_none.mp h i (List.mem_range.mpr hi)
  simpa using hused

/-- The segments in the slots. -/
def residents (lv : LiveState) : Finset Nat :=
  (Finset.range lv.nslots).image (fun i => (lv.slotSeg i).toNat)

theorem residents_card {lv : LiveState} (hb : Booked lv) (hfull : freeSlot lv = none) :
    (residents lv).card = lv.nslots := by
  unfold residents
  rw [Finset.card_image_of_injOn, Finset.card_range]
  intro i hi j hj heq
  have hi := Finset.mem_range.mp (Finset.mem_coe.mp hi)
  have hj := Finset.mem_range.mp (Finset.mem_coe.mp hj)
  have hslot := hb.used i hi (freeSlot_none hfull hi)
  dsimp only at heq
  rw [heq, hb.used j hj (freeSlot_none hfull hj)] at hslot
  omega

/-- With a reader behind the incoming segment, everything resident may go that no reader
waits for, the pinned segment apart. -/
theorem candidate_of_waited {lv : LiveState} (hb : Booked lv) {seg s : Nat}
    (hseg : seg < lv.nsegs) (hwait : 0 < lv.waiters seg) (hs : 1 ≤ s)
    (hslot : 0 ≤ lv.slotOf s) (hfree : lv.waiters s = 0) : Candidate lv seg s := by
  have hpresent := (hb.consistent.present_iff s).mpr hslot
  refine ⟨hs, (hb.consistent.owner s hslot).1, hpresent, hslot, hfree, ?_⟩
  unfold evictable
  split
  · rfl
  · rw [if_pos (by simp [hseg, hwait, hb.acked s hpresent])]

theorem residents_waited {lv : LiveState} (hb : Booked lv) {seg : Nat} (hseg : seg < lv.nsegs)
    (hwait : 0 < lv.waiters seg) (hnew : lv.slotOf seg < 0) (hfull : freeSlot lv = none)
    (hnone : forall s, ¬ Candidate lv seg s) :
    (residents lv).erase 0 ⊆ othersWaited lv seg := by
  intro s hs
  rw [Finset.mem_erase] at hs
  rcases Finset.mem_image.mp hs.2 with ⟨i, hi, his⟩
  have hi := Finset.mem_range.mp hi
  have hslot : 0 ≤ lv.slotOf s := by
    rw [← his, hb.used i hi (freeSlot_none hfull hi)]
    omega
  have hne : s ≠ seg := by
    intro heq
    rw [heq] at hslot
    omega
  have hwaited : 0 < lv.waiters s := by
    by_contra hfree
    exact hnone s (candidate_of_waited hb hseg hwait (by omega) hslot (by omega))
  exact Finset.mem_filter.mpr
    ⟨Finset.mem_range.mpr (hb.consistent.owner s hslot).1, hne, hwaited⟩

theorem allocSlotLocked_waited {lv : LiveState} (hb : Booked lv) {seg : Nat}
    (hseg : seg < lv.nsegs) (hwait : 0 < lv.waiters seg)
    (hothers : (othersWaited lv seg).card < lv.nslots - 1) :
    0 ≤ (allocSlotLocked lv seg).2 := by
  have hcase := allocSlotLocked_cases hb.consistent hseg
  generalize allocSlotLocked lv seg = r at hcase ⊢
  cases hcase with
  | resident h => exact h
  | free slot => exact Int.natCast_nonneg slot
  | evict s _ _ hcand => exact hcand.slot
  | busy hnew hfull hnone =>
      exfalso
      have hsub := Finset.card_le_card (residents_waited hb hseg hwait hnew hfull hnone)
      have hcard := Finset.pred_card_le_card_erase (s := residents lv) (a := 0)
      rw [residents_card hb hfull] at hcard
      omega

/-!
# A message of one segment
-/

theorem segMessage_bounds {lv : LiveState} (hc : Consistent lv) {seg : Nat}
    (hseg : seg < lv.nsegs) : 0 < segLenLocked lv seg ∧ segLenLocked lv seg ≤ segSize ∧
      segSize * seg + segLenLocked lv seg ≤ lv.total := by
  have hlt := mul_segSize_lt hc hseg
  have hpos : 0 < segSize := by decide
  rw [segLenLocked_resident hc hseg]
  omega

theorem segMessage_last {seg len : Nat} (hpos : 0 < len) (hlen : len ≤ segSize)
    (hfit : segSize * seg + len < 2 ^ 64) (data : Nat -> UInt8) :
    lastSeg { offset := segSize * seg, len := len, data := data } = seg := by
  unfold lastSeg
  dsimp only
  have hback : u64 (u64 (segSize * seg + len) + (2 ^ 64 - 1)) = segSize * seg + len - 1 := by
    rw [u64_of_lt hfit]
    unfold u64
    omega
  rw [hback]
  exact div_segSize_eq (by omega) (by rw [Nat.mul_succ]; omega)

theorem storeSegLocked_segMessage {lv : LiveState} (hc : Consistent lv) {seg : Nat}
    (hseg : seg < lv.nsegs) (data : Nat -> UInt8)
    (hslot : 0 ≤ (allocSlotLocked lv seg).2) :
    0 ≤ (storeSegLocked lv seg (segMessage lv seg data)).2 ∧
      (storeSegLocked lv seg (segMessage lv seg data)).1.present seg = true := by
  have hb := segMessage_bounds hc hseg
  have htotal := total_lt hc
  have hsum : u64 (segSize * seg + segLenLocked lv seg) = segSize * seg + segLenLocked lv seg :=
    u64_of_lt (by omega)
  have hcase := storeSegLocked_spec htotal (mul_segSize_lt_u64 hc hseg) (segMessage lv seg data)
  generalize storeSegLocked lv seg (segMessage lv seg data) = r at hcase ⊢
  have hcovers : Covers lv (segMessage lv seg data) seg :=
    ⟨Nat.le_refl _, Nat.le_of_eq hsum.symm⟩
  cases hcase with
  | apart h =>
      have hle : min (u64 (segSize * seg + segLenLocked lv seg))
        (segSize * seg + segLenLocked lv seg) ≤ max (segSize * seg) (segSize * seg) := h
      rw [hsum] at hle
      omega
  | part h hpart => exact absurd hcovers hpart
  | busy h hall hbusy => omega
  | stored h hall hdone =>
      constructor
      · exact hdone
      · change Function.update (allocSlotLocked lv seg).1.present seg true seg = true
        rw [Function.update_self]

theorem tryWriteLoop_one {lv : LiveState} {m : Message} {s : Nat}
    (h : 0 ≤ (storeSegLocked lv s m).2) :
    tryWriteLoop m 1 s lv = ((storeSegLocked lv s m).1, 0) := by
  rw [tryWriteLoop]
  split
  · rfl
  · rw [if_neg (by omega), if_neg (by omega)]
    rfl

theorem wsLiveTryWrite_segMessage {lv : LiveState} (hb : Booked lv) (hactive : lv.active = true)
    (habort : lv.aborted = false) {seg : Nat} (hseg : seg < lv.nsegs) (data : Nat -> UInt8)
    (hslot : 0 ≤ (allocSlotLocked lv seg).2) :
    (wsLiveTryWrite lv (segMessage lv seg data)).2 = 0 ∧
      (wsLiveTryWrite lv (segMessage lv seg data)).1.present seg = true := by
  have hc := hb.consistent
  have hbounds := segMessage_bounds hc hseg
  have htotal := total_lt hc
  have hlast : lastSeg (segMessage lv seg data) = seg :=
    segMessage_last hbounds.1 hbounds.2.1 (by omega) data
  have hfirst : firstSeg (segMessage lv seg data) = seg :=
    Nat.mul_div_cancel_left seg (by decide)
  have haccept : acceptsMessage lv (segMessage lv seg data) = true := by
    have hsum : u64 (segSize * seg + segLenLocked lv seg) =
        segSize * seg + segLenLocked lv seg := u64_of_lt (by omega)
    have hmod : segSize * seg % segSize = 0 := Nat.mul_mod_right segSize seg
    unfold acceptsMessage segMessage
    simp only [hsum, hmod]
    simpa using hbounds.2.2
  have hstore := storeSegLocked_segMessage hc hseg data hslot
  have hlen : (segMessage lv seg data).len ≠ 0 := Nat.ne_of_gt hbounds.1
  have hone : seg + 1 - seg = 1 := by omega
  unfold wsLiveTryWrite
  rw [if_neg (by simp [hactive, habort]), if_neg hlen, if_neg (by simp [haccept]), hlast, hfirst,
    hone, tryWriteLoop_one hstore.1]
  exact ⟨rfl, hstore.2⟩

/-!
# Runs
-/

theorem sessionBooked_run {p q : Pool LiveWorld LivePoint}
    {tr : List (Pool LiveWorld LivePoint × Move LiveCall LiveAnswer)} (hidle : Idle p)
    (hrun : Run liveProgram.system BoundedCalls p tr q) : SessionBooked q.shared.lv := by
  have hstart : SessionBooked p.shared.lv := by
    intro hactive
    rw [hidle.1] at hactive
    cases hactive
  refine (session_run sessionBooked_move (fun _ _ h => h) hrun hstart ?_).shared
  intro x hx
  rw [hidle.2] at hx
  cases hx

/-- In every state of a run, a segment that a reader waits for is stored when it arrives. -/
theorem wsLiveTryWrite_stores_waited {p q : Pool LiveWorld LivePoint}
    {tr : List (Pool LiveWorld LivePoint × Move LiveCall LiveAnswer)} (hidle : Idle p)
    (hrun : Run liveProgram.system BoundedCalls p tr q) (hactive : q.shared.lv.active = true)
    (habort : q.shared.lv.aborted = false) {seg : Nat} (hseg : seg < q.shared.lv.nsegs)
    (hwait : 0 < q.shared.lv.waiters seg)
    (hothers : (othersWaited q.shared.lv seg).card < q.shared.lv.nslots - 1)
    (data : Nat -> UInt8) :
    (wsLiveTryWrite q.shared.lv (segMessage q.shared.lv seg data)).2 = 0 ∧
      (wsLiveTryWrite q.shared.lv (segMessage q.shared.lv seg data)).1.present seg = true := by
  have hb := (sessionBooked_run hidle hrun hactive).1
  exact wsLiveTryWrite_segMessage hb hactive habort hseg data
    (allocSlotLocked_waited hb hseg hwait hothers)

/-- Four slots are full when a reader misses a segment. -/
theorem wsLiveTryWrite_stores_waited_example :
    exists tr q, Run liveProgram.system BoundedCalls emptyPool tr q ∧
      freeSlot q.shared.lv = none ∧
      (wsLiveTryWrite q.shared.lv (segMessage q.shared.lv 5 (fun _ => 65))).2 = 0 ∧
      (wsLiveTryWrite q.shared.lv (segMessage q.shared.lv 5 (fun _ => 65))).1.present 5 =
        true := by
  have hexec : (execWhile liveProgram.system BoundedCalls emptyPool
      (oneByOne 0 [createSegs (segSize * 8), LiveCall.tryWrite (fillMessage 0 4 65),
        LiveCall.read (segSize * 5) 3 (fun _ => 0)])).map (fun q =>
      (q.shared.lv.active, q.shared.lv.aborted, freeSlot q.shared.lv,
        decide (5 < q.shared.lv.nsegs), decide (0 < q.shared.lv.waiters 5),
        decide ((othersWaited q.shared.lv 5).card < q.shared.lv.nslots - 1))) =
      some (true, false, none, true, true, true) := by
    decide
  rcases Option.map_eq_some_iff.mp hexec with ⟨q, hq, hobs⟩
  rcases run_of_execWhile hq with ⟨tr, _, hrun⟩
  simp only [Prod.mk.injEq, decide_eq_true_eq] at hobs
  rcases hobs with ⟨hactive, habort, hfull, hseg, hwait, hothers⟩
  exact ⟨tr, q, hrun, hfull,
    wsLiveTryWrite_stores_waited ⟨rfl, rfl⟩ hrun hactive habort hseg hwait hothers
      (fun _ => 65)⟩

end Live
end PkgManager

/-!
# The mark of a reader that goes forward

A read that completes moves {lit}`run_hi` to its end, when it starts at most one
segment above the mark.
-/

namespace PkgManager
namespace Live

open Transition

/-!
# The locals of a reader
-/

/-- What the locals of a reader called at {lit}`off` keep, whatever the session does. -/
structure Reading (off : Nat) (rc : ReadCall) : Prop where
  start : rc.readStart = off
  ends : rc.servedEnd = off + rc.count
  count_pos : 0 < rc.count
  got_le : rc.got ≤ rc.count

def ReadingPoint : LivePoint -> Prop
  | LivePoint.readRescan off _ rc => Reading off rc
  | LivePoint.readSeeking off _ rc _ => Reading off rc
  | LivePoint.readWaiting off _ rc _ => Reading off rc
  | _ => True

theorem copySize_le (lv : LiveState) (rc : ReadCall) : copySize lv rc ≤ rc.count - rc.got := by
  unfold copySize
  dsimp only
  split
  · split at * <;> omega
  · split <;> omega

theorem reading_copyLoop {off n : Nat} {lv : LiveState} {rc : ReadCall} (h : Reading off rc) :
    Reading off (copyLoop n lv rc).2 := by
  induction n generalizing lv rc with
  | zero => exact h
  | succ n ih =>
      rw [copyLoop]
      split
      · split
        · exact h
        · split
          · exact h
          · apply ih
            have hsize := copySize_le lv rc
            have hgot := h.got_le
            refine ⟨h.start, h.ends, h.count_pos, ?_⟩
            change rc.got + copySize lv rc ≤ rc.count
            omega
      · exact h

/-- How a part of a read leaves the mark, and its reader. -/
inductive MarkCase (lv : LiveState) (off : Nat) : LiveState × ReadEnd -> Prop where
  | failed {lv' : LiveState} {n : Int} {dst : Nat -> UInt8} (h : lv'.runHi = lv.runHi) :
      MarkCase lv off (lv', ReadEnd.returned n dst)
  | done {lv' : LiveState} {n : Nat} {dst : Nat -> UInt8} (hpos : 0 < n)
      (hstart : off ≤ u64 (lv.runHi + segSize)) (hahead : lv.runHi < off + n)
      (h : lv'.runHi = off + n) : MarkCase lv off (lv', ReadEnd.returned n dst)
  | rescan {lv' : LiveState} {rc : ReadCall} (h : lv'.runHi = lv.runHi) (hrc : Reading off rc) :
      MarkCase lv off (lv', ReadEnd.rescan rc)
  | seeking {lv' : LiveState} {rc : ReadCall} (needSeg : Nat) (h : lv'.runHi = lv.runHi)
      (hrc : Reading off rc) : MarkCase lv off (lv', ReadEnd.seeking rc needSeg)
  | waiting {lv' : LiveState} {rc : ReadCall} (needSeg : Nat) (h : lv'.runHi = lv.runHi)
      (hrc : Reading off rc) : MarkCase lv off (lv', ReadEnd.waiting rc needSeg)

theorem copyLoop_runHi (n : Nat) (lv : LiveState) (rc : ReadCall) :
    (copyLoop n lv rc).1.runHi = lv.runHi := by
  induction n generalizing lv rc with
  | zero => rfl
  | succ n ih =>
      rw [copyLoop]
      split
      · split
        · rfl
        · split
          · rfl
          · rw [ih]
            rfl
      · rfl

theorem markCase_readPresent {off : Nat} {lv : LiveState} {rc : ReadCall} (h : Reading off rc) :
    MarkCase lv off (readPresent lv rc) := by
  have hmark := copyLoop_runHi (rc.count - rc.got) lv rc
  have hread : Reading off (copyLoop (rc.count - rc.got) lv rc).2 := reading_copyLoop h
  unfold readPresent
  generalize copyLoop (rc.count - rc.got) lv rc = copied at hmark hread
  dsimp only
  split
  · rename_i hall
    have hgot : copied.2.got = copied.2.count := Nat.le_antisymm hread.got_le hall
    split
    · rename_i hmove
      rw [hread.start, hread.ends, hmark] at hmove
      refine MarkCase.done ?_ hmove.1 ?_ ?_
      · rw [hgot]
        exact hread.count_pos
      · rw [hgot]
        exact hmove.2
      · rw [hgot]
        exact hread.ends
    · exact MarkCase.failed hmark
  · exact MarkCase.rescan hmark hread

theorem emitSeek_runHi (lv : LiveState) (now seg : Nat) :
    (emitSeekLocked lv now seg).1.runHi = lv.runHi := by
  unfold emitSeekLocked
  split <;> rfl

theorem markCase_readMissing {off : Nat} {lv : LiveState} {rc : ReadCall} (h : Reading off rc)
    (now needSeg : Nat) : MarkCase lv off (readMissing lv rc now needSeg) := by
  unfold readMissing
  dsimp only
  generalize hpeak : (if needSeg > lv.peakSeg ∧ needSeg < lv.nsegs then
    { lv with peakSeg := needSeg } else lv) = peaked
  have hpeaked : peaked.runHi = lv.runHi := by
    rw [← hpeak]
    split <;> rfl
  generalize hwait : (if needSeg < peaked.nsegs then
      { peaked with
        waiters := Function.update peaked.waiters needSeg (peaked.waiters needSeg + 1) }
      else peaked) = waited
  have hwaited : waited.runHi = lv.runHi := by
    rw [← hwait, ← hpeaked]
    split <;> rfl
  have hseek := (emitSeek_runHi waited now needSeg).trans hwaited
  split
  · split
    · exact MarkCase.seeking needSeg hseek h
    · exact MarkCase.waiting needSeg hseek h
  · exact MarkCase.waiting needSeg hwaited h

theorem markCase_readLoop {off : Nat} {lv : LiveState} {rc : ReadCall} (h : Reading off rc)
    (now : Nat) : MarkCase lv off (readLoop lv rc now) := by
  unfold readLoop
  split
  · exact MarkCase.failed rfl
  · dsimp only
    split
    · exact markCase_readPresent h
    · exact markCase_readMissing h now _

theorem dropWaiter_runHi (lv : LiveState) (needSeg : Nat) :
    (dropWaiter lv needSeg).runHi = lv.runHi := by
  unfold dropWaiter
  split <;> rfl

/-- The part after a wait starts with one waiter less. -/
theorem markCase_dropWaiter {off : Nat} {lv : LiveState} {needSeg : Nat}
    {res : LiveState × ReadEnd} (h : MarkCase (dropWaiter lv needSeg) off res) :
    MarkCase lv off res := by
  have hmark := dropWaiter_runHi lv needSeg
  cases h with
  | failed h => exact MarkCase.failed (h.trans hmark)
  | done hpos hstart hahead h =>
      rw [hmark] at hstart hahead
      exact MarkCase.done hpos hstart hahead h
  | rescan h hrc => exact MarkCase.rescan (h.trans hmark) hrc
  | seeking needSeg h hrc => exact MarkCase.seeking needSeg (h.trans hmark) hrc
  | waiting needSeg h hrc => exact MarkCase.waiting needSeg (h.trans hmark) hrc

theorem markCase_readAfterSeek {off : Nat} {lv : LiveState} {rc : ReadCall} (h : Reading off rc)
    (needSeg now : Nat) : MarkCase lv off (readAfterSeek lv rc needSeg now) := by
  unfold readAfterSeek
  split
  · exact MarkCase.failed (dropWaiter_runHi lv needSeg)
  · split
    · exact markCase_dropWaiter (markCase_readLoop h now)
    · exact MarkCase.waiting needSeg rfl h

theorem markCase_readAfterWait {off : Nat} {lv : LiveState} {rc : ReadCall} (h : Reading off rc)
    (needSeg now : Nat) (expired : Bool) :
    MarkCase lv off (readAfterWait lv rc needSeg now expired) := by
  unfold readAfterWait
  dsimp only
  split
  · exact MarkCase.failed (dropWaiter_runHi lv needSeg)
  · exact markCase_dropWaiter (markCase_readLoop h now)

theorem markCase_wsLiveRead (lv : LiveState) (off count now : Nat) (buf : Nat -> UInt8) :
    MarkCase lv off (wsLiveRead lv off count now buf) := by
  unfold wsLiveRead
  split
  · exact MarkCase.failed rfl
  · split
    · exact MarkCase.failed rfl
    · split
      · exact MarkCase.failed rfl
      · apply markCase_readLoop
        refine ⟨rfl, rfl, ?_, Nat.zero_le _⟩
        dsimp only
        split <;> omega

/-!
# One section
-/

/-- A section of an active session leaves the mark, or it completes a read and moves the
mark to its end. -/
structure MarkStep (w : LiveWorld) (o : Section LiveWorld LivePoint) : Prop where
  mark : w.lv.active = true -> o.shared.lv.runHi = w.lv.runHi ∨
    exists off count n dst, o.point = LivePoint.readReturned off count (n : Nat) dst ∧ 0 < n ∧
      off ≤ u64 (w.lv.runHi + segSize) ∧ o.shared.lv.runHi = off + n
  point : ReadingPoint o.point
  created : o.created = none

theorem markStep_afterRead {w : LiveWorld} {off count : Nat} {res : LiveState × ReadEnd}
    (h : MarkCase w.lv off res) : MarkStep w (afterRead w off count res) := by
  cases h with
  | failed h => exact ⟨fun _ => Or.inl h, trivial, rfl⟩
  | done hpos hstart hahead h =>
      exact ⟨fun _ => Or.inr ⟨off, count, _, _, rfl, hpos, hstart, h⟩, trivial, rfl⟩
  | rescan h hrc => exact ⟨fun _ => Or.inl h, hrc, rfl⟩
  | seeking needSeg h hrc => exact ⟨fun _ => Or.inl h, hrc, rfl⟩
  | waiting needSeg h hrc => exact ⟨fun _ => Or.inl h, hrc, rfl⟩

/-- A section that is no reader's. -/
theorem markStep_other {w : LiveWorld} {o : Section LiveWorld LivePoint}
    (hmark : o.shared.lv.runHi = w.lv.runHi) (hpoint : ReadingPoint o.point)
    (hcreated : o.created = none) : MarkStep w o :=
  ⟨fun _ => Or.inl hmark, hpoint, hcreated⟩

theorem stores_runHi {lv lv' : LiveState} (h : Stores lv lv') : lv'.runHi = lv.runHi := by
  rcases writerMoved_of_stores h with ⟨_, _, _, _, _, _, _, _, _, _, rfl⟩
  rfl

theorem markStep_afterWrite {w : LiveWorld} {m : Message} {res : LiveState × WriteEnd}
    (h : Stores w.lv res.1) : MarkStep w (afterWrite w m res) := by
  rcases res with ⟨lv, e⟩
  cases e <;> exact markStep_other (stores_runHi h) trivial rfl

theorem wsLiveFinish_runHi (lv : LiveState) : (wsLiveFinish lv).1.runHi = lv.runHi := by
  unfold wsLiveFinish
  split <;> rfl

theorem wsLiveAttach_runHi (lv : LiveState) : (wsLiveAttach lv).1.runHi = lv.runHi := by
  unfold wsLiveAttach
  split <;> rfl

theorem wsLiveDetach_runHi (lv : LiveState) : (wsLiveDetach lv).runHi = lv.runHi := by
  unfold wsLiveDetach
  dsimp only
  split <;> split <;> rfl

theorem wsLiveAbort_runHi (lv : LiveState) : (wsLiveAbort lv).runHi = lv.runHi := by
  unfold wsLiveAbort
  split <;> rfl

theorem wsLiveDestroy_runHi (lv : LiveState) : (wsLiveDestroy lv).runHi = lv.runHi := by
  unfold wsLiveDestroy
  split
  · rfl
  · dsimp only
    split <;> rfl

theorem markStep_section {p : Pool LiveWorld LivePoint} {t : Nat} {x : LivePoint}
    {a : LiveAnswer} {o : Section LiveWorld LivePoint} (hbounded : BoundedPoint x)
    (hx : ReadingPoint x)
    (hstep : liveProgram.step p t x a = some o) : MarkStep p.shared o := by
  change liveStep p t x a = some o at hstep
  cases x with
  | enter c =>
      cases hstep
      cases c with
      | create env filename totalSize ringMb =>
          refine ⟨fun hactive => Or.inl ?_, trivial, rfl⟩
          change (wsLiveCreate p.shared.lv env filename totalSize ringMb).1.runHi = _
          rw [wsLiveCreate_active hactive]
      | write m => exact markStep_afterWrite (stores_wsLiveWrite p.shared.lv m).1
      | tryWrite m =>
          exact markStep_other (stores_runHi (stores_wsLiveTryWrite p.shared.lv m)) trivial rfl
      | read off count buf =>
          exact markStep_afterRead (markCase_wsLiveRead p.shared.lv off count a.now buf)
      | finish => exact markStep_other (wsLiveFinish_runHi p.shared.lv) trivial rfl
      | attach => exact markStep_other (wsLiveAttach_runHi p.shared.lv) trivial rfl
      | detach => exact markStep_other (wsLiveDetach_runHi p.shared.lv) trivial rfl
      | abort => exact markStep_other (wsLiveAbort_runHi p.shared.lv) trivial rfl
      | destroy => exact markStep_other (wsLiveDestroy_runHi p.shared.lv) trivial rfl
  | writeBlocked m left seg =>
      cases hstep
      split
      · exact markStep_other rfl trivial rfl
      · exact markStep_afterWrite (stores_writeLoop hbounded p.shared.lv).1
  | readRescan off count rc =>
      cases hstep
      exact markStep_afterRead (markCase_readLoop hx a.now)
  | readSeeking off count rc needSeg =>
      cases hstep
      exact markStep_afterRead (markCase_readAfterSeek hx needSeg a.now)
  | readWaiting off count rc needSeg =>
      cases hstep
      exact markStep_afterRead (markCase_readAfterWait hx needSeg a.now a.expired)
  | readReturned off count n dst => cases hstep
  | returned c r => cases hstep

end Live
end PkgManager
