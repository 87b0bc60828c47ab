import Mathlib.Logic.Relation
import PkgManager.Live.Integrity

/-!
# What a section does to the session

A reader moves stamps, counters, waiters and the two marks.  A writer stores
segments one after the other.  Everything that holds of the session on a run is
read off these moves.
-/

namespace PkgManager
namespace Live

open Transition

/-!
# Readers
-/

def ReaderMoved (lv lv' : LiveState) : Prop :=
  exists lastUse tick slotRead served runHi peakSeg waiters seekSent,
    lv' = { lv with
      lastUse := lastUse
      tick := tick
      slotRead := slotRead
      served := served
      runHi := runHi
      peakSeg := peakSeg
      waiters := waiters
      seekSent := seekSent }

theorem readerMoved_refl (lv : LiveState) : ReaderMoved lv lv :=
  ⟨_, _, _, _, _, _, _, _, rfl⟩

theorem readerMoved_trans {lv lv' lv'' : LiveState} (h : ReaderMoved lv lv')
    (h' : ReaderMoved lv' lv'') : ReaderMoved lv lv'' := by
  rcases h with ⟨_, _, _, _, _, _, _, _, rfl⟩
  rcases h' with ⟨_, _, _, _, _, _, _, _, rfl⟩
  exact ⟨_, _, _, _, _, _, _, _, rfl⟩

theorem readerMoved_copyLoop (n : Nat) (lv : LiveState) (rc : ReadCall) :
    ReaderMoved lv (copyLoop n lv rc).1 := by
  induction n generalizing lv rc with
  | zero => exact readerMoved_refl lv
  | succ n ih =>
      rw [copyLoop]
      split
      · split
        · exact readerMoved_refl lv
        · split
          · exact readerMoved_refl lv
          · have hpiece : ReaderMoved lv
                (copyPiece lv rc (copySlot lv rc).toNat (copyStart rc) (copySize lv rc)).1 :=
              ⟨_, _, _, _, _, _, _, _, rfl⟩
            exact readerMoved_trans hpiece (ih _ _)
      · exact readerMoved_refl lv

theorem readerMoved_readPresent (lv : LiveState) (rc : ReadCall) :
    ReaderMoved lv (readPresent lv rc).1 := by
  have hcopied := readerMoved_copyLoop (rc.count - rc.got) lv rc
  unfold readPresent
  generalize copyLoop (rc.count - rc.got) lv rc = copied at hcopied
  dsimp only
  split
  · dsimp only
    split
    · exact readerMoved_trans hcopied ⟨_, _, _, _, _, _, _, _, rfl⟩
    · exact hcopied
  · exact hcopied

theorem readerMoved_emitSeek (lv : LiveState) (now seg : Nat) :
    ReaderMoved lv (emitSeekLocked lv now seg).1 := by
  unfold emitSeekLocked
  split
  · exact ⟨_, _, _, _, _, _, _, _, rfl⟩
  · exact readerMoved_refl lv

theorem readerMoved_readMissing (lv : LiveState) (rc : ReadCall) (now needSeg : Nat) :
    ReaderMoved lv (readMissing lv rc now needSeg).1 := by
  unfold readMissing
  dsimp only
  generalize hpeak : (if needSeg > lv.peakSeg ∧ needSeg < lv.nsegs then
    { lv with peakSeg := needSeg } else lv) = peaked
  have hpeaked : ReaderMoved lv peaked := by
    rw [← hpeak]
    split
    · exact ⟨_, _, _, _, _, _, _, _, rfl⟩
    · exact readerMoved_refl lv
  generalize hwait : (if needSeg < peaked.nsegs then
      { peaked with
        waiters := Function.update peaked.waiters needSeg (peaked.waiters needSeg + 1) }
      else peaked) = waited
  have hwaited : ReaderMoved lv waited := by
    refine readerMoved_trans hpeaked ?_
    rw [← hwait]
    split
    · exact ⟨_, _, _, _, _, _, _, _, rfl⟩
    · exact readerMoved_refl peaked
  have hseek := readerMoved_trans hwaited (readerMoved_emitSeek waited now needSeg)
  split
  · split <;> exact hseek
  · exact hwaited

theorem readerMoved_readLoop (lv : LiveState) (rc : ReadCall) (now : Nat) :
    ReaderMoved lv (readLoop lv rc now).1 := by
  unfold readLoop
  split
  · exact readerMoved_refl lv
  · dsimp only
    split
    · exact readerMoved_readPresent lv rc
    · exact readerMoved_readMissing lv rc now _

theorem readerMoved_dropWaiter (lv : LiveState) (needSeg : Nat) :
    ReaderMoved lv (dropWaiter lv needSeg) := by
  unfold dropWaiter
  split
  · exact ⟨_, _, _, _, _, _, _, _, rfl⟩
  · exact readerMoved_refl lv

theorem readerMoved_readAfterSeek (lv : LiveState) (rc : ReadCall) (needSeg now : Nat) :
    ReaderMoved lv (readAfterSeek lv rc needSeg now).1 := by
  have hdrop := readerMoved_dropWaiter lv needSeg
  unfold readAfterSeek
  split
  · exact hdrop
  · split
    · exact readerMoved_trans hdrop (readerMoved_readLoop _ rc now)
    · exact readerMoved_refl lv

theorem readerMoved_readAfterWait (lv : LiveState) (rc : ReadCall) (needSeg now : Nat)
    (expired : Bool) : ReaderMoved lv (readAfterWait lv rc needSeg now expired).1 := by
  have hdrop := readerMoved_dropWaiter lv needSeg
  unfold readAfterWait
  dsimp only
  split
  · exact hdrop
  · exact readerMoved_trans hdrop (readerMoved_readLoop _ rc now)

theorem readerMoved_wsLiveRead (lv : LiveState) (off count now : Nat) (buf : Nat -> UInt8) :
    ReaderMoved lv (wsLiveRead lv off count now buf).1 := by
  unfold wsLiveRead
  split
  · exact readerMoved_refl lv
  · split
    · exact readerMoved_refl lv
    · split
      · exact readerMoved_refl lv
      · exact readerMoved_readLoop lv _ now

/-!
# Writers
-/

/-- One segment of a message was offered to the cache. -/
def StoreStep (lv lv' : LiveState) : Prop :=
  exists m s r, segSize * s < 2 ^ 64 ∧ storeSegLocked lv s m = (lv', r)

def Stores : LiveState -> LiveState -> Prop :=
  Relation.ReflTransGen StoreStep

theorem stores_store {lv₀ : LiveState} {m : Message} (s : Nat) (lv lv' : LiveState) (r : Int)
    (hseg : segSize * s < 2 ^ 64) (h : Stores lv₀ lv) (hres : storeSegLocked lv s m = (lv', r)) :
    Stores lv₀ lv' :=
  Relation.ReflTransGen.tail h ⟨m, s, r, hseg, hres⟩

theorem stores_wsLiveTryWrite (lv : LiveState) (m : Message) :
    Stores lv (wsLiveTryWrite lv m).1 :=
  wsLiveTryWrite_invariant stores_store Relation.ReflTransGen.refl rfl

theorem stores_wsLiveWrite (lv : LiveState) (m : Message) : Stores lv (wsLiveWrite lv m).1 ∧
    forall left seg, (wsLiveWrite lv m).2 = WriteEnd.blocked left seg ->
      seg + left ≤ lastSeg m + 1 :=
  wsLiveWrite_invariant stores_store Relation.ReflTransGen.refl rfl

theorem stores_writeLoop {m : Message} {n s : Nat} (hlast : s + n ≤ lastSeg m + 1)
    (lv : LiveState) : Stores lv (writeLoop m n s lv).1 ∧
      forall left seg, (writeLoop m n s lv).2 = WriteEnd.blocked left seg ->
        seg + left ≤ lastSeg m + 1 :=
  writeLoop_invariant stores_store hlast Relation.ReflTransGen.refl rfl

/-- A writer touches the slots, what is known of the segments, and the stamps. -/
def WriterMoved (lv lv' : LiveState) : Prop :=
  exists present slotOf slots lastUse slotRead slotSeg ackedEver presentCount tick stored,
    lv' = { lv with
      present := present
      slotOf := slotOf
      slots := slots
      lastUse := lastUse
      slotRead := slotRead
      slotSeg := slotSeg
      ackedEver := ackedEver
      presentCount := presentCount
      tick := tick
      stored := stored }

theorem writerMoved_refl (lv : LiveState) : WriterMoved lv lv :=
  ⟨_, _, _, _, _, _, _, _, _, _, rfl⟩

theorem writerMoved_trans {lv lv' lv'' : LiveState} (h : WriterMoved lv lv')
    (h' : WriterMoved lv' lv'') : WriterMoved lv lv'' := by
  rcases h with ⟨_, _, _, _, _, _, _, _, _, _, rfl⟩
  rcases h' with ⟨_, _, _, _, _, _, _, _, _, _, rfl⟩
  exact ⟨_, _, _, _, _, _, _, _, _, _, rfl⟩

theorem writerMoved_assignSlot (lv : LiveState) (seg slot : Nat) :
    WriterMoved lv (assignSlot lv seg slot) := by
  unfold assignSlot
  split
  · exact ⟨_, _, _, _, _, _, _, _, _, _, rfl⟩
  · exact writerMoved_refl lv

theorem writerMoved_allocSlotLocked (lv : LiveState) (seg : Nat) :
    WriterMoved lv (allocSlotLocked lv seg).1 := by
  unfold allocSlotLocked
  split
  · exact writerMoved_refl lv
  · split
    · exact writerMoved_assignSlot lv seg _
    · dsimp only
      split
      · exact writerMoved_refl lv
      · have hevict : forall s slot, WriterMoved lv (evictSlot lv s slot) := fun s slot =>
          ⟨_, _, _, _, _, _, _, _, _, _, rfl⟩
        exact writerMoved_trans (hevict _ _) (writerMoved_assignSlot _ seg _)

theorem writerMoved_storeSegLocked (lv : LiveState) (seg : Nat) (m : Message) :
    WriterMoved lv (storeSegLocked lv seg m).1 := by
  have halloc := writerMoved_allocSlotLocked lv seg
  unfold storeSegLocked
  dsimp only
  generalize (if m.offset > u64 (segSize * seg) then m.offset else u64 (segSize * seg)) = wStart
  generalize (if u64 (m.offset + m.len) < u64 (u64 (segSize * seg) + segLenLocked lv seg) then
    u64 (m.offset + m.len) else u64 (u64 (segSize * seg) + segLenLocked lv seg)) = wEnd
  split
  · exact writerMoved_refl lv
  · split
    · exact writerMoved_refl lv
    · split
      · exact halloc
      · exact writerMoved_trans halloc ⟨_, _, _, _, _, _, _, _, _, _, rfl⟩

theorem writerMoved_of_stores {lv lv' : LiveState} (h : Stores lv lv') : WriterMoved lv lv' := by
  induction h with
  | refl => exact writerMoved_refl lv
  | @tail mid _ _ hstep ih =>
      rcases hstep with ⟨m, s, r, _, hres⟩
      have hstore := writerMoved_storeSegLocked mid s m
      rw [hres] at hstore
      exact writerMoved_trans ih hstore

/-!
# Sections
-/

/-- What a section does to the session. -/
inductive SessionMove (lv : LiveState) : LiveState -> Prop where
  | read {lv' : LiveState} (h : ReaderMoved lv lv') : SessionMove lv lv'
  | write {lv' : LiveState} (h : Stores lv lv') : SessionMove lv lv'
  | create (env : CreateEnv) (filename : String) (totalSize : Nat) (ringMb : Int)
      (h : totalSize ≤ maxTotal) :
      SessionMove lv (wsLiveCreate lv env filename totalSize ringMb).1
  | finish : SessionMove lv (wsLiveFinish lv).1
  | attach : SessionMove lv (wsLiveAttach lv).1
  | detach : SessionMove lv (wsLiveDetach lv)
  | abort : SessionMove lv (wsLiveAbort lv)
  | destroy : SessionMove lv (wsLiveDestroy lv)

/-- The size that a session is created with. -/
def LiveCall.size : LiveCall -> Nat
  | LiveCall.create _ _ totalSize _ => totalSize
  | _ => 0

/-- The calls of a run: any of them, on sessions whose segments an {lit}`int` can number. -/
def BoundedCalls (_p : Pool LiveWorld LivePoint) : Move LiveCall LiveAnswer -> Prop
  | Move.call c => c.size ≤ maxTotal
  | Move.run _ _ => True

instance (p : Pool LiveWorld LivePoint) (l : Move LiveCall LiveAnswer) :
    Decidable (BoundedCalls p l) :=
  match l with
  | Move.call c => inferInstanceAs (Decidable (c.size ≤ maxTotal))
  | Move.run _ _ => isTrue trivial

/-- What a thread keeps, whatever the others do to the session. -/
def BoundedPoint : LivePoint -> Prop
  | LivePoint.enter c => c.size ≤ maxTotal
  | LivePoint.writeBlocked m left seg => seg + left ≤ lastSeg m + 1
  | _ => True

/-- One section: the move of the session, and the point of the thread after it. -/
structure MoveStep (w : LiveWorld) (o : Section LiveWorld LivePoint) : Prop where
  move : SessionMove w.lv o.shared.lv
  point : BoundedPoint o.point
  created : o.created = none

theorem moveStep_afterWrite {w : LiveWorld} {m : Message} {res : LiveState × WriteEnd}
    (h : Stores w.lv res.1 ∧ forall left seg, res.2 = WriteEnd.blocked left seg ->
      seg + left ≤ lastSeg m + 1) : MoveStep w (afterWrite w m res) := by
  rcases res with ⟨lv, e⟩
  cases e with
  | returned r => exact ⟨SessionMove.write h.1, trivial, rfl⟩
  | blocked left seg => exact ⟨SessionMove.write h.1, h.2 left seg rfl, rfl⟩

theorem moveStep_afterRead {w : LiveWorld} {off count : Nat} {res : LiveState × ReadEnd}
    (h : ReaderMoved w.lv res.1) : MoveStep w (afterRead w off count res) := by
  rcases res with ⟨lv, e⟩
  cases e <;> exact ⟨SessionMove.read h, trivial, rfl⟩

theorem moveStep_section {p : Pool LiveWorld LivePoint} {t : Nat} {x : LivePoint}
    {a : LiveAnswer} {o : Section LiveWorld LivePoint} (hx : BoundedPoint x)
    (hstep : liveProgram.step p t x a = some o) : MoveStep p.shared o := by
  change liveStep p t x a = some o at hstep
  cases x with
  | enter c =>
      cases hstep
      cases c with
      | create env filename totalSize ringMb =>
          exact ⟨SessionMove.create env filename totalSize ringMb hx, trivial, rfl⟩
      | write m => exact moveStep_afterWrite (stores_wsLiveWrite p.shared.lv m)
      | tryWrite m =>
          exact ⟨SessionMove.write (stores_wsLiveTryWrite p.shared.lv m), trivial, rfl⟩
      | read off count buf =>
          exact moveStep_afterRead (readerMoved_wsLiveRead p.shared.lv off count a.now buf)
      | finish => exact ⟨SessionMove.finish, trivial, rfl⟩
      | attach => exact ⟨SessionMove.attach, trivial, rfl⟩
      | detach => exact ⟨SessionMove.detach, trivial, rfl⟩
      | abort => exact ⟨SessionMove.abort, trivial, rfl⟩
      | destroy => exact ⟨SessionMove.destroy, trivial, rfl⟩
  | writeBlocked m left seg =>
      cases hstep
      split
      · exact ⟨SessionMove.write Relation.ReflTransGen.refl, trivial, rfl⟩
      · exact moveStep_afterWrite (stores_writeLoop hx p.shared.lv)
  | readRescan off count rc =>
      cases hstep
      exact moveStep_afterRead (readerMoved_readLoop p.shared.lv rc a.now)
  | readSeeking off count rc needSeg =>
      cases hstep
      exact moveStep_afterRead (readerMoved_readAfterSeek p.shared.lv rc needSeg a.now)
  | readWaiting off count rc needSeg =>
      cases hstep
      exact moveStep_afterRead
        (readerMoved_readAfterWait p.shared.lv rc needSeg a.now a.expired)
  | readReturned off count n dst => cases hstep
  | returned c r => cases hstep

/-!
# Runs
-/

/-- Every thread of the pool keeps its bounds, and a move of the system is a move of the
session. -/
theorem sessionMove_next {p q : Pool LiveWorld LivePoint} {l : Move LiveCall LiveAnswer}
    (hpoints : forall x, x ∈ p.threads -> BoundedPoint x)
    (hnext : liveProgram.system.next p l = some q) : SessionMove p.shared.lv q.shared.lv := by
  cases l with
  | call c =>
      rw [next_call] at hnext
      cases hnext
      exact SessionMove.read (readerMoved_refl _)
  | run t a =>
      rcases next_run hnext with ⟨x, o, hx, hstep, hq⟩
      rw [hq]
      exact (moveStep_section (hpoints x (List.mem_of_getElem? hx)) hstep).move

/-- What every move of the session keeps holds throughout a run. -/
theorem session_run {inv : LiveState -> Prop}
    (hmove : forall lv lv', inv lv -> SessionMove lv lv' -> inv lv')
    {ok : Pool LiveWorld LivePoint -> Move LiveCall LiveAnswer -> Prop}
    (hbounded : forall p l, ok p l -> BoundedCalls p l) {p q : Pool LiveWorld LivePoint}
    {tr : List (Pool LiveWorld LivePoint × Move LiveCall LiveAnswer)}
    (hrun : Run liveProgram.system ok p tr q) (hinv : inv p.shared.lv)
    (hpoints : forall x, x ∈ p.threads -> BoundedPoint x) :
    PoolInv (fun w => inv w.lv) (fun _ x => BoundedPoint x) q := by
  refine run_invariant ?_ hrun ⟨hinv, hpoints⟩
  intro p q l hpool hok hnext
  refine poolInv_next ?_ ?_ ?_ hpool hnext
  · intro c hl
    rw [hl] at hok
    exact hbounded p _ hok
  · intro t x a o _ hx hstep
    have hsection := moveStep_section (hpool.threads x (List.mem_of_getElem? hx)) hstep
    refine ⟨hmove _ _ hpool.shared hsection.move, hsection.point, ?_⟩
    intro y hy
    rw [hsection.created] at hy
    cases hy
  · intro t x a o y _ _ _ _ hy
    exact hy

end Live
end PkgManager
