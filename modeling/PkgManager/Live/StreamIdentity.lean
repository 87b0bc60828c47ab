import PkgManager.Live.Integrity
import PkgManager.Live.Threads

/-!
# A stream stays with the session it was opened for

A session is replaced only when no stream is attached.  So a stream is bound to
its session from the reference on; before that only the absence of a new session
binds it.
-/

namespace PkgManager
namespace Live

open WriteLog
open Transition

/-!
# What a section does to the session
-/

structure GoodLive (lv : LiveState) : Prop where
  sound : lv.active = true -> Sound lv
  kept : lv.active = true -> lv.freePending = false
  down : lv.active = false -> 0 < lv.refs -> lv.aborted = true

/-- A section that starts no session and moves no reference. -/
structure Advances (lv lv' : LiveState) : Prop where
  carried : Carried lv lv'
  refs : lv'.refs = lv.refs
  good : GoodLive lv'

theorem advances_refl {lv : LiveState} (h : GoodLive lv) : Advances lv lv :=
  ⟨carried_refl lv, rfl, h⟩

theorem advances_of_session {lv lv' : LiveState} (h : GoodLive lv)
    (hs : SoundSession lv lv') : Advances lv lv' := by
  have hsame := hs.session
  refine ⟨carried_of_session hsame, hsame.refs, ?_, ?_, ?_⟩
  · intro hactive
    exact hs.sound (hsame.active ▸ hactive)
  · intro hactive
    rw [hsame.freePending]
    exact h.kept (hsame.active ▸ hactive)
  · intro hidle hrefs
    rw [hsame.active] at hidle
    rw [hsame.refs] at hrefs
    rw [hsame.aborted]
    exact h.down hidle hrefs

theorem advances_of_peeked {lv lv' : LiveState} (h : GoodLive lv) (hpeek : Peeked lv lv') :
    Advances lv lv' :=
  advances_of_session h (soundSession_of_peeked h.sound hpeek)

theorem advances_tryWrite {lv lv' : LiveState} (h : GoodLive lv) {m : Message} {r : Int}
    (hres : wsLiveTryWrite lv m = (lv', r)) : Advances lv lv' :=
  advances_of_session h
    (wsLiveTryWrite_invariant soundSession_store (soundSession_refl h.sound) hres)

theorem advances_write {lv lv' : LiveState} (h : GoodLive lv) {m : Message} {e : WriteEnd}
    (hres : wsLiveWrite lv m = (lv', e)) :
    Advances lv lv' ∧
      forall left seg, e = WriteEnd.blocked left seg -> seg + left ≤ lastSeg m + 1 := by
  have hw := wsLiveWrite_invariant soundSession_store (soundSession_refl h.sound) hres
  exact ⟨advances_of_session h hw.1, hw.2⟩

theorem advances_writeLoop {lv lv' : LiveState} (h : GoodLive lv) {m : Message} {n s : Nat}
    (hlast : s + n ≤ lastSeg m + 1) {e : WriteEnd} (hres : writeLoop m n s lv = (lv', e)) :
    Advances lv lv' ∧
      forall left seg, e = WriteEnd.blocked left seg -> seg + left ≤ lastSeg m + 1 := by
  have hw := writeLoop_invariant soundSession_store hlast (soundSession_refl h.sound) hres
  exact ⟨advances_of_session h hw.1, hw.2⟩

theorem advances_finish {lv : LiveState} (h : GoodLive lv) :
    Advances lv (wsLiveFinish lv).1 := by
  exact advances_of_session h ⟨sameSession_finish lv,
    fun hactive => sound_of_same (sameCache_finish lv) (h.sound hactive)⟩

theorem advances_abort {lv : LiveState} (h : GoodLive lv) : Advances lv (wsLiveAbort lv) := by
  have hsame := sameCache_abort lv
  rcases wsLiveAbort_cases lv with heq | ⟨hactive, heq⟩
  · rw [heq]
    exact advances_refl h
  · refine ⟨carried_abort lv, ?_, ?_, ?_, ?_⟩
    · rw [heq]
    · intro _
      exact sound_of_same hsame (h.sound hactive)
    · intro _
      rw [hsame.freePending]
      exact h.kept hactive
    · intro _ _
      rw [heq]

theorem advances_destroy {lv : LiveState} (h : GoodLive lv) : Advances lv (wsLiveDestroy lv) := by
  have hdown := wsLiveDestroy_down lv
  have hnever : forall {P : Prop}, (wsLiveDestroy lv).active = true -> P := by
    intro P hactive
    rw [hdown.1] at hactive
    cases hactive
  refine ⟨carried_destroy lv, wsLiveDestroy_refs lv, fun hactive => hnever hactive,
    fun hactive => hnever hactive, ?_⟩
  intro _ hrefs
  cases hactive : lv.active with
  | true => exact hdown.2 hactive
  | false =>
      rw [wsLiveDestroy_refs] at hrefs
      have hsame : wsLiveDestroy lv = lv := by
        unfold wsLiveDestroy
        rw [if_pos (by simp [hactive])]
      rw [hsame]
      exact h.down hactive hrefs

/-!
# A new session
-/

theorem goodLive_create {lv : LiveState} {env : CreateEnv} {filename : String}
    {totalSize : Nat} {ringMb : Int} (hidle : lv.active = false) (htotal : totalSize < 2 ^ 64)
    (hnow : (wsLiveCreate lv env filename totalSize ringMb).1.active = true) :
    GoodLive (wsLiveCreate lv env filename totalSize ringMb).1 := by
  have hconsistent := fun hle => (wsLiveCreate_inactive hidle hle hnow).1
  unfold wsLiveCreate at hnow hconsistent ⊢
  rw [hidle] at hnow hconsistent ⊢
  dsimp only at hnow hconsistent ⊢
  have hno : forall {P : Prop}, lv.active = true -> P := by
    intro P hactive
    rw [hidle] at hactive
    cases hactive
  split at hnow
  · exact hno hnow
  · rename_i hname
    split at hnow
    · exact hno hnow
    · rename_i hbase
      rw [if_neg (by decide)] at hnow
      split at hnow
      · exact hno hnow
      · rename_i hrefs
        split at hnow
        · exact hno hnow
        · rename_i halloc
          rw [if_neg hname, if_neg hbase, if_neg (by decide), if_neg hrefs, if_neg halloc]
            at hconsistent ⊢
          refine ⟨?_, fun _ => rfl, ?_⟩
          · intro _
            refine ⟨⟨htotal, ?_, ?_⟩, hconsistent⟩
            · intro s _ hp
              cases hp
            · intro s i _ hp
              cases hp
          · intro hdown
            cases hdown

/-!
# One section of the session layer
-/

/-- The arguments of a call are in range, and it moves no reference. -/
def TypedPoint : LivePoint -> Prop
  | LivePoint.enter c => c ≠ LiveCall.attach ∧ c ≠ LiveCall.detach ∧
      forall env filename totalSize ringMb,
        c = LiveCall.create env filename totalSize ringMb -> totalSize < 2 ^ 64
  | LivePoint.writeBlocked m left seg => seg + left ≤ lastSeg m + 1
  | _ => True

/-- The section starts a session, where there was none and no reference. -/
structure Starts (lv lv' : LiveState) (x : LivePoint) : Prop where
  idle : lv.active = false
  free : lv.refs = 0
  starts : startsSession lv (StreamPoint.session x) = true
  refs : lv'.refs = 0
  good : GoodLive lv'

structure SessionEffect (lv : LiveState) (x : LivePoint) (o : Section LiveWorld LivePoint) :
    Prop where
  state : Advances lv o.shared.lv ∨ Starts lv o.shared.lv x
  point : TypedPoint o.point
  created : o.created = none

theorem sessionEffect_returned {lv : LiveState} {x : LivePoint} {w : LiveWorld}
    {c : LiveCall} {r : Int} (h : Advances lv w.lv ∨ Starts lv w.lv x) :
    SessionEffect lv x { shared := w, point := LivePoint.returned c r } :=
  ⟨h, trivial, rfl⟩

theorem sessionEffect_afterWrite {w : LiveWorld} {x : LivePoint} {m : Message}
    {res : LiveState × WriteEnd}
    (hspec : forall {lv e}, res = (lv, e) -> Advances w.lv lv ∧
      forall left seg, e = WriteEnd.blocked left seg -> seg + left ≤ lastSeg m + 1) :
    SessionEffect w.lv x (afterWrite w m res) := by
  rcases res with ⟨lv, e⟩
  rcases hspec rfl with ⟨hadv, hpark⟩
  cases e with
  | returned r => exact sessionEffect_returned (Or.inl hadv)
  | blocked left seg => exact ⟨Or.inl hadv, hpark left seg rfl, rfl⟩

theorem sessionEffect_afterRead {w : LiveWorld} {x : LivePoint} {off count : Nat}
    {res : LiveState × ReadEnd} (hgood : GoodLive w.lv)
    (hspec : forall {lv e}, res = (lv, e) -> Peeked w.lv lv) :
    SessionEffect w.lv x (afterRead w off count res) := by
  rcases res with ⟨lv, e⟩
  have hadv := advances_of_peeked hgood (hspec rfl)
  cases e with
  | returned n dst => exact ⟨Or.inl hadv, trivial, rfl⟩
  | rescan rc => exact ⟨Or.inl hadv, trivial, rfl⟩
  | seeking rc needSeg => exact ⟨Or.inl hadv, trivial, rfl⟩
  | waiting rc needSeg => exact ⟨Or.inl hadv, trivial, rfl⟩

theorem sessionSection_effect {w : StreamWorld} {x : LivePoint} {a : LiveAnswer}
    {o : Section LiveWorld LivePoint} (hgood : GoodLive w.live.lv) (hx : TypedPoint x)
    (hstep : sessionSection w x a = some o) : SessionEffect w.live.lv x o := by
  unfold sessionSection at hstep
  cases x with
  | enter c =>
      cases hstep
      cases c with
      | create env filename totalSize ringMb =>
          apply sessionEffect_returned
          have htotal := hx.2.2 env filename totalSize ringMb rfl
          rcases wsLiveCreate_cases w.live.lv env filename totalSize ringMb
            with hsame | ⟨hidle, hrefs, hnow, hfree⟩
          · left
            change Advances w.live.lv (wsLiveCreate w.live.lv env filename totalSize ringMb).1
            rw [hsame]
            exact advances_refl hgood
          · right
            refine ⟨hidle, hrefs, ?_, hfree, goodLive_create hidle htotal hnow⟩
            change (!w.live.lv.active && _) = true
            rw [hidle, hnow]
            rfl
      | write m => exact sessionEffect_afterWrite (fun hres => advances_write hgood hres)
      | tryWrite m => exact sessionEffect_returned (Or.inl (advances_tryWrite hgood rfl))
      | read off count buf =>
          exact sessionEffect_afterRead hgood (fun hres => peeked_wsLiveRead hres)
      | finish => exact sessionEffect_returned (Or.inl (advances_finish hgood))
      | attach => exact absurd rfl hx.1
      | detach => exact absurd rfl hx.2.1
      | abort => exact sessionEffect_returned (Or.inl (advances_abort hgood))
      | destroy => exact sessionEffect_returned (Or.inl (advances_destroy hgood))
  | writeBlocked m left seg =>
      cases hstep
      split
      · exact sessionEffect_returned (Or.inl (advances_refl hgood))
      · exact sessionEffect_afterWrite (fun hres => advances_writeLoop hgood hx hres)
  | readRescan off count rc =>
      cases hstep
      exact sessionEffect_afterRead hgood (fun hres => peeked_readLoop hres)
  | readSeeking off count rc needSeg =>
      cases hstep
      exact sessionEffect_afterRead hgood (fun hres => peeked_readAfterSeek hres)
  | readWaiting off count rc needSeg =>
      cases hstep
      exact sessionEffect_afterRead hgood (fun hres => peeked_readAfterWait hres)
  | readReturned off count n dst => cases hstep
  | returned c r => cases hstep

/-!
# One section of a read
-/

/-- The points of a read. -/
def ReaderPoint (off : Nat) : LivePoint -> Prop
  | LivePoint.enter (LiveCall.read off' _ _) => off' = off
  | LivePoint.readRescan _ _ _ => True
  | LivePoint.readSeeking _ _ _ _ => True
  | LivePoint.readWaiting _ _ _ _ => True
  | _ => False

/-- A read of the active session has nothing copied while it waits. -/
def ReaderAt (lv : LiveState) (off : Nat) : LivePoint -> Prop
  | LivePoint.enter (LiveCall.read off' _ _) => off' = off
  | LivePoint.readSeeking _ _ rc _ => Pending lv rc ∧ rc.off = off
  | LivePoint.readWaiting _ _ rc _ => Pending lv rc ∧ rc.off = off
  | _ => False

theorem readerAt_of_total {lv lv' : LiveState} {off : Nat} {x : LivePoint}
    (htotal : lv'.total = lv.total) (h : ReaderAt lv off x) : ReaderAt lv' off x := by
  have hpending : forall {rc : ReadCall}, Pending lv rc -> Pending lv' rc := by
    intro rc hp
    refine ⟨hp.got, ?_⟩
    rw [htotal]
    exact hp.in_file
  cases x with
  | enter c =>
      cases c with
      | read off' count buf => exact h
      | _ => exact absurd h id
  | readSeeking off' count rc needSeg => exact ⟨hpending h.1, h.2⟩
  | readWaiting off' count rc needSeg => exact ⟨hpending h.1, h.2⟩
  | _ => exact absurd h id

/-- The read has ended. -/
def ReadReturned (x : LivePoint) : Prop :=
  exists off count n dst, x = LivePoint.readReturned off count n dst

theorem afterRead_point (w : LiveWorld) (off off' count : Nat) (res : LiveState × ReadEnd) :
    ReadReturned (afterRead w off' count res).point ∨
      ReaderPoint off (afterRead w off' count res).point := by
  rcases res with ⟨lv, e⟩
  cases e with
  | returned n dst => exact Or.inl ⟨off', count, n, dst, rfl⟩
  | rescan rc => exact Or.inr trivial
  | seeking rc needSeg => exact Or.inr trivial
  | waiting rc needSeg => exact Or.inr trivial

theorem readSection_point {w : StreamWorld} {off : Nat} {x : LivePoint} {a : LiveAnswer}
    {o : Section LiveWorld LivePoint} (hreader : ReaderPoint off x)
    (hstep : sessionSection w x a = some o) :
    ReadReturned o.point ∨ ReaderPoint off o.point := by
  unfold sessionSection at hstep
  cases x with
  | enter c =>
      cases c with
      | read off' count buf =>
          cases hstep
          exact afterRead_point _ off _ _ _
      | _ => exact absurd hreader id
  | readRescan off' count rc =>
      cases hstep
      exact afterRead_point _ off _ _ _
  | readSeeking off' count rc needSeg =>
      cases hstep
      exact afterRead_point _ off _ _ _
  | readWaiting off' count rc needSeg =>
      cases hstep
      exact afterRead_point _ off _ _ _
  | _ => exact absurd hreader id

/-- A section of a read leaves the read waiting, or it returns what the session
had stored. -/
structure ReadEffect (lv : LiveState) (off : Nat) (o : Section LiveWorld LivePoint) : Prop where
  waits : lv.active = true -> ReadReturned o.point ∨ ReaderAt o.shared.lv off o.point
  bytes : forall off' count n dst, o.point = LivePoint.readReturned off' count n dst -> 0 < n ->
    lv.active = true ∧ forall i : Nat, (i : Int) < n -> FromSession lv (off + i) (dst i)

/-- The read ends without data. -/
theorem readEffect_failed {w : LiveWorld} {off off' count : Nat} {lv' : LiveState} {n : Int}
    {dst : Nat -> UInt8} (hn : n ≤ 0) :
    ReadEffect w.lv off (afterRead w off' count (lv', ReadEnd.returned n dst)) := by
  constructor
  · exact fun _ => Or.inl ⟨off', count, n, dst, rfl⟩
  · intro o c k d hpoint hpos
    cases hpoint
    omega

theorem readEffect_pending {w : LiveWorld} {off' count : Nat} {rc : ReadCall}
    {res : LiveState × ReadEnd} (hactive : w.lv.active = true) (hp : Pending w.lv rc)
    (hpeek : forall {lv e}, res = (lv, e) -> Peeked w.lv lv)
    (hspec : forall {lv e}, res = (lv, e) -> ReadEndOk (FromSession w.lv) rc e) :
    ReadEffect w.lv rc.off (afterRead w off' count res) := by
  rcases res with ⟨lv, e⟩
  have hend := hspec rfl
  have hpending : Pending lv rc := pending_of_same (hpeek rfl).cache hp
  cases e with
  | returned n dst =>
      rcases hend with hneg | ⟨hn, hbytes⟩
      · exact readEffect_failed (Int.le_of_lt hneg)
      · constructor
        · exact fun _ => Or.inl ⟨off', count, n, dst, rfl⟩
        · intro o c k d hpoint _
          cases hpoint
          refine ⟨hactive, ?_⟩
          intro i hi
          exact hbytes i (by omega)
  | rescan rc' => exact absurd hend id
  | seeking rc' needSeg =>
      have heq : rc' = rc := hend
      rw [heq]
      refine ⟨fun _ => Or.inr ⟨hpending, rfl⟩, ?_⟩
      intro o c k d hpoint
      cases hpoint
  | waiting rc' needSeg =>
      have heq : rc' = rc := hend
      rw [heq]
      refine ⟨fun _ => Or.inr ⟨hpending, rfl⟩, ?_⟩
      intro o c k d hpoint
      cases hpoint

theorem readEffect_enter {w : LiveWorld} (hgood : GoodLive w.lv) (off count now : Nat)
    (buf : Nat -> UInt8) :
    ReadEffect w.lv off (afterRead w off count (wsLiveRead w.lv off count now buf)) := by
  unfold wsLiveRead
  split
  · exact readEffect_failed (Int.le_refl 0)
  · split
    · exact readEffect_failed (by decide)
    · rename_i hactive
      have hactive : w.lv.active = true := by simpa using hactive
      split
      · exact readEffect_failed (Int.le_refl 0)
      · generalize hcut : (if count > w.lv.total - off then w.lv.total - off else count) = cut
        have hpending : Pending w.lv
            { off := off, count := cut, got := 0, dst := buf,
              readStart := off, servedEnd := off + cut } := by
          refine ⟨rfl, ?_⟩
          dsimp only
          split at hcut <;> omega
        exact readEffect_pending hactive hpending (fun hres => peeked_readLoop hres)
          (fun hres => readLoop_spec (backed_of_sound (hgood.sound hactive)) hpending hres)

/-- After the session is gone a waiting reader gives up. -/
theorem readLoop_aborted {lv : LiveState} {rc : ReadCall} {now : Nat}
    (h : lv.aborted = true) : readLoop lv rc now = (lv, ReadEnd.returned (-1) rc.dst) := by
  unfold readLoop
  rw [if_pos h]

theorem readAfterSeek_aborted {lv : LiveState} {rc : ReadCall} {needSeg now : Nat}
    (h : lv.aborted = true) :
    readAfterSeek lv rc needSeg now = (dropWaiter lv needSeg, ReadEnd.returned (-1) rc.dst) := by
  unfold readAfterSeek
  rw [if_pos (by simp [h])]

theorem readAfterWait_aborted {lv : LiveState} {rc : ReadCall} {needSeg now : Nat}
    {expired : Bool} (h : lv.aborted = true) :
    readAfterWait lv rc needSeg now expired =
      (dropWaiter lv needSeg, ReadEnd.returned (-1) rc.dst) := by
  have hdrop : (dropWaiter lv needSeg).aborted = true := by
    rw [(peeked_dropWaiter lv needSeg).session.aborted]
    exact h
  unfold readAfterWait
  dsimp only
  rw [readLoop_aborted hdrop]
  split <;> rfl

theorem readSection_effect {w : StreamWorld} {off : Nat} {x : LivePoint} {a : LiveAnswer}
    {o : Section LiveWorld LivePoint} (hgood : GoodLive w.live.lv)
    (hheld : 0 < w.live.lv.refs) (hreader : ReaderPoint off x)
    (hat : w.live.lv.active = true -> ReaderAt w.live.lv off x)
    (hstep : sessionSection w x a = some o) : ReadEffect w.live.lv off o := by
  unfold sessionSection at hstep
  cases hactive : w.live.lv.active with
  | true =>
      have hx := hat hactive
      have hb := backed_of_sound (hgood.sound hactive)
      cases x with
      | enter c =>
          cases c with
          | read off' count buf =>
              have heq : off' = off := hx
              cases hstep
              rw [heq]
              exact readEffect_enter hgood off count a.now buf
          | _ => exact absurd hx id
      | readSeeking off' count rc needSeg =>
          cases hstep
          rw [← hx.2]
          exact readEffect_pending hactive hx.1 (fun hres => peeked_readAfterSeek hres)
            (fun hres => readAfterSeek_spec hb hx.1 hres)
      | readWaiting off' count rc needSeg =>
          cases hstep
          rw [← hx.2]
          exact readEffect_pending hactive hx.1 (fun hres => peeked_readAfterWait hres)
            (fun hres => readAfterWait_spec hb hx.1 hres)
      | _ => exact absurd hx id
  | false =>
      have haborted := hgood.down hactive hheld
      have hneg : (-1 : Int) ≤ 0 := by decide
      cases x with
      | enter c =>
          cases c with
          | read off' count buf =>
              have heq : off' = off := hreader
              cases hstep
              rw [heq]
              exact readEffect_enter hgood off count a.now buf
          | _ => exact absurd hreader id
      | readRescan off' count rc =>
          cases hstep
          rw [readLoop_aborted haborted]
          exact readEffect_failed hneg
      | readSeeking off' count rc needSeg =>
          cases hstep
          rw [readAfterSeek_aborted haborted]
          exact readEffect_failed hneg
      | readWaiting off' count rc needSeg =>
          cases hstep
          rw [readAfterWait_aborted haborted]
          exact readEffect_failed hneg
      | _ => exact absurd hreader id

end Live
end PkgManager
