import PkgManager.Live.Read
import PkgManager.Transition.ThreadPool
import PkgManager.Live.Provenance

/-!
# Threads that share the live session

Every function of the session is a thread that runs one lock-held section at a
time.  Only the blocking writer and the reader have more than one section.
-/

namespace PkgManager
namespace Live

open WriteLog
open Transition

/-- The session and, as history that no section reads, the writes answered with
0, the newest first. -/
structure LiveWorld where
  lv : LiveState
  accepted : List (Write UInt8)

inductive LiveCall where
  | create (env : CreateEnv) (filename : String) (totalSize : Nat) (ringMb : Int)
  | write (m : Message)
  | tryWrite (m : Message)
  | read (off count : Nat) (buf : Nat -> UInt8)
  | finish
  | attach
  | detach
  | abort
  | destroy

inductive LivePoint where
  | enter (c : LiveCall)
  | writeBlocked (m : Message) (left seg : Nat)
  | readRescan (off count : Nat) (rc : ReadCall)
  | readSeeking (off count : Nat) (rc : ReadCall) (needSeg : Nat)
  | readWaiting (off count : Nat) (rc : ReadCall) (needSeg : Nat)
  | readReturned (off count : Nat) (n : Int) (dst : Nat -> UInt8)
  | returned (c : LiveCall) (r : Int)

/-- The clock, and whether the timed wait has passed its deadline. -/
structure LiveAnswer where
  now : Nat := 0
  expired : Bool := false

def Message.toWrite (m : Message) : Write UInt8 :=
  { start := m.offset, len := m.len, data := m.data }

def writeReturns (w : LiveWorld) (lv : LiveState) (c : LiveCall) (m : Message) (r : Int) :
    Section LiveWorld LivePoint :=
  { shared := { lv := lv, accepted := if r = 0 then m.toWrite :: w.accepted else w.accepted }
    point := LivePoint.returned c r }

def afterWrite (w : LiveWorld) (m : Message) : LiveState × WriteEnd ->
    Section LiveWorld LivePoint
  | (lv, WriteEnd.returned r) => writeReturns w lv (LiveCall.write m) m r
  | (lv, WriteEnd.blocked left seg) =>
      { shared := { w with lv := lv }, point := LivePoint.writeBlocked m left seg }

def afterRead (w : LiveWorld) (off count : Nat) : LiveState × ReadEnd ->
    Section LiveWorld LivePoint
  | (lv, ReadEnd.returned n dst) =>
      { shared := { w with lv := lv }, point := LivePoint.readReturned off count n dst }
  | (lv, ReadEnd.rescan rc) =>
      { shared := { w with lv := lv }, point := LivePoint.readRescan off count rc }
  | (lv, ReadEnd.seeking rc needSeg) =>
      { shared := { w with lv := lv }, point := LivePoint.readSeeking off count rc needSeg }
  | (lv, ReadEnd.waiting rc needSeg) =>
      { shared := { w with lv := lv }, point := LivePoint.readWaiting off count rc needSeg }

def enterCall (w : LiveWorld) (a : LiveAnswer) : LiveCall -> Section LiveWorld LivePoint
  | LiveCall.create env filename totalSize ringMb =>
      let r := wsLiveCreate w.lv env filename totalSize ringMb
      { shared := { w with lv := r.1 }
        point := LivePoint.returned (LiveCall.create env filename totalSize ringMb) r.2 }
  | LiveCall.write m => afterWrite w m (wsLiveWrite w.lv m)
  | LiveCall.tryWrite m =>
      let r := wsLiveTryWrite w.lv m
      writeReturns w r.1 (LiveCall.tryWrite m) m r.2
  | LiveCall.read off count buf => afterRead w off count (wsLiveRead w.lv off count a.now buf)
  | LiveCall.finish =>
      let r := wsLiveFinish w.lv
      { shared := { w with lv := r.1 }, point := LivePoint.returned LiveCall.finish r.2 }
  | LiveCall.attach =>
      let r := wsLiveAttach w.lv
      { shared := { w with lv := r.1 }, point := LivePoint.returned LiveCall.attach r.2 }
  | LiveCall.detach =>
      { shared := { w with lv := wsLiveDetach w.lv }
        point := LivePoint.returned LiveCall.detach 0 }
  | LiveCall.abort =>
      { shared := { w with lv := wsLiveAbort w.lv }
        point := LivePoint.returned LiveCall.abort 0 }
  | LiveCall.destroy =>
      { shared := { w with lv := wsLiveDestroy w.lv }
        point := LivePoint.returned LiveCall.destroy 0 }

def liveStep (p : Pool LiveWorld LivePoint) (_t : Nat) :
    LivePoint -> LiveAnswer -> Option (Section LiveWorld LivePoint)
  | LivePoint.enter c, a => some (enterCall p.shared a c)
  | LivePoint.writeBlocked m left seg, a =>
      some
        (if a.expired then writeReturns p.shared p.shared.lv (LiveCall.write m) m (-1)
        else afterWrite p.shared m (writeLoop m left seg p.shared.lv))
  | LivePoint.readRescan off count rc, a =>
      some (afterRead p.shared off count (readLoop p.shared.lv rc a.now))
  | LivePoint.readSeeking off count rc needSeg, a =>
      some (afterRead p.shared off count (readAfterSeek p.shared.lv rc needSeg a.now))
  | LivePoint.readWaiting off count rc needSeg, a =>
      some (afterRead p.shared off count
        (readAfterWait p.shared.lv rc needSeg a.now a.expired))
  | LivePoint.readReturned _ _ _ _, _ => none
  | LivePoint.returned _ _, _ => none

def liveProgram : Program LiveWorld LivePoint LiveCall LiveAnswer where
  entry := LivePoint.enter
  step := liveStep

/-!
# What the threads keep

While the session is active the cache is consistent, and a reader that waits
holds the range it was called for, cut at the end of the file.
-/

def GoodSession (w : LiveWorld) : Prop :=
  w.lv.active = true -> Consistent w.lv ∧ w.lv.freePending = false

/-- The locals of a reader called with {lit}`off` and {lit}`count`. -/
structure ReaderOk (lv : LiveState) (off count : Nat) (rc : ReadCall) : Prop where
  active : lv.active = true
  pending : Pending lv rc
  off_eq : rc.off = off
  count_eq : rc.count = min count (lv.total - off)

/-- What a read has returned, at the moment it returns. -/
def ReadOk (lv : LiveState) (off count : Nat) (n : Int) (dst : Nat -> UInt8) : Prop :=
  0 < n -> n = min count (lv.total - off) ∧
    forall i : Nat, i < min count (lv.total - off) -> latest lv.stored (off + i) = some (dst i)

def GoodPoint (w : LiveWorld) : LivePoint -> Prop
  | LivePoint.enter c => c ≠ LiveCall.destroy ∧
      forall env filename totalSize ringMb,
        c = LiveCall.create env filename totalSize ringMb -> totalSize ≤ maxTotal
  | LivePoint.writeBlocked m left seg =>
      w.lv.active = true ∧ seg + left ≤ lastSeg m + 1
  | LivePoint.readRescan _ _ _ => False
  | LivePoint.readSeeking off count rc _ => ReaderOk w.lv off count rc
  | LivePoint.readWaiting off count rc _ => ReaderOk w.lv off count rc
  | LivePoint.readReturned _ _ _ _ => True
  | LivePoint.returned _ _ => True

/-- The run goes on: an active session stays the same session. -/
def Continues (lv lv' : LiveState) : Prop :=
  lv.active = true -> lv'.active = true ∧ lv'.total = lv.total

theorem continues_of_kept {lv lv' : LiveState} (h : Kept lv lv') : Continues lv lv' := by
  intro hactive
  exact ⟨h.active.trans hactive, h.total⟩

theorem goodPoint_of_continues {w w' : LiveWorld} (h : Continues w.lv w'.lv)
    {x : LivePoint} (hx : GoodPoint w x) : GoodPoint w' x := by
  have hreader : forall {off count : Nat} {rc : ReadCall},
      ReaderOk w.lv off count rc -> ReaderOk w'.lv off count rc := by
    intro off count rc hr
    rcases h hr.active with ⟨hactive, htotal⟩
    refine ⟨hactive, ⟨hr.pending.got, ?_⟩, hr.off_eq, ?_⟩
    · rw [htotal]
      exact hr.pending.in_file
    · rw [htotal]
      exact hr.count_eq
  cases x with
  | enter c => exact hx
  | writeBlocked m left seg => exact ⟨(h hx.1).1, hx.2⟩
  | readRescan off count rc => exact hx
  | readSeeking off count rc needSeg => exact hreader hx
  | readWaiting off count rc needSeg => exact hreader hx
  | readReturned off count n dst => exact hx
  | returned c r => exact hx

/-- What one section does: the session stays good and goes on, the thread ends
at a good point, and a read that returns is right. -/
structure GoodStep (w : LiveWorld) (o : Section LiveWorld LivePoint) : Prop where
  session : GoodSession o.shared
  continues : Continues w.lv o.shared.lv
  point : GoodPoint o.shared o.point
  created : o.created = none
  read : forall off count n dst, o.point = LivePoint.readReturned off count n dst ->
    ReadOk w.lv off count n dst

theorem goodSession_of_kept {w : LiveWorld} (w' : LiveWorld) (hw : GoodSession w)
    (h : w.lv.active = true -> Kept w.lv w'.lv) (hidle : w.lv.active = false -> w'.lv = w.lv) :
    GoodSession w' ∧ Continues w.lv w'.lv := by
  cases hactive : w.lv.active with
  | false =>
      have hsame := hidle hactive
      constructor
      · intro hnow
        rw [hsame, hactive] at hnow
        cases hnow
      · intro hnow
        rw [hactive] at hnow
        cases hnow
  | true =>
      have hk := h hactive
      constructor
      · intro _
        exact ⟨hk.consistent, hk.freePending.trans (hw hactive).2⟩
      · exact continues_of_kept hk

/-- A section whose thread is done, and is no reader. -/
theorem goodStep_returned {w w' : LiveWorld} {c : LiveCall} {r : Int}
    (h : GoodSession w' ∧ Continues w.lv w'.lv) :
    GoodStep w { shared := w', point := LivePoint.returned c r } where
  session := h.1
  continues := h.2
  point := trivial
  created := rfl
  read := by
    intro off count n dst hpoint
    cases hpoint

theorem goodStep_afterWrite {w : LiveWorld} (hw : GoodSession w) {m : Message}
    {res : LiveState × WriteEnd}
    (hspec : forall {lv e}, w.lv.active = true -> res = (lv, e) -> Kept w.lv lv ∧
      forall left seg, e = WriteEnd.blocked left seg -> seg + left ≤ lastSeg m + 1)
    (hidle : w.lv.active = false -> res = (w.lv, WriteEnd.returned (-1))) :
    GoodStep w (afterWrite w m res) := by
  rcases res with ⟨lv, e⟩
  have hkept : w.lv.active = true -> Kept w.lv lv := fun hactive => (hspec hactive rfl).1
  have hsame : w.lv.active = false -> lv = w.lv := fun hoff =>
    congrArg Prod.fst (hidle hoff)
  have hgood : forall acc, GoodSession { lv := lv, accepted := acc } ∧ Continues w.lv lv :=
    fun acc => goodSession_of_kept { lv := lv, accepted := acc } hw hkept hsame
  cases e with
  | returned r => exact goodStep_returned (hgood _)
  | blocked left seg =>
      have hgo := hgood w.accepted
      have hactive : w.lv.active = true := by
        cases hoff : w.lv.active with
        | true => rfl
        | false => cases hidle hoff
      have hpark := (hspec hactive rfl).2 left seg rfl
      refine ⟨hgo.1, hgo.2, ⟨(hgo.2 hactive).1, hpark⟩, rfl, ?_⟩
      intro off count n dst hpoint
      cases hpoint

theorem goodStep_afterRead {w : LiveWorld} (hw : GoodSession w) {off count : Nat}
    {rc : ReadCall} (hr : ReaderOk w.lv off count rc) {res : LiveState × ReadEnd}
    (hpeek : forall {lv e}, res = (lv, e) -> Peeked w.lv lv)
    (hspec : forall {lv e}, res = (lv, e) ->
      ReadEndOk (fun p b => latest w.lv.stored p = some b) rc e) :
    GoodStep w (afterRead w off count res) := by
  rcases res with ⟨lv, e⟩
  have hend := hspec rfl
  have hkept := kept_of_same (hw hr.active).1 (hpeek rfl).cache
  have hgood := goodSession_of_kept { w with lv := lv } hw (fun _ => hkept)
    (fun hidle => absurd hr.active (by rw [hidle]; decide))
  have hreader : GoodPoint { w with lv := lv } (LivePoint.readWaiting off count rc 0) :=
    goodPoint_of_continues (x := LivePoint.readWaiting off count rc 0) hgood.2 hr
  cases e with
  | returned n dst =>
      refine ⟨hgood.1, hgood.2, trivial, rfl, ?_⟩
      intro off' count' n' dst' hpoint
      cases hpoint
      intro hpos
      rcases hend with hneg | ⟨hn, hbytes⟩
      · omega
      · rw [← hr.count_eq]
        refine ⟨hn, ?_⟩
        intro i hi
        have hbyte := hbytes i hi
        rw [hr.off_eq] at hbyte
        exact hbyte
  | rescan rc' => exact absurd hend id
  | seeking rc' needSeg =>
      have heq : rc' = rc := hend
      rw [heq]
      refine ⟨hgood.1, hgood.2, hreader, rfl, ?_⟩
      intro off' count' n' dst' hpoint
      cases hpoint
  | waiting rc' needSeg =>
      have heq : rc' = rc := hend
      rw [heq]
      refine ⟨hgood.1, hgood.2, hreader, rfl, ?_⟩
      intro off' count' n' dst' hpoint
      cases hpoint

end Live
end PkgManager

/-!
# Streams on the live session

{lit}`virtual_stream_open` of {lit}`live:<id>` takes the session lock three
times: for the id, for the size and for the reference.  The threads of the
session layer run in between.
-/

namespace PkgManager
namespace Live

open WriteLog
open Transition

/-- What a stream on the session has in {lit}`virtual_stream_t`.  The id that
it was opened with is history. -/
structure LiveStream where
  id : String
  isLive : Bool
  totalPkgSize : Nat
  pkgFilename : String

/-- The session layer and the opened streams, named by their position. -/
structure StreamWorld where
  live : LiveWorld
  streams : List LiveStream

inductive StreamCall where
  | session (c : LiveCall)
  | openLive (id : String)
  | readStream (h off count : Nat) (buf : Nat -> UInt8)
  | closeStream (h : Nat)

inductive StreamPoint where
  | session (x : LivePoint)
  | openCheckId (id : String)
  | openGetTotal (id : String)
  | openAttach (id : String) (ltotal : Nat)
  | opened (h : Nat)
  | openFailed
  | readEnter (h off count : Nat) (buf : Nat -> UInt8)
  | reading (h off : Nat) (x : LivePoint)
  | readDone (h off : Nat) (n : Int) (dst : Nat -> UInt8)
  | closeEnter (h : Nat)
  | closed

def StreamCall.entry : StreamCall -> StreamPoint
  | StreamCall.session c => StreamPoint.session (LivePoint.enter c)
  | StreamCall.openLive id => StreamPoint.openCheckId id
  | StreamCall.readStream h off count buf => StreamPoint.readEnter h off count buf
  | StreamCall.closeStream h => StreamPoint.closeEnter h

def openedStream (id : String) (ltotal : Nat) : LiveStream where
  id := id
  isLive := true
  totalPkgSize := ltotal
  pkgFilename := cTruncate 256 (id ++ ".pkg")

/-- What {lit}`virtual_stream_read` asks of the session. -/
def readRequest (s : LiveStream) (off count : Nat) : Option Nat :=
  if count = 0 then none
  else if off >= s.totalPkgSize then none
  else
    let toRead :=
      if u64 (off + count) > s.totalPkgSize then s.totalPkgSize - off else count
    if toRead = 0 then none else some toRead

/-- A negative answer of the session is answered with -1. -/
def afterSession (h off : Nat) : LivePoint -> StreamPoint
  | LivePoint.readReturned _ _ n dst =>
      StreamPoint.readDone h off (if n < 0 then -1 else n) dst
  | x => StreamPoint.reading h off x

def closeLive (w : StreamWorld) (h : Nat) (s : LiveStream) : StreamWorld :=
  if s.isLive then
    { live := { w.live with lv := wsLiveDetach w.live.lv }
      streams := w.streams.set h { s with isLive := false } }
  else w

def sessionSection (w : StreamWorld) (x : LivePoint) (a : LiveAnswer) :
    Option (Section LiveWorld LivePoint) :=
  liveStep { shared := w.live, threads := [] } 0 x a

def streamStep (p : Pool StreamWorld StreamPoint) (_t : Nat) :
    StreamPoint -> LiveAnswer -> Option (Section StreamWorld StreamPoint)
  | StreamPoint.session x, a =>
      (sessionSection p.shared x a).map fun o =>
        { shared := { p.shared with live := o.shared }, point := StreamPoint.session o.point }
  | StreamPoint.openCheckId id, _ =>
      some
        { shared := p.shared
          point :=
            if wsLiveCheckId p.shared.live.lv id then StreamPoint.openGetTotal id
            else StreamPoint.openFailed }
  | StreamPoint.openGetTotal id, _ =>
      let ltotal := wsLiveGetTotal p.shared.live.lv
      some
        { shared := p.shared
          point := if ltotal = 0 then StreamPoint.openFailed else StreamPoint.openAttach id ltotal }
  | StreamPoint.openAttach id ltotal, _ =>
      let r := wsLiveAttach p.shared.live.lv
      if r.2 = 0 then
        some
          { shared :=
              { live := { p.shared.live with lv := r.1 }
                streams := p.shared.streams ++ [openedStream id ltotal] }
            point := StreamPoint.opened p.shared.streams.length }
      else some { shared := p.shared, point := StreamPoint.openFailed }
  | StreamPoint.readEnter h off count buf, _ =>
      -- a stream is not read after it was closed
      match p.shared.streams[h]? with
      | none => none
      | some s =>
          if s.isLive then
            some
              { shared := p.shared
                point :=
                  match readRequest s off count with
                  | none => StreamPoint.readDone h off 0 buf
                  | some toRead =>
                      StreamPoint.reading h off
                        (LivePoint.enter (LiveCall.read off toRead buf)) }
          else none
  | StreamPoint.reading h off x, a =>
      (sessionSection p.shared x a).map fun o =>
        { shared := { p.shared with live := o.shared }, point := afterSession h off o.point }
  | StreamPoint.closeEnter h, _ =>
      match p.shared.streams[h]? with
      | none => none
      | some s => some { shared := closeLive p.shared h s, point := StreamPoint.closed }
  | StreamPoint.opened _, _ => none
  | StreamPoint.openFailed, _ => none
  | StreamPoint.readDone _ _ _ _, _ => none
  | StreamPoint.closed, _ => none

def streamProgram : Program StreamWorld StreamPoint StreamCall LiveAnswer where
  entry := StreamCall.entry
  step := streamStep

/-!
# What is asked of a stream
-/

/-- The session is the one with this id, and the size is its size. -/
def IsSession (lv : LiveState) (s : LiveStream) : Prop :=
  lv.active = true ∧ lv.sessionId = s.id ∧ lv.total = s.totalPkgSize

/-- The opening of a stream takes a reference on the session of its id, and a
read that returns data before the close returns what was stored in it. -/
def StreamsFaithful (ok : Pool StreamWorld StreamPoint -> Move StreamCall LiveAnswer -> Prop)
    (p : Pool StreamWorld StreamPoint) : Prop :=
  forall tr q t a q',
    Run streamProgram.system ok p tr q ->
      streamProgram.system.next q (Move.run t a) = some q' ->
      (forall h s, q'.threads[t]? = some (StreamPoint.opened h) ->
        q'.shared.streams[h]? = some s -> IsSession q.shared.live.lv s) ∧
      (forall h s off n dst, q'.threads[t]? = some (StreamPoint.readDone h off n dst) ->
        q'.shared.streams[h]? = some s -> s.isLive = true -> 0 < n ->
          IsSession q.shared.live.lv s ∧
            forall i : Nat, (i : Int) < n -> FromSession q.shared.live.lv (off + i) (dst i))

/-- The sizes are 64-bit values, and the references are taken and dropped by
the streams only. -/
def StreamCalls (_p : Pool StreamWorld StreamPoint) : Move StreamCall LiveAnswer -> Prop
  | Move.call (StreamCall.session (LiveCall.create _ _ totalSize _)) => totalSize < 2 ^ 64
  | Move.call (StreamCall.session LiveCall.attach) => False
  | Move.call (StreamCall.session LiveCall.detach) => False
  | _ => True

instance (p : Pool StreamWorld StreamPoint) (l : Move StreamCall LiveAnswer) :
    Decidable (StreamCalls p l) := by
  unfold StreamCalls
  split <;> infer_instance

/-- Between the id check of an opening and its reference. -/
def StreamPoint.opening : StreamPoint -> Bool
  | StreamPoint.openGetTotal _ => true
  | StreamPoint.openAttach _ _ => true
  | _ => false

/-- The section of a thread starts a new session. -/
def startsSession (lv : LiveState) : StreamPoint -> Bool
  | StreamPoint.session (LivePoint.enter (LiveCall.create env filename totalSize ringMb)) =>
      !lv.active && (wsLiveCreate lv env filename totalSize ringMb).1.active
  | _ => false

/-- No session starts between the id check of an opening and its reference. -/
def UndisturbedOpenings (p : Pool StreamWorld StreamPoint) :
    Move StreamCall LiveAnswer -> Prop
  | Move.call _ => True
  | Move.run t _ =>
      match p.threads[t]? with
      | none => True
      | some x => startsSession p.shared.live.lv x = true ->
          forall y, y ∈ p.threads -> y.opening = false

instance (p : Pool StreamWorld StreamPoint) (l : Move StreamCall LiveAnswer) :
    Decidable (UndisturbedOpenings p l) := by
  unfold UndisturbedOpenings
  split
  · infer_instance
  · split <;> infer_instance

/-- No session, no stream and no thread yet. -/
def NoStreams (p : Pool StreamWorld StreamPoint) : Prop :=
  p.shared.live.lv.active = false ∧ p.shared.live.lv.refs = 0 ∧ p.shared.streams = [] ∧
    p.threads = []

end Live
end PkgManager
