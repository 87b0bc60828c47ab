import PkgManager.Live.Finish
import PkgManager.Sender.Reads

/-!
# An upload from a browser

The browser and the connection worker of the console exchange messages over one WebSocket,
which keeps their order.  The worker stores what arrives in the live session, and the other
threads of the console work with the session in the meantime.
-/

namespace PkgManager
namespace DirectUpload

open Live
open Sender
open Transition

/-- The file that was chosen, and the session it is uploaded to. -/
structure UploadFile where
  size : Nat
  bytes : Nat -> UInt8
  sid : String

/-- What the browser sends; {lit}`chunk` is a binary message. -/
inductive ToServer where
  | seg (segment : Nat)
  | chunk (len : Nat) (data : Nat -> UInt8)
  | finish
  | ping
  | stats

inductive ToBrowser where
  | ack (segment : Nat)
  | busy (segment : Nat)
  | seek (segment : Nat)
  | pong
  | complete
  | error
deriving DecidableEq

/-!
# The browser
-/

/-- The flags of {lit}`upload` beside its sender. -/
structure Browser where
  world : SenderWorld
  finished : Bool
  done : Bool
  canceled : Bool

namespace Browser

def shouldStop (b : Browser) : Bool :=
  b.done || b.finished || b.canceled

/-- Between two awaits nothing else runs in the browser. -/
def answers (b : Browser) : SegmentSender.Answers where
  entry := b.shouldStop
  pump := b.shouldStop
  loop := b.shouldStop

/-- The sender takes an event. -/
def takes (options : SenderOptions) (b : Browser) (event : SenderEvent) : Option Browser :=
  (b.world.next options event).map (fun world => { b with world := world })

/-- {lit}`ackedSet.add` -/
def adds (b : Browser) (segment : Nat) : Browser :=
  { b with
    world := { b.world with
      sender := { b.world.sender with
        acknowledged := b.world.sender.acknowledged.add segment } } }

/-- {lit}`ws.onmessage`.  After a finish an error only ends the upload when the state of the
install is known, and it ends it either way. -/
def onmessage (options : SenderOptions) (b : Browser) (message : ToBrowser) : Option Browser :=
  if b.done || b.canceled then some b
  else
    match message with
    | .ack segment => (b.adds segment).takes options (.ack b.answers segment)
    | .busy segment => b.takes options (.busy b.answers segment)
    | .seek segment => b.takes options (.request b.answers (some segment))
    | .pong => some b
    | .complete => some { b with done := true }
    | .error => some { b with done := true }

end Browser

/-- {lit}`NSEGS` -/
def segmentCount (size : Nat) : Nat :=
  max 1 ((size + segSize - 1) / segSize)

/-- The file slice that {lit}`readSegment` reads. -/
def UploadFile.slice (file : UploadFile) (segment : Nat) : ToServer :=
  ToServer.chunk (min ((segment + 1) * segSize) file.size - segment * segSize)
    (fun i => file.bytes (segSize * segment + i))

/-- {lit}`sendSegment` -/
def UploadFile.sendSegment (file : UploadFile) : Option (Nat × FileRead) -> List ToServer
  | none => []
  | some (segment, read) => [ToServer.seg segment, file.slice read.segment]

/-!
# The connection worker
-/

/-- The locals of {lit}`ws_conn_worker` behind the handshake and the {lit}`init` message, which
has authorized the connection for the session. -/
structure Connection where
  pendingSeg : Option Nat
  closed : Bool

/-- {lit}`ws_live_demand_window` -/
def wsLiveDemandWindow (lv : LiveState) : Nat :=
  let window := lv.nslots / 4
  let window := if window < 1 then 1 else window
  if window > 8 then 8 else window

/-- What the worker does with a message: the session after it, and the answer. -/
structure Handled where
  connection : Connection
  lv : LiveState
  accepted : Option Message
  answer : Option ToBrowser

def unchanged (c : Connection) (lv : LiveState) (answer : Option ToBrowser) : Handled where
  connection := c
  lv := lv
  accepted := none
  answer := answer

/-- The number of segments of the session. -/
def liveSegs (lv : LiveState) : Nat :=
  if wsLiveGetTotal lv = 0 then 0 else u64 (wsLiveGetTotal lv + segSize - 1) / segSize

/-- {lit}`exp_len` -/
def expectedLen (lv : LiveState) (seg : Nat) : Nat :=
  if seg < liveSegs lv ∧ seg = liveSegs lv - 1 then wsLiveGetTotal lv - seg * segSize
  else segSize

/-- The connection behind a binary message. -/
def idle : Connection where
  pendingSeg := none
  closed := false

/-- The message is written if there is a slot for it. -/
def storeChunk (lv : LiveState) (seg : Nat) (m : Message) : Handled :=
  let r := wsLiveTryWrite lv m
  if r.2 = 0 then
    { connection := idle, lv := r.1, accepted := some m, answer := some (.ack seg) }
  else if r.2 = -2 then unchanged idle r.1 (some (.busy seg))
  else unchanged idle r.1 (some .error)

/-- A reassembled binary message that is addressed to the segment. -/
def applyChunk (sid : String) (lv : LiveState) (seg len : Nat) (data : Nat -> UInt8) :
    Handled :=
  if !wsLiveCheckId lv sid || !wsLiveSessionActive lv || decide (liveSegs lv ≤ seg) ||
      len != expectedLen lv seg then unchanged idle lv (some .error)
  else storeChunk lv seg { offset := u64 (seg * segSize), len := len, data := data }

/-- {lit}`handle_text_msg` for an authorized connection, and the end of a binary message. -/
def handle (sid : String) (lv : LiveState) (c : Connection) : ToServer -> Handled
  | .seg segment =>
      if wsLiveCheckId lv sid then
        unchanged { c with pendingSeg := if segment ≤ 0x7fffffff then some segment else none } lv
          none
      else unchanged c lv (some .error)
  | .chunk len data =>
      match c.pendingSeg with
      | none => unchanged { c with closed := true } lv none
      | some seg => applyChunk sid lv seg len data
  | .finish =>
      if wsLiveCheckId lv sid then
        let r := wsLiveFinish lv
        unchanged c r.1 (some (if r.2 = 0 then .complete else .error))
      else unchanged c lv (some .error)
  | .ping => unchanged c lv (some .pong)
  | .stats => unchanged c lv none

/-!
# The upload
-/

structure UploadWorld where
  browser : Browser
  connection : Connection
  toServer : List ToServer
  toBrowser : List ToBrowser
  live : Pool LiveWorld LivePoint

/-- Events of the browser, the worker and the other threads of the console; a reader that
misses a segment asks for it at any time. -/
inductive UploadEvent where
  | pump
  | retryTimer (segment : Nat)
  | readEnds
  | readFails
  | hasPending
  | stats
  | ping
  | installed
  | fails
  | cancel
  | stop
  | receive
  | serve
  | seek (segment : Nat)
  | session (l : Move LiveCall LiveAnswer)

namespace UploadWorld

def takes (options : SenderOptions) (w : UploadWorld) (event : SenderEvent) :
    Option UploadWorld :=
  (w.browser.takes options event).map (fun browser => { w with browser := browser })

/-- The awaited read has ended, and its segment is sent. -/
def readEnds (file : UploadFile) (options : SenderOptions) (w : UploadWorld) :
    Option UploadWorld :=
  let event := SenderEvent.readEnds w.browser.answers .sent
  (w.takes options event).map (fun u =>
    { u with
      toServer := u.toServer ++ file.sendSegment (w.browser.world.sends options event) })

/-- The awaited read has failed, which ends an upload that is still going on. -/
def readFails (options : SenderOptions) (w : UploadWorld) : Option UploadWorld :=
  let active := !w.browser.world.sender.inactive w.browser.answers.entry
  (w.takes options (SenderEvent.readEnds w.browser.answers .readFails)).map (fun u =>
    { u with browser := { u.browser with done := u.browser.done || active } })

/-- The install has completed: {lit}`watchFinish`. -/
def installed (file : UploadFile) (w : UploadWorld) : UploadWorld :=
  if w.browser.shouldStop then w
  else if w.browser.world.sender.acknowledged.size < segmentCount file.size then
    { w with browser := { w.browser with done := true } }
  else
    { w with
      browser := { w.browser with finished := true }
      toServer := w.toServer ++ [ToServer.finish] }

def receive (options : SenderOptions) (w : UploadWorld) : Option UploadWorld :=
  match w.toBrowser with
  | [] => none
  | message :: rest =>
      (w.browser.onmessage options message).map (fun browser =>
        { w with browser := browser, toBrowser := rest })

def serve (file : UploadFile) (w : UploadWorld) : Option UploadWorld :=
  if w.connection.closed then none
  else
    match w.toServer with
    | [] => none
    | message :: rest =>
        let h := handle file.sid w.live.shared.lv w.connection message
        some
          { w with
            connection := h.connection
            toServer := rest
            toBrowser := w.toBrowser ++ h.answer.toList
            live := { w.live with
              shared :=
                { lv := h.lv
                  accepted := (h.accepted.map Message.toWrite).toList ++
                    w.live.shared.accepted } } }

def next (file : UploadFile) (options : SenderOptions) (w : UploadWorld) :
    UploadEvent -> Option UploadWorld
  | .pump => w.takes options (.pump w.browser.answers)
  | .retryTimer segment => w.takes options (.retryTimer w.browser.answers segment)
  | .readEnds => w.readEnds file options
  | .readFails => w.readFails options
  | .hasPending => w.takes options .hasPending
  | .stats => some { w with toServer := w.toServer ++ [ToServer.stats] }
  | .ping => some { w with toServer := w.toServer ++ [ToServer.ping] }
  | .installed => some (w.installed file)
  | .fails => some { w with browser := { w.browser with done := true } }
  | .cancel => some { w with browser := { w.browser with canceled := true } }
  | .stop => if w.browser.done then w.takes options .stop else none
  | .receive => w.receive options
  | .serve => w.serve file
  | .seek segment => some { w with toBrowser := w.toBrowser ++ [ToBrowser.seek segment] }
  | .session l => (liveProgram.system.next w.live l).map (fun live => { w with live := live })

end UploadWorld

def uploadSystem (file : UploadFile) (options : SenderOptions) :
    System UploadWorld UploadEvent where
  next := UploadWorld.next file options

/-!
# The beginning
-/

/-- {lit}`baselineSeg` -/
def baselineSeg (offset : Nat) : Nat :=
  (offset + segSize - 1) / segSize

/-- The options for a session that answered {lit}`offset` as its resume point. -/
def uploadOptions (file : UploadFile) (offset : Nat) (lv : LiveState) : SenderOptions where
  totalSegments := segmentCount file.size
  startSegment := baselineSeg offset
  demandWindow := min 8 (wsLiveDemandWindow lv)
  maxInFlight := 2

/-- The upload when the worker has answered {lit}`ready`. -/
def ready (options : SenderOptions) (offset : Nat) (p : Pool LiveWorld LivePoint) :
    UploadWorld where
  browser :=
    { world := SenderWorld.create options
        (OrderedSet.empty.addAll (List.range (baselineSeg offset)))
      finished := false, done := false, canceled := false }
  connection := { pendingSeg := none, closed := false }
  toServer := []
  toBrowser := []
  live := p

/-!
# The other threads of the console
-/

/-- The call neither writes nor tears the session down. -/
def QuietCall : LiveCall -> Prop
  | .write _ => False
  | .tryWrite _ => False
  | .destroy => False
  | .create _ _ totalSize _ => totalSize ≤ maxTotal
  | _ => True

/-- The thread is in no call that writes or tears the session down. -/
def QuietPoint : LivePoint -> Prop
  | .enter c => QuietCall c
  | .writeBlocked _ _ _ => False
  | _ => True

/-- The session lasts, and only the connection writes to it. -/
def OneUploader (_w : UploadWorld) : UploadEvent -> Prop
  | .session (Move.call c) => QuietCall c
  | _ => True

instance (c : LiveCall) : Decidable (QuietCall c) := by
  unfold QuietCall
  split <;> infer_instance

instance (w : UploadWorld) (event : UploadEvent) : Decidable (OneUploader w event) := by
  unfold OneUploader
  split <;> infer_instance

end DirectUpload
end PkgManager
