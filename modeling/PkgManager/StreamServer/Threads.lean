import PkgManager.StreamServer.Request
import PkgManager.Transition.ThreadPool

/-!
# Handlers, starters and stoppers

A request handler takes the lock several times for one request, and a stop
takes it twice.  The sections of other threads may come in between.
-/

namespace PkgManager
namespace StreamServer

open Transition
open WebSocket (strstr crlf2)

/-- The session, the threads asleep on {lit}`vs_cond`, and the number of streams
opened.  The streams of the sessions started so far, the oldest first, and the
names they have been pinned to are history. -/
structure StreamWorld where
  ss : StreamSession
  waiters : List Nat
  opened : Nat
  sessions : List VirtualStream
  pins : List (Nat × String)

/-- What a request was checked against, and how many sessions had been started
by then. -/
structure NameCheck where
  base : String
  pinned : String
  checkedIn : Nat
deriving DecidableEq

/-- A part of a body: the stream it was read from, how many sessions had been
started when the connection opened that stream for itself, and how many when the
part was sent. -/
structure Chunk where
  source : VirtualStream
  privateSince : Option Nat
  offset : Nat
  length : Nat
  sentIn : Nat
deriving DecidableEq

structure Reply where
  head : Head
  check : Option NameCheck
  chunks : List Chunk
deriving DecidableEq

/-- A private SMB session, with the stream it was opened for. -/
structure PrivateSmb where
  vs : VirtualStream
  openedIn : Nat
deriving DecidableEq

/-- The locals of {lit}`serve_connection`, and what it has answered, the newest
first. -/
structure Conn where
  reqNo : Nat := 0
  smb : Option PrivateSmb := none
  replies : List Reply := []
deriving DecidableEq

/-- An answer whose body is being sent. -/
structure Body where
  reply : Reply
  keep : Bool
  off : Nat
deriving DecidableEq

inductive ConnAt where
  | opening
  | openSmb (vs : VirtualStream) (openedIn : Nat)
  | loop
  | recv
  | nameCheck (req : List Char)
  | sizeCheck (req : List Char) (check : NameCheck)
  | bodyAcquire (b : Body)
  | body (vs : VirtualStream) (b : Body)
  | bodyRead (vs : VirtualStream) (b : Body)
  | bodyRelease (vs : VirtualStream) (b : Body)
  | closed
deriving DecidableEq

/-- What a stop goes on with: a start stops the running session first. -/
inductive AfterStop where
  | returns
  | starts (pkgPath : String) (sessionName : Option String)
deriving DecidableEq

inductive StreamPoint where
  | conn (c : Conn) (k : ConnAt)
  | startEnter (pkgPath : String) (sessionName : Option String)
  | startOpen (pkgPath : String) (sessionName : Option String)
  | startCommit (vs : VirtualStream) (sessionName : Option String)
  | setName (sessionName : Option String)
  | setIcon (iconSize : Nat) (iconName : String)
  | stopEnter
  | stopFirst (calledIn : Nat) (next : AfterStop)
  | stopSecond (calledIn : Nat) (next : AfterStop)
  | stopWaiting (calledIn : Nat) (next : AfterStop)
  | returned (r : Int)
deriving DecidableEq

inductive StreamCall where
  | connect
  | start (pkgPath : String) (sessionName : Option String)
  | setName (sessionName : Option String)
  | setIcon (iconSize : Nat) (iconName : String)
  | stop
deriving DecidableEq

def StreamCall.entry : StreamCall -> StreamPoint
  | StreamCall.connect => StreamPoint.conn {} ConnAt.opening
  | StreamCall.start pkgPath sessionName => StreamPoint.startEnter pkgPath sessionName
  | StreamCall.setName sessionName => StreamPoint.setName sessionName
  | StreamCall.setIcon iconSize iconName => StreamPoint.setIcon iconSize iconName
  | StreamCall.stop => StreamPoint.stopEnter

/-- The header block that has arrived, whether sends, allocations and openings
succeed, how many bytes a read returns and how many of them are not sent, the
stream of a new session, and which sleeper a signal wakes. -/
structure StreamAnswer where
  request : Option (List Char) := none
  sent : Bool := true
  allocated : Bool := true
  smbOpened : Bool := true
  count : Nat := 0
  unsent : Nat := 0
  stream : Option (Nat × Option String) := none
  bound : Bool := true
  threadStarts : Bool := true
  woken : Nat := 0
deriving DecidableEq

/-!
# A request
-/

/-- The connection goes on after an answer. -/
def servesNext (req : List Char) : Bool :=
  keepWanted req (scanRequest (requestLine req)) && (strstr crlf2 (cString req)).isSome

def Conn.replied (c : Conn) (reply : Reply) (goesOn : Bool) : Conn × ConnAt :=
  ({ c with replies := reply :: c.replies }, if goesOn then ConnAt.loop else ConnAt.closed)

/-- The checks that need no lock. -/
def recvStep (c : Conn) (a : StreamAnswer) : Conn × ConnAt :=
  match a.request with
  | none => (c, ConnAt.closed)
  | some req =>
      let r := scanRequest (requestLine req)
      let goesOn := a.sent && servesNext req
      if !r.isGet && !r.isHead then
        c.replied { head := Head.methodNotAllowed, check := none, chunks := [] } goesOn
      else if !"/stream/".toList.isPrefixOf r.route then
        c.replied { head := Head.notFound, check := none, chunks := [] } goesOn
      else (c, ConnAt.nameCheck req)

/-- The icon is asked for, and it can be copied. -/
def servesIcon (ss : StreamSession) (a : StreamAnswer) (base : String) : Bool :=
  ss.iconName != "" && base == ss.iconName && decide (ss.iconSize > 0) && a.allocated

/-- A package name is served: it is the pinned one, or none is pinned. -/
def admits (check : NameCheck) : Bool :=
  if check.pinned != "" then check.base == check.pinned else isPkg check.base

def nameStep (w : StreamWorld) (c : Conn) (a : StreamAnswer) (req : List Char) : Conn × ConnAt :=
  let base := (scanRequest (requestLine req)).base
  let check :=
    { base := base, pinned := w.ss.sessionName, checkedIn := w.sessions.length : NameCheck }
  let goesOn := a.sent && servesNext req
  if servesIcon w.ss a base then
    c.replied { head := Head.icon w.ss.iconSize, check := some check, chunks := [] } goesOn
  else if admits check then (c, ConnAt.sizeCheck req check)
  else c.replied { head := Head.notFound, check := some check, chunks := [] } goesOn

def sizeStep (w : StreamWorld) (c : Conn) (a : StreamAnswer) (req : List Char)
    (check : NameCheck) : Conn × ConnAt :=
  let outcome := findRange (cString req) w.ss.totalSize
  let reply :=
    { head := packageHead w.ss.totalSize outcome, check := some check, chunks := [] : Reply }
  if !a.sent then c.replied reply false
  else if outcome = RangeOutcome.unsatisfiable ∨ (scanRequest (requestLine req)).isHead then
    c.replied reply (servesNext req)
  else if !a.allocated then c.replied reply false
  else (c, ConnAt.bodyAcquire { reply := reply, keep := servesNext req, off := reply.head.first })

/-- The private session is read when there is one. -/
def Conn.readsFrom (c : Conn) (vs : VirtualStream) : VirtualStream × Option Nat :=
  match c.smb with
  | some smb => (smb.vs, some smb.openedIn)
  | none => (vs, none)

def Body.send (b : Body) (w : StreamWorld) (source : VirtualStream × Option Nat)
    (length : Nat) : Body :=
  { b with
    reply := { b.reply with
      chunks := b.reply.chunks ++
        [{ source := source.1, privateSince := source.2, offset := b.off, length := length
           sentIn := w.sessions.length }] } }

/-- A read returns at most what it is asked for. -/
def bodyReadStep (console : Console) (w : StreamWorld) (c : Conn) (a : StreamAnswer)
    (vs : VirtualStream) (b : Body) : Option ConnAt :=
  let want := min (b.reply.head.last - b.off + 1) console.sendChunk
  if a.count > want then none
  else if a.count = 0 then some (ConnAt.bodyRelease vs b)
  else
    let b := b.send w (c.readsFrom vs) (a.count - a.unsent)
    if a.unsent > 0 then some (ConnAt.bodyRelease vs b)
    else some (ConnAt.body vs { b with off := b.off + a.count })

/-!
# The sections
-/

def acquire (w : StreamWorld) : StreamWorld × Option VirtualStream :=
  ({ w with ss := (streamVsAcquire w.ss).1 }, (streamVsAcquire w.ss).2)

/-- A release may wake one of the sleepers. -/
def release (w : StreamWorld) (a : StreamAnswer) : StreamWorld :=
  { w with
    ss := (streamVsRelease w.ss).1
    waiters :=
      if (streamVsRelease w.ss).2 then w.waiters.eraseIdx (a.woken % w.waiters.length)
      else w.waiters }

def connStep (console : Console) (w : StreamWorld) (c : Conn) (a : StreamAnswer) :
    ConnAt -> Option (StreamWorld × Conn × ConnAt)
  | ConnAt.opening =>
      match acquire w with
      | (w', some vs) => some (w', c, ConnAt.openSmb vs w.sessions.length)
      | (w', none) => some (w', c, ConnAt.loop)
  | ConnAt.openSmb vs openedIn =>
      let smb :=
        if vs.smbUrl.isSome && a.smbOpened then some { vs := vs, openedIn := openedIn : PrivateSmb }
        else none
      some (release w a, { c with smb := smb }, ConnAt.loop)
  | ConnAt.loop =>
      if c.reqNo < maxReqPerConn ∧ w.ss.running then
        some (w, { c with reqNo := c.reqNo + 1 }, ConnAt.recv)
      else some (w, c, ConnAt.closed)
  | ConnAt.recv => some (w, recvStep c a)
  | ConnAt.nameCheck req => some (w, nameStep w c a req)
  | ConnAt.sizeCheck req check => some (w, sizeStep w c a req check)
  | ConnAt.bodyAcquire b =>
      match acquire w with
      | (w', some vs) => some (w', c, ConnAt.body vs b)
      | (w', none) => some (w', c.replied b.reply false)
  | ConnAt.body vs b =>
      if b.off ≤ b.reply.head.last ∧ w.ss.running then some (w, c, ConnAt.bodyRead vs b)
      else some (w, c, ConnAt.bodyRelease vs b)
  | ConnAt.bodyRead vs b => (bodyReadStep console w c a vs b).map (fun k => (w, c, k))
  | ConnAt.bodyRelease _ b =>
      some (release w a, c.replied b.reply (decide (b.off > b.reply.head.last) && b.keep))
  | ConnAt.closed => none

def nameSession (w : StreamWorld) (name : String) : StreamWorld :=
  { w with pins := if name = "" then w.pins else (w.sessions.length, name) :: w.pins }

def AfterStop.point : AfterStop -> StreamPoint
  | AfterStop.returns => StreamPoint.returned 0
  | AfterStop.starts pkgPath sessionName => StreamPoint.startOpen pkgPath sessionName

/-- The opening of the package and of the listening socket. -/
def startOpenStep (w : StreamWorld) (a : StreamAnswer) (sessionName : Option String) :
    Section StreamWorld StreamPoint :=
  match a.stream with
  | none => { shared := w, point := StreamPoint.returned (-1) }
  | some (totalPkgSize, smbUrl) =>
      let vs := { id := w.opened, totalPkgSize := totalPkgSize, smbUrl := smbUrl : VirtualStream }
      { shared := { w with opened := w.opened + 1 }
        point := if a.bound then StreamPoint.startCommit vs sessionName
          else StreamPoint.returned (-1) }

def startCommitStep (w : StreamWorld) (a : StreamAnswer) (vs : VirtualStream)
    (sessionName : Option String) : Section StreamWorld StreamPoint :=
  if a.threadStarts then
    { shared := nameSession
        { w with ss := commitSession w.ss vs sessionName, sessions := w.sessions ++ [vs] }
        (pinnedName sessionName)
      point := StreamPoint.returned 0 }
  else { shared := { w with ss := commitFailed w.ss }, point := StreamPoint.returned (-1) }

/-- The second section of a stop, which sleeps while there are references. -/
def stopSecondStep (w : StreamWorld) (t : Nat) (calledIn : Nat) (next : AfterStop) :
    Section StreamWorld StreamPoint :=
  if w.ss.vsRefs > 0 then
    { shared := { w with waiters := w.waiters ++ [t] }
      point := StreamPoint.stopWaiting calledIn next }
  else { shared := { w with ss := tearDown w.ss }, point := next.point }

def streamStep (console : Console) (w : StreamWorld) (t : Nat) (a : StreamAnswer) :
    StreamPoint -> Option (Section StreamWorld StreamPoint)
  | StreamPoint.conn c k =>
      (connStep console w c a k).map
        (fun r => { shared := r.1, point := StreamPoint.conn r.2.1 r.2.2 })
  | StreamPoint.startEnter pkgPath sessionName =>
      if pkgPath = "" then some { shared := w, point := StreamPoint.returned (-1) }
      else if w.ss.running then
        some
          { shared := w
            point := StreamPoint.stopFirst w.sessions.length (AfterStop.starts pkgPath sessionName) }
      else some { shared := w, point := StreamPoint.startOpen pkgPath sessionName }
  | StreamPoint.startOpen _ sessionName => some (startOpenStep w a sessionName)
  | StreamPoint.startCommit vs sessionName => some (startCommitStep w a vs sessionName)
  | StreamPoint.setName sessionName =>
      some
        { shared := nameSession { w with ss := setSessionName w.ss sessionName }
            (pinnedName sessionName)
          point := StreamPoint.returned 0 }
  | StreamPoint.setIcon iconSize iconName =>
      some
        { shared := { w with ss := setIcon w.ss iconSize iconName }
          point := StreamPoint.returned 0 }
  | StreamPoint.stopEnter =>
      some { shared := w, point := StreamPoint.stopFirst w.sessions.length AfterStop.returns }
  | StreamPoint.stopFirst calledIn next =>
      some
        { shared := { w with ss := stopRunning w.ss }
          point := StreamPoint.stopSecond calledIn next }
  | StreamPoint.stopSecond calledIn next => some (stopSecondStep w t calledIn next)
  | StreamPoint.stopWaiting calledIn next =>
      if t ∈ w.waiters then none else some (stopSecondStep w t calledIn next)
  | StreamPoint.returned _ => none

def streamProgram (console : Console) :
    Program StreamWorld StreamPoint StreamCall StreamAnswer where
  entry := StreamCall.entry
  step p t x a := streamStep console p.shared t a x

/-!
# What a thread holds
-/

/-- The stream that the thread holds a reference to. -/
def ConnAt.held : ConnAt -> Option VirtualStream
  | ConnAt.openSmb vs _ => some vs
  | ConnAt.body vs _ => some vs
  | ConnAt.bodyRead vs _ => some vs
  | ConnAt.bodyRelease vs _ => some vs
  | _ => none

def StreamPoint.held : StreamPoint -> Option VirtualStream
  | StreamPoint.conn _ k => k.held
  | _ => none

/-- The stop has been called and has not finished; the number of sessions that
had been started when it was called. -/
def StreamPoint.stopCalled : StreamPoint -> Option Nat
  | StreamPoint.stopFirst calledIn _ => some calledIn
  | StreamPoint.stopSecond calledIn _ => some calledIn
  | StreamPoint.stopWaiting calledIn _ => some calledIn
  | _ => none

def noThreads : Pool StreamWorld StreamPoint where
  shared := { ss := noSession, waiters := [], opened := 0, sessions := [], pins := [] }
  threads := []

end StreamServer
end PkgManager
