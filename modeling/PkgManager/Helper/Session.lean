import PkgManager.Bytes.Channel
import PkgManager.Helper.Frames
import PkgManager.Transition.System

/-!
# The install service and its helper

The daemon keeps one service.  Each start launches a helper process of its own
and talks to it over a socket; a helper whose connection was closed may still be
working.  One step moves some bytes between a party and the socket, lets a
transfer fail, or lets a helper answer a frame it has read.  The logging of the
calls is left out.
-/

namespace PkgManager
namespace Helper

open Channel Transition

/-!
# The helper process
-/

/-- The calls into the system, with the arguments the helper passes. -/
inductive NativeCall where
  | install (uri contentName iconUrl : List UInt8)
  | status (contentId : List UInt8)
  | shortcut (titleId directory : List UInt8)
deriving DecidableEq

/-- What the system answers to a call. -/
structure NativeResult where
  result : Int32 := 0
  info : PkgInfo := {}
  status : InstallStatus := {}
  nativeMs : UInt32 := 0
  nativeErrno : Int32 := 0
deriving DecidableEq

/-- Where {lit}`install_helper_serve` is in its loop. -/
inductive HelperPoint where
  | receive (got : List Sent)
  | reply (left : List Sent) (ends : Bool)
  | ended
deriving DecidableEq

structure HelperProcess where
  pid : Int32
  used : Bool := false
  installed : Bool := false
  info : PkgInfo := {}
  point : HelperPoint
deriving DecidableEq

def Request.isValid (r : Request) : Bool :=
  r.magic == INSTALL_IPC_MAGIC && r.version == INSTALL_IPC_VERSION && r.uri.isClosed &&
    r.name.isClosed && r.iconUrl.isClosed && r.titleId.isClosed && r.directory.isClosed

/-- What came of a request: the helper afterwards, the answer, the call made and
whether the session was terminated. -/
structure Served where
  helper : HelperProcess
  response : Response
  call : Option NativeCall := none
  terminated : Bool := false

def responseTo (h : HelperProcess) (r : Request) : Response where
  magic := INSTALL_IPC_MAGIC
  version := INSTALL_IPC_VERSION
  op := r.op
  pid := h.pid
  result := INSTALL_SERVICE_UNAVAILABLE

def PkgInfo.closed (info : PkgInfo) : PkgInfo :=
  { info with contentId := info.contentId.closed }

def InstallStatus.closed (status : InstallStatus) : InstallStatus :=
  { status with status := status.status.closed }

/-- One request of {lit}`install_helper_serve`, before the times are filled in. -/
def serveRequest (h : HelperProcess) (r : Request) (n : NativeResult) : Served :=
  let response := responseTo h r
  if r.op = INSTALL_IPC_INSTALL ∧ h.used = false then
    { helper := { h with used := true, installed := n.result == 0, info := n.info.closed }
      response := { response with result := n.result, info := n.info.closed }
      call := some (NativeCall.install r.uri.text r.name.text r.iconUrl.text) }
  else if r.op = INSTALL_IPC_STATUS ∧ h.installed = true then
    { helper := h
      response := { response with result := n.result, status := n.status.closed }
      call := some (NativeCall.status h.info.contentId.text) }
  else if r.op = INSTALL_IPC_SHORTCUT ∧ h.used = false then
    { helper := { h with used := true }
      response := { response with result := n.result }
      call := some (NativeCall.shortcut r.titleId.text r.directory.text) }
  else if r.op = INSTALL_IPC_CLOSE then
    { helper := h
      response := { response with result := n.result }
      terminated := true }
  else
    { helper := h, response := response }

def installHelperServe (h : HelperProcess) (r : Request) (n : NativeResult) : Served :=
  let served := serveRequest h r n
  { served with
    response := { served.response with nativeMs := n.nativeMs, nativeErrno := n.nativeErrno } }

/-!
# The state
-/

/-- {lit}`install_service_t`.  The descriptor is the number of the connection;
{lit}`cancelable` says that a callback is set. -/
structure Service where
  pid : Int32 := -1
  fd : Option Nat := none
  cancelable : Bool := false
  usable : Bool := false
deriving DecidableEq

structure Connection where
  toHelper : List Sent := []
  toClient : List Sent := []
  helper : HelperProcess
deriving DecidableEq

inductive Call where
  | start
  | status
  | close
deriving DecidableEq

/-- Where the call in progress is: in {lit}`open_service`, or in the two halves of
{lit}`exchange`. -/
inductive ClientPoint where
  | idle
  | opening (install : Request) (got : List Sent)
  | sending (call : Call) (serial : Nat) (left : List Sent)
  | receiving (call : Call) (serial : Nat) (got : List Sent)
deriving DecidableEq

/-- An answer a helper computed, for the frame it had read; a greeting answers no
frame. -/
structure Answer where
  conn : Nat
  frame : List Sent
  response : Response
deriving DecidableEq

structure NativeRecord where
  frame : List Sent
  call : NativeCall
deriving DecidableEq

/-- What a call hands to its caller beside the result. -/
inductive Output where
  | none
  | info (info : PkgInfo)
  | status (status : InstallStatus)
deriving DecidableEq

/-- A helper answer that a call returned: the number of the request, none where
the helper's greeting was returned, and the bytes received. -/
structure Returned where
  asked : Option Nat
  conn : Option Nat
  received : List Sent
  result : Int32
  output : Output
deriving DecidableEq

/-- {lit}`asked`, {lit}`answers`, {lit}`natives` and {lit}`returned` record the run. -/
structure IpcWorld where
  service : Service := {}
  conns : List Connection := []
  point : ClientPoint := ClientPoint.idle
  asked : List Request := []
  answers : List Answer := []
  natives : List NativeRecord := []
  returned : List Returned := []
deriving DecidableEq

/-!
# Steps of a helper
-/

/-- Where the helper is with this rest of its reply to be sent. -/
def afterReply (left : List Sent) (ends : Bool) : HelperPoint :=
  if left ≠ [] then HelperPoint.reply left ends
  else if ends then HelperPoint.ended
  else HelperPoint.receive []

/-- The helper sends or receives {lit}`count` bytes. -/
def Connection.helperMoves (c : Connection) (count : Nat) : Option Connection :=
  match c.helper.point with
  | HelperPoint.receive got =>
      if 0 < count ∧ count ≤ c.toHelper.length ∧ got.length + count ≤ 1964 then
        some { c with
          toHelper := c.toHelper.drop count
          helper := { c.helper with
            point := HelperPoint.receive (got ++ c.toHelper.take count) } }
      else none
  | HelperPoint.reply left ends =>
      if 0 < count ∧ count ≤ left.length then
        some { c with
          toClient := c.toClient ++ left.take count
          helper := { c.helper with point := afterReply (left.drop count) ends } }
      else none
  | HelperPoint.ended => none

/-- A transfer of the helper fails, or its watcher ends the process. -/
def Connection.helperEnds (c : Connection) : Connection :=
  { c with helper := { c.helper with point := HelperPoint.ended } }

/-- The helper takes up a whole frame. -/
def helperServes (w : IpcWorld) (k : Nat) (c : Connection) (n : NativeResult) :
    Option IpcWorld :=
  match c.helper.point with
  | HelperPoint.receive got =>
      let request := Request.ofBytes (content got)
      let served := installHelperServe c.helper request n
      if got.length ≠ 1964 then none
      else if request.isValid then
        some { w with
          conns := w.conns.set k { c with
            helper := { served.helper with
              point :=
                HelperPoint.reply (tagged w.answers.length served.response.bytes)
                  served.terminated } }
          answers := w.answers ++ [{ conn := k, frame := got, response := served.response }]
          natives :=
            w.natives ++ served.call.toList.map (fun call => { frame := got, call := call }) }
      else some { w with conns := w.conns.set k c.helperEnds }
  | _ => none

/-!
# Steps of the service
-/

inductive Failure where
  | timeout
  | canceled
  | disconnected
deriving DecidableEq

/-- A new helper process, with what its initialization gave. -/
structure Launch where
  pid : Int32
  initialized : Int32 := 0
  nativeMs : UInt32 := 0
  nativeErrno : Int32 := 0
  buildCommit : Chars 64 := Chars.ofText 64 []
deriving DecidableEq

def Launch.ready (l : Launch) : Response where
  magic := INSTALL_IPC_MAGIC
  version := INSTALL_IPC_VERSION
  op := INSTALL_IPC_READY
  result := l.initialized
  pid := l.pid
  nativeMs := l.nativeMs
  nativeErrno := l.nativeErrno
  buildCommit := l.buildCommit

/-- The arguments of {lit}`install_service_start`. -/
structure StartArgs where
  uri : Option (List UInt8)
  name : Option (List UInt8)
  iconUrl : Option (List UInt8) := none
  cancelable : Bool := false
deriving DecidableEq

/-- The request a start builds, where the texts fit. -/
def StartArgs.request (args : StartArgs) : Option Request :=
  match args.uri, args.name with
  | some uri, some name =>
      if uri.length ≥ 1024 ∨ name.length ≥ 320 ∨ args.iconUrl.any (fun t => t.length ≥ 512) then
        none
      else
        some {
          op := INSTALL_IPC_INSTALL
          uri := Chars.ofText 1024 uri
          name := Chars.ofText 320 name
          iconUrl := Chars.ofText 512 (args.iconUrl.getD []) }
  | _, _ => none

/-- {lit}`open_service` up to its receive: the callback may cancel it at once, and
the helper may fail to start. -/
def openService (w : IpcWorld) (install : Request) (cancelable canceledAtOnce : Bool)
    (launch : Option Launch) : IpcWorld :=
  let opened : Service := { cancelable := cancelable }
  if cancelable && canceledAtOnce then { w with service := opened }
  else
    match launch with
    | none => { w with service := opened }
    | some l =>
        let greeting := tagged w.answers.length l.ready.bytes
        { w with
          service := { opened with fd := some w.conns.length }
          conns := w.conns ++ [{
            helper := {
              pid := l.pid
              point := HelperPoint.reply greeting (l.initialized != 0) } }]
          answers := w.answers ++ [{ conn := w.conns.length, frame := [], response := l.ready }]
          point := ClientPoint.opening install [] }

def installServiceStart (w : IpcWorld) (args : StartArgs) (canceledAtOnce : Bool)
    (launch : Option Launch) : IpcWorld :=
  if w.service.fd.isSome ∨ w.service.pid > 0 then w
  else
    match args.request with
    | none => w
    | some install => openService w install args.cancelable canceledAtOnce launch

/-- {lit}`exchange` up to its send. -/
def exchange (w : IpcWorld) (call : Call) (request : Request) : IpcWorld :=
  let r := { request with magic := INSTALL_IPC_MAGIC, version := INSTALL_IPC_VERSION }
  { w with
    asked := w.asked ++ [r]
    point := ClientPoint.sending call w.asked.length (tagged w.asked.length r.bytes) }

def installServiceStatus (w : IpcWorld) : IpcWorld :=
  exchange w Call.status { op := INSTALL_IPC_STATUS }

/-- The second half of {lit}`install_service_close`. -/
def closed (w : IpcWorld) : IpcWorld :=
  { w with service := {}, point := ClientPoint.idle }

def installServiceClose (w : IpcWorld) : IpcWorld :=
  if w.service.fd.isSome ∧ w.service.usable then
    exchange { w with service := { w.service with cancelable := false } } Call.close
      { op := INSTALL_IPC_CLOSE }
  else closed w

/-- A call comes back: a close still closes the descriptor. -/
def Call.returns (call : Call) (w : IpcWorld) : IpcWorld :=
  match call with
  | Call.close => closed w
  | _ => { w with point := ClientPoint.idle }

def Call.op : Call -> UInt32
  | Call.start => INSTALL_IPC_INSTALL
  | Call.status => INSTALL_IPC_STATUS
  | Call.close => INSTALL_IPC_CLOSE

/-- The greeting names the process. -/
def Service.named (s : Service) (op : UInt32) (r : Response) : Service :=
  if s.pid ≤ 0 ∧ op = INSTALL_IPC_READY then { s with pid := r.pid } else s

/-- The checks of {lit}`receive_response`: the service afterwards and whether the
response is returned. -/
def receiveResponse (s : Service) (op : UInt32) (r : Response) : Service × Bool :=
  if r.magic ≠ INSTALL_IPC_MAGIC ∨ r.version ≠ INSTALL_IPC_VERSION ∨ r.op ≠ op ∨
      r.pid ≠ (s.named op r).pid then
    ({ s.named op r with usable := false }, false)
  else (s.named op r, true)

def Call.output (call : Call) (r : Response) : Output :=
  if r.result ≠ 0 then Output.none
  else
    match call with
    | Call.start => Output.info r.info.closed
    | Call.status => Output.status r.status.closed
    | Call.close => Output.none

def recordReturned (w : IpcWorld) (call : Call) (asked : Option Nat) (received : List Sent) :
    IpcWorld :=
  let r := Response.ofBytes (content received)
  { w with
    returned := w.returned ++ [{
      asked := asked
      conn := w.service.fd
      received := received
      result := r.result
      output := call.output r }] }

/-- The greeting has arrived. -/
def readyReceived (w : IpcWorld) (install : Request) (got : List Sent) : IpcWorld :=
  let r := Response.ofBytes (content got)
  let checked := receiveResponse w.service INSTALL_IPC_READY r
  if checked.2 = false then { w with service := checked.1, point := ClientPoint.idle }
  else if r.result ≠ 0 then
    recordReturned { w with service := checked.1, point := ClientPoint.idle } Call.close none got
  else
    exchange { w with service := { checked.1 with usable := true, pid := r.pid } } Call.start
      install

/-- The answer to a request has arrived. -/
def answerReceived (w : IpcWorld) (call : Call) (serial : Nat) (got : List Sent) : IpcWorld :=
  let checked := receiveResponse w.service call.op (Response.ofBytes (content got))
  let w := { w with service := checked.1 }
  if checked.2 then call.returns (recordReturned w call (some serial) got) else call.returns w

/-- The call in progress sends or receives {lit}`count` bytes over connection
{lit}`k`. -/
def clientMovesOn (w : IpcWorld) (k : Nat) (c : Connection) (count : Nat) : Option IpcWorld :=
  match w.point with
  | ClientPoint.idle => none
  | ClientPoint.opening install got =>
      if 0 < count ∧ count ≤ c.toClient.length ∧ got.length + count ≤ 752 then
        let w := { w with conns := w.conns.set k { c with toClient := c.toClient.drop count } }
        let got := got ++ c.toClient.take count
        if got.length = 752 then some (readyReceived w install got)
        else some { w with point := ClientPoint.opening install got }
      else none
  | ClientPoint.sending call serial left =>
      if 0 < count ∧ count ≤ left.length then
        some { w with
          conns := w.conns.set k { c with toHelper := c.toHelper ++ left.take count }
          point :=
            if left.drop count = [] then ClientPoint.receiving call serial []
            else ClientPoint.sending call serial (left.drop count) }
      else none
  | ClientPoint.receiving call serial got =>
      if 0 < count ∧ count ≤ c.toClient.length ∧ got.length + count ≤ 752 then
        let w := { w with conns := w.conns.set k { c with toClient := c.toClient.drop count } }
        let got := got ++ c.toClient.take count
        if got.length = 752 then some (answerReceived w call serial got)
        else some { w with point := ClientPoint.receiving call serial got }
      else none

def clientMoves (w : IpcWorld) (count : Nat) : Option IpcWorld :=
  match w.service.fd with
  | none => none
  | some k =>
      match w.conns[k]? with
      | none => none
      | some c => clientMovesOn w k c count

/-- The transfer of the call in progress fails. -/
def clientFails (w : IpcWorld) (failure : Failure) : Option IpcWorld :=
  let failed := { w with service := { w.service with usable := false } }
  if failure = Failure.canceled ∧ w.service.cancelable = false then none
  else
    match w.point with
    | ClientPoint.idle => none
    | ClientPoint.opening _ _ => some { failed with point := ClientPoint.idle }
    | ClientPoint.sending call _ _ => some (call.returns failed)
    | ClientPoint.receiving call _ _ => some (call.returns failed)

/-!
# The system
-/

inductive Step where
  | start (args : StartArgs) (canceledAtOnce : Bool) (launch : Option Launch)
  | status
  | close
  | clientMoves (count : Nat)
  | clientFails (failure : Failure)
  | helperMoves (k count : Nat)
  | helperEnds (k : Nat)
  | helperServes (k : Nat) (native : NativeResult)

/-- One call at a time is in progress. -/
def called (w : IpcWorld) (after : IpcWorld) : Option IpcWorld :=
  match w.point with
  | ClientPoint.idle => some after
  | _ => none

def ipcNext (w : IpcWorld) : Step -> Option IpcWorld
  | Step.start args canceledAtOnce launch =>
      called w (installServiceStart w args canceledAtOnce launch)
  | Step.status => called w (installServiceStatus w)
  | Step.close => called w (installServiceClose w)
  | Step.clientMoves count => clientMoves w count
  | Step.clientFails failure => clientFails w failure
  | Step.helperMoves k count =>
      w.conns[k]?.bind (fun c =>
        (c.helperMoves count).map (fun c' => { w with conns := w.conns.set k c' }))
  | Step.helperEnds k =>
      w.conns[k]?.map (fun c => { w with conns := w.conns.set k c.helperEnds })
  | Step.helperServes k native => w.conns[k]?.bind (fun c => helperServes w k c native)

def ipcSystem : System IpcWorld Step where
  next := ipcNext

def ipcStart : IpcWorld := {}

end Helper
end PkgManager
