import PkgManager.Live.Session
import PkgManager.WebSocket.Frame
import PkgManager.Transition.ThreadPool

/-!
# Upload sessions and their owner

The functions of {lit}`ws_upload.c` on the live session, the owner's token and
the uplink.  A section that holds {lit}`g_owner_mu` runs as a whole.
-/

namespace PkgManager
namespace Upload

open Live

/-- {lit}`WS_DIRECT_MAX_TOTAL` -/
def directMaxTotal : Nat := 274877906944

structure UploadWorld where
  lv : LiveState
  /-- {lit}`g_owner`, empty before the first owned session. -/
  owner : String
  ownerSid : String
  ownerFilename : String
  ownerTotal : Nat
  /-- {lit}`g_uplink_fd` -/
  uplink : Option Nat
  /-- History: the token and the id of the last session, when
  {lit}`ws_direct_init_owned` started it. -/
  ownedBy : Option (String × String)
  /-- History: the ids of all sessions so far. -/
  ids : List String

/-!
# Starting a session
-/

/-- A session is started by the owner, or by a connection when there is none. -/
def recordStart (w : UploadWorld) (lv : LiveState) : UploadWorld :=
  if !w.lv.active && lv.active then
    { w with lv := lv, ownedBy := none, ids := lv.sessionId :: w.ids }
  else { w with lv := lv }

def wsDirectInitSession (w : UploadWorld) (env : CreateEnv) (filename : String)
    (totalSize : Nat) : UploadWorld × Int :=
  if filename = "" ∨ totalSize = 0 ∨ totalSize > directMaxTotal then (w, -1)
  else
    let r := wsLiveCreate w.lv env filename totalSize 0
    (recordStart w r.1, r.2)

def wsDirectOwnerMatches (w : UploadWorld) (owner sid : String) : Bool :=
  owner != "" && sid != "" && w.owner != "" && owner == w.owner && sid == w.ownerSid &&
    wsLiveCheckId w.lv sid

def resumesOwned (w : UploadWorld) (filename : String) (totalSize : Nat) (owner : String)
    (resumeSid : String) : Bool :=
  w.owner != "" && resumeSid != "" && owner == w.owner && resumeSid == w.ownerSid &&
    filename == w.ownerFilename && totalSize == w.ownerTotal && wsLiveCheckId w.lv resumeSid

def wsDirectInitOwned (w : UploadWorld) (env : CreateEnv) (filename : String)
    (totalSize : Nat) (owner resumeSid : String) : UploadWorld × Int :=
  if owner.length < 32 ∨ owner.length > 64 ∨ filename = "" ∨ totalSize = 0 ∨
      totalSize > directMaxTotal then (w, -1)
  else if wsLiveSessionActive w.lv then
    (w, if resumesOwned w filename totalSize owner resumeSid then 0 else -2)
  else
    let r := wsDirectInitSession w env filename totalSize
    if r.2 = 0 then
      ({ r.1 with
          owner := owner
          ownerSid := r.1.lv.sessionId
          ownerFilename := cTruncate 256 filename
          ownerTotal := totalSize
          ownedBy := some (owner, r.1.lv.sessionId) }, 0)
    else r

/-!
# Ending a session
-/

/-- What {lit}`installer_cancel` does to the session when it cancels an
install. -/
def installerCancelLive (w : UploadWorld) : UploadWorld :=
  { w with lv := wsLiveDestroy (wsLiveAbort w.lv) }

def wsDirectCancelSession (w : UploadWorld) : UploadWorld :=
  { w with uplink := none, lv := wsLiveDestroy (wsLiveAbort w.lv) }

/-- {lit}`installing` says that {lit}`installer_cancel` finds an install that it
can cancel. -/
def wsDirectCancelOwned (w : UploadWorld) (owner sid : String) (installing : Bool) :
    UploadWorld × Int :=
  if w.owner != "" && owner == w.owner && sid == w.ownerSid && wsLiveCheckId w.lv sid then
    (if installing then installerCancelLive w else wsDirectCancelSession w, 0)
  else (w, -1)

end Upload
end PkgManager

/-!
# Connections and the owner's requests

A connection handles one message after the other.  A message that needs more
than one lock goes through several sections, and the sections of other threads
may come in between.
-/

namespace PkgManager
namespace Upload

open Live
open Transition
open WebSocket (InitArgs Control controlOf)

/-- The locals of {lit}`ws_conn_worker`.  The pairs of token and session id that
the peer has sent are history. -/
structure Conn where
  authorized : Bool := false
  authorizedSid : String := ""
  pendingSeg : Int := -1
  finishReceived : Bool := false
  presented : List (String × String) := []

/-- The next whole message of the peer, or the end of the connection. -/
inductive Incoming where
  | text (msg : List Char)
  | binary (len : Nat) (data : Nat -> UInt8)
  | closed

/-- The sections of {lit}`ws_direct_cancel_session`. -/
inductive CancelStage where
  | uplink
  | abort
  | destroy
deriving DecidableEq

inductive ConnAt where
  | idle
  | initMatches (args : InitArgs)
  | initSameFile (args : InitArgs) (sid : String)
  | initCreate (args : InitArgs)
  | initUplink (sid : String)
  | finishing
  | canceling (leaving : Bool) (stage : CancelStage)
  | binaryCheck (len : Nat) (data : Nat -> UInt8) (total : Nat)
  | binaryActive (len : Nat) (data : Nat -> UInt8) (total : Nat)
  | binaryStore (len : Nat) (data : Nat -> UInt8)
  | leaving
  | leaveCancel
  | leaveActive
  | gone

inductive UploadPoint where
  | conn (c : Conn) (k : ConnAt)
  | initOwned (filename : String) (totalSize : Nat) (owner resumeSid : String)
  | cancelOwned (owner sid : String)
  | returned (r : Int)

inductive UploadCall where
  | connect
  | initOwned (filename : String) (totalSize : Nat) (owner resumeSid : String)
  | cancelOwned (owner sid : String)

/-- The message that has arrived, what a new session gets, whether an install
can be canceled, and whether the peer is gone when it is answered. -/
structure UploadAnswer where
  incoming : Incoming := Incoming.closed
  env : CreateEnv := {}
  installing : Bool := false
  sendFailed : Bool := false

def UploadCall.entry : UploadCall -> UploadPoint
  | UploadCall.connect => UploadPoint.conn {} ConnAt.idle
  | UploadCall.initOwned filename totalSize owner resumeSid =>
      UploadPoint.initOwned filename totalSize owner resumeSid
  | UploadCall.cancelOwned owner sid => UploadPoint.cancelOwned owner sid

/-!
# The messages of a connection
-/

/-- The connection was authorized for the session that is active now. -/
def Conn.holds (c : Conn) (w : UploadWorld) : Bool :=
  c.authorized && wsLiveCheckId w.lv c.authorizedSid

def Conn.present (c : Conn) (args : InitArgs) : Conn :=
  match args.owner, args.sessionId with
  | some owner, some sid => { c with presented := (owner, sid) :: c.presented }
  | _, _ => c

/-- The first section of a text message. -/
def textStep (w : UploadWorld) (c : Conn) : Control -> Conn × ConnAt
  | Control.init (some args) =>
      (c.present args, if w.owner != "" then ConnAt.initMatches args else ConnAt.initCreate args)
  | Control.finish => (c, if c.holds w then ConnAt.finishing else ConnAt.idle)
  | Control.cancel =>
      (c, if c.holds w then ConnAt.canceling false CancelStage.uplink else ConnAt.idle)
  | Control.seg pending =>
      (if c.holds w then { c with pendingSeg := pending } else c, ConnAt.idle)
  | _ => (c, ConnAt.idle)

def idleStep (w : UploadWorld) (c : Conn) : Incoming -> Conn × ConnAt
  | Incoming.text msg => textStep w c (controlOf msg)
  | Incoming.binary len data =>
      (c, if c.pendingSeg < 0 then ConnAt.leaving
        else ConnAt.binaryCheck len data (wsLiveGetTotal w.lv))
  | Incoming.closed => (c, ConnAt.leaving)

def segCount (total : Nat) : Nat :=
  if total = 0 then 0 else u64 (total + segSize - 1) / segSize

/-- The length that the message of a segment must have. -/
def expectedLen (total seg : Nat) : Nat :=
  if seg < segCount total ∧ seg = segCount total - 1 then u64 (total + 2 ^ 64 - segSize * seg)
  else segSize

def fitsSegment (c : Conn) (len total : Nat) : Bool :=
  decide (c.pendingSeg.toNat < segCount total) && len == expectedLen total c.pendingSeg.toNat

def initUplink (w : UploadWorld) (t : Nat) (c : Conn) (sid : String) : UploadWorld × Conn :=
  match w.uplink with
  | some fd =>
      if fd = t then (w, { c with authorized := true, authorizedSid := sid }) else (w, c)
  | none => ({ w with uplink := some t }, { c with authorized := true, authorizedSid := sid })

def cancelStep (w : UploadWorld) : CancelStage -> UploadWorld
  | CancelStage.uplink => { w with uplink := none }
  | CancelStage.abort => { w with lv := wsLiveAbort w.lv }
  | CancelStage.destroy => { w with lv := wsLiveDestroy w.lv }

def afterCancel (leaving : Bool) : CancelStage -> ConnAt
  | CancelStage.uplink => ConnAt.canceling leaving CancelStage.abort
  | CancelStage.abort => ConnAt.canceling leaving CancelStage.destroy
  | CancelStage.destroy => if leaving then ConnAt.gone else ConnAt.idle

def binaryMessage (c : Conn) (len : Nat) (data : Nat -> UInt8) : Message where
  offset := u64 (segSize * c.pendingSeg.toNat)
  len := len
  data := data

def connStep (w : UploadWorld) (t : Nat) (c : Conn) (a : UploadAnswer) :
    ConnAt -> Option (UploadWorld × Conn × ConnAt)
  | ConnAt.idle => some (w, idleStep w c a.incoming)
  | ConnAt.initMatches args =>
      match args.owner, args.sessionId with
      | some owner, some sid =>
          some (w, c, if wsDirectOwnerMatches w owner sid then ConnAt.initSameFile args sid
            else ConnAt.idle)
      | _, _ => some (w, c, ConnAt.idle)
  | ConnAt.initSameFile args sid =>
      some (w, c, if args.filename == w.ownerFilename && args.total == w.ownerTotal
        then ConnAt.initUplink sid else ConnAt.idle)
  | ConnAt.initCreate args =>
      let r := wsDirectInitSession w a.env args.filename args.total
      some (r.1, c, if r.2 = 0 then ConnAt.initUplink r.1.lv.sessionId else ConnAt.idle)
  | ConnAt.initUplink sid =>
      let r := initUplink w t c sid
      some (r.1, r.2, ConnAt.idle)
  | ConnAt.finishing =>
      let r := wsLiveFinish w.lv
      some ({ w with lv := r.1 }, { c with finishReceived := c.finishReceived || r.2 == 0 },
        ConnAt.idle)
  | ConnAt.canceling leaving stage => some (cancelStep w stage, c, afterCancel leaving stage)
  | ConnAt.binaryCheck len data total =>
      if c.holds w then some (w, c, ConnAt.binaryActive len data total)
      else some (w, { c with pendingSeg := -1 }, ConnAt.idle)
  | ConnAt.binaryActive len data total =>
      if wsLiveSessionActive w.lv && fitsSegment c len total then
        some (w, c, ConnAt.binaryStore len data)
      else some (w, { c with pendingSeg := -1 }, ConnAt.idle)
  | ConnAt.binaryStore len data =>
      let r := wsLiveTryWrite w.lv (binaryMessage c len data)
      if r.2 = 0 ∧ a.sendFailed then some ({ w with lv := r.1 }, c, ConnAt.leaving)
      else some ({ w with lv := r.1 }, { c with pendingSeg := -1 }, ConnAt.idle)
  | ConnAt.leaving =>
      if w.uplink = some t then
        some ({ w with uplink := none }, c,
          if c.authorized && !c.finishReceived then ConnAt.leaveCancel else ConnAt.gone)
      else some (w, c, ConnAt.gone)
  | ConnAt.leaveCancel =>
      -- installer_cancel stops the session itself when there is an install
      some (w, c, if a.installing then ConnAt.canceling true CancelStage.abort
        else ConnAt.leaveActive)
  | ConnAt.leaveActive =>
      some (w, c, if wsLiveSessionActive w.lv then ConnAt.canceling true CancelStage.uplink
        else ConnAt.gone)
  | ConnAt.gone => none

def uploadStep (p : Pool UploadWorld UploadPoint) (t : Nat) :
    UploadPoint -> UploadAnswer -> Option (Section UploadWorld UploadPoint)
  | UploadPoint.conn c k, a =>
      (connStep p.shared t c a k).map fun r =>
        { shared := r.1, point := UploadPoint.conn r.2.1 r.2.2 }
  | UploadPoint.initOwned filename totalSize owner resumeSid, a =>
      let r := wsDirectInitOwned p.shared a.env filename totalSize owner resumeSid
      some { shared := r.1, point := UploadPoint.returned r.2 }
  | UploadPoint.cancelOwned owner sid, a =>
      let r := wsDirectCancelOwned p.shared owner sid a.installing
      some { shared := r.1, point := UploadPoint.returned r.2 }
  | UploadPoint.returned _, _ => none

def uploadProgram : Program UploadWorld UploadPoint UploadCall UploadAnswer where
  entry := UploadCall.entry
  step := uploadStep

end Upload
end PkgManager
