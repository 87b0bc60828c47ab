import PkgManager.Installer.Worker
import PkgManager.Transition.ThreadPool
import PkgManager.WebSocket.Frame

/-!
# Starters, workers and cancels

A start takes the lock four times, with the previous worker joined and the
package read in between.  A finishing worker starts the update it carries, and
then the next queued package, on its own thread.
-/

namespace PkgManager
namespace Installer

open Transition
open StreamServer (Console)
open WebSocket (strstr)

/-- Where {lit}`installer_start_next_queued` returns to. -/
inductive AfterQueue where
  | workerExits
  | answers
deriving DecidableEq

/-- Who starts an install: a request, which may carry an update, a request for a
live package, the queue, or the worker that carries the update of the install
with the given number. -/
inductive StartKind where
  | request
  | live
  | queued (e : QueueEntry) (next : AfterQueue)
  | handoff (n : Nat)
deriving DecidableEq

structure StartCall where
  path : String
  update : String
  kind : StartKind
deriving DecidableEq

inductive StartAt where
  | enter
  | takeThread
  | join (old : Nat)
  | checks
  | failedBase (d : PkgDetail)
  | commit (d : PkgDetail) (total : Nat)
deriving DecidableEq

/-- The worker that a start waits for. -/
def StartAt.joining : StartAt -> Option Nat
  | StartAt.join old => some old
  | _ => none

/-- The points of {lit}`installer_wait_for_part`. -/
inductive WaitAt where
  | show
  | check (ticks : Nat)
  | scan (ticks : Nat)
  | found
  | timedOut
deriving DecidableEq

inductive InstallPoint where
  | starting (c : StartCall) (k : StartAt)
  | enqueue (path update : String)
  | nextQueued (next : AfterQueue)
  | putBack (e : QueueEntry) (next : AfterQueue)
  | remove (path : String)
  | cancel
  | cancelTearDown (stage : TearStage)
  | detach
  | notifyBytes (n : Nat)
  | partChanged (part : Nat)
  | waiting (part : Nat) (k : WaitAt)
  | workerEnter
  | worker (k : WorkerAt) (l : Worker)
  | handoffFailed (code : Int)
  | workerEnd
  | returned (r : Int)
deriving DecidableEq

inductive InstallCall where
  | start (path : String)
  | startBatch (path update : String)
  | startLive (uri : String)
  | queueRemove (path : String)
  | cancel
  | detach
  | notifyBytes (n : Nat)
  | partChanged (part : Nat)
  | waitForPart (part : Nat)
deriving DecidableEq

/-- The callers hold paths in buffers of this size. -/
def pathCap : Nat := 512

def requestOf (path update : String) : StartCall where
  path := cTruncate pathCap path
  update := cTruncate pathCap update
  kind := StartKind.request

def InstallCall.entry : InstallCall -> InstallPoint
  | InstallCall.start path => InstallPoint.starting (requestOf path "") StartAt.enter
  | InstallCall.startBatch path update =>
      if path = "" ∨ update = "" then InstallPoint.returned (-1)
      else InstallPoint.starting (requestOf path update) StartAt.enter
  | InstallCall.startLive uri =>
      InstallPoint.starting
        { path := cTruncate pathCap uri, update := "", kind := StartKind.live } StartAt.enter
  | InstallCall.queueRemove path => InstallPoint.remove (cTruncate pathCap path)
  | InstallCall.cancel => InstallPoint.cancel
  | InstallCall.detach => InstallPoint.detach
  | InstallCall.notifyBytes n => InstallPoint.notifyBytes n
  | InstallCall.partChanged part => InstallPoint.partChanged part
  | InstallCall.waitForPart part => InstallPoint.waiting part WaitAt.show

/-!
# The end of a start
-/

def AfterQueue.point : AfterQueue -> InstallPoint
  | AfterQueue.workerExits => InstallPoint.returned 0
  | AfterQueue.answers => InstallPoint.returned installerQueued

/-- What is done with the result of a start: a request that finds another
install running is queued, and a queued one is put back. -/
def StartCall.finish (c : StartCall) (w : InstallWorld) (code : Int) :
    Section InstallWorld InstallPoint :=
  match c.kind with
  | StartKind.request =>
      { shared := w
        point := if code = alreadyInstalling then InstallPoint.enqueue c.path c.update
          else InstallPoint.returned code }
  | StartKind.live => { shared := w, point := InstallPoint.returned code }
  | StartKind.queued e next =>
      if code = alreadyInstalling then { shared := w, point := InstallPoint.putBack e next }
      else
        { shared := resolve w e.ticket
          point := if code = 0 then next.point else InstallPoint.nextQueued next }
  | StartKind.handoff _ =>
      { shared := w
        point := if code = 0 ∨ code = handoffDiscarded then InstallPoint.workerEnd
          else InstallPoint.handoffFailed code }

def StartCall.isHandoff (c : StartCall) : Bool :=
  match c.kind with
  | StartKind.handoff _ => true
  | _ => false

def StartCall.isLive (c : StartCall) : Bool :=
  match c.kind with
  | StartKind.live => true
  | _ => false

/-!
# The sections of a start
-/

/-- The URI of a live package names a session. -/
def namesSession (uri : String) (a : InstallAnswer) : Bool :=
  hasPrefix "live:" uri && uri != "live:" && a.found

def enterStep (w : InstallWorld) (c : StartCall) (a : InstallAnswer) :
    Section InstallWorld InstallPoint :=
  if c.isLive then
    if namesSession c.path a = false then c.finish w (-1)
    else if w.status.isInstalling then c.finish w alreadyInstalling
    else { shared := w, point := InstallPoint.starting c StartAt.takeThread }
  else if c.path = "" then c.finish w (-1)
  else
    match startCheck w c.isHandoff with
    | (w', some code) => c.finish w' code
    | (w', none) => { shared := w', point := InstallPoint.starting c StartAt.takeThread }

/-- A worker that starts its own successor does not join itself. -/
def takeThreadStep (w : InstallWorld) (t : Nat) (c : StartCall) :
    Section InstallWorld InstallPoint :=
  match takeThread w with
  | (w', some old) =>
      { shared := w'
        point := InstallPoint.starting c
          (if old = t ∧ c.isLive = false then StartAt.checks else StartAt.join old) }
  | (w', none) => { shared := w', point := InstallPoint.starting c StartAt.checks }

def InstallPoint.isReturned : InstallPoint -> Bool
  | InstallPoint.returned _ => true
  | _ => false

/-- The result of a path that cannot be opened. -/
def missingCode (path : String) (a : InstallAnswer) : Int :=
  if isHttpPath path && a.unavailable then installerUnavailable else -4

/-- The checks of a live package, up to the commit. -/
def liveChecks (w : InstallWorld) (c : StartCall) (a : InstallAnswer) :
    Section InstallWorld InstallPoint :=
  let d := a.parsed.getD { fallbackDetail a.liveTotal with totalPkgSize := a.liveTotal }
  if a.noLiveTotal then c.finish w (-1)
  else if a.noLiveHeader then c.finish w (-14)
  else if a.refused then c.finish w installerRefused
  else if d.isMultipart then c.finish w (-13)
  else if a.noStorage then c.finish w (-10)
  else
    { shared := w
      point := InstallPoint.starting c
        (StartAt.commit d (if d.totalPkgSize > 0 then d.totalPkgSize else a.liveTotal)) }

def packageChecks (w : InstallWorld) (c : StartCall) (a : InstallAnswer) :
    Section InstallWorld InstallPoint :=
  if a.fileMissing then c.finish w (missingCode c.path a)
  else if c.update ≠ "" ∧ a.updateMissing = true then c.finish w (missingCode c.update a)
  else if a.parsed = none ∧ isHttpPath c.path = true ∧ a.unavailable = true then
    c.finish w installerUnavailable
  else if a.refused then c.finish w installerRefused
  else
    { shared := w
      point := InstallPoint.starting c
        (StartAt.failedBase (a.parsed.getD (fallbackDetail a.fileSize))) }

/-- The path names a part of a package that is divided. -/
def namesPart (path : String) : Bool :=
  (strstr ".part".toList path.toList).isSome

/-- Parts are read from local drives only. -/
def partsFromNetwork (path : String) (d : PkgDetail) : Bool :=
  (d.isMultipart || namesPart path) && (hasPrefix "smb://" path || isHttpPath path)

def failedBaseStep (w : InstallWorld) (c : StartCall) (a : InstallAnswer) (d : PkgDetail) :
    Section InstallWorld InstallPoint :=
  let (w', failed) := checkFailedBase w d
  if failed ∧ caseEq d.pkgTypeStr "base" = false ∧ a.installed = none then
    c.finish w' installerSkipped
  else if partsFromNetwork c.path d then c.finish w' (-13)
  else if a.noStorage then c.finish w' (-10)
  else if d.isMultipart ∧ a.noStaging = true then c.finish w' (-11)
  else
    { shared := w'
      point := InstallPoint.starting c
        (StartAt.commit d (if d.totalPkgSize > 0 then d.totalPkgSize else d.fileSize)) }

/-- The state that a commit leaves, up to the thread. -/
def StartCall.commits (c : StartCall) (console : Console) (w : InstallWorld) (a : InstallAnswer)
    (d : PkgDetail) (total : Nat) : InstallWorld :=
  if c.isLive then commitLive w c.path d total
  else
    commitPackage w c.path c.update d
      (isFilesystemInstall console w.localPrefixes c.path d.isMultipart && !a.connected)

/-- The result of a start that ends at the commit. -/
def StartCall.refusal (c : StartCall) (w : InstallWorld) : Option Int :=
  if c.isHandoff && w.detachDirectStorage then some handoffDiscarded
  else if w.status.isInstalling && !c.isHandoff then some alreadyInstalling
  else none

def commitStep (console : Console) (w : InstallWorld) (threads : Nat) (c : StartCall)
    (a : InstallAnswer) (d : PkgDetail) (total : Nat) : Section InstallWorld InstallPoint :=
  match c.refusal w with
  | some code => c.finish w code
  | none =>
      if a.threadStarts then
        { c.finish (commitStarted (c.commits console w a d total) threads) 0 with
          created := some InstallPoint.workerEnter }
      else c.finish (commitFailed (c.commits console w a d total)) (-12)

def startStep (console : Console) (p : Pool InstallWorld InstallPoint) (t : Nat) (c : StartCall)
    (a : InstallAnswer) : StartAt -> Option (Section InstallWorld InstallPoint)
  | StartAt.enter => some (enterStep p.shared c a)
  | StartAt.takeThread => some (takeThreadStep p.shared t c)
  | StartAt.join old =>
      if p.threads[old]?.any InstallPoint.isReturned then
        some { shared := p.shared, point := InstallPoint.starting c StartAt.checks }
      else none
  | StartAt.checks =>
      some (if c.isLive then liveChecks p.shared c a else packageChecks p.shared c a)
  | StartAt.failedBase d => some (failedBaseStep p.shared c a d)
  | StartAt.commit d total => some (commitStep console p.shared p.threads.length c a d total)

/-!
# The sections of the other threads
-/

def enqueueStep (w : InstallWorld) (path update : String) : Section InstallWorld InstallPoint :=
  let (w', code, idle) := enqueue w path update
  { shared := w'
    point := if idle then InstallPoint.nextQueued AfterQueue.answers
      else InstallPoint.returned code }

def nextQueuedStep (w : InstallWorld) (next : AfterQueue) : Section InstallWorld InstallPoint :=
  match popQueued w with
  | (w', some e) =>
      { shared := w'
        point := InstallPoint.starting
          { path := e.path, update := e.updatePath, kind := StartKind.queued e next }
          StartAt.enter }
  | (w', none) => { shared := w', point := next.point }

def cancelStep (w : InstallWorld) : Section InstallWorld InstallPoint :=
  let (w', code) := cancel w
  { shared := w'
    point := if code = 0 then InstallPoint.cancelTearDown TearStage.abort
      else InstallPoint.returned code }

def cancelTearStep (w : InstallWorld) : TearStage -> Section InstallWorld InstallPoint
  | TearStage.abort => { shared := w, point := InstallPoint.cancelTearDown TearStage.stop }
  | TearStage.stop => { shared := w, point := InstallPoint.cancelTearDown TearStage.destroy }
  | TearStage.destroy => { shared := w, point := InstallPoint.returned 0 }

def InstallWorld.setStatus (w : InstallWorld) (s : InstallerStatus) : InstallWorld :=
  { w with status := s }

/-- {lit}`installer_notify_bytes_streamed` -/
def notifyStatus (s : InstallerStatus) (n : Nat) : InstallerStatus :=
  if s.isInstalling then
    { s with
      streamServedBytes := s.streamServedBytes + n
      downloadedBytes :=
        if s.totalBytes > 0 then min (s.downloadedBytes + n) s.totalBytes
        else s.downloadedBytes + n }
  else s

/-- {lit}`installer_on_part_changed` -/
def partStatus (s : InstallerStatus) (part : Nat) : InstallerStatus :=
  if s.isInstalling && s.isMultipart then { s with currentPart := part } else s

/-- 60 minutes in quarters of a second. -/
def waitTicks : Nat := 60 * 60 * 4

def waitStep (w : InstallWorld) (part : Nat) (a : InstallAnswer) :
    WaitAt -> Section InstallWorld InstallPoint
  | WaitAt.show =>
      { shared := w.setStatus
          { w.status with waitingForDisc := true, currentPart := part, statusStr := "waiting_disc" }
        point := InstallPoint.waiting part (WaitAt.check 0) }
  | WaitAt.check ticks =>
      { shared := w
        point := if stopRequested w || !w.status.isInstalling then InstallPoint.returned (-1)
          else InstallPoint.waiting part (WaitAt.scan ticks) }
  | WaitAt.scan ticks =>
      { shared := w
        point := InstallPoint.waiting part
          (if a.found then WaitAt.found
          else if ticks + 1 ≥ waitTicks then WaitAt.timedOut
          else WaitAt.check (ticks + 1)) }
  | WaitAt.found =>
      { shared := w.setStatus
          { w.status with waitingForDisc := false, currentPart := part, statusStr := "transferring" }
        point := InstallPoint.returned 0 }
  | WaitAt.timedOut =>
      { shared := w.setStatus (failedStatus w.status (-22)), point := InstallPoint.returned (-22) }

/-- The download-first route is for packages of a web server on a PS4. -/
def workerEnterStep (console : Console) (w : InstallWorld) : Section InstallWorld InstallPoint :=
  if console = Console.ps4 ∧ w.status.isMultipart = false ∧ isHttpPath w.status.pkgPath = true then
    { shared := w
      point := InstallPoint.worker (WorkerAt.localInstall LocalAt.enter)
        { path := w.status.pkgPath } }
  else { shared := w, point := InstallPoint.worker WorkerAt.snapshot {} }

/-- The worker starts the update it carries. -/
def Worker.afterBody (l : Worker) : InstallPoint :=
  if l.next = "" then InstallPoint.workerEnd
  else
    InstallPoint.starting
      { path := l.next, update := "", kind := StartKind.handoff l.nextSerial } StartAt.enter

def workerSection (console : Console) (w : InstallWorld) (l : Worker) (a : InstallAnswer)
    (k : WorkerAt) : Section InstallWorld InstallPoint :=
  match workerStep console w l a k with
  | some o =>
      { shared :=
          { w with
            status := o.status
            pendingPkgPath := if o.clears then "" else w.pendingPkgPath }
        point := InstallPoint.worker o.k o.l }
  | none => { shared := w, point := l.afterBody }

/-- The title of a base that did not install is marked. -/
def markFailedBase (w : InstallWorld) : InstallWorld :=
  let s := w.status
  if !s.isInstalling && s.failed && caseEq s.pkgKind "base" && s.titleId != "" then
    { w with failedBaseTitle := s.titleId }
  else w

def installStep (console : Console) (p : Pool InstallWorld InstallPoint) (t : Nat)
    (a : InstallAnswer) : InstallPoint -> Option (Section InstallWorld InstallPoint)
  | InstallPoint.starting c k => startStep console p t c a k
  | InstallPoint.enqueue path update => some (enqueueStep p.shared path update)
  | InstallPoint.nextQueued next => some (nextQueuedStep p.shared next)
  | InstallPoint.putBack e next => some { shared := putBack p.shared e, point := next.point }
  | InstallPoint.remove path =>
      some
        { shared := (installerQueueRemove p.shared path).1
          point := InstallPoint.returned (installerQueueRemove p.shared path).2 }
  | InstallPoint.cancel => some (cancelStep p.shared)
  | InstallPoint.cancelTearDown stage => some (cancelTearStep p.shared stage)
  | InstallPoint.detach =>
      some
        { shared := (detach p.shared).1, point := InstallPoint.returned (detach p.shared).2 }
  | InstallPoint.notifyBytes n =>
      some
        { shared := p.shared.setStatus (notifyStatus p.shared.status n)
          point := InstallPoint.returned 0 }
  | InstallPoint.partChanged part =>
      some
        { shared := p.shared.setStatus (partStatus p.shared.status part)
          point := InstallPoint.returned 0 }
  | InstallPoint.waiting part k => some (waitStep p.shared part a k)
  | InstallPoint.workerEnter => some (workerEnterStep console p.shared)
  | InstallPoint.worker k l => some (workerSection console p.shared l a k)
  | InstallPoint.handoffFailed code =>
      some
        { shared := p.shared.setStatus (failedStatus p.shared.status code)
          point := InstallPoint.workerEnd }
  | InstallPoint.workerEnd =>
      some
        { shared := markFailedBase p.shared
          point := InstallPoint.nextQueued AfterQueue.workerExits }
  | InstallPoint.returned _ => none

def installProgram (console : Console) :
    Program InstallWorld InstallPoint InstallCall InstallAnswer where
  entry := InstallCall.entry
  step p t x a := installStep console p t a x

/-- The state that {lit}`installer_init` leaves. -/
def idleInstaller (localPrefixes : List String) : Pool InstallWorld InstallPoint where
  shared :=
    { status := idleStatus, cancelStream := false, detachDirectStorage := false
      batchUpdatePending := false, pendingPkgPath := "", queue := [], failedBaseTitle := ""
      streamThread := 0, streamThreadCreated := false, monitorRunning := true
      localPrefixes := localPrefixes, serial := 0, pendingSerial := 0, stopped := []
      tickets := 0, waiting := [] }
  threads := []

end Installer
end PkgManager
