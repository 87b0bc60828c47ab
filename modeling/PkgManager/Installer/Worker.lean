import PkgManager.AppInfo
import PkgManager.Installer.Status

/-!
# The install worker

{lit}`stream_installer_worker_body` and, on a PS4, {lit}`ps4_local_install`: one
point for each place between two lock-held sections, and for each answer from
outside.  A section of the worker changes the status, clears the pending path or
leaves both.
-/

namespace PkgManager
namespace Installer

open StreamServer (Console)

/-- {lit}`platform_install_progress_t` -/
structure Progress where
  status : String
  errorCode : Int
  downloadedSize : Nat
  totalSize : Nat
deriving DecidableEq

/-- The answer of {lit}`platform_install_poll`. -/
inductive Poll where
  | progress (p : Progress)
  | noStatus
  | lost (code : Int)
  | canceled
deriving DecidableEq

/-- What the worker reads of a part's header. -/
structure PartHeader where
  totalParts : Nat
  totalPkgSize : Nat
  titleId : String
deriving DecidableEq

/-- An installed version that {lit}`app_info_check_installed` has reported for a
title, or a content ID that {lit}`app_info_check_dlc_installed` has found. -/
inductive Sighting where
  | version (titleId version : String)
  | dlc (titleId contentId : String)
deriving DecidableEq

/-- The answers from outside: files, sockets, the system installer, the database
of applications and the clock. -/
structure InstallAnswer where
  fileMissing : Bool := false
  updateMissing : Bool := false
  unavailable : Bool := false
  parsed : Option PkgDetail := none
  refused : Bool := false
  noStorage : Bool := false
  noStaging : Bool := false
  noLiveTotal : Bool := false
  noLiveHeader : Bool := false
  liveTotal : Nat := 0
  threadStarts : Bool := true
  connected : Bool := true
  header : Option PartHeader := none
  streamStarts : Bool := true
  installed : Option String := none
  dlcInstalled : Bool := false
  fileSize : Nat := 0
  ret : Int := 0
  contentId : String := ""
  poll : Poll := Poll.noStatus
  failed : Bool := false
  count : Nat := 0
  found : Bool := false
  now : Nat := 0
deriving DecidableEq

/-- {lit}`SCE_PLAYGO_ERROR_CORE_NET_NOT_CONNECTED`, 0x80B21121 -/
def notConnected : Int := 0x80B21121 - 2 ^ 32

/-- {lit}`platform_install_is_transient` -/
def isTransient (console : Console) (code : Int) : Bool :=
  decide (console = Console.ps5) &&
    (code == 0x80B2116F - 2 ^ 32 || code == 0x80B2100D - 2 ^ 32 || code == 0x80B2100E - 2 ^ 32)

/-- {lit}`check_package_verified_installed` -/
def checkVerified (a : InstallAnswer) (titleId kind contentId expectVer : String) : Bool :=
  if titleId = "" then false
  else if caseEq kind "dlc" && contentId != "" then a.dlcInstalled
  else if expectVer ≠ "" then
    match a.installed with
    | none => false
    | some version =>
        if version ≠ "" then decide (compareVersions version expectVer ≥ 0)
        else !caseEq kind "update"
  else a.installed.isSome

/-!
# Locals
-/

/-- What the loop reads under the lock before an iteration. -/
structure View where
  down : Nat := 0
  total : Nat := 0
  titleId : String := ""
  kind : String := ""
  contentId : String := ""
  expectVer : String := ""
deriving DecidableEq

/-- The locals of the worker.  History: the install that the captured update
belongs to, and what the database of applications has reported. -/
structure Worker where
  path : String := ""
  isMultipart : Bool := false
  fs : Bool := false
  canFallback : Bool := false
  header : PartHeader := { totalParts := 1, totalPkgSize := 0, titleId := "" }
  tid : String := ""
  wasInstalled : Bool := false
  initialVer : String := ""
  initialDlc : Bool := false
  ret : Int := -1
  contentId : String := ""
  streamDone : Option Nat := none
  beginTime : Nat := 0
  view : View := {}
  copied : Bool := false
  next : String := ""
  nextSerial : Nat := 0
  seen : List Sighting := []
deriving DecidableEq

/-- The stages of {lit}`ps4_local_install`. -/
inductive LocalAt where
  | enter
  | showDownloading
  | setup
  | download
  | progress
  | downloaded
  | showInstalling
  | resetProgress
  | submit
  | poll
  | pollProgress (done total : Nat)
  | check
  | finish (ok : Bool)
deriving DecidableEq

/-- What the end of an install gives up, in this order. -/
inductive TearStage where
  | abort
  | stop
  | destroy
deriving DecidableEq

inductive WorkerAt where
  | snapshot
  | readHeader
  | failEarly (code : Int)
  | openStream
  | inspect
  | inspectDlc
  | launch
  | size
  | attempt (n : Nat)
  | retryWait (n : Nat)
  | restart (n : Nat)
  | submit (n : Nat)
  | detachCheck
  | cancelCheck
  | cancelExit
  | fallbackCheck
  | fallback
  | fallbackSubmit
  | fallbackDetach
  | failStart
  | adoptContent
  | inspectAgain
  | loopHead
  | poll
  | lost (code : Int)
  | pollFallback
  | pollFallbackSubmit
  | systemError (code : Int)
  | setTotal (n : Nat)
  | takeProgress (p : Progress)
  | delivered (p : Progress)
  | showFinishing (p : Progress)
  | sysDone (p : Progress)
  | fsShow
  | fsVerify
  | deliveredAgain
  | showFinishingAgain
  | verify
  | finalCheck
  | complete
  | timedOut
  | loopEnd
  | capture
  | tearDown (stage : TearStage)
  | localInstall (k : LocalAt)
  | captureLocal (ok : Bool)
  | exited
deriving DecidableEq

/-- What a section of the worker leaves. -/
structure WorkerOut where
  status : InstallerStatus
  clears : Bool := false
  k : WorkerAt
  l : Worker

/-- A section that only moves on. -/
def WorkerOut.go (w : InstallWorld) (l : Worker) (k : WorkerAt) : WorkerOut :=
  { status := w.status, k := k, l := l }

/-- {lit}`g_cancel_stream || !g_monitor_running` -/
def stopRequested (w : InstallWorld) : Bool :=
  w.cancelStream || !w.monitorRunning

/-!
# Shared pieces of the status
-/

def failedStatus (s : InstallerStatus) (code : Int) : InstallerStatus :=
  { s with isInstalling := false, failed := true, errorCode := code, statusStr := "error" }

/-- Direct storage shows no progress. -/
def directStatus (s : InstallerStatus) (fileSize : Nat) : InstallerStatus :=
  { s with
    isDirectStorage := true, downloadedBytes := 0, statusStr := "installing"
    totalBytes := if s.totalBytes = 0 then fileSize else s.totalBytes }

/-- An update waits to be started after this package. -/
def hasPending (w : InstallWorld) : Bool :=
  w.pendingPkgPath != "" && !w.cancelStream && !w.detachDirectStorage && w.monitorRunning

def completedStatus (w : InstallWorld) : InstallerStatus :=
  let s := { w.status with downloadedBytes := w.status.totalBytes : InstallerStatus }
  if hasPending w then
    { s with isInstalling := true, completed := false, statusStr := "installing" }
  else { s with isInstalling := false, completed := true, statusStr := "playable" }

/-!
# Before the package is submitted
-/

/-- The answers of the database about a title are recorded. -/
def Worker.sees (l : Worker) (titleId : String) (a : InstallAnswer) : Worker :=
  match a.installed with
  | some version => { l with seen := Sighting.version titleId version :: l.seen }
  | none => l

def Worker.seesDlc (l : Worker) (titleId contentId : String) (a : InstallAnswer) : Worker :=
  if a.dlcInstalled then { l with seen := Sighting.dlc titleId contentId :: l.seen } else l

def isKnownTitle (titleId : String) : Bool :=
  titleId != "" && titleId != "UNKNOWN"

def snapshotStep (console : Console) (w : InstallWorld) (a : InstallAnswer) : WorkerOut :=
  let l := { path := w.status.pkgPath, isMultipart := w.status.isMultipart : Worker }
  let direct := isFilesystemInstall console w.localPrefixes l.path l.isMultipart
  WorkerOut.go w
    { l with fs := direct && !a.connected, canFallback := direct && a.connected }
    (if l.isMultipart then WorkerAt.readHeader else WorkerAt.openStream)

def readHeaderStep (w : InstallWorld) (l : Worker) (a : InstallAnswer) : WorkerOut :=
  match a.header with
  | none => WorkerOut.go w l (WorkerAt.failEarly (-20))
  | some header =>
      if header.totalParts = 0 ∨ header.totalParts > 256 then
        WorkerOut.go w { l with header := header } (WorkerAt.failEarly (-25))
      else WorkerOut.go w { l with header := header } WorkerAt.openStream

def inspectStep (w : InstallWorld) (l : Worker) (a : InstallAnswer) : WorkerOut :=
  let tid := if w.status.titleId ≠ "" then w.status.titleId else l.header.titleId
  let l := { l with tid := tid }
  if isKnownTitle tid then
    WorkerOut.go w
      ({ l with
        wasInstalled := a.installed.isSome, initialVer := a.installed.getD "" }.sees tid a)
      WorkerAt.inspectDlc
  else WorkerOut.go w l WorkerAt.launch

def inspectDlcStep (w : InstallWorld) (l : Worker) (a : InstallAnswer) : WorkerOut :=
  if w.status.contentId ≠ "" then
    WorkerOut.go w ({ l with initialDlc := a.dlcInstalled }.seesDlc l.tid w.status.contentId a)
      WorkerAt.launch
  else WorkerOut.go w l WorkerAt.launch

def launchStep (w : InstallWorld) (l : Worker) : WorkerOut :=
  if stopRequested w then
    { status := w.status, clears := true, k := WorkerAt.tearDown TearStage.abort, l := l }
  else if l.fs then
    { status := { w.status with
        waitingForDisc := false, isDirectStorage := true, downloadedBytes := 0
        statusStr := "installing" }
      k := WorkerAt.size, l := l }
  else
    { status := { w.status with
        waitingForDisc := false, isDirectStorage := false, downloadedBytes := 0
        streamServedBytes := 0, statusStr := "transferring"
        totalBytes :=
          if w.status.isMultipart then l.header.totalPkgSize else w.status.totalBytes }
      k := WorkerAt.attempt 0, l := l }

def sizeStep (w : InstallWorld) (l : Worker) (a : InstallAnswer) : WorkerOut :=
  { status := { w.status with
      totalBytes := if w.status.totalBytes = 0 then a.fileSize else w.status.totalBytes }
    k := WorkerAt.attempt 0, l := l }

/-!
# Submission
-/

/-- The loop over three attempts. -/
def attemptStep (w : InstallWorld) (l : Worker) (n : Nat) : WorkerOut :=
  if n < 3 ∧ w.cancelStream = false then
    WorkerOut.go w l (if n = 0 then WorkerAt.submit 0 else WorkerAt.retryWait n)
  else WorkerOut.go w l WorkerAt.detachCheck

def retryWaitStep (w : InstallWorld) (l : Worker) (n : Nat) : WorkerOut :=
  if stopRequested w then WorkerOut.go w l WorkerAt.detachCheck
  else if l.fs then WorkerOut.go w { l with contentId := "" } (WorkerAt.submit n)
  else WorkerOut.go w l (WorkerAt.restart n)

/-- The stream server is stopped and started again. -/
def restartStep (w : InstallWorld) (l : Worker) (a : InstallAnswer) (n : Nat) : WorkerOut :=
  if a.streamStarts then WorkerOut.go w { l with contentId := "" } (WorkerAt.submit n)
  else WorkerOut.go w l WorkerAt.detachCheck

def submitStep (console : Console) (w : InstallWorld) (l : Worker) (a : InstallAnswer) (n : Nat) :
    WorkerOut :=
  let l := { l with ret := a.ret, contentId := if a.ret = 0 then a.contentId else l.contentId }
  if a.ret = 0 ∨ isTransient console a.ret = false then WorkerOut.go w l WorkerAt.detachCheck
  else WorkerOut.go w l (WorkerAt.attempt (n + 1))

def fallbackSubmitStep (w : InstallWorld) (l : Worker) (a : InstallAnswer) (k : WorkerAt) :
    WorkerOut :=
  WorkerOut.go w { l with ret := a.ret, contentId := if a.ret = 0 then a.contentId else "" } k

/-- The stream is given up for the path itself. -/
def fallbackStep (w : InstallWorld) (l : Worker) (a : InstallAnswer) (k : WorkerAt) : WorkerOut :=
  { status := directStatus w.status a.fileSize, k := k
    l := { l with fs := true, canFallback := false } }

/-- The title between the dash and the underscore of a content ID. -/
def titleOfContentId (contentId : String) : Option String :=
  match WebSocket.strchr '-' contentId.toList with
  | none => none
  | some dash =>
      let start := dash.drop 1
      let title := start.takeWhile (fun c => c != '_')
      if title.length < start.length ∧ title.length < 32 then some (String.ofList title) else none

def adoptContentStep (w : InstallWorld) (l : Worker) : WorkerOut :=
  if l.contentId = "" then WorkerOut.go w l WorkerAt.inspectAgain
  else
    let recovered :=
      if isKnownTitle w.status.titleId then w.status.titleId
      else (titleOfContentId l.contentId).getD w.status.titleId
    { status := { w.status with contentId := cTruncate 64 l.contentId, titleId := recovered }
      k := WorkerAt.inspectAgain, l := l }

def inspectAgainStep (w : InstallWorld) (l : Worker) (a : InstallAnswer) : WorkerOut :=
  let l := { l with beginTime := a.now }
  if l.wasInstalled = false ∧ l.initialVer = "" ∧ isKnownTitle w.status.titleId then
    let l := { l with wasInstalled := a.installed.isSome, initialVer := a.installed.getD "" }
    let l := l.sees w.status.titleId a
    if w.status.contentId ≠ "" then
      WorkerOut.go w
        ({ l with initialDlc := a.dlcInstalled }.seesDlc w.status.titleId w.status.contentId a)
        WorkerAt.loopHead
    else WorkerOut.go w l WorkerAt.loopHead
  else WorkerOut.go w l WorkerAt.loopHead

/-!
# The monitor loop
-/

def loopHeadStep (w : InstallWorld) (l : Worker) : WorkerOut :=
  let s := w.status
  let view :=
    { down := s.downloadedBytes, total := s.totalBytes, titleId := s.titleId, kind := s.pkgKind
      contentId := s.contentId, expectVer := s.pkgVersion : View }
  if w.monitorRunning && !w.cancelStream && !w.detachDirectStorage && s.isInstalling then
    WorkerOut.go w { l with view := view } WorkerAt.poll
  else WorkerOut.go w { l with view := view } WorkerAt.loopEnd

/-- A progress that is no error. -/
def progressAt (w : InstallWorld) (l : Worker) (p : Progress) : WorkerAt :=
  if l.fs then
    if w.status.totalBytes = 0 ∧ p.totalSize > 0 then WorkerAt.setTotal p.totalSize
    else WorkerAt.fsShow
  else if p.downloadedSize > l.view.down then WorkerAt.takeProgress p
  else WorkerAt.delivered p

def pollStep (w : InstallWorld) (l : Worker) (a : InstallAnswer) : WorkerOut :=
  match a.poll with
  | Poll.canceled => WorkerOut.go w l WorkerAt.loopEnd
  | Poll.lost code => WorkerOut.go w l (WorkerAt.lost code)
  | Poll.noStatus => WorkerOut.go w l (if l.fs then WorkerAt.fsShow else WorkerAt.deliveredAgain)
  | Poll.progress p =>
      if p.errorCode ≠ 0 ∨ p.status = "error" ∨ p.status = "none" then
        if l.fs = false ∧ l.canFallback = true ∧ p.errorCode = notConnected then
          WorkerOut.go w l WorkerAt.pollFallback
        else WorkerOut.go w l (WorkerAt.systemError (if p.errorCode ≠ 0 then p.errorCode else -1))
      else WorkerOut.go w l (progressAt w l p)

def lostStep (w : InstallWorld) (l : Worker) (code : Int) : WorkerOut :=
  { status := if stopRequested w then w.status else failedStatus w.status code
    k := WorkerAt.loopEnd, l := l }

/-- The system's count is taken over as far as bytes have been sent. -/
def takeProgressStep (w : InstallWorld) (l : Worker) (p : Progress) : WorkerOut :=
  let adopt := min p.downloadedSize w.status.streamServedBytes
  { status := { w.status with downloadedBytes := max w.status.downloadedBytes adopt }
    k := WorkerAt.delivered p
    l := { l with view := { l.view with down := max l.view.down adopt } } }

/-- All bytes have been delivered, as far as the count says. -/
def countsAll (l : Worker) : Bool :=
  l.streamDone.isNone && decide (l.view.total > 0 ∧ l.view.down ≥ l.view.total)

def deliveredStep (w : InstallWorld) (l : Worker) (a : InstallAnswer) (shown next : WorkerAt) :
    WorkerOut :=
  if countsAll l then WorkerOut.go w { l with streamDone := some a.now } shown
  else WorkerOut.go w l next

def sysDoneStep (w : InstallWorld) (l : Worker) (p : Progress) : WorkerOut :=
  if (p.status = "playable" ∨ p.status = "completed") ∧ l.streamDone.isSome then
    WorkerOut.go w l WorkerAt.complete
  else WorkerOut.go w l WorkerAt.deliveredAgain

/-- The seconds since the loop was entered, at least one. -/
def elapsed (l : Worker) (a : InstallAnswer) : Nat :=
  max 1 (a.now - l.beginTime)

/-- The checks of a direct-storage install. -/
def fsVerified (l : Worker) (a : InstallAnswer) : Bool :=
  let v := l.view
  if caseEq v.kind "update" then
    if v.titleId ≠ "" ∧ v.expectVer ≠ "" then
      match a.installed with
      | none => false
      | some version =>
          version != "" && decide (compareVersions version v.expectVer ≥ 0) &&
            decide (elapsed l a ≥ 3) &&
            (l.initialVer == "" || decide (compareVersions version l.initialVer > 0) ||
              decide (elapsed l a ≥ 15))
    else v.titleId != "" && decide (elapsed l a ≥ 15) && a.installed.isSome
  else if caseEq v.kind "dlc" then
    if v.titleId ≠ "" ∧ v.contentId ≠ "" then
      a.dlcInstalled && (!l.initialDlc || decide (elapsed l a ≥ 15))
    else decide (elapsed l a ≥ 15)
  else
    decide (elapsed l a ≥ (if l.wasInstalled then 15 else 3)) &&
      checkVerified a v.titleId v.kind v.contentId v.expectVer

/-- What the checks of one iteration have asked the database. -/
def Worker.asks (l : Worker) (a : InstallAnswer) : Worker :=
  (l.sees l.view.titleId a).seesDlc l.view.titleId l.view.contentId a

def fsTimeout (total : Nat) : Nat :=
  if total > 0 then max 1800 (total / (15 * 1024 * 1024) + 300) else 1800

def fsVerifyStep (w : InstallWorld) (l : Worker) (a : InstallAnswer) : WorkerOut :=
  if fsVerified l a then WorkerOut.go w (l.asks a) WorkerAt.complete
  else if elapsed l a > fsTimeout l.view.total then WorkerOut.go w (l.asks a) WorkerAt.timedOut
  else WorkerOut.go w (l.asks a) WorkerAt.loopHead

def verifyStep (w : InstallWorld) (l : Worker) (a : InstallAnswer) : WorkerOut :=
  match l.streamDone with
  | none => WorkerOut.go w l WorkerAt.loopHead
  | some time =>
      if a.now - time ≥ 3 ∧ l.view.titleId ≠ "" then
        WorkerOut.go w (l.asks a)
          (if checkVerified a l.view.titleId l.view.kind l.view.contentId l.view.expectVer then
            WorkerAt.complete
          else WorkerAt.finalCheck)
      else WorkerOut.go w l WorkerAt.finalCheck

def finalCheckStep (w : InstallWorld) (l : Worker) (a : InstallAnswer) : WorkerOut :=
  WorkerOut.go w l
    (if a.now - l.streamDone.getD 0 > 300 then WorkerAt.timedOut else WorkerAt.loopHead)

def completeStep (w : InstallWorld) (l : Worker) : WorkerOut :=
  { status := if w.detachDirectStorage then w.status else completedStatus w
    k := WorkerAt.loopEnd, l := l }

/-- The queued update is taken out before the stream is given up. -/
def captureStep (w : InstallWorld) (l : Worker) : WorkerOut :=
  if hasPending w && !w.status.failed then
    { status := w.status, clears := true, k := WorkerAt.tearDown TearStage.abort
      l := { l with next := w.pendingPkgPath, nextSerial := w.pendingSerial } }
  else
    { status := w.status
      clears := w.status.failed || stopRequested w || w.detachDirectStorage
      k := WorkerAt.tearDown TearStage.abort, l := l }

def tearDownStep (w : InstallWorld) (l : Worker) : TearStage -> WorkerOut
  | TearStage.abort => WorkerOut.go w l (WorkerAt.tearDown TearStage.stop)
  | TearStage.stop => WorkerOut.go w l (WorkerAt.tearDown TearStage.destroy)
  | TearStage.destroy => WorkerOut.go w l WorkerAt.exited

/-!
# Download first
-/

/-- The end of a failed install, with the code it reports. -/
def Worker.fails (l : Worker) (code : Int) : Worker :=
  { l with ret := code }

def localFinishStatus (w : InstallWorld) (l : Worker) (ok : Bool) : InstallerStatus :=
  if ok then
    { w.status with
      isInstalling := false, failed := false, completed := true
      downloadedBytes := w.status.totalBytes, statusStr := "playable" }
  else
    let s :=
      { w.status with isInstalling := false, failed := true, completed := false : InstallerStatus }
    if w.cancelStream then s else { s with errorCode := l.ret, statusStr := "error" }

/-- {lit}`PS4_LOCAL_DL_CHUNK` -/
def localChunk : Nat := 64 * 1024

/-- {lit}`PS4_LOCAL_STALL_SEC` -/
def localStallSec : Nat := 30 * 60

def localPollStep (w : InstallWorld) (l : Worker) (a : InstallAnswer) : WorkerOut :=
  if stopRequested w then
    WorkerOut.go w (l.fails (-1)) (WorkerAt.localInstall (LocalAt.finish false))
  else
    match a.poll with
    | Poll.progress p =>
        if p.errorCode ≠ 0 ∨ p.status = "error" then
          WorkerOut.go w (l.fails (if p.errorCode ≠ 0 then p.errorCode else -1))
            (WorkerAt.localInstall (LocalAt.finish false))
        else
          let copied := decide (p.totalSize > 0 ∧ p.downloadedSize ≥ p.totalSize)
          let l := { l with copied := copied }
          if p.downloadedSize ≠ l.view.down then
            WorkerOut.go w
              { l with view := { l.view with down := p.downloadedSize }, beginTime := a.now }
              (WorkerAt.localInstall (LocalAt.pollProgress p.downloadedSize
                (if p.totalSize > 0 then p.totalSize else l.view.total)))
          else WorkerOut.go w l (WorkerAt.localInstall LocalAt.check)
    | _ => WorkerOut.go w { l with copied := true } (WorkerAt.localInstall LocalAt.check)

/-- The package counts as installed when the copy is complete, or when the
system has no status, and the database shows it. -/
def localCheckStep (w : InstallWorld) (l : Worker) (a : InstallAnswer) : WorkerOut :=
  let v := l.view
  if l.copied && checkVerified a v.titleId v.kind v.contentId v.expectVer then
    WorkerOut.go w (l.asks a) (WorkerAt.localInstall (LocalAt.finish true))
  else if a.now - l.beginTime > localStallSec then
    WorkerOut.go w ((l.asks a).fails (-1)) (WorkerAt.localInstall (LocalAt.finish false))
  else WorkerOut.go w (l.asks a) (WorkerAt.localInstall LocalAt.poll)

def localStep (w : InstallWorld) (l : Worker) (a : InstallAnswer) : LocalAt -> WorkerOut
  | LocalAt.enter =>
      let s := w.status
      { status := { s with
          isInstalling := true, failed := false, completed := false, errorCode := 0
          downloadedBytes := 0 }
        k := WorkerAt.localInstall LocalAt.showDownloading
        l := { path := l.path, view :=
          { down := 0, total := s.totalBytes, titleId := s.titleId, kind := s.pkgKind
            contentId := s.contentId, expectVer := s.pkgVersion } } }
  | LocalAt.showDownloading =>
      { status := { w.status with statusStr := "downloading" }
        k := WorkerAt.localInstall LocalAt.setup, l := l }
  | LocalAt.setup =>
      if a.failed then
        WorkerOut.go w (l.fails (-1)) (WorkerAt.localInstall (LocalAt.finish false))
      else
        WorkerOut.go w
          { l with view := { l.view with
              total := if l.view.total = 0 then a.fileSize else l.view.total } }
          (WorkerAt.localInstall LocalAt.download)
  | LocalAt.download =>
      if l.view.down < l.view.total then
        if stopRequested w ∨ a.failed ∨ a.count = 0 then
          WorkerOut.go w (l.fails (-1)) (WorkerAt.localInstall (LocalAt.finish false))
        else
          WorkerOut.go w
            { l with view := { l.view with
                down := l.view.down + min a.count (min localChunk (l.view.total - l.view.down)) } }
            (WorkerAt.localInstall LocalAt.progress)
      else WorkerOut.go w l (WorkerAt.localInstall LocalAt.downloaded)
  | LocalAt.progress =>
      -- reported at most once a second
      { status :=
          if a.now = l.beginTime then w.status
          else { w.status with downloadedBytes := l.view.down, totalBytes := l.view.total }
        k := WorkerAt.localInstall LocalAt.download, l := { l with beginTime := a.now } }
  | LocalAt.downloaded =>
      { status := { w.status with downloadedBytes := l.view.total, totalBytes := l.view.total }
        k := WorkerAt.localInstall LocalAt.showInstalling, l := l }
  | LocalAt.showInstalling =>
      { status := { w.status with statusStr := "installing" }
        k := WorkerAt.localInstall LocalAt.resetProgress, l := l }
  | LocalAt.resetProgress =>
      { status := { w.status with downloadedBytes := 0, totalBytes := l.view.total }
        k := WorkerAt.localInstall LocalAt.submit, l := l }
  | LocalAt.submit =>
      if a.ret ≠ 0 then
        WorkerOut.go w (l.fails a.ret) (WorkerAt.localInstall (LocalAt.finish false))
      else
        WorkerOut.go w { l with beginTime := a.now, view := { l.view with down := 0 } }
          (WorkerAt.localInstall LocalAt.poll)
  | LocalAt.poll => localPollStep w l a
  | LocalAt.pollProgress done total =>
      { status := { w.status with downloadedBytes := done, totalBytes := total }
        k := WorkerAt.localInstall LocalAt.check, l := l }
  | LocalAt.check => localCheckStep w l a
  | LocalAt.finish ok =>
      { status := localFinishStatus w l ok
        k := WorkerAt.captureLocal ok, l := l }

/-- The update is taken out by the download-first worker. -/
def captureLocalStep (w : InstallWorld) (l : Worker) (ok : Bool) : WorkerOut :=
  if ok && hasPending w then
    { status := { w.status with isInstalling := true, completed := false, statusStr := "installing" }
      clears := true, k := WorkerAt.exited
      l := { l with next := w.pendingPkgPath, nextSerial := w.pendingSerial } }
  else { status := w.status, clears := true, k := WorkerAt.exited, l := l }

/-!
# One section of the worker
-/

def openStreamStep (w : InstallWorld) (l : Worker) (a : InstallAnswer) : WorkerOut :=
  if l.fs || a.streamStarts then WorkerOut.go w l WorkerAt.inspect
  else WorkerOut.go w l (WorkerAt.failEarly (-23))

def detachCheckStep (w : InstallWorld) (l : Worker) (next : WorkerAt) : WorkerOut :=
  WorkerOut.go w l (if w.detachDirectStorage then WorkerAt.tearDown TearStage.abort else next)

/-- Where the result of a submission leads. -/
def Worker.submitted (l : Worker) : WorkerAt :=
  if l.ret ≠ 0 then WorkerAt.failStart else WorkerAt.adoptContent

def fallbackCheckStep (w : InstallWorld) (l : Worker) : WorkerOut :=
  if l.ret = notConnected ∧ l.canFallback = true ∧ stopRequested w = false then
    WorkerOut.go w l WorkerAt.fallback
  else WorkerOut.go w l l.submitted

def pollFallbackSubmitStep (w : InstallWorld) (l : Worker) (a : InstallAnswer) : WorkerOut :=
  fallbackSubmitStep w l a
    (if a.ret ≠ 0 then WorkerAt.systemError a.ret else WorkerAt.loopHead)

/-- The section of {lit}`stream_installer_worker_body` or
{lit}`ps4_local_install` at a point; none when the body has returned. -/
def workerStep (console : Console) (w : InstallWorld) (l : Worker) (a : InstallAnswer) :
    WorkerAt -> Option WorkerOut
  | WorkerAt.snapshot => some (snapshotStep console w a)
  | WorkerAt.readHeader => some (readHeaderStep w l a)
  | WorkerAt.failEarly code =>
      some { status := failedStatus w.status code, clears := true, k := WorkerAt.exited, l := l }
  | WorkerAt.openStream => some (openStreamStep w l a)
  | WorkerAt.inspect => some (inspectStep w l a)
  | WorkerAt.inspectDlc => some (inspectDlcStep w l a)
  | WorkerAt.launch => some (launchStep w l)
  | WorkerAt.size => some (sizeStep w l a)
  | WorkerAt.attempt n => some (attemptStep w l n)
  | WorkerAt.retryWait n => some (retryWaitStep w l n)
  | WorkerAt.restart n => some (restartStep w l a n)
  | WorkerAt.submit n => some (submitStep console w l a n)
  | WorkerAt.detachCheck => some (detachCheckStep w l WorkerAt.cancelCheck)
  | WorkerAt.cancelCheck =>
      some (WorkerOut.go w l
        (if stopRequested w then WorkerAt.cancelExit else WorkerAt.fallbackCheck))
  | WorkerAt.cancelExit =>
      some { status := w.status, clears := true, k := WorkerAt.tearDown TearStage.abort, l := l }
  | WorkerAt.fallbackCheck => some (fallbackCheckStep w l)
  | WorkerAt.fallback => some (fallbackStep w l a WorkerAt.fallbackSubmit)
  | WorkerAt.fallbackSubmit => some (fallbackSubmitStep w l a WorkerAt.fallbackDetach)
  | WorkerAt.fallbackDetach => some (detachCheckStep w l l.submitted)
  | WorkerAt.failStart =>
      some { status := failedStatus w.status l.ret, clears := true
             k := WorkerAt.tearDown TearStage.abort, l := l }
  | WorkerAt.adoptContent => some (adoptContentStep w l)
  | WorkerAt.inspectAgain => some (inspectAgainStep w l a)
  | WorkerAt.loopHead => some (loopHeadStep w l)
  | WorkerAt.poll => some (pollStep w l a)
  | WorkerAt.lost code => some (lostStep w l code)
  | WorkerAt.pollFallback => some (fallbackStep w l a WorkerAt.pollFallbackSubmit)
  | WorkerAt.pollFallbackSubmit => some (pollFallbackSubmitStep w l a)
  | WorkerAt.systemError code =>
      some { status := failedStatus w.status code, k := WorkerAt.loopEnd, l := l }
  | WorkerAt.setTotal n =>
      some { status := { w.status with totalBytes := n }, k := WorkerAt.fsShow
             l := { l with view := { l.view with total := n } } }
  | WorkerAt.takeProgress p => some (takeProgressStep w l p)
  | WorkerAt.delivered p =>
      some (deliveredStep w l a (WorkerAt.showFinishing p) (WorkerAt.sysDone p))
  | WorkerAt.showFinishing p =>
      some { status := { w.status with statusStr := "installing" }, k := WorkerAt.sysDone p, l := l }
  | WorkerAt.sysDone p => some (sysDoneStep w l p)
  | WorkerAt.fsShow =>
      some { status := { w.status with
               downloadedBytes := 0, isDirectStorage := true, statusStr := "installing" }
             k := WorkerAt.fsVerify, l := l }
  | WorkerAt.fsVerify => some (fsVerifyStep w l a)
  | WorkerAt.deliveredAgain =>
      some (deliveredStep w l a WorkerAt.showFinishingAgain WorkerAt.verify)
  | WorkerAt.showFinishingAgain =>
      some { status := { w.status with statusStr := "installing" }, k := WorkerAt.verify, l := l }
  | WorkerAt.verify => some (verifyStep w l a)
  | WorkerAt.finalCheck => some (finalCheckStep w l a)
  | WorkerAt.complete => some (completeStep w l)
  | WorkerAt.timedOut =>
      some { status := failedStatus w.status (-24), k := WorkerAt.loopEnd, l := l }
  | WorkerAt.loopEnd => some (WorkerOut.go w l WorkerAt.capture)
  | WorkerAt.capture => some (captureStep w l)
  | WorkerAt.tearDown stage => some (tearDownStep w l stage)
  | WorkerAt.localInstall k => some (localStep w l a k)
  | WorkerAt.captureLocal ok => some (captureLocalStep w l ok)
  | WorkerAt.exited => none

end Installer
end PkgManager
