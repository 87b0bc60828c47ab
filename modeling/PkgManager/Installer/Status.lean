import PkgManager.StreamServer.Request

/-!
# What the installer keeps

The globals of {lit}`installer.c` under its lock, and the lock-held sections
that start, queue, cancel and detach an install.  Prompt texts and the progress
number only serve the display and are left out.  Callers hold paths in buffers
of 512 bytes, so that a copy into such a buffer does not cut them.
-/

namespace PkgManager
namespace Installer

open StreamServer (Console)

/-- {lit}`installer_status_t` -/
structure InstallerStatus where
  isInstalling : Bool
  pkgPath : String
  titleId : String
  titleName : String
  contentId : String
  pkgKind : String
  pkgVersion : String
  statusStr : String
  downloadedBytes : Nat
  streamServedBytes : Nat
  totalBytes : Nat
  errorCode : Int
  completed : Bool
  failed : Bool
  isMultipart : Bool
  currentPart : Nat
  totalParts : Nat
  waitingForDisc : Bool
  isDirectStorage : Bool
deriving DecidableEq

/-- The status that {lit}`installer_init` leaves. -/
def idleStatus : InstallerStatus where
  isInstalling := false
  pkgPath := ""
  titleId := ""
  titleName := ""
  contentId := ""
  pkgKind := ""
  pkgVersion := ""
  statusStr := "idle"
  downloadedBytes := 0
  streamServedBytes := 0
  totalBytes := 0
  errorCode := 0
  completed := false
  failed := false
  isMultipart := false
  currentPart := 0
  totalParts := 0
  waitingForDisc := false
  isDirectStorage := false

/-- What the parser finds in a package, as far as the installer uses it. -/
structure PkgDetail where
  titleId : String
  titleName : String
  contentId : String
  pkgTypeStr : String
  appVersion : String
  isMultipart : Bool
  totalParts : Nat
  totalPkgSize : Nat
  fileSize : Nat
deriving DecidableEq

/-- Basic information about a package that the parser does not understand. -/
def fallbackDetail (fileSize : Nat) : PkgDetail where
  titleId := "UNKNOWN"
  titleName := "Package"
  contentId := ""
  pkgTypeStr := ""
  appVersion := ""
  isMultipart := false
  totalParts := 0
  totalPkgSize := 0
  fileSize := fileSize

/-- {lit}`install_queue_entry_t`; the ticket is history and tells entries
apart. -/
structure QueueEntry where
  path : String
  updatePath : String
  ticket : Nat
deriving DecidableEq

/-- {lit}`INSTALL_QUEUE_MAX` -/
def queueMax : Nat := 16

/-- The globals.  History: the number of installs started so far, the one that
the pending path was given with, those that were canceled or detached, the
number of tickets given out, and the requests that were answered as queued and
wait in an entry. -/
structure InstallWorld where
  status : InstallerStatus
  cancelStream : Bool
  detachDirectStorage : Bool
  batchUpdatePending : Bool
  pendingPkgPath : String
  queue : List QueueEntry
  failedBaseTitle : String
  streamThread : Nat
  streamThreadCreated : Bool
  monitorRunning : Bool
  localPrefixes : List String
  serial : Nat
  pendingSerial : Nat
  stopped : List Nat
  tickets : Nat
  waiting : List QueueEntry
deriving DecidableEq

/-!
# Results
-/

/-- {lit}`INSTALLER_HANDOFF_DISCARDED` -/
def handoffDiscarded : Int := -1000

/-- {lit}`INSTALLER_REFUSED` -/
def installerRefused : Int := -15

/-- {lit}`INSTALLER_UNAVAILABLE` -/
def installerUnavailable : Int := -16

/-- {lit}`INSTALLER_QUEUED` -/
def installerQueued : Int := -17

/-- {lit}`INSTALLER_SKIPPED` -/
def installerSkipped : Int := -18

/-- The result of a start while another install runs. -/
def alreadyInstalling : Int := -2

/-!
# Paths
-/

def isHttpPath (path : String) : Bool :=
  hasPrefix "http://" path || hasPrefix "https://" path

/-- {lit}`is_usb_or_disc_path`, with the prefixes that are configured. -/
def isUsbOrDiscPath (prefixes : List String) (path : String) : Bool :=
  !(path == "" || hasPrefix "smb://" path || hasPrefix "live:" path) &&
    prefixes.any (fun pre => hasPrefix pre path)

/-- {lit}`installer_is_filesystem_install` -/
def isFilesystemInstall (console : Console) (prefixes : List String) (path : String)
    (isMultipart : Bool) : Bool :=
  decide (console = Console.ps5) && isUsbOrDiscPath prefixes path && !isMultipart

/-!
# The queue
-/

/-- {lit}`queue_find_locked` -/
def queueFind (queue : List QueueEntry) (path : String) : Option QueueEntry :=
  queue.find? (fun e => e.path == path)

/-- {lit}`queue_remove_at_locked`, at the first entry of the path. -/
def queueRemove (queue : List QueueEntry) (path : String) : List QueueEntry :=
  queue.eraseP (fun e => e.path == path)

/-- The requests that wait in an entry are resolved. -/
def resolve (w : InstallWorld) (ticket : Nat) : InstallWorld :=
  { w with waiting := w.waiting.filter (fun e => e.ticket != ticket) }

/-- The lock-held section of {lit}`installer_enqueue`: the result, and whether
nothing was installing. -/
def enqueue (w : InstallWorld) (path updatePath : String) : InstallWorld × Int × Bool :=
  match queueFind w.queue path with
  | some e =>
      ({ w with waiting := { path := path, updatePath := updatePath, ticket := e.ticket } ::
          w.waiting }, installerQueued, false)
  | none =>
      if w.status.pkgPath = path then (w, installerQueued, false)
      else if w.queue.length ≥ queueMax then (w, alreadyInstalling, false)
      else
        let e := { path := path, updatePath := updatePath, ticket := w.tickets : QueueEntry }
        ({ w with queue := w.queue ++ [e], tickets := w.tickets + 1, waiting := e :: w.waiting },
          installerQueued, !w.status.isInstalling)

/-- {lit}`installer_queue_remove` -/
def installerQueueRemove (w : InstallWorld) (path : String) : InstallWorld × Int :=
  match queueFind w.queue path with
  | some e => (resolve { w with queue := queueRemove w.queue path } e.ticket, 0)
  | none => (w, -1)

/-- The first lock-held section of {lit}`installer_start_next_queued`. -/
def popQueued (w : InstallWorld) : InstallWorld × Option QueueEntry :=
  match w.queue with
  | [] => (w, none)
  | e :: rest =>
      if !w.monitorRunning || w.status.isInstalling then (w, none)
      else ({ w with queue := rest }, some e)

/-- The entry goes back to the head when there is room. -/
def putBack (w : InstallWorld) (e : QueueEntry) : InstallWorld :=
  if w.queue.length < queueMax then { w with queue := e :: w.queue } else w

/-!
# Cancel and detach
-/

/-- The lock-held section of {lit}`installer_cancel`. -/
def cancel (w : InstallWorld) : InstallWorld × Int :=
  if !w.status.isInstalling then (w, -1)
  else if w.status.isDirectStorage then (w, -2)
  else
    ({ w with
        cancelStream := true, pendingPkgPath := "", stopped := w.serial :: w.stopped
        status := { w.status with isInstalling := false, failed := true, statusStr := "canceled" } },
      0)

/-- {lit}`installer_detach_direct_storage` -/
def detach (w : InstallWorld) : InstallWorld × Int :=
  if !w.status.isInstalling then (w, -1)
  else if !w.status.isDirectStorage then (w, -2)
  else
    ({ w with
        detachDirectStorage := true, batchUpdatePending := false, pendingPkgPath := ""
        stopped := w.serial :: w.stopped
        status := { w.status with
          isInstalling := false, completed := false, failed := false, waitingForDisc := false
          errorCode := 0, statusStr := "background" } },
      0)

/-!
# Starting an install
-/

/-- The first lock-held section of {lit}`installer_start_internal`: a result when
it ends there. -/
def startCheck (w : InstallWorld) (handoff : Bool) : InstallWorld × Option Int :=
  if handoff && w.detachDirectStorage then (w, some handoffDiscarded)
  else
    let already := w.status.isInstalling
    let w := if already then w else { w with pendingPkgPath := "" }
    (w, if already && !handoff then some alreadyInstalling else none)

/-- The section that takes over the thread of the previous worker, if it is still
recorded. -/
def takeThread (w : InstallWorld) : InstallWorld × Option Nat :=
  if w.streamThreadCreated then
    ({ w with streamThreadCreated := false }, some w.streamThread)
  else (w, none)

/-- The base of this title has failed: clears the mark when it is started
again. -/
def checkFailedBase (w : InstallWorld) (d : PkgDetail) : InstallWorld × Bool :=
  let baseFailed := w.failedBaseTitle != "" && w.failedBaseTitle == d.titleId
  if baseFailed && caseEq d.pkgTypeStr "base" then ({ w with failedBaseTitle := "" }, true)
  else (w, baseFailed)

/-- The status of an install that starts. -/
def startStatus (path : String) (d : PkgDetail) (directStorage : Bool) (totalBytes : Nat) :
    InstallerStatus where
  isInstalling := true
  pkgPath := path
  titleId := cTruncate 32 d.titleId
  titleName := cTruncate 256 d.titleName
  contentId := cTruncate 64 d.contentId
  pkgKind := cTruncate 16 d.pkgTypeStr
  pkgVersion := cTruncate 32 d.appVersion
  statusStr := if directStorage then "installing" else "transferring"
  downloadedBytes := 0
  streamServedBytes := 0
  totalBytes := totalBytes
  errorCode := 0
  completed := false
  failed := false
  isMultipart := d.isMultipart
  currentPart := if d.isMultipart then 1 else 0
  totalParts := d.totalParts
  waitingForDisc := false
  isDirectStorage := directStorage

/-- What a commit changes when the worker thread, which gets the number
{lit}`thread`, can be created. -/
def commitStarted (w : InstallWorld) (thread : Nat) : InstallWorld :=
  { w with
    cancelStream := false, streamThread := thread, streamThreadCreated := true }

/-- What it leaves when the thread cannot be created. -/
def commitFailed (w : InstallWorld) : InstallWorld :=
  { w with
    cancelStream := false
    status := { w.status with isInstalling := false, failed := true } }

/-- The commit of {lit}`installer_start_internal`, up to the thread. -/
def commitPackage (w : InstallWorld) (path updatePath : String) (d : PkgDetail)
    (directStorage : Bool) : InstallWorld :=
  { w with
    detachDirectStorage := false, batchUpdatePending := updatePath != ""
    pendingPkgPath := updatePath, pendingSerial := w.serial + 1, serial := w.serial + 1
    status := startStatus path d directStorage
      (if d.totalPkgSize > 0 then d.totalPkgSize else d.fileSize) }

/-- The commit of {lit}`installer_start_live`, which leaves the pending path. -/
def commitLive (w : InstallWorld) (path : String) (d : PkgDetail) (totalBytes : Nat) :
    InstallWorld :=
  { w with
    detachDirectStorage := false, batchUpdatePending := false, serial := w.serial + 1
    status := startStatus path { d with isMultipart := false, totalParts := 0 } false totalBytes }

end Installer
end PkgManager
