import PkgManager.Bgft.Runs

/-!
# Installs from the drive of the console

On a PS4 a package from a web source is first copied to the drive, installed from there, and the
copy is deleted.  Whatever happens on the way, one end of the function gives up the file, the
session and the task.
-/

namespace PkgManager
namespace LocalInstall

open CString
open PkgManager.Parser

/-!
# The world
-/

/-- What the function does to the outside. -/
inductive Event where
  | openFile
  | closeFile
  | openSession
  | closeSession
  | install (file : List UInt8)
  | verified (installed : Bool)
  | unlink
deriving DecidableEq

def Event.ofFile : Event -> Bool
  | .openFile | .closeFile => true
  | _ => false

def Event.ofSession : Event -> Bool
  | .openSession | .closeSession => true
  | _ => false

/-- The fields of {lit}`g_status` that the function uses. -/
structure Status where
  titleId : Text
  titleName : Text
  contentId : Text
  pkgKind : Text
  pkgVersion : Text
  isInstalling : Bool
  failed : Bool
  completed : Bool
  errorCode : Int
  downloadedBytes : Nat
  totalBytes : Nat
  statusStr : Text
  promptMessage : Text

/-- The answers from outside, at their times. -/
structure Outside where
  cancelStream : Nat -> Bool
  monitorRunning : Nat -> Bool
  available : Option Nat
  opens : Bool
  connects : Bool
  allocates : Bool
  size : Nat
  source : Nat -> UInt8
  read : Nat -> Nat -> Nat -> Int
  read_le : forall now want off, read now want off ≤ want
  write : Nat -> Nat -> Int
  write_le : forall now len, write now len ≤ len
  time : Nat -> Int
  verified : Nat -> Bool
  category : Text

structure LocalWorld where
  now : Nat
  system : Bgft.World
  status : Status
  file : Option (List UInt8)
  events : List Event

def LocalWorld.tick (w : LocalWorld) : LocalWorld :=
  { w with now := w.now + 1 }

def LocalWorld.log (w : LocalWorld) (e : Event) : LocalWorld :=
  { w with events := w.events ++ [e] }

/-- {lit}`local_status` -/
def LocalWorld.shows (w : LocalWorld) (status prompt : Text) : LocalWorld :=
  { w with
    status := { w.status with statusStr := copied 32 status, promptMessage := copied 256 prompt } }

/-- {lit}`local_progress` -/
def LocalWorld.progress (w : LocalWorld) (done total : Nat) : LocalWorld :=
  { w with status := { w.status with downloadedBytes := done, totalBytes := total } }

/-- {lit}`local_stop_requested` -/
def localStopRequested (out : Outside) (now : Nat) : Bool :=
  out.cancelStream now || !out.monitorRunning now

/-- {lit}`fail` and {lit}`fail_code` -/
structure Failure where
  text : Text
  code : Int

def canceled : Failure :=
  ⟨ascii "Installation was canceled", -1⟩

/-!
# The download
-/

section
variable (out : Outside)

/-- The loop over what one read has delivered. -/
def writeAll (bytes : List UInt8) (w : LocalWorld) : Bool × LocalWorld :=
  if _hbytes : bytes = [] then (true, w)
  else
    let k := out.write w.now bytes.length
    if _hk : k ≤ 0 then (false, w.tick)
    else
      writeAll (bytes.drop k.toNat)
        { w.tick with file := w.file.map (fun file => file ++ bytes.take k.toNat) }
termination_by bytes.length
decreasing_by
  have hpos := List.length_pos_iff.mpr _hbytes
  rw [List.length_drop]
  omega

/-- {lit}`PS4_LOCAL_DL_CHUNK` -/
def chunk : Nat := 64 * 1024

/-- The bytes of the source from a place on. -/
def sourceBytes (off n : Nat) : List UInt8 :=
  (List.range n).map (fun i => out.source (off + i))

/-- The loop over the package. -/
def download (total off : Nat) (lastReport : Int) (w : LocalWorld) :
    Option Failure × LocalWorld :=
  if _hoff : off < total then
    if localStopRequested out w.now then (some canceled, w)
    else
      let n := out.read w.now (min (total - off) chunk) off
      if _hn : n ≤ 0 then (some ⟨ascii "Download to the console failed", -1⟩, w.tick)
      else
        match writeAll out (sourceBytes out off n.toNat) w.tick with
        | (false, w) =>
            (some ⟨ascii "Writing the package to the console's drive failed", -1⟩, w)
        | (true, w) =>
            let now := out.time w.now
            let shown := if now ≠ lastReport then w.tick.progress (off + n.toNat) total else w.tick
            download total (off + n.toNat) now shown
  else (none, w)
termination_by total - off
decreasing_by omega

/-!
# The install
-/

/-- {lit}`PS4_LOCAL_STALL_SEC` -/
def stallSec : Int := 30 * 60

/-- What one turn of the loop leads to. -/
inductive Turn where
  | ends (fail : Option Failure) (w : LocalWorld)
  | goesOn (lastDone : Nat) (lastChange : Int) (w : LocalWorld)

/-- The checks behind the status. -/
def turnChecks (checks : Bool) (lastDone : Nat) (lastChange : Int) (w : LocalWorld) : Turn :=
  let asked := if checks then w.tick.log (.verified (out.verified w.now)) else w
  if checks ∧ out.verified w.now then .ends none asked
  else if out.time asked.now - lastChange > stallSec then
    .ends (some ⟨ascii "Installing from the console's drive stopped making progress", -1⟩)
      asked.tick
  else .goesOn lastDone lastChange asked.tick

variable (svc : Bgft.Service)

def turn (total lastDone : Nat) (lastChange : Int) (w : LocalWorld) : Turn :=
  if localStopRequested out w.now then .ends (some canceled) w
  else
    let polled := Bgft.platformInstallPoll svc w.system
    let w := { w.tick with system := polled.2 }
    match polled.1 with
    | none => turnChecks out true lastDone lastChange w
    | some pr =>
        if pr.errorCode ≠ 0 ∨ pr.status = ascii "error" then
          let code := if pr.errorCode ≠ 0 then pr.errorCode else -1
          .ends (some ⟨ascii "The console rejected the package", code⟩) w
        else
          let copiedAll := decide (0 < pr.totalSize ∧ pr.totalSize ≤ pr.downloadedSize)
          if pr.downloadedSize ≠ lastDone then
            let shown := if 0 < pr.totalSize then pr.totalSize else total
            turnChecks out copiedAll pr.downloadedSize (out.time w.now)
              (w.tick.progress pr.downloadedSize shown)
          else turnChecks out copiedAll lastDone lastChange w

/-- The loop up to a number of turns. -/
def waitInstalled (total : Nat) : Nat -> Nat -> Int -> LocalWorld ->
    Option (Option Failure × LocalWorld)
  | 0, _, _, _ => none
  | fuel + 1, lastDone, lastChange, w =>
      match turn out svc total lastDone lastChange w with
      | .ends fail w => some (fail, w)
      | .goesOn lastDone lastChange w => waitInstalled total fuel lastDone lastChange w

/-!
# The function
-/

/-- The locals at the label {lit}`done`. -/
structure Exit where
  fail : Option Failure
  fd : Bool
  hs : Bool
  bgftStarted : Bool
  world : LocalWorld

def spaceNeeded (total : Nat) : Nat :=
  (total * 2 + 512 * 2 ^ 20) % 2 ^ 64

def pkgName (s : Status) : Text :=
  copied 32 s.titleId ++ ascii "-" ++ copied 16 s.pkgKind ++ ascii ".pkg"

def titleShown (s : Status) : Text :=
  copied 256 (if s.titleName ≠ [] then s.titleName else ascii "Package")

def startRequest (s : Status) (total : Nat) : Bgft.Request where
  uri := copied 384 (ascii "/user/data/pkgmgr/dl/" ++ pkgName s)
  displayName := titleShown s
  titleName := some (titleShown s)
  contentId := some (copied 64 s.contentId)
  pkgKind := some (copied 16 s.pkgKind)
  category := some out.category
  packageSize := total

/-- What follows the download. -/
def installCopy (fuel total : Nat) (w : LocalWorld) : Option Exit :=
  let closed := ((w.progress total total).log .closeFile).log .closeSession
  let shown := (closed.shows (ascii "installing") (ascii "Installing " ++ titleShown w.status ++
    ascii " from the console's drive...")).progress 0 total
  let req := startRequest out w.status total
  let started := Bgft.platformInstallStartLocal svc req req.uri shown.system
  let asked := { shown.log (.install (w.file.getD [])) with system := started.2 }
  if started.1 ≠ 0 then
    let fail := ⟨ascii "The console could not install the downloaded package", started.1⟩
    some ⟨some fail, false, false, false, asked⟩
  else
    match waitInstalled out svc total fuel 0 (out.time asked.now) asked.tick with
    | none => none
    | some (some fail, w) => some ⟨some fail, false, false, true, w⟩
    | some (none, w) =>
        let closed := { w with system := Bgft.platformInstallClose w.system }
        some ⟨none, false, false, false, closed⟩

/-- The file and the session are opened, in this order. -/
def setUp (w : LocalWorld) : LocalWorld :=
  let opened :=
    if out.opens then { w.log .openFile with file := some [] } else { w with file := none }
  if out.connects then opened.log .openSession else opened

def beforeDone (fuel : Nat) (w : LocalWorld) : Option Exit :=
  let total := w.status.totalBytes
  let w := w.shows (ascii "downloading") (ascii "Downloading " ++ titleShown w.status ++
    ascii " to the console...")
  if total ≠ 0 ∧ out.available.any (fun avail => avail < spaceNeeded total) then
    let fail := ⟨ascii "Not enough free space to download the package to the console first", -1⟩
    some ⟨some fail, false, false, false, w⟩
  else if ¬(out.opens ∧ out.connects ∧ out.allocates) then
    let fail := ⟨ascii "Could not start the download to the console", -1⟩
    some ⟨some fail, out.opens, out.connects, false, setUp out w⟩
  else
    let total := if total = 0 then out.size else total
    match download out total 0 0 (setUp out w) with
    | (some fail, w) => some ⟨some fail, true, true, false, w⟩
    | (none, w) => installCopy out svc fuel total w

/-- From the label {lit}`done` on. -/
def atDone (e : Exit) : Int × LocalWorld :=
  let w := if e.fd then e.world.log .closeFile else e.world
  let w := if e.hs then w.log .closeSession else w
  let w := if e.bgftStarted then { w with system := Bgft.platformInstallDiscard w.system } else w
  let w := { w.log .unlink with file := none }
  match e.fail with
  | some fail =>
      let s := { w.status with isInstalling := false, failed := true, completed := false : Status }
      let told :=
        if out.cancelStream w.now then s
        else
          { s with
            errorCode := fail.code
            statusStr := ascii "error"
            promptMessage := copied 256 fail.text }
      (-1, { w.tick with status := told })
  | none =>
      let s := { w.status with
        isInstalling := false
        failed := false
        completed := true
        downloadedBytes := w.status.totalBytes
        statusStr := ascii "playable"
        promptMessage := copied 256 (titleShown w.status ++ ascii " is ready to play!") }
      (0, { w.tick with status := s })

def committed (s : Status) : Status :=
  { s with
    isInstalling := true
    failed := false
    completed := false
    errorCode := 0
    downloadedBytes := 0 }

/-- {lit}`ps4_local_install`, with a limit on the turns of its last loop; the events are those of
the call. -/
def ps4LocalInstall (fuel : Nat) (w : LocalWorld) : Option (Int × LocalWorld) :=
  (beforeDone out svc fuel { w with status := committed w.status, events := [] }).map (atDone out)


/-!
# The copy

The loops of the download leave a trace in the file only.
-/

/-- The download works on the file and shows how far it is. -/
structure Quiet (w w' : LocalWorld) : Prop where
  events : w'.events = w.events
  system : w'.system = w.system

theorem Quiet.trans {a b c : LocalWorld} (hab : Quiet a b) (hbc : Quiet b c) : Quiet a c :=
  ⟨hbc.events.trans hab.events, hbc.system.trans hab.system⟩

theorem quiet_tick (w : LocalWorld) : Quiet w w.tick :=
  ⟨rfl, rfl⟩

theorem quiet_progress (w : LocalWorld) (done total : Nat) : Quiet w (w.progress done total) :=
  ⟨rfl, rfl⟩

theorem writeAll_quiet (bytes : List UInt8) (w : LocalWorld) :
    Quiet w (writeAll out bytes w).2 := by
  induction bytes, w using writeAll.induct out with
  | case1 w =>
      rw [writeAll, dif_pos rfl]
      exact ⟨rfl, rfl⟩
  | case2 bytes w hbytes k =>
      rename_i hk
      rw [writeAll, dif_neg hbytes, dif_pos hk]
      exact quiet_tick w
  | case3 bytes w hbytes k =>
      rename_i hk ih
      rw [writeAll, dif_neg hbytes, dif_neg hk]
      exact ⟨ih.events, ih.system⟩

/-- However short the writes are, the file ends with all of the bytes when none has failed. -/
theorem writeAll_file {bytes file : List UInt8} {w : LocalWorld} (hfile : w.file = some file)
    (hwritten : (writeAll out bytes w).1 = true) :
    (writeAll out bytes w).2.file = some (file ++ bytes) := by
  induction bytes, w using writeAll.induct out generalizing file with
  | case1 w =>
      rw [writeAll, dif_pos rfl, List.append_nil]
      exact hfile
  | case2 bytes w hbytes k =>
      rename_i hk
      rw [writeAll, dif_neg hbytes, dif_pos hk] at hwritten
      cases hwritten
  | case3 bytes w hbytes k =>
      rename_i hk ih
      rw [writeAll, dif_neg hbytes, dif_neg hk] at hwritten ⊢
      have htaken : w.file.map (fun file => file ++ bytes.take k.toNat) =
          some (file ++ bytes.take k.toNat) := by
        rw [hfile]
        rfl
      have hrest := ih htaken hwritten
      rw [List.append_assoc, List.take_append_drop] at hrest
      exact hrest

theorem sourceBytes_append (off n m : Nat) :
    sourceBytes out off n ++ sourceBytes out (off + n) m = sourceBytes out off (n + m) := by
  unfold sourceBytes
  rw [List.range_add, List.map_append, List.map_map]
  congr 1
  apply List.map_congr_left
  intro i _
  exact congrArg out.source (Nat.add_assoc off n i)

/-- What the download makes of a world. -/
structure Copied (total off : Nat) (w : LocalWorld) (r : Option Failure × LocalWorld) : Prop where
  quiet : Quiet w r.2
  file : forall {file}, w.file = some file -> r.1 = none ->
    r.2.file = some (file ++ sourceBytes out off (total - off))

theorem download_copied (total off : Nat) (lastReport : Int) (w : LocalWorld) :
    Copied out total off w (download out total off lastReport w) := by
  induction off, lastReport, w using download.induct out total with
  | case1 off lastReport w hoff hstop =>
      rw [download, dif_pos hoff, if_pos hstop]
      exact ⟨⟨rfl, rfl⟩, fun _ hnone => by cases hnone⟩
  | case2 off lastReport w hoff hstop n =>
      rename_i hn
      rw [download, dif_pos hoff, if_neg hstop, dif_pos hn]
      exact ⟨quiet_tick w, fun _ hnone => by cases hnone⟩
  | case3 off lastReport w hoff hstop n =>
      rename_i hn w' hwrite
      rw [download, dif_pos hoff, if_neg hstop, dif_neg hn, hwrite]
      have hquiet := writeAll_quiet out (sourceBytes out off n.toNat) w.tick
      rw [hwrite] at hquiet
      exact ⟨(quiet_tick w).trans hquiet, fun _ hnone => by cases hnone⟩
  | case4 off lastReport w hoff hstop n =>
      rename_i hn w' hwrite now shown ih
      rw [download, dif_pos hoff, if_neg hstop, dif_neg hn, hwrite]
      have hquiet := writeAll_quiet out (sourceBytes out off n.toNat) w.tick
      rw [hwrite] at hquiet
      have hshown : Quiet w' shown := by
        change Quiet w' (if now ≠ lastReport then _ else _)
        split
        · exact ⟨rfl, rfl⟩
        · exact quiet_tick w'
      refine ⟨((quiet_tick w).trans hquiet).trans (hshown.trans ih.quiet), ?_⟩
      intro file hfile hnone
      have hwritten : (writeAll out (sourceBytes out off n.toNat) w.tick).1 = true -> _ :=
        writeAll_file out hfile
      rw [hwrite] at hwritten
      have hsame : shown.file = w'.file := by
        change (if now ≠ lastReport then _ else _ : LocalWorld).file = _
        split
        · rfl
        · rfl
      have hrest := ih.file (hsame.trans (hwritten rfl)) hnone
      have hle : n.toNat ≤ total - off := by
        have hread := out.read_le w.now (min (total - off) chunk) off
        have hmin := Nat.min_le_left (total - off) chunk
        change out.read _ _ _ ≤ _ at hread
        omega
      have hleft : n.toNat + (total - (off + n.toNat)) = total - off := by
        rw [<- Nat.sub_sub, Nat.add_sub_cancel' hle]
      rw [List.append_assoc, sourceBytes_append, hleft] at hrest
      exact hrest
  | case5 off lastReport w hoff =>
      rw [download, dif_neg hoff]
      refine ⟨⟨rfl, rfl⟩, ?_⟩
      intro file hfile _
      have hnothing : sourceBytes out off (total - off) = [] := by
        rw [Nat.sub_eq_zero_of_le (not_lt.mp hoff)]
        rfl
      rw [hnothing, List.append_nil]
      exact hfile

/-!
# The wait
-/

/-- The wait polls and asks whether the title is installed, and leaves the tasks as they are. -/
structure Waits (w w' : LocalWorld) : Prop where
  asked : exists answers : List Bool, w'.events = w.events ++ answers.map Event.verified
  tasks : w'.system.tasks = w.system.tasks
  taskId : w'.system.taskId = w.system.taskId
  ready : w'.system.ready = w.system.ready

theorem Quiet.waits {w w' : LocalWorld} (h : Quiet w w') : Waits w w' where
  asked := ⟨[], h.events.trans (List.append_nil w.events).symm⟩
  tasks := congrArg Bgft.World.tasks h.system
  taskId := congrArg Bgft.World.taskId h.system
  ready := congrArg Bgft.World.ready h.system

theorem Waits.trans {a b c : LocalWorld} (hab : Waits a b) (hbc : Waits b c) : Waits a c where
  asked := by
    rcases hab.asked with ⟨first, hfirst⟩
    rcases hbc.asked with ⟨others, hothers⟩
    refine ⟨first ++ others, ?_⟩
    rw [hothers, hfirst, List.map_append, List.append_assoc]
  tasks := hbc.tasks.trans hab.tasks
  taskId := hbc.taskId.trans hab.taskId
  ready := hbc.ready.trans hab.ready

theorem waits_log (w : LocalWorld) (installed : Bool) : Waits w (w.log (.verified installed)) :=
  ⟨⟨[installed], rfl⟩, rfl, rfl, rfl⟩

/-- The wait ends well only when the title was found installed. -/
inductive Waited (w : LocalWorld) : Option Failure × LocalWorld -> Prop where
  | failed (fail : Failure) {w' : LocalWorld} (h : Waits w w') : Waited w (some fail, w')
  | installed {asked : LocalWorld} (h : Waits w asked) :
      Waited w (none, asked.log (.verified true))

inductive Turned (w : LocalWorld) : Turn -> Prop where
  | ends {fail : Option Failure} {w' : LocalWorld} (h : Waited w (fail, w')) :
      Turned w (.ends fail w')
  | goesOn (lastDone : Nat) (lastChange : Int) {w' : LocalWorld} (h : Waits w w')
      (hlater : w.now < w'.now) : Turned w (.goesOn lastDone lastChange w')

theorem turnChecks_turned {w w' : LocalWorld} (checks : Bool) (lastDone : Nat) (lastChange : Int)
    (h : Waits w w') (hlater : w.now < w'.now) :
    Turned w (turnChecks out checks lastDone lastChange w') := by
  have hends : forall asked, Waits w asked -> w.now < asked.now ->
      Turned w (if out.time asked.now - lastChange > stallSec then
        .ends (some ⟨ascii "Installing from the console's drive stopped making progress", -1⟩)
          asked.tick
        else .goesOn lastDone lastChange asked.tick) := by
    intro asked hasked hnow
    have htick := hasked.trans (quiet_tick asked).waits
    split
    · exact Turned.ends (Waited.failed _ htick)
    · exact Turned.goesOn lastDone lastChange htick (hnow.trans (Nat.lt_succ_self asked.now))
  have htick := h.trans (quiet_tick w').waits
  unfold turnChecks
  cases checks with
  | false => exact hends w' h hlater
  | true =>
      dsimp only
      split
      · rename_i hfound
        rw [if_pos rfl, hfound.right]
        exact Turned.ends (Waited.installed htick)
      · exact hends _ (htick.trans (waits_log w'.tick _)) (hlater.trans (Nat.lt_succ_self w'.now))

theorem waits_poll (w : LocalWorld) :
    Waits w { w.tick with system := (Bgft.platformInstallPoll svc w.system).2 } := by
  have hsystem : forall {s : Bgft.World}, s = w.system ∨ s = w.system.tick ->
      Waits w { w.tick with system := s } := by
    intro s hs
    rcases hs with rfl | rfl
    · exact (quiet_tick w).waits
    · exact ⟨⟨[], (List.append_nil w.events).symm⟩, rfl, rfl, rfl⟩
  apply hsystem
  unfold Bgft.platformInstallPoll
  split
  · exact Or.inl rfl
  · split
    · exact Or.inl rfl
    · split
      · exact Or.inr rfl
      · exact Or.inr rfl

theorem turn_turned (total lastDone : Nat) (lastChange : Int) (w : LocalWorld) :
    Turned w (turn out svc total lastDone lastChange w) := by
  have hpoll := waits_poll svc w
  have hlater : w.now < w.tick.now := Nat.lt_succ_self w.now
  unfold turn
  dsimp only
  split
  · exact Turned.ends (Waited.failed _ ⟨⟨[], (List.append_nil w.events).symm⟩, rfl, rfl, rfl⟩)
  · split
    · exact turnChecks_turned out true lastDone lastChange hpoll hlater
    · split
      · exact Turned.ends (Waited.failed _ hpoll)
      · split
        · exact turnChecks_turned out _ _ _
            (hpoll.trans ((quiet_tick _).trans (quiet_progress _ _ _)).waits)
            (hlater.trans (Nat.lt_succ_self _))
        · exact turnChecks_turned out _ lastDone lastChange hpoll hlater

theorem waitInstalled_waited {total fuel lastDone : Nat} {lastChange : Int} {w : LocalWorld}
    {r : Option Failure × LocalWorld}
    (h : waitInstalled out svc total fuel lastDone lastChange w = some r) : Waited w r := by
  induction fuel generalizing lastDone lastChange w with
  | zero => cases h
  | succ fuel ih =>
      have hturned := turn_turned out svc total lastDone lastChange w
      unfold waitInstalled at h
      generalize turn out svc total lastDone lastChange w = next at h hturned
      cases hturned with
      | ends hwaited =>
          cases h
          exact hwaited
      | goesOn lastDone' lastChange' hwaits =>
          cases ih h with
          | failed fail hrest => exact Waited.failed fail (hwaits.trans hrest)
          | installed hrest => exact Waited.installed (hwaits.trans hrest)

/-- Once a stop has been requested for good, the wait ends. -/
theorem waitInstalled_ends {stop : Nat}
    (hstop : forall now, stop ≤ now -> localStopRequested out now = true) (total : Nat)
    {fuel : Nat} (lastDone : Nat) (lastChange : Int) {w : LocalWorld}
    (hfuel : stop < w.now + fuel) (hpos : 0 < fuel) :
    (waitInstalled out svc total fuel lastDone lastChange w).isSome = true := by
  induction fuel generalizing lastDone lastChange w with
  | zero => cases hpos
  | succ fuel ih =>
      have hturned := turn_turned out svc total lastDone lastChange w
      have hends : stop ≤ w.now -> turn out svc total lastDone lastChange w =
          .ends (some canceled) w := by
        intro hle
        unfold turn
        rw [if_pos (hstop w.now hle)]
      unfold waitInstalled
      generalize turn out svc total lastDone lastChange w = next at hends hturned
      cases hturned with
      | ends hwaited => rfl
      | @goesOn lastDone' lastChange' w' hwaits hlater =>
          have hfuel' : stop < w'.now + fuel := by omega
          have hbefore : w.now < stop := by
            apply not_le.mp
            intro hle
            cases hends hle
          exact ih lastDone' lastChange' hfuel' (by omega)

/-!
# The exits
-/

/-- What the events say about a handle. -/
inductive Handle (opened closed : Event) : Bool -> List Event -> Prop where
  | unopened : Handle opened closed false []
  | held : Handle opened closed true [opened]
  | released : Handle opened closed false [opened, closed]

/-- A task is tracked, and the others were there before. -/
structure Tracks (w w' : LocalWorld) : Prop where
  ready : w'.system.ready = true
  task : exists id, w'.system.taskId = some id ∧
    (w'.system.tasks.filter (fun t => t.id != id)).Sublist w.system.tasks

/-- What holds at the label of an install that works on the bytes of the source. -/
structure AtLabel (bytes : List UInt8) (w : LocalWorld) (e : Exit) : Prop where
  file : Handle .openFile .closeFile e.fd (e.world.events.filter Event.ofFile)
  session : Handle .openSession .closeSession e.hs (e.world.events.filter Event.ofSession)
  started : e.bgftStarted = true -> Tracks w e.world
  failed : e.fail.isSome = true -> e.bgftStarted = false ->
    e.world.system.tasks.Sublist w.system.tasks
  asked : forall file, .install file ∈ e.world.events -> file = bytes
  installed : e.fail = none -> exists before between,
    e.world.events = before ++ .install bytes :: (between ++ [.verified true])

/-- What an install leaves behind. -/
structure LeavesNothing (bytes : List UInt8) (w : LocalWorld) (r : Int × LocalWorld) : Prop where
  ret : r.1 = 0 ∨ r.1 = -1
  asked : forall file, .install file ∈ r.2.events -> file = bytes
  installed : r.1 = 0 -> exists before between after,
    r.2.events = before ++ .install bytes :: (between ++ .verified true :: after)
  tasks : r.1 = -1 -> r.2.system.tasks.Sublist w.system.tasks
  file : exists opened, Handle .openFile .closeFile false opened ∧
    r.2.events.filter Event.ofFile = opened
  session : exists opened, Handle .openSession .closeSession false opened ∧
    r.2.events.filter Event.ofSession = opened
  unlinked : r.2.file = none ∧ exists before, r.2.events = before ++ [.unlink]
  idle : r.2.status.isInstalling = false

/-- The events behind the label. -/
def cleanup (e : Exit) : List Event :=
  (if e.fd then [.closeFile] else []) ++ (if e.hs then [.closeSession] else []) ++ [.unlink]

/-- What the label does to the tasks. -/
def discarded (e : Exit) : Bgft.World :=
  if e.bgftStarted then Bgft.platformInstallDiscard e.world.system else e.world.system

theorem either_idle {canceled : Bool} {s told : Status} (hs : s.isInstalling = false)
    (htold : told.isInstalling = false) :
    (if canceled then s else told).isInstalling = false := by
  cases canceled with
  | false => exact htold
  | true => exact hs

theorem atDone_world (e : Exit) :
    (atDone out e).2.events = e.world.events ++ cleanup e ∧
      (atDone out e).2.system = discarded e ∧ (atDone out e).2.file = none ∧
      (atDone out e).2.status.isInstalling = false ∧
      (atDone out e).1 = if e.fail.isSome then -1 else 0 := by
  rcases e with ⟨fail, fd, hs, bgftStarted, w⟩
  cases fail with
  | none =>
      cases fd <;> cases hs <;> cases bgftStarted <;>
        exact ⟨by simp [atDone, cleanup, LocalWorld.log, LocalWorld.tick], rfl, rfl, rfl, rfl⟩
  | some fail =>
      cases fd <;> cases hs <;> cases bgftStarted <;>
        exact ⟨by simp [atDone, cleanup, LocalWorld.log, LocalWorld.tick], rfl, rfl,
          either_idle rfl rfl, rfl⟩

theorem discard_tasks {w w' : LocalWorld} (h : Tracks w w') :
    (Bgft.platformInstallDiscard w'.system).tasks.Sublist w.system.tasks := by
  rcases h.task with ⟨id, hid, hsub⟩
  unfold Bgft.platformInstallDiscard
  rw [hid]
  dsimp only
  rw [if_pos h.ready]
  exact hsub

theorem atLabel_leavesNothing {bytes : List UInt8} {w : LocalWorld} {e : Exit}
    (h : AtLabel bytes w e) : LeavesNothing bytes w (atDone out e) := by
  obtain ⟨hevents, hsystem, hfile, hidle, hret⟩ := atDone_world out e
  have hcleanup : (cleanup e).filter Event.ofFile = (if e.fd then [.closeFile] else []) ∧
      (cleanup e).filter Event.ofSession = (if e.hs then [.closeSession] else []) := by
    unfold cleanup
    cases e.fd <;> cases e.hs <;> exact ⟨rfl, rfl⟩
  exact
    { ret := by
        rw [hret]
        split
        · exact Or.inr rfl
        · exact Or.inl rfl
      asked := by
        intro file hmem
        rw [hevents, List.mem_append] at hmem
        refine hmem.elim (h.asked file) (fun hlast => ?_)
        unfold cleanup at hlast
        cases e.fd <;> cases e.hs <;> simp at hlast
      installed := by
        intro hzero
        have hnone : e.fail = none := by
          cases hfail : e.fail with
          | none => rfl
          | some fail =>
              rw [hret, hfail] at hzero
              cases hzero
        rcases h.installed hnone with ⟨before, between, hinstalled⟩
        refine ⟨before, between, cleanup e, ?_⟩
        rw [hevents, hinstalled, List.append_assoc, List.cons_append, List.append_assoc]
        rfl
      tasks := by
        intro hfailed
        have hsome : e.fail.isSome = true := by
          cases hfail : e.fail with
          | none =>
              rw [hret, hfail] at hfailed
              cases hfailed
          | some fail => rfl
        rw [hsystem, discarded]
        cases hstarted : e.bgftStarted with
        | true => exact discard_tasks (h.started hstarted)
        | false => exact h.failed hsome hstarted
      file := by
        refine ⟨_, ?_, rfl⟩
        have hhandle := h.file
        rw [hevents, List.filter_append, hcleanup.left]
        generalize e.world.events.filter Event.ofFile = opened at hhandle
        generalize e.fd = fd at hhandle
        cases hhandle with
        | unopened => exact Handle.unopened
        | held => exact Handle.released
        | released => exact Handle.released
      session := by
        refine ⟨_, ?_, rfl⟩
        have hhandle := h.session
        rw [hevents, List.filter_append, hcleanup.right]
        generalize e.world.events.filter Event.ofSession = opened at hhandle
        generalize e.hs = hs at hhandle
        cases hhandle with
        | unopened => exact Handle.unopened
        | held => exact Handle.released
        | released => exact Handle.released
      unlinked := by
        refine ⟨hfile, e.world.events ++ ((if e.fd then [.closeFile] else []) ++
          (if e.hs then [.closeSession] else [])), ?_⟩
        rw [hevents]
        exact (List.append_assoc _ _ _).symm
      idle := hidle }

/-!
# The way to the label
-/

/-- The handles are open, and nothing has been asked of the console. -/
structure Downloaded (bytes : List UInt8) (w w' : LocalWorld) : Prop where
  events : w'.events = [.openFile, .openSession]
  tasks : w'.system.tasks = w.system.tasks
  file : w'.file = some bytes

theorem filter_verified {p : Event -> Bool} (hp : forall installed, p (.verified installed) = false)
    (answers : List Bool) : (answers.map Event.verified).filter p = [] := by
  rw [List.filter_eq_nil_iff]
  intro e he
  rcases List.mem_map.mp he with ⟨installed, _, rfl⟩
  rw [hp installed]
  exact Bool.false_ne_true

/-- The events up to the request to the console. -/
def requested (bytes : List UInt8) : List Event :=
  [.openFile, .openSession, .closeFile, .closeSession, .install bytes]

theorem requested_asked {bytes : List UInt8} (answers : List Bool) {events : List Event}
    (hevents : events = requested bytes ++ answers.map Event.verified) :
    Handle .openFile .closeFile false (events.filter Event.ofFile) ∧
      Handle .openSession .closeSession false (events.filter Event.ofSession) ∧
      forall file, .install file ∈ events -> file = bytes := by
  subst hevents
  refine ⟨?_, ?_, ?_⟩
  · rw [List.filter_append, filter_verified (fun _ => rfl)]
    exact Handle.released
  · rw [List.filter_append, filter_verified (fun _ => rfl)]
    exact Handle.released
  · intro file hmem
    rcases List.mem_append.mp hmem with hfirst | hanswer
    · simpa [requested] using hfirst
    · rcases List.mem_map.mp hanswer with ⟨installed, _, hne⟩
      cases hne

theorem waits_tracks {w asked w' : LocalWorld} (h : Tracks w asked) (hwaits : Waits asked w') :
    Tracks w w' where
  ready := hwaits.ready.trans h.ready
  task := by
    rw [hwaits.taskId, hwaits.tasks]
    exact h.task

theorem installCopy_atLabel {bytes : List UInt8} {w w' : LocalWorld}
    (h : Downloaded bytes w w') {fuel total : Nat} {e : Exit}
    (he : installCopy out svc fuel total w' = some e) : AtLabel bytes w e := by
  unfold installCopy at he
  dsimp only at he
  have hkeeps := Bgft.startLocal_keeps svc (startRequest out w'.status total)
    (startRequest out w'.status total).uri w'.system
  have hevents : w'.events ++ [.closeFile] ++ [.closeSession] ++ [.install (w'.file.getD [])] =
      requested bytes := by
    rw [h.events, h.file]
    rfl
  split at he
  · rename_i hret
    cases he
    obtain ⟨hfile, hsession, hasked⟩ := requested_asked [] hevents
    exact
      { file := hfile
        session := hsession
        started := fun hstarted => by cases hstarted
        failed := fun _ _ => by
          rw [<- h.tasks]
          exact hkeeps.left.failed hret
        asked := hasked
        installed := fun hnone => by cases hnone }
  · rename_i hret
    have hready := hkeeps.right (not_not.mp hret)
    rcases (hkeeps.left.started (not_not.mp hret)).right with ⟨id, hid, hsub⟩
    rw [h.tasks] at hsub
    split at he
    · cases he
    · rename_i fail w'' hwait
      cases he
      cases waitInstalled_waited out svc hwait with
      | failed fail hwaits =>
          rcases hwaits.asked with ⟨answers, hanswers⟩
          obtain ⟨hfile, hsession, hasked⟩ :=
            requested_asked answers
              (hanswers.trans (congrArg (fun events => events ++ _) hevents))
          exact
            { file := hfile
              session := hsession
              started := fun _ => waits_tracks ⟨hready, id, hid, hsub⟩ hwaits
              failed := fun _ hstarted => by cases hstarted
              asked := hasked
              installed := fun hnone => by cases hnone }
    · rename_i w'' hwait
      cases he
      cases waitInstalled_waited out svc hwait with
      | @installed asked hwaits =>
          rcases hwaits.asked with ⟨answers, hanswers⟩
          have hall : asked.events ++ [.verified true] =
              requested bytes ++ (answers ++ [true]).map Event.verified := by
            rw [hanswers, List.map_append, <- List.append_assoc]
            exact congrArg (fun events => events ++ _ ++ _) hevents
          obtain ⟨hfile, hsession, hasked⟩ := requested_asked _ hall
          exact
            { file := hfile
              session := hsession
              started := fun hstarted => by cases hstarted
              failed := fun hsome => by cases hsome
              asked := hasked
              installed := fun _ => by
                refine ⟨[.openFile, .openSession, .closeFile, .closeSession],
                  answers.map Event.verified, ?_⟩
                rw [List.map_append] at hall
                exact hall }

/-- The handles that are opened. -/
def opened : List Event :=
  (if out.opens then [.openFile] else []) ++ (if out.connects then [.openSession] else [])

theorem setUp_world (w : LocalWorld) :
    (setUp out w).events = w.events ++ opened out ∧ (setUp out w).system = w.system ∧
      (out.opens = true -> (setUp out w).file = some []) := by
  unfold setUp opened
  cases out.opens <;> cases out.connects <;>
    exact ⟨by simp [LocalWorld.log], rfl, fun hopens => by first | rfl | cases hopens⟩

/-- The size of the package is that of the status, or that of the source. -/
def packageTotal (s : Status) : Nat :=
  if s.totalBytes = 0 then out.size else s.totalBytes

theorem beforeDone_atLabel {fuel : Nat} {w : LocalWorld} (hstart : w.events = []) {e : Exit}
    (he : beforeDone out svc fuel w = some e) :
    AtLabel (sourceBytes out 0 (packageTotal out w.status)) w e := by
  unfold beforeDone at he
  dsimp only at he
  split at he
  · cases he
    have hevents : (w.shows (ascii "downloading") (ascii "Downloading " ++ titleShown w.status ++
        ascii " to the console...")).events = [] := hstart
    exact
      { file := by
          rw [hevents]
          exact Handle.unopened
        session := by
          rw [hevents]
          exact Handle.unopened
        started := fun hstarted => by cases hstarted
        failed := fun _ _ => List.Sublist.refl _
        asked := fun file hmem => by
          rw [hevents] at hmem
          cases hmem
        installed := fun hnone => by cases hnone }
  · have hsetUp := setUp_world out (w.shows (ascii "downloading")
      (ascii "Downloading " ++ titleShown w.status ++ ascii " to the console..."))
    have hstarted : (w.shows (ascii "downloading") (ascii "Downloading " ++ titleShown w.status ++
        ascii " to the console...")).events = [] := hstart
    rw [hstarted, List.nil_append] at hsetUp
    obtain ⟨hevents, hsystem, hempty⟩ := hsetUp
    split at he
    · cases he
      exact
        { file := by
            rw [hevents, opened]
            cases out.opens <;> cases out.connects
            · exact Handle.unopened
            · exact Handle.unopened
            · exact Handle.held
            · exact Handle.held
          session := by
            rw [hevents, opened]
            cases out.opens <;> cases out.connects
            · exact Handle.unopened
            · exact Handle.held
            · exact Handle.unopened
            · exact Handle.held
          started := fun hstarted => by cases hstarted
          failed := fun _ _ => by
            rw [hsystem]
            exact List.Sublist.refl _
          asked := fun file hmem => by
            rw [hevents, opened] at hmem
            cases hopens : out.opens <;> cases hconnects : out.connects <;>
              simp [hopens, hconnects] at hmem
          installed := fun hnone => by cases hnone }
    · rename_i hopens
      rw [not_not] at hopens
      have hopened : opened out = [.openFile, .openSession] := by
        rw [opened, hopens.left, hopens.right.left]
        rfl
      rw [hopened] at hevents
      have htotal : (if w.status.totalBytes = 0 then out.size else w.status.totalBytes) =
          packageTotal out w.status := rfl
      rw [htotal] at he
      have hcopied := download_copied out (packageTotal out w.status) 0 0
        (setUp out (w.shows (ascii "downloading")
          (ascii "Downloading " ++ titleShown w.status ++ ascii " to the console...")))
      split at he
      · rename_i fail w' hdownload
        cases he
        rw [hdownload] at hcopied
        have hquiet := hcopied.quiet.events.trans hevents
        exact
          { file := by
              rw [hquiet]
              exact Handle.held
            session := by
              rw [hquiet]
              exact Handle.held
            started := fun hstarted => by cases hstarted
            failed := fun _ _ => by
              rw [hcopied.quiet.system, hsystem]
              exact List.Sublist.refl _
            asked := fun file hmem => by
              rw [hquiet] at hmem
              simp at hmem
            installed := fun hnone => by cases hnone }
      · rename_i w' hdownload
        rw [hdownload] at hcopied
        have hfile := hcopied.file (hempty hopens.left) rfl
        rw [List.nil_append, Nat.sub_zero] at hfile
        exact installCopy_atLabel (w := w) out svc ⟨hcopied.quiet.events.trans hevents,
          congrArg Bgft.World.tasks (hcopied.quiet.system.trans hsystem), hfile⟩ he

/-- However the reads, the writes, the console and the moment of a stop turn out. -/
theorem local_install_leaves_nothing {fuel : Nat} {w : LocalWorld} {r : Int × LocalWorld}
    (h : ps4LocalInstall out svc fuel w = some r) :
    LeavesNothing (sourceBytes out 0 (packageTotal out w.status)) w r := by
  rcases Option.map_eq_some_iff.mp h with ⟨e, he, rfl⟩
  have hleaves := atLabel_leavesNothing out (beforeDone_atLabel out svc rfl he)
  exact
    { ret := hleaves.ret
      asked := hleaves.asked
      installed := hleaves.installed
      tasks := hleaves.tasks
      file := hleaves.file
      session := hleaves.session
      unlinked := hleaves.unlinked
      idle := hleaves.idle }

theorem installCopy_returns {stop : Nat}
    (hstop : forall now, stop ≤ now -> localStopRequested out now = true) {fuel : Nat}
    (hfuel : stop < fuel) (total : Nat) (w : LocalWorld) :
    (installCopy out svc fuel total w).isSome = true := by
  have hwait := fun lastChange asked => waitInstalled_ends out svc hstop total 0 lastChange
    (w := asked) (hfuel.trans_le (Nat.le_add_left fuel asked.now)) (Nat.zero_lt_of_lt hfuel)
  unfold installCopy
  dsimp only
  split
  · rfl
  · split
    · rename_i hnone
      have hsome := congrArg Option.isSome hnone
      rw [hwait] at hsome
      cases hsome
    · rfl
    · rfl

/-- An install returns once a stop has been requested for good. -/
theorem local_install_returns {stop : Nat}
    (hstop : forall now, stop ≤ now -> localStopRequested out now = true) {fuel : Nat}
    (hfuel : stop < fuel) (w : LocalWorld) : (ps4LocalInstall out svc fuel w).isSome = true := by
  unfold ps4LocalInstall beforeDone
  rw [Option.isSome_map]
  dsimp only
  split
  · rfl
  · split
    · rfl
    · generalize download out _ 0 0 _ = copied
      rcases copied with ⟨fail, w'⟩
      cases fail with
      | some fail => rfl
      | none => exact installCopy_returns out svc hstop hfuel _ w'

end

/-- A source of three bytes that are written one at a time, and a console that has the title as
soon as it is asked. -/
def oneAtATime : Outside where
  cancelStream _ := false
  monitorRunning _ := true
  available := none
  opens := true
  connects := true
  allocates := true
  size := 3
  source off := UInt8.ofNat (off + 65)
  read _ want _ := want
  read_le _ _ _ := Int.le_refl _
  write _ len := min 1 len
  write_le _ len := Int.min_le_right 1 len
  time _ := 0
  verified _ := true
  category := ascii "gd"

def localWorld : LocalWorld where
  now := 0
  system := ⟨0, [], true, none, []⟩
  status :=
    { titleId := ascii "CUSA07408"
      titleName := ascii "Leon"
      contentId := ascii "EP0102"
      pkgKind := ascii "base"
      pkgVersion := ascii "01.00"
      isInstalling := false
      failed := false
      completed := false
      errorCode := 0
      downloadedBytes := 0
      totalBytes := 0
      statusStr := []
      promptMessage := [] }
  file := none
  events := []

theorem one_at_a_time_downloads {w : LocalWorld} (hnow : w.now = 0) (hfile : w.file = some []) :
    download oneAtATime 3 0 0 w =
      (none, { w with now := 5, file := some (sourceBytes oneAtATime 0 3) }) := by
  simp [download, writeAll, oneAtATime, hnow, hfile, localStopRequested, sourceBytes,
    LocalWorld.tick, chunk, List.range, List.range.loop]

theorem one_at_a_time_returns : exists r : Int × LocalWorld,
    r.1 = 0 ∧ ps4LocalInstall oneAtATime Bgft.firstFound 1 localWorld = some r := by
  unfold ps4LocalInstall beforeDone
  dsimp only
  rw [if_neg (by decide), if_neg (by decide), if_pos (by rfl), show oneAtATime.size = 3 from rfl,
    one_at_a_time_downloads rfl rfl]
  exact ⟨_, rfl, rfl⟩

theorem one_at_a_time_installs : exists r : Int × LocalWorld,
    r.1 = 0 ∧ LeavesNothing (sourceBytes oneAtATime 0 3) localWorld r := by
  rcases one_at_a_time_returns with ⟨r, hret, hr⟩
  exact ⟨r, hret, local_install_leaves_nothing oneAtATime Bgft.firstFound hr⟩

/-- The install is canceled at the second moment, and the console never has the title. -/
def canceledSoon : Outside :=
  { oneAtATime with
    cancelStream := fun now => decide (2 ≤ now)
    verified := fun _ => false }

theorem local_install_returns_canceled :
    (ps4LocalInstall canceledSoon Bgft.firstFound 3 localWorld).isSome = true := by
  have hstop : forall now, 2 ≤ now -> localStopRequested canceledSoon now = true :=
    fun now hle => by simp [localStopRequested, canceledSoon, hle]
  exact local_install_returns canceledSoon Bgft.firstFound hstop (by decide) localWorld

end LocalInstall
end PkgManager
