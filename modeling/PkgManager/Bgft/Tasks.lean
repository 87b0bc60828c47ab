import PkgManager.Secrets.Casing

/-!
# Download tasks

On a PS4 the system installer works on download tasks.  Tasks that an earlier install has left
behind are removed before a new one is registered, and the new one is removed when its start
fails.
-/

namespace PkgManager
namespace Bgft

open CString
open PkgManager.Parser
open PkgManager.Secrets (equalCi)

/-!
# The system
-/

/-- {lit}`OrbisBgftTaskSubType` -/
inductive SubType where
  | unknown
  | game
  | gameAc
  | gamePatch
deriving DecidableEq

/-- A task of the system; {lit}`born` is the time of its registration. -/
structure Task where
  contentId : Text
  subType : SubType
  id : Nat
  started : Bool
  born : Nat
deriving DecidableEq

/-- What {lit}`bgft_download_param_t` holds besides constants. -/
structure DownloadParam where
  userId : Int
  id : Text
  contentUrl : Text
  contentName : Text
  packageType : Text
  packageSize : Nat

inductive RegisterCall where
  | task
  | patch
  | storage

/-- {lit}`bgft_task_progress_t` -/
structure TaskProgress where
  errorResult : Int
  transferredTotal : Nat
  lengthTotal : Nat

/-- The answers of the system at a time: it finds some task of the content ID and sub type if
there is one, and the ID of a new task is that of no other. -/
structure Service where
  foregroundUser : Nat -> Option Int
  find : Nat -> List Task -> Text -> SubType -> Option Nat
  find_some : forall {now tasks contentId subType id},
    find now tasks contentId subType = some id ->
      exists t, t ∈ tasks ∧ t.contentId = contentId ∧ t.subType = subType ∧ t.id = id
  find_none : forall {now tasks contentId subType},
    find now tasks contentId subType = none ->
      forall t, t ∈ tasks -> t.contentId = contentId -> t.subType ≠ subType
  register : Nat -> List Task -> RegisterCall -> DownloadParam -> Except Int (SubType × Nat)
  register_code : forall {now tasks call param code},
    register now tasks call param = Except.error code -> code ≠ 0
  register_fresh : forall {now tasks call param subType id},
    register now tasks call param = Except.ok (subType, id) -> forall t, t ∈ tasks -> t.id ≠ id
  startTask : Nat -> List Task -> Nat -> Int
  getProgress : Nat -> List Task -> Nat -> Option TaskProgress

/-- The tasks of the system, and {lit}`g_bgft`. -/
structure World where
  now : Nat
  tasks : List Task
  ready : Bool
  taskId : Option Nat
  contentId : Text

def World.tick (w : World) : World :=
  { w with now := w.now + 1 }

/-- {lit}`unregister_task` removes the task if there is one. -/
def unregisterTask (w : World) (id : Nat) : Bool × World :=
  (w.tasks.any (fun t => t.id == id),
    { w.tick with tasks := w.tasks.filter (fun t => t.id != id) })

/-!
# Leftovers
-/

/-- {lit}`bgft_remove_task`: the task is stopped, then it is unregistered. -/
def bgftRemoveTask (w : World) (id : Nat) : Int × World :=
  let unreg := unregisterTask w.tick id
  (if unreg.1 then 0 else -1, unreg.2)

section
variable (svc : Service)

def bgftSubType (packageType : Text) : SubType :=
  if packageType = ascii "PS4AC" then .gameAc
  else if packageType = ascii "PS4DP" then .gamePatch
  else .game

def allTypes : List SubType :=
  [.game, .gameAc, .gamePatch, .unknown]

/-- The first task that is found is removed. -/
def clearFound (contentId : Text) : List SubType -> World -> Int × World
  | [], w => (-1, w)
  | subType :: rest, w =>
      match svc.find w.now w.tasks contentId subType with
      | none => clearFound contentId rest w.tick
      | some id => bgftRemoveTask w.tick id

/-- {lit}`bgft_clear_duplicate` -/
def bgftClearDuplicate (contentId packageType : Text) (w : World) : Int × World :=
  let own := bgftSubType packageType
  if contentId = [] then (-1, w)
  else clearFound svc contentId (own :: allTypes.filter (fun subType => subType != own)) w

/-- The inner loop of {lit}`bgft_remove_leftovers`, with the number of tasks removed. -/
def removeFound (contentId : Text) (subType : SubType) : Nat -> World -> Nat × World
  | 0, w => (0, w)
  | n + 1, w =>
      match svc.find w.now w.tasks contentId subType with
      | none => (0, w.tick)
      | some id =>
          let removed := bgftRemoveTask w.tick id
          if removed.1 ≠ 0 then (0, removed.2)
          else
            let rest := removeFound contentId subType n removed.2
            (rest.1 + 1, rest.2)

def removeTypes (contentId : Text) : List SubType -> World -> Nat × World
  | [], w => (0, w)
  | subType :: rest, w =>
      let here := removeFound svc contentId subType 4 w
      let others := removeTypes contentId rest here.2
      (here.1 + others.1, others.2)

/-- {lit}`bgft_remove_leftovers` -/
def bgftRemoveLeftovers (contentId : Text) (w : World) : Nat × World :=
  if contentId = [] then (0, w) else removeTypes svc contentId allTypes w

/-!
# Starting
-/

/-- A call to the system that registers a task for the content ID. -/
def register (call : RegisterCall) (param : DownloadParam) (contentId : Text) (w : World) :
    Except Int Nat × World :=
  match svc.register w.now w.tasks call param with
  | .error code => (.error code, w.tick)
  | .ok (subType, id) =>
      let task : Task := ⟨contentId, subType, id, false, w.now⟩
      (.ok id, { w.tick with tasks := w.tasks ++ [task] })

/-- {lit}`BGFT_ERROR_TASK_DUPLICATED` -/
def isDuplicated (code : Int) : Bool :=
  code % 2 ^ 32 = 0x80990015

/-- A registration that is tried once more when a leftover was removed. -/
def registerCleared (call : RegisterCall) (param : DownloadParam) (contentId packageType : Text)
    (w : World) : Except Int Nat × World :=
  let first := register svc call param contentId (bgftRemoveLeftovers svc contentId w).2
  match first with
  | (.ok id, w) => (.ok id, w)
  | (.error code, w) =>
      if isDuplicated code then
        let cleared := bgftClearDuplicate svc contentId packageType w
        if cleared.1 = 0 then register svc call param contentId cleared.2
        else (.error code, cleared.2)
      else (.error code, w)

def setStarted (id : Nat) (t : Task) : Task :=
  if t.id = id then { t with started := true } else t

def startTask (w : World) (id : Nat) : Int × World :=
  let ret := svc.startTask w.now w.tasks id
  (ret, { w.tick with tasks := if ret = 0 then w.tasks.map (setStarted id) else w.tasks })

/-- What both ways to start have in common, from the leftovers on. -/
def launch (call : RegisterCall) (param : DownloadParam) (contentId packageType : Text)
    (w : World) : Int × World :=
  match registerCleared svc call param contentId packageType w with
  | (.error code, w) => (code, w)
  | (.ok id, w) =>
      let started := startTask svc w id
      if started.1 ≠ 0 then (started.1, (bgftRemoveTask started.2 id).2)
      else (0, { started.2 with taskId := some id, contentId := contentId })

/-- {lit}`platform_install_request_t` -/
structure Request where
  uri : Text
  displayName : Text
  titleName : Option Text
  contentId : Option Text
  pkgKind : Option Text
  category : Option Text
  packageSize : Nat

def bgftPackageType (req : Request) : Text :=
  if req.pkgKind.any (fun kind => equalCi kind (ascii "update")) then ascii "PS4DP"
  else if req.category.any (fun category => category.take 2 == ascii "al") then ascii "PS4AL"
  else if req.pkgKind.any (fun kind => equalCi kind (ascii "dlc")) then ascii "PS4AC"
  else ascii "PS4GD"

/-- {lit}`s_cid` -/
def Request.cid (req : Request) : Text :=
  copied 64 (req.contentId.getD [])

/-- {lit}`s_name` -/
def Request.name (req : Request) : Text :=
  copied 256 (if req.titleName.getD [] ≠ [] then req.titleName.getD [] else req.displayName)

/-- {lit}`platform_install_start` -/
def platformInstallStart (req : Request) (w : World) : Int × World :=
  if ¬w.ready then (-1, w)
  else
    let packageType := bgftPackageType req
    let param : DownloadParam :=
      { userId := (svc.foregroundUser w.now).getD (-1)
        id := req.cid
        contentUrl := copied 1024 req.uri
        contentName := req.name
        packageType := packageType
        packageSize := req.packageSize }
    let call := if packageType = ascii "PS4DP" then RegisterCall.patch else RegisterCall.task
    launch svc call param req.cid packageType { w with taskId := none }

/-- {lit}`platform_install_start_local`; the content ID is that of the package's header. -/
def platformInstallStartLocal (req : Request) (localPath : Text) (w : World) : Int × World :=
  if ¬w.ready ∨ localPath = [] then (-1, w)
  else
    let param : DownloadParam :=
      { userId := (svc.foregroundUser w.now).getD (-1)
        id := []
        contentUrl := copied 512 localPath
        contentName := req.name
        packageType := []
        packageSize := req.packageSize }
    launch svc .storage param req.cid (ascii "PS4GD") { w with taskId := none }

/-!
# Running tasks
-/

/-- {lit}`platform_install_progress_t` -/
structure Progress where
  status : Text
  errorCode : Int
  downloadedSize : Nat
  totalSize : Nat

/-- {lit}`platform_install_poll`; there may be no status. -/
def platformInstallPoll (w : World) : Option Progress × World :=
  match w.taskId with
  | none => (none, w)
  | some id =>
      if ¬w.ready then (none, w)
      else
        match svc.getProgress w.now w.tasks id with
        | none => (none, w.tick)
        | some pr =>
            let status := if pr.errorResult ≠ 0 then ascii "error" else ascii "downloading"
            (some ⟨status, pr.errorResult, pr.transferredTotal, pr.lengthTotal⟩, w.tick)

end

/-- {lit}`platform_install_close` -/
def platformInstallClose (w : World) : World :=
  { w with taskId := none }

/-- {lit}`platform_install_discard` -/
def platformInstallDiscard (w : World) : World :=
  match w.taskId with
  | none => w
  | some id =>
      if w.ready then { (bgftRemoveTask w id).2 with taskId := none }
      else { w with taskId := none }

/-!
# Any tasks

Whatever the system holds, nothing is added but the task of a successful start.
-/

theorem bgftRemoveTask_world (w : World) (id : Nat) :
    (bgftRemoveTask w id).2 =
      { w with now := w.now + 2, tasks := w.tasks.filter (fun t => t.id != id) } := rfl

/-- Tasks may be gone; nothing else has changed but the time. -/
structure Shrinks (w w' : World) : Prop where
  tasks : w'.tasks.Sublist w.tasks
  ready : w'.ready = w.ready

theorem Shrinks.refl (w : World) : Shrinks w w :=
  ⟨List.Sublist.refl _, rfl⟩

theorem Shrinks.trans {a b c : World} (hab : Shrinks a b) (hbc : Shrinks b c) : Shrinks a c :=
  ⟨hbc.tasks.trans hab.tasks, hbc.ready.trans hab.ready⟩

theorem shrinks_tick (w : World) : Shrinks w w.tick :=
  ⟨List.Sublist.refl _, rfl⟩

theorem shrinks_remove (w : World) (id : Nat) : Shrinks w (bgftRemoveTask w id).2 :=
  ⟨List.filter_sublist, rfl⟩

theorem shrinks_removeFound (svc : Service) (contentId : Text) (subType : SubType) (n : Nat)
    (w : World) : Shrinks w (removeFound svc contentId subType n w).2 := by
  induction n generalizing w with
  | zero => exact Shrinks.refl w
  | succ n ih =>
      unfold removeFound
      split
      · exact shrinks_tick w
      · rename_i id _
        have hremoved := (shrinks_tick w).trans (shrinks_remove w.tick id)
        dsimp only
        split
        · exact hremoved
        · exact hremoved.trans (ih _)

theorem shrinks_leftovers (svc : Service) (contentId : Text) (w : World) :
    Shrinks w (bgftRemoveLeftovers svc contentId w).2 := by
  unfold bgftRemoveLeftovers
  split
  · exact Shrinks.refl w
  · generalize allTypes = types
    induction types generalizing w with
    | nil => exact Shrinks.refl w
    | cons subType rest ih => exact (shrinks_removeFound svc contentId subType 4 w).trans (ih _)

theorem shrinks_duplicate (svc : Service) (contentId packageType : Text) (w : World) :
    Shrinks w (bgftClearDuplicate svc contentId packageType w).2 := by
  unfold bgftClearDuplicate
  dsimp only
  split
  · exact Shrinks.refl w
  · generalize bgftSubType packageType ::
      allTypes.filter (fun subType => subType != bgftSubType packageType) = types
    induction types generalizing w with
    | nil => exact Shrinks.refl w
    | cons subType rest ih =>
        unfold clearFound
        split
        · exact (shrinks_tick w).trans (ih w.tick)
        · exact (shrinks_tick w).trans (shrinks_remove w.tick _)

/-- A call that registers fails, or adds a task with an ID of its own. -/
theorem register_world (svc : Service) (call : RegisterCall) (param : DownloadParam)
    (contentId : Text) (w : World) :
    (exists code, code ≠ 0 ∧ register svc call param contentId w = (.error code, w.tick)) ∨
      exists subType id, (forall t, t ∈ w.tasks -> t.id ≠ id) ∧
        register svc call param contentId w =
          (.ok id,
            { w.tick with tasks := w.tasks ++ [⟨contentId, subType, id, false, w.now⟩] }) := by
  unfold register
  cases h : svc.register w.now w.tasks call param with
  | error code => exact Or.inl ⟨code, svc.register_code h, rfl⟩
  | ok r => exact Or.inr ⟨r.1, r.2, svc.register_fresh h, rfl⟩

theorem others_append (t : Task) {tasks : List Task} (hfresh : forall u, u ∈ tasks -> u.id ≠ t.id) :
    (tasks ++ [t]).filter (fun u => u.id != t.id) = tasks := by
  rw [List.filter_append, List.filter_eq_self.mpr (fun u hu => bne_iff_ne.mpr (hfresh u hu)),
    List.filter_singleton, bne_self_eq_false]
  exact List.append_nil tasks

theorem map_setStarted (t : Task) {tasks : List Task}
    (hfresh : forall u, u ∈ tasks -> u.id ≠ t.id) :
    (tasks ++ [t]).map (setStarted t.id) = tasks ++ [{ t with started := true }] := by
  have hothers : tasks.map (setStarted t.id) = tasks := by
    conv_rhs => rw [<- List.map_id tasks]
    apply List.map_congr_left
    intro u hu
    exact if_neg (hfresh u hu)
  rw [List.map_append, hothers, List.map_singleton, setStarted, if_pos rfl]

/-- A call that fails leaves some of the tasks; a call that succeeds adds one. -/
inductive Keeps (w : World) : Except Int Nat × World -> Prop where
  | refused {code : Int} {w' : World} (hcode : code ≠ 0) (h : Shrinks w w') :
      Keeps w (.error code, w')
  | added (t : Task) (rest : List Task) {w' : World} (hrest : rest.Sublist w.tasks)
      (hfresh : forall u, u ∈ rest -> u.id ≠ t.id) (htasks : w'.tasks = rest ++ [t])
      (hready : w'.ready = w.ready) : Keeps w (.ok t.id, w')

theorem register_keeps (svc : Service) (call : RegisterCall) (param : DownloadParam)
    (contentId : Text) {w w' : World} (h : Shrinks w w') :
    Keeps w (register svc call param contentId w') := by
  rcases register_world svc call param contentId w' with
    ⟨code, hcode, hfails⟩ | ⟨subType, id, hfresh, hadds⟩
  · rw [hfails]
    exact Keeps.refused hcode (h.trans (shrinks_tick w'))
  · rw [hadds]
    exact Keeps.added ⟨contentId, subType, id, false, w'.now⟩ w'.tasks h.tasks hfresh rfl h.ready

theorem registerCleared_keeps (svc : Service) (call : RegisterCall) (param : DownloadParam)
    (contentId packageType : Text) (w : World) :
    Keeps w (registerCleared svc call param contentId packageType w) := by
  have hfirst := register_keeps svc call param contentId (shrinks_leftovers svc contentId w)
  unfold registerCleared
  dsimp only
  cases hregister : register svc call param contentId (bgftRemoveLeftovers svc contentId w).2 with
  | mk ret w' =>
      rw [hregister] at hfirst
      cases hfirst with
      | added t rest hrest hfresh htasks hready =>
          exact Keeps.added t rest hrest hfresh htasks hready
      | @refused code _ hcode h =>
          have hcleared := h.trans (shrinks_duplicate svc contentId packageType w')
          dsimp only
          split
          · split
            · exact register_keeps svc call param contentId hcleared
            · exact Keeps.refused hcode hcleared
          · exact Keeps.refused hcode h

/-- A start that fails leaves no task of its own. -/
structure LaunchKeeps (w : World) (r : Int × World) : Prop where
  failed : r.1 ≠ 0 -> r.2.tasks.Sublist w.tasks
  started : r.1 = 0 -> r.2.ready = w.ready ∧ exists id, r.2.taskId = some id ∧
    (r.2.tasks.filter (fun u => u.id != id)).Sublist w.tasks

theorem launch_keeps (svc : Service) (call : RegisterCall) (param : DownloadParam)
    (contentId packageType : Text) (w : World) :
    LaunchKeeps w (launch svc call param contentId packageType w) := by
  have hkeeps := registerCleared_keeps svc call param contentId packageType w
  unfold launch
  cases hregister : registerCleared svc call param contentId packageType w with
  | mk ret w' =>
      rw [hregister] at hkeeps
      cases hkeeps with
      | refused hcode h => exact ⟨fun _ => h.tasks, fun hzero => absurd hzero hcode⟩
      | added t rest hrest hfresh htasks hready =>
          dsimp only
          split
          · rename_i hret
            have hworld : (startTask svc w' t.id).2.tasks = rest ++ [t] := by
              change (if (startTask svc w' t.id).1 = 0 then _ else w'.tasks) = _
              rw [if_neg hret, htasks]
            refine ⟨fun _ => ?_, fun hzero => absurd hzero hret⟩
            rw [bgftRemoveTask_world]
            change ((startTask svc w' t.id).2.tasks.filter _).Sublist _
            rw [hworld, others_append t hfresh]
            exact hrest
          · rename_i hret
            have hworld : (startTask svc w' t.id).2.tasks =
                rest ++ [{ t with started := true }] := by
              change (if (startTask svc w' t.id).1 = 0 then w'.tasks.map (setStarted t.id)
                else _) = _
              rw [if_pos (not_not.mp hret), htasks, map_setStarted t hfresh]
            refine ⟨fun hne => absurd rfl hne, fun _ => ⟨hready, t.id, rfl, ?_⟩⟩
            change ((startTask svc w' t.id).2.tasks.filter _).Sublist _
            have hdrop := others_append { t with started := true } hfresh
            rw [hworld, hdrop]
            exact hrest

theorem platformInstallStartLocal_cases (svc : Service) (req : Request) (localPath : Text)
    (w : World) : platformInstallStartLocal svc req localPath w = (-1, w) ∨
      exists param, w.ready = true ∧ platformInstallStartLocal svc req localPath w =
        launch svc .storage param req.cid (ascii "PS4GD") { w with taskId := none } := by
  unfold platformInstallStartLocal
  split
  · exact Or.inl rfl
  · rename_i hready
    rw [not_or, not_not] at hready
    exact Or.inr ⟨_, hready.left, rfl⟩

/-- A local install that starts leaves one task, which is tracked. -/
theorem startLocal_keeps (svc : Service) (req : Request) (localPath : Text) (w : World) :
    LaunchKeeps w (platformInstallStartLocal svc req localPath w) ∧
      ((platformInstallStartLocal svc req localPath w).1 = 0 ->
        (platformInstallStartLocal svc req localPath w).2.ready = true) := by
  rcases platformInstallStartLocal_cases svc req localPath w with
    hrefused | ⟨param, hready, hlaunch⟩
  · rw [hrefused]
    exact ⟨⟨fun _ => List.Sublist.refl _, fun hzero => by cases hzero⟩, fun hzero => by cases hzero⟩
  · rw [hlaunch]
    have hkeeps := launch_keeps svc .storage param req.cid (ascii "PS4GD") { w with taskId := none }
    exact ⟨⟨hkeeps.failed, hkeeps.started⟩, fun hzero => (hkeeps.started hzero).left.trans hready⟩

end Bgft
end PkgManager
