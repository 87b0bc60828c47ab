import Mathlib.Algebra.Order.BigOperators.Group.List
import Mathlib.Algebra.Order.Ring.Nat
import Mathlib.Data.List.Nodup
import PkgManager.Bgft.Tasks

/-!
# Runs of calls

While a system holds few tasks for every content, the loops over the leftovers find all of them.
The tasks of other content stay, whatever is called, until the last task started is discarded.
-/

namespace PkgManager
namespace Bgft

open CString
open PkgManager.Parser

/-!
# Removing
-/

/-- No two tasks have the same ID. -/
def Numbered (tasks : List Task) : Prop :=
  (tasks.map Task.id).Nodup

def isFor (contentId : Text) (subType : SubType) (t : Task) : Bool :=
  t.contentId == contentId && t.subType == subType

theorem Numbered.filter {tasks : List Task} (h : Numbered tasks) (p : Task -> Bool) :
    Numbered (tasks.filter p) :=
  List.Nodup.sublist ((List.filter_sublist).map Task.id) h

theorem Numbered.eq {tasks : List Task} (h : Numbered tasks) {t u : Task} (ht : t ∈ tasks)
    (hu : u ∈ tasks) (hid : t.id = u.id) : t = u :=
  List.inj_on_of_nodup_map h ht hu hid

theorem bgftRemoveTask_ret {w : World} {t : Task} (h : t ∈ w.tasks) :
    (bgftRemoveTask w t.id).1 = 0 := by
  have hany : w.tasks.any (fun u => u.id == t.id) = true :=
    List.any_eq_true.mpr ⟨t, h, beq_self_eq_true _⟩
  unfold bgftRemoveTask unregisterTask
  dsimp only [World.tick]
  rw [hany]
  rfl

theorem filter_not {p : Task -> Bool} {tasks : List Task}
    (h : forall t, t ∈ tasks -> p t = false) : tasks.filter (fun t => !p t) = tasks := by
  rw [List.filter_eq_self]
  intro t ht
  rw [h t ht]
  rfl

/-- The loop over one sub type removes all of its tasks. -/
theorem removeFound_world (svc : Service) {contentId : Text} {subType : SubType} {n : Nat}
    {w : World} (hnumbered : Numbered w.tasks)
    (hfew : (w.tasks.filter (isFor contentId subType)).length ≤ n) :
    exists now, w.now ≤ now ∧ (removeFound svc contentId subType n w).2 =
      { w with now := now, tasks := w.tasks.filter (fun t => !isFor contentId subType t) } := by
  induction n generalizing w with
  | zero =>
      have hnil := List.eq_nil_of_length_eq_zero (Nat.le_zero.mp hfew)
      rw [List.filter_eq_nil_iff] at hnil
      refine ⟨w.now, Nat.le_refl _, ?_⟩
      rw [filter_not (fun t ht => Bool.eq_false_iff.mpr (hnil t ht))]
      rfl
  | succ n ih =>
      unfold removeFound
      cases hfind : svc.find w.now w.tasks contentId subType with
      | none =>
          have hnone : forall t, t ∈ w.tasks -> isFor contentId subType t = false := by
            intro t ht
            rw [Bool.eq_false_iff]
            intro hfor
            rw [isFor, Bool.and_eq_true, beq_iff_eq, beq_iff_eq] at hfor
            exact svc.find_none hfind t ht hfor.left hfor.right
          refine ⟨w.now + 1, Nat.le_succ _, ?_⟩
          dsimp only
          rw [filter_not hnone]
          rfl
      | some id =>
          rcases svc.find_some hfind with ⟨t, ht, hcontent, htype, rfl⟩
          have hfor : isFor contentId subType t = true := by
            rw [isFor, hcontent, htype, beq_self_eq_true, beq_self_eq_true]
            rfl
          have hret : (bgftRemoveTask w.tick t.id).1 = 0 := bgftRemoveTask_ret ht
          have hfewer : ((w.tasks.filter (fun u => u.id != t.id)).filter
              (isFor contentId subType)).length ≤ n := by
            have hlt : ((w.tasks.filter (isFor contentId subType)).filter
                (fun u => u.id != t.id)).length <
                  (w.tasks.filter (isFor contentId subType)).length := by
              rw [List.length_filter_lt_length_iff_exists]
              refine ⟨t, List.mem_filter.mpr ⟨ht, hfor⟩, ?_⟩
              rw [bne_self_eq_false]
              exact Bool.false_ne_true
            rw [List.filter_comm]
            omega
          have hsame : (w.tasks.filter (fun u => u.id != t.id)).filter
              (fun u => !isFor contentId subType u) =
                w.tasks.filter (fun u => !isFor contentId subType u) := by
            rw [List.filter_filter]
            apply List.filter_congr
            intro u hu
            cases hother : isFor contentId subType u with
            | true => rfl
            | false =>
                rw [Bool.not_false, Bool.true_and, bne_iff_ne]
                intro hid
                rw [hnumbered.eq hu ht hid, hfor] at hother
                cases hother
          let removed : World :=
            { w with now := w.now + 3, tasks := w.tasks.filter (fun u => u.id != t.id) }
          rcases @ih removed (hnumbered.filter _) hfewer with ⟨now, hlater, hnow⟩
          refine ⟨now, (Nat.le_add_right _ 3).trans hlater, ?_⟩
          dsimp only
          rw [if_neg (fun hne => hne hret)]
          change (removeFound svc contentId subType n removed).2 = _
          rw [hnow]
          rw [hsame]

def FewLeft (tasks : List Task) : Prop :=
  forall contentId, contentId ≠ [] -> forall subType,
    (tasks.filter (isFor contentId subType)).length ≤ 4

theorem FewLeft.sublist {a b : List Task} (hsub : a.Sublist b) (h : FewLeft b) : FewLeft a :=
  fun contentId hne subType => ((hsub.filter _).length_le).trans (h contentId hne subType)

def isForAny (contentId : Text) (types : List SubType) (t : Task) : Bool :=
  t.contentId == contentId && types.contains t.subType

theorem removeTypes_world (svc : Service) {contentId : Text} (hne : contentId ≠ [])
    (types : List SubType) {w : World} (hnumbered : Numbered w.tasks) (hfew : FewLeft w.tasks) :
    exists now, w.now ≤ now ∧ (removeTypes svc contentId types w).2 =
      { w with now := now, tasks := w.tasks.filter (fun t => !isForAny contentId types t) } := by
  induction types generalizing w with
  | nil =>
      refine ⟨w.now, Nat.le_refl _, ?_⟩
      have hnone : forall t, t ∈ w.tasks -> isForAny contentId [] t = false := by
        intro t _
        rw [isForAny, List.contains_nil, Bool.and_false]
      rw [filter_not hnone]
      rfl
  | cons subType rest ih =>
      rcases removeFound_world svc hnumbered (hfew contentId hne subType) with
        ⟨now, hfirst, hhere⟩
      rcases @ih { w with
          now := now
          tasks := w.tasks.filter (fun t => !isFor contentId subType t) }
        (hnumbered.filter _) (hfew.sublist List.filter_sublist) with ⟨later, hsecond, hothers⟩
      refine ⟨later, hfirst.trans hsecond, ?_⟩
      have hboth : forall t, t ∈ w.tasks ->
          ((!isForAny contentId rest t) && !isFor contentId subType t) =
            !isForAny contentId (subType :: rest) t := by
        intro t _
        rw [isForAny, isForAny, isFor, List.contains_cons]
        cases t.contentId == contentId <;> cases t.subType == subType <;>
          cases rest.contains t.subType <;> rfl
      unfold removeTypes
      dsimp only
      rw [hhere, hothers, List.filter_filter, List.filter_congr hboth]

/-- What is left of the tasks when those for the content ID are gone. -/
def others (contentId : Text) (tasks : List Task) : List Task :=
  tasks.filter (fun t => contentId == [] || t.contentId != contentId)

theorem mem_others {contentId : Text} {tasks : List Task} {t : Task}
    (h : t ∈ others contentId tasks) :
    t ∈ tasks ∧ (contentId = [] ∨ t.contentId ≠ contentId) := by
  rw [others, List.mem_filter, Bool.or_eq_true, beq_iff_eq, bne_iff_ne] at h
  exact h

theorem bgftRemoveLeftovers_world (svc : Service) (contentId : Text) {w : World}
    (hnumbered : Numbered w.tasks) (hfew : FewLeft w.tasks) :
    exists now, w.now ≤ now ∧ (bgftRemoveLeftovers svc contentId w).2 =
      { w with now := now, tasks := others contentId w.tasks } := by
  unfold bgftRemoveLeftovers
  split
  · rename_i hnil
    refine ⟨w.now, Nat.le_refl _, ?_⟩
    have hall : others contentId w.tasks = w.tasks := by
      rw [others, List.filter_eq_self]
      intro t _
      rw [hnil]
      rfl
    rw [hall]
  · rename_i hne
    rcases removeTypes_world svc hne allTypes hnumbered hfew with ⟨now, hlater, hnow⟩
    refine ⟨now, hlater, ?_⟩
    have hall : w.tasks.filter (fun t => !isForAny contentId allTypes t) =
        others contentId w.tasks := by
      apply List.filter_congr
      intro t _
      have htype : allTypes.contains t.subType = true := by
        cases t.subType <;> rfl
      rw [isForAny, htype, Bool.and_true, beq_false_of_ne hne, Bool.false_or]
      rfl
    rw [hnow, hall]

/-- No leftover is found when there is none. -/
theorem bgftClearDuplicate_none (svc : Service) {contentId : Text} (packageType : Text)
    {w : World} (hnone : contentId = [] ∨ forall t, t ∈ w.tasks -> t.contentId ≠ contentId) :
    exists now, bgftClearDuplicate svc contentId packageType w = (-1, { w with now := now }) := by
  unfold bgftClearDuplicate
  dsimp only
  split
  · exact ⟨w.now, rfl⟩
  · rename_i hne
    have hfree := hnone.resolve_left hne
    generalize bgftSubType packageType ::
      allTypes.filter (fun subType => subType != bgftSubType packageType) = types
    clear hnone hne
    induction types generalizing w with
    | nil => exact ⟨w.now, rfl⟩
    | cons subType rest ih =>
        unfold clearFound
        cases hfind : svc.find w.now w.tasks contentId subType with
        | none => exact @ih w.tick hfree
        | some id =>
            rcases svc.find_some hfind with ⟨t, ht, hcontent, _⟩
            exact absurd hcontent (hfree t ht)

/-!
# Starting
-/

/-- What a start leaves when nothing was registered. -/
def Refused (contentId : Text) (w w' : World) : Prop :=
  exists now, w' = { w with now := now, tasks := others contentId w.tasks }

theorem mem_others_free {contentId : Text} {tasks : List Task} :
    contentId = [] ∨ forall t, t ∈ others contentId tasks -> t.contentId ≠ contentId := by
  rcases eq_or_ne contentId [] with hnil | hne
  · exact Or.inl hnil
  · exact Or.inr (fun t ht => (mem_others ht).right.resolve_left hne)

section Launch

variable (svc : Service) (call : RegisterCall) (param : DownloadParam)
  (contentId packageType : Text) {w : World}

/-- The second registration is never reached: no task is left to be found. -/
theorem registerCleared_world (hnumbered : Numbered w.tasks) (hfew : FewLeft w.tasks) :
    (exists code w', code ≠ 0 ∧ Refused contentId w w' ∧
        registerCleared svc call param contentId packageType w = (.error code, w')) ∨
      exists subType id now, w.now ≤ now ∧ (forall t, t ∈ others contentId w.tasks -> t.id ≠ id) ∧
        registerCleared svc call param contentId packageType w =
          (.ok id, { w with
            now := now + 1
            tasks := others contentId w.tasks ++ [⟨contentId, subType, id, false, now⟩] }) := by
  rcases bgftRemoveLeftovers_world svc contentId hnumbered hfew with ⟨now, hlater, hcleared⟩
  unfold registerCleared
  dsimp only
  rw [hcleared]
  rcases register_world svc call param contentId
    { w with now := now, tasks := others contentId w.tasks } with
    ⟨code, hcode, hfails⟩ | ⟨subType, id, hfresh, hadds⟩
  · left
    rw [hfails]
    dsimp only
    split
    · rcases @bgftClearDuplicate_none svc contentId packageType
        (World.tick { w with now := now, tasks := others contentId w.tasks }) mem_others_free with
        ⟨later, hnone⟩
      refine ⟨code, { w with now := later, tasks := others contentId w.tasks }, hcode,
        ⟨later, rfl⟩, ?_⟩
      rw [hnone]
      rfl
    · exact ⟨code, _, hcode, ⟨now + 1, rfl⟩, rfl⟩
  · right
    refine ⟨subType, id, now, hlater, hfresh, ?_⟩
    rw [hadds]
    rfl

/-- A start leaves the tasks for other content, and its own task when it succeeds. -/
inductive Launched (contentId : Text) (w : World) : Int × World -> Prop where
  | refused {code : Int} {w' : World} (hcode : code ≠ 0) (h : Refused contentId w w') :
      Launched contentId w (code, w')
  | started (t : Task) (now : Nat) (hcontent : t.contentId = contentId)
      (hstarted : t.started = true) (hborn : w.now ≤ t.born)
      (hfresh : forall u, u ∈ others contentId w.tasks -> u.id ≠ t.id) :
      Launched contentId w (0, { w with
        now := now
        tasks := others contentId w.tasks ++ [t]
        taskId := some t.id
        contentId := contentId })

theorem launch_launched (hnumbered : Numbered w.tasks) (hfew : FewLeft w.tasks) :
    Launched contentId w (launch svc call param contentId packageType w) := by
  rcases registerCleared_world svc call param contentId packageType hnumbered hfew with
    ⟨code, w', hcode, hrefused, hregister⟩ | ⟨subType, id, now, hlater, hfresh, hregister⟩
  · unfold launch
    rw [hregister]
    exact Launched.refused hcode hrefused
  · unfold launch
    rw [hregister]
    dsimp only
    let t : Task := ⟨contentId, subType, id, false, now⟩
    have hkept : forall ret : Int, ret ≠ 0 ->
        (if ret = 0 then (others contentId w.tasks ++ [t]).map (setStarted id)
          else others contentId w.tasks ++ [t]).filter (fun u => u.id != id) =
            others contentId w.tasks := by
      intro ret hret
      rw [if_neg hret]
      exact others_append t hfresh
    split
    · rename_i hret
      refine Launched.refused hret ⟨now + 1 + 1 + 2, ?_⟩
      rw [bgftRemoveTask_world]
      exact congrArg (fun tasks => World.mk (now + 1 + 1 + 2) tasks w.ready w.taskId w.contentId)
        (hkept _ hret)
    · rename_i hret
      have hzero := not_not.mp hret
      have hmap : (if (startTask svc { w with
            now := now + 1
            tasks := others contentId w.tasks ++ [t] } id).1 = 0 then
          (others contentId w.tasks ++ [t]).map (setStarted id)
          else others contentId w.tasks ++ [t]) =
            others contentId w.tasks ++ [{ t with started := true }] := by
        rw [if_pos hzero]
        exact map_setStarted t hfresh
      have hstarted := Launched.started (w := w) { t with started := true } (now + 1 + 1) rfl rfl
        hlater hfresh
      rw [<- hmap] at hstarted
      exact hstarted

end Launch

/-!
# Runs
-/

inductive Call where
  | start (req : Request)
  | startLocal (req : Request) (localPath : Text)
  | poll
  | close
  | discard

/-- The content ID that a call starts an install for. -/
def Call.starts : Call -> Option Text
  | .start req => some (req.contentId.getD [])
  | .startLocal req _ => some (req.contentId.getD [])
  | .poll => none
  | .close => none
  | .discard => none

def step (svc : Service) (w : World) : Call -> Int × World
  | .start req => platformInstallStart svc req w
  | .startLocal req localPath => platformInstallStartLocal svc req localPath w
  | .poll => (if (platformInstallPoll svc w).1.isSome then 0 else -1, (platformInstallPoll svc w).2)
  | .close => (0, platformInstallClose w)
  | .discard => (0, platformInstallDiscard w)

/-- Content IDs are strings that fit in their arrays. -/
def Call.Fits (call : Call) : Prop :=
  forall contentId, call.starts = some contentId -> ZeroFree contentId ∧ contentId.length ≤ 63

/-- The tasks that a system may hold before the first call. -/
structure Initial (w : World) : Prop where
  numbered : Numbered w.tasks
  few : FewLeft w.tasks
  untracked : w.taskId = none

/-- The worlds that calls lead to, with the task of the last successful start. -/
inductive Reached (svc : Service) : World -> Option Nat -> Prop where
  | initial {w : World} (h : Initial w) : Reached svc w none
  | called {w : World} {last : Option Nat} (h : Reached svc w last) (call : Call)
      (hfits : call.Fits) :
      Reached svc (step svc w call).2
        (if call.starts.isSome ∧ (step svc w call).1 = 0 then (step svc w call).2.taskId else last)

/-- What a call does to the tasks. -/
structure CallFine (w : World) (last : Option Nat) (call : Call) (r : Int × World) : Prop where
  started : forall contentId, call.starts = some contentId -> contentId ≠ [] -> r.1 = 0 ->
    exists t, r.2.tasks.filter (fun u => u.contentId == contentId) = [t] ∧ t.started = true ∧
      w.now ≤ t.born ∧ r.2.taskId = some t.id
  failed : call.starts.isSome = true -> r.1 ≠ 0 -> forall t, t ∈ r.2.tasks -> t ∈ w.tasks
  kept : forall t, t ∈ w.tasks -> call.starts ≠ some t.contentId -> t ∉ r.2.tasks ->
    call = Call.discard ∧ last = some t.id

theorem Call.Fits.cid {call : Call} (h : call.Fits) {req : Request}
    (hreq : call.starts = some (req.contentId.getD [])) : req.cid = req.contentId.getD [] := by
  rcases h _ hreq with ⟨hzero, hlen⟩
  rw [Request.cid, copied, List.take_of_length_le hlen, cString_of_zeroFree hzero]

theorem others_mem {contentId : Text} {tasks : List Task} {t : Task} (ht : t ∈ tasks)
    (hother : contentId ≠ t.contentId) : t ∈ others contentId tasks := by
  rw [others, List.mem_filter, Bool.or_eq_true, bne_iff_ne]
  exact ⟨ht, Or.inr (Ne.symm hother)⟩

theorem others_filter {contentId : Text} (hne : contentId ≠ []) (tasks : List Task)
    {p : Task -> Bool} (hp : forall t, p t = true -> t.contentId = contentId) :
    (others contentId tasks).filter p = [] := by
  rw [List.filter_eq_nil_iff]
  intro t ht hpt
  exact (mem_others ht).right.resolve_left hne (hp t hpt)

/-- The IDs are distinct, little is left of every content, and the task that is tracked is that
of the last successful start. -/
structure Orderly (w : World) (last : Option Nat) : Prop where
  numbered : Numbered w.tasks
  few : FewLeft w.tasks
  tracked : forall id, w.taskId = some id -> last = some id

theorem Orderly.untrack {w : World} {last : Option Nat} (h : Orderly w last) {w' : World}
    (htasks : w'.tasks.Sublist w.tasks) (hfree : w'.taskId = none ∨ w'.taskId = w.taskId) :
    Orderly w' last where
  numbered := (htasks.map Task.id).nodup h.numbered
  few := h.few.sublist htasks
  tracked id hid := by
    rcases hfree with hnone | hsame
    · rw [hnone] at hid
      cases hid
    · exact h.tracked id (hsame.symm.trans hid)

theorem launched_fine {w : World} (last : Option Nat) {contentId : Text} {r : Int × World}
    (hlaunched : Launched contentId { w with taskId := none } r) {call : Call}
    (hstarts : call.starts = some contentId) : CallFine w last call r := by
  have hsame : forall {other : Text}, call.starts = some other -> contentId = other := by
    intro other hother
    rw [hstarts] at hother
    exact Option.some.inj hother
  cases hlaunched with
  | @refused code w' hcode hrefused =>
      rcases hrefused with ⟨now, rfl⟩
      exact
        { started := fun _ _ _ hzero => absurd hzero hcode
          failed := fun _ _ t ht => (mem_others ht).left
          kept := by
            intro t ht hother hgone
            refine absurd (others_mem ht ?_) hgone
            intro heq
            exact hother (by rw [hstarts, heq]) }
  | started t now hcontent hstarted hborn hfresh =>
      exact
        { started := by
            intro other hother hne _
            obtain rfl := hsame hother
            refine ⟨t, ?_, hstarted, hborn, rfl⟩
            have hnil := others_filter hne w.tasks (p := fun u => u.contentId == contentId)
              (fun u hu => beq_iff_eq.mp hu)
            change (others contentId w.tasks ++ [t]).filter (fun u => u.contentId == contentId) =
              [t]
            rw [List.filter_append, hnil, List.nil_append]
            exact List.filter_eq_self.mpr (by
              intro u hu
              rw [List.mem_singleton.mp hu, hcontent, beq_self_eq_true])
          failed := fun _ hne => absurd rfl hne
          kept := by
            intro u hu hother hgone
            refine absurd (List.mem_append_left [t] (others_mem hu ?_)) hgone
            intro heq
            exact hother (by rw [hstarts, heq]) }

theorem launched_orderly {w : World} {last : Option Nat} (h : Orderly w last) {contentId : Text}
    {r : Int × World} (hlaunched : Launched contentId { w with taskId := none } r) :
    Orderly r.2 (if r.1 = 0 then r.2.taskId else last) := by
  cases hlaunched with
  | @refused code w' hcode hrefused =>
      rcases hrefused with ⟨now, rfl⟩
      rw [if_neg hcode]
      exact h.untrack List.filter_sublist (Or.inl rfl)
  | started t now hcontent hstarted hborn hfresh =>
      rw [if_pos rfl]
      have hsub : (others contentId w.tasks).Sublist w.tasks := List.filter_sublist
      exact
        { numbered := by
            change ((others contentId w.tasks ++ [t]).map Task.id).Nodup
            rw [List.map_append, List.nodup_append]
            refine ⟨(hsub.map Task.id).nodup h.numbered, List.nodup_singleton _, ?_⟩
            intro a ha b hb
            rcases List.mem_map.mp ha with ⟨u, hu, rfl⟩
            rw [List.mem_singleton.mp hb]
            exact hfresh u hu
          few := by
            intro other hne subType
            change ((others contentId w.tasks ++ [t]).filter (isFor other subType)).length ≤ 4
            rw [List.filter_append, List.length_append]
            by_cases heq : other = contentId
            · subst heq
              have hnil := others_filter hne w.tasks (p := isFor other subType) (by
                intro u hu
                rw [isFor, Bool.and_eq_true, beq_iff_eq] at hu
                exact hu.left)
              have hone : ([t].filter (isFor other subType)).length ≤ 1 :=
                List.length_filter_le _ [t]
              rw [hnil, List.length_nil, Nat.zero_add]
              exact hone.trans (by decide)
            · have hnil : [t].filter (isFor other subType) = [] := by
                rw [List.filter_eq_nil_iff]
                intro u hu
                rw [List.mem_singleton.mp hu, isFor, hcontent, beq_false_of_ne (Ne.symm heq)]
                exact Bool.false_ne_true
              rw [hnil, List.length_nil, Nat.add_zero]
              exact h.few.sublist hsub other hne subType
          tracked := fun _ hid => hid }

theorem refused_fine (w : World) (last : Option Nat) (call : Call) {code : Int} (hcode : code ≠ 0) :
    CallFine w last call (code, w) where
  started := fun _ _ _ hzero => absurd hzero hcode
  failed := fun _ _ _ ht => ht
  kept := fun _ ht _ hgone => absurd ht hgone

theorem same_fine (w w' : World) (last : Option Nat) {call : Call} (hcall : call.starts = none)
    (htasks : w'.tasks = w.tasks) (ret : Int) : CallFine w last call (ret, w') where
  started := by
    intro contentId hstarts
    rw [hcall] at hstarts
    cases hstarts
  failed := by
    intro hstarts
    rw [hcall] at hstarts
    cases hstarts
  kept := by
    intro t ht _ hgone
    exact absurd (htasks ▸ ht) hgone

theorem platformInstallStart_cases (svc : Service) (req : Request) (w : World) :
    platformInstallStart svc req w = (-1, w) ∨ exists call param packageType,
      platformInstallStart svc req w =
        launch svc call param req.cid packageType { w with taskId := none } := by
  unfold platformInstallStart
  split
  · exact Or.inl rfl
  · exact Or.inr ⟨_, _, _, rfl⟩

theorem platformInstallPoll_world (svc : Service) (w : World) :
    (platformInstallPoll svc w).2 = w ∨ (platformInstallPoll svc w).2 = w.tick := by
  unfold platformInstallPoll
  split
  · exact Or.inl rfl
  · split
    · exact Or.inl rfl
    · split
      · exact Or.inr rfl
      · exact Or.inr rfl

section Step

variable (svc : Service) {w : World} {last : Option Nat} (h : Orderly w last)

include h

theorem start_step {call : Call} (contentId : Text) (hstarts : call.starts = some contentId)
    (hcases : step svc w call = (-1, w) ∨ exists register param packageType,
      step svc w call = launch svc register param contentId packageType { w with taskId := none }) :
    CallFine w last call (step svc w call) ∧ Orderly (step svc w call).2
      (if call.starts.isSome ∧ (step svc w call).1 = 0 then (step svc w call).2.taskId
        else last) := by
  have hsome : call.starts.isSome = true := by
    rw [hstarts]
    rfl
  simp only [hsome, true_and]
  rcases hcases with hrefused | ⟨register, param, packageType, hlaunch⟩
  · rw [hrefused]
    exact ⟨refused_fine w last call (by decide), h⟩
  · rw [hlaunch]
    have hlaunched := launch_launched svc register param contentId packageType
      (w := { w with taskId := none }) h.numbered h.few
    exact ⟨launched_fine last hlaunched hstarts, launched_orderly h hlaunched⟩

theorem discard_step : CallFine w last .discard (0, platformInstallDiscard w) ∧
    Orderly (platformInstallDiscard w) last := by
  unfold platformInstallDiscard
  split
  · exact ⟨same_fine w _ last rfl rfl 0, h⟩
  · rename_i id hid
    split
    · rw [bgftRemoveTask_world]
      constructor
      · exact
          { started := fun _ hstarts => by cases hstarts
            failed := fun hstarts => by cases hstarts
            kept := by
              intro t ht _ hgone
              refine ⟨rfl, ?_⟩
              rw [h.tracked id hid]
              by_contra hne
              apply hgone
              change t ∈ w.tasks.filter (fun u => u.id != id)
              rw [List.mem_filter, bne_iff_ne]
              exact ⟨ht, fun heq => hne (by rw [heq])⟩ }
      · exact h.untrack List.filter_sublist (Or.inl rfl)
    · exact ⟨same_fine w { w with taskId := none } last rfl rfl 0,
        h.untrack (List.Sublist.refl _) (Or.inl rfl)⟩

theorem step_fine {call : Call} (hfits : call.Fits) : CallFine w last call (step svc w call) ∧
    Orderly (step svc w call).2
      (if call.starts.isSome ∧ (step svc w call).1 = 0 then (step svc w call).2.taskId
        else last) := by
  cases call with
  | start req =>
      apply start_step svc h (req.contentId.getD []) rfl
      have hcases := platformInstallStart_cases svc req w
      rw [hfits.cid rfl] at hcases
      exact hcases
  | startLocal req localPath =>
      apply start_step svc h (req.contentId.getD []) rfl
      rcases platformInstallStartLocal_cases svc req localPath w with
        hrefused | ⟨param, _, hlaunch⟩
      · exact Or.inl hrefused
      · rw [hfits.cid rfl] at hlaunch
        exact Or.inr ⟨_, param, _, hlaunch⟩
  | poll =>
      have hnone : ¬((Call.poll).starts.isSome = true ∧ (step svc w .poll).1 = 0) :=
        fun hsome => by cases hsome.left
      rw [if_neg hnone]
      rcases platformInstallPoll_world svc w with hsame | htick
      · have htasks : (platformInstallPoll svc w).2.tasks = w.tasks := congrArg World.tasks hsame
        refine ⟨same_fine w (platformInstallPoll svc w).2 last rfl htasks _, ?_⟩
        change Orderly (platformInstallPoll svc w).2 last
        rw [hsame]
        exact h
      · have htasks : (platformInstallPoll svc w).2.tasks = w.tasks := by
          rw [htick]
          rfl
        refine ⟨same_fine w (platformInstallPoll svc w).2 last rfl htasks _, ?_⟩
        change Orderly (platformInstallPoll svc w).2 last
        rw [htick]
        exact h.untrack (List.Sublist.refl _) (Or.inr rfl)
  | close =>
      exact ⟨same_fine w (platformInstallClose w) last rfl rfl 0,
        h.untrack (List.Sublist.refl _) (Or.inl rfl)⟩
  | discard => exact discard_step h

end Step

theorem Reached.orderly {svc : Service} {w : World} {last : Option Nat} (h : Reached svc w last) :
    Orderly w last := by
  induction h with
  | initial h =>
      exact
        { numbered := h.numbered
          few := h.few
          tracked := by
            intro id hid
            rw [h.untracked] at hid
            cases hid }
  | called _ call hfits ih => exact (step_fine _ ih hfits).right

/-- Whatever the system answers, every call leaves the tasks in order. -/
theorem bgft_tasks {svc : Service} {w : World} {last : Option Nat} (h : Reached svc w last)
    {call : Call} (hfits : call.Fits) : CallFine w last call (step svc w call) :=
  (step_fine svc h.orderly hfits).left

/-- A system that finds the first task and numbers new ones from the largest number on. -/
def firstFound : Service where
  foregroundUser _ := some 1
  find _ tasks contentId subType := (tasks.find? (isFor contentId subType)).map Task.id
  find_some := by
    intro _ tasks contentId subType id h
    rcases Option.map_eq_some_iff.mp h with ⟨t, ht, hid⟩
    have hfor := List.find?_some ht
    rw [isFor, Bool.and_eq_true, beq_iff_eq, beq_iff_eq] at hfor
    exact ⟨t, List.mem_of_find?_eq_some ht, hfor.left, hfor.right, hid⟩
  find_none := by
    intro _ tasks contentId subType h t ht hcontent htype
    rw [Option.map_eq_none_iff, List.find?_eq_none] at h
    apply h t ht
    rw [isFor, hcontent, htype, beq_self_eq_true, beq_self_eq_true]
    rfl
  register _ tasks _ _ := Except.ok (.game, (tasks.map Task.id).sum + 1)
  register_code h := by cases h
  register_fresh := by
    intro _ tasks _ _ subType id h t ht
    cases h
    have hle := List.single_le_sum (fun n _ => Nat.zero_le n) t.id (List.mem_map_of_mem ht)
    exact Nat.ne_of_lt (Nat.lt_succ_of_le hle)
  startTask _ _ _ := 0
  getProgress _ _ _ := none

/-- A task that an add-on has left behind, and a task of another content. -/
def leftoverWorld : World where
  now := 7
  tasks := [⟨ascii "EP0102", .gameAc, 34, true, 1⟩, ⟨ascii "EP0103", .game, 51, true, 2⟩]
  ready := true
  taskId := none
  contentId := []

def costume : Request where
  uri := ascii "http://127.0.0.1:18841/stream/install/package-1-1.pkg"
  displayName := ascii "Leon Costume"
  titleName := none
  contentId := some (ascii "EP0102")
  pkgKind := some (ascii "dlc")
  category := some (ascii "ac")
  packageSize := 53608448

theorem leftoverWorld_initial : Initial leftoverWorld where
  numbered := by
    change [34, 51].Nodup
    decide
  few := fun contentId _ subType =>
    (List.length_filter_le (isFor contentId subType) leftoverWorld.tasks).trans (by decide)
  untracked := rfl

theorem leftover_removed :
    CallFine leftoverWorld none (.start costume)
      (step firstFound leftoverWorld (.start costume)) := by
  apply bgft_tasks (Reached.initial leftoverWorld_initial)
  intro contentId h
  cases h
  exact ⟨zeroFree_of_all rfl, by decide⟩

end Bgft
end PkgManager
